import Mathlib.Logic.Function.Iterate

/-!
# Iterating a step

What a deterministic system comes to when it takes its step again and again. A property that a step
carries back is carried back by all steps; a state with a variant that each step lowers is left for
good.
-/

namespace Iteration

variable {σ : Type*} {step : σ → σ} {P Q : σ → Prop} {s : σ}

/-- Some number of steps leads to `P`. -/
def Reaches (step : σ → σ) (P : σ → Prop) (s : σ) : Prop := ∃ n, P (step^[n] s)

theorem Reaches.now (h : P s) : Reaches step P s := ⟨0, h⟩

theorem Reaches.later (h : Reaches step P (step s)) : Reaches step P s := by
  obtain ⟨n, hn⟩ := h
  exact ⟨n + 1, by rwa [Function.iterate_succ_apply]⟩

/-- What holds where `P` does, and before a step if it holds after it, holds at the start. -/
theorem Reaches.backward (h : Reaches step P s) (hend : ∀ s, P s → Q s)
    (hback : ∀ s, Q (step s) → Q s) : Q s := by
  obtain ⟨n, hn⟩ := h
  induction n generalizing s with
  | zero => exact hend s hn
  | succ n ih =>
      rw [Function.iterate_succ_apply] at hn
      exact hback s (ih hn)

/-- **Variant rule.** Every state with a value is in `P`, or its step lowers the value. -/
theorem reaches_of_variant {I : Nat → σ → Prop}
    (hstep : ∀ n s, I n s → P s ∨ ∃ m < n, I m (step s)) {n : Nat} (h : I n s) :
    Reaches step P s := by
  induction n using Nat.strongRecOn generalizing s with
  | ind n ih =>
      rcases hstep n s h with hp | ⟨m, hm, hI⟩
      · exact .now hp
      · exact .later (ih m hm hI)

/-- A property that steps keep. -/
theorem iterate_keeps (hP : ∀ s, P s → P (step s)) (h : P s) (n : Nat) : P (step^[n] s) := by
  induction n generalizing s with
  | zero => exact h
  | succ n ih =>
      rw [Function.iterate_succ_apply]
      exact ih (hP s h)

/-- Two ends that exclude each other are not both reached. -/
theorem Reaches.not_reaches (h : Reaches step P s) (hP : ∀ s, P s → P (step s))
    (hQ : ∀ s, Q s → Q (step s)) (hne : ∀ s, P s → ¬Q s) : ¬Reaches step Q s := by
  rintro ⟨m, hm⟩
  obtain ⟨n, hn⟩ := h
  have hboth : step^[m] (step^[n] s) = step^[n] (step^[m] s) := by
    rw [← Function.iterate_add_apply, ← Function.iterate_add_apply, Nat.add_comm]
  have hp := iterate_keeps hP hn m
  rw [hboth] at hp
  exact hne _ hp (iterate_keeps hQ hm n)

end Iteration
