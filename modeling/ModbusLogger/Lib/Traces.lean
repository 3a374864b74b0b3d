import Mathlib.Data.List.Induction

/-!
# Traces

A system whose steps say what they exchange with the rest of the world, a list of events each. A path
is a run with all that it exchanges. `Path.simulation` is forward simulation: if each step of another
machine, which reads inputs one by one, is matched by a path, then each of its runs is.
-/

namespace Traces

variable {σ ε κ ι : Type*}

/-- A run, with all that it exchanges. -/
inductive Path (step : σ → List ε → σ → Prop) : σ → List ε → σ → Prop
  | refl (s : σ) : Path step s [] s
  | cons {s t u : σ} {τ υ : List ε} : step s τ t → Path step t υ u → Path step s (τ ++ υ) u

namespace Path

variable {step : σ → List ε → σ → Prop} {s t u : σ} {τ υ : List ε}

theorem single (h : step s τ t) : Path step s τ t := by
  have hpath : Path step s (τ ++ []) t := .cons h (.refl t)
  rwa [List.append_nil] at hpath

theorem trans (h : Path step s τ t) (h' : Path step t υ u) : Path step s (τ ++ υ) u := by
  induction h with
  | refl s => exact h'
  | cons hstep _ ih =>
      rw [List.append_assoc]
      exact .cons hstep (ih h')

/-- **Forward simulation.** What relates a machine after some inputs to a state after some trace, and
can be kept by a path whenever the machine takes a step, relates the end of each run to the end of a
path. -/
theorem simulation {conc : κ → ι → Option κ} {R : List ι → κ → List ε → σ → Prop}
    (hstep : ∀ is c τ s i c', R is c τ s → conc c i = some c' →
      ∃ υ t, Path step s υ t ∧ R (is ++ [i]) c' (τ ++ υ) t)
    {c c' : κ} (hstart : R [] c [] s) {is : List ι} (hrun : is.foldlM conc c = some c') :
    ∃ τ t, Path step s τ t ∧ R is c' τ t := by
  induction is using List.reverseRecOn generalizing c' with
  | nil =>
      obtain rfl := Option.some.inj hrun
      exact ⟨[], s, .refl s, hstart⟩
  | append_singleton is i ih =>
      rw [List.foldlM_append] at hrun
      obtain ⟨a, ha, hlast⟩ := Option.bind_eq_some_iff.mp hrun
      obtain ⟨b, hb, hlast⟩ := Option.bind_eq_some_iff.mp hlast
      obtain rfl := Option.some.inj hlast
      obtain ⟨τ, t, hpath, hrelated⟩ := ih ha
      obtain ⟨υ, u, hpath', hrelated'⟩ := hstep is a τ t i b hrelated hb
      exact ⟨τ ++ υ, u, hpath.trans hpath', hrelated'⟩

end Path

end Traces
