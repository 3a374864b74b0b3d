import Mathlib.Data.List.Induction

/-!
# Executions

A system that takes one action after the other. If an action keeps a property of the state exactly
under some condition, then an execution keeps it exactly if all its actions meet the condition.
-/

namespace Execution

variable {σ A : Type*} (step : σ → A → σ) (s : σ)

/-- The state after some actions. -/
def after (actions : List A) : σ := actions.foldl step s

@[simp] theorem after_nil : after step s [] = s := rfl

theorem after_concat (actions : List A) (a : A) :
    after step s (actions ++ [a]) = step (after step s actions) a :=
  List.foldl_append

/-- Each action of an execution meets `G` where it is taken. -/
def Meets (G : σ → A → Prop) (actions : List A) : Prop :=
  ∀ pre a post, actions = pre ++ a :: post → G (after step s pre) a

/-- `I` holds all the way. -/
def Always (I : σ → Prop) (actions : List A) : Prop :=
  ∀ pre post, actions = pre ++ post → I (after step s pre)

variable {step s} {G : σ → A → Prop} {I : σ → Prop} {actions : List A} {a : A}

theorem Meets.init (h : Meets step s G (actions ++ [a])) : Meets step s G actions := by
  rintro pre b post rfl
  exact h pre b (post ++ [a]) (by simp)

theorem Meets.last (h : Meets step s G (actions ++ [a])) : G (after step s actions) a :=
  h actions a [] rfl

theorem meets_nil : Meets step s G [] :=
  fun pre a post h => absurd h (by simp)

theorem meets_cons : Meets step s G (a :: actions) ↔ G s a ∧ Meets step (step s a) G actions := by
  constructor
  · intro h
    refine ⟨h [] a actions rfl, ?_⟩
    rintro pre b post rfl
    exact h (a :: pre) b post rfl
  · rintro ⟨hfirst, hrest⟩ pre b post heq
    cases pre with
    | nil =>
        cases heq
        exact hfirst
    | cons a' pre =>
        cases heq
        exact hrest pre b post rfl

instance decidableMeets [∀ s a, Decidable (G s a)] :
    ∀ (s : σ) (actions : List A), Decidable (Meets step s G actions)
  | _, [] => isTrue meets_nil
  | s, a :: actions =>
    have := decidableMeets (step s a) actions
    decidable_of_iff _ meets_cons.symm

/-- What an action keeps under `G`, an execution keeps if its actions meet `G`. -/
theorem Meets.invariant (h : Meets step s G actions) (hs : I s)
    (hstep : ∀ s a, I s → G s a → I (step s a)) : I (after step s actions) := by
  induction actions using List.reverseRecOn with
  | nil => exact hs
  | append_singleton actions a ih =>
      rw [after_concat]
      exact hstep _ a (ih h.init) h.last

/-- Only the actions of the execution matter. -/
theorem always_iff_meets_of {P : A → Prop} (hactions : ∀ a ∈ actions, P a) (hs : I s)
    (hstep : ∀ s a, P a → I s → (I (step s a) ↔ G s a)) :
    Always step s I actions ↔ Meets step s G actions := by
  constructor
  · rintro h pre a post rfl
    have hbefore : I (after step s pre) := h pre (a :: post) rfl
    have hafter : I (after step s (pre ++ [a])) := h _ post (by simp)
    rw [after_concat] at hafter
    exact (hstep _ a (hactions a (by simp)) hbefore).mp hafter
  · rintro h pre post rfl
    have hpre : Meets step s (fun s a => P a ∧ G s a) pre := by
      rintro pre' a post' rfl
      exact ⟨hactions a (by simp), h pre' a (post' ++ post) (by simp)⟩
    exact hpre.invariant hs fun s a hI hG => (hstep s a hG.1 hI).mpr hG.2

theorem always_iff_meets (hs : I s) (hstep : ∀ s a, I s → (I (step s a) ↔ G s a)) :
    Always step s I actions ↔ Meets step s G actions :=
  always_iff_meets_of (P := fun _ => True) (fun _ _ => trivial) hs fun s a _ => hstep s a

/-! ## Observers -/

section Observers

variable {N : Type*} (step) (note : σ → σ → A → N → N)

/-- A system with the notes of an observer, who sees each action with the states before and after. -/
def observed (x : σ × N) (a : A) : σ × N := (step x.1 a, note x.1 (step x.1 a) a x.2)

/-- An observer changes nothing. -/
theorem after_observed_fst (x : σ × N) (actions : List A) :
    (after (observed step note) x actions).1 = after step x.1 actions := by
  induction actions generalizing x with
  | nil => rfl
  | cons a actions ih => exact ih (observed step note x a)

end Observers

end Execution
