import Mathlib.Tactic.Common

/-!
# Loops that ask until an answer is good

Each turn takes the next answer of a stream. It leaves the loop with a result, or the loop goes on.
There need not be a bound on the turns, so the loop is run for a number of them; it returns if some
number is enough.
-/

namespace Retry

inductive Turn (β σ : Type*) where
  | leave (result : β)
  | again (s : σ)

variable {α β σ : Type*} (turn : σ → α → Turn β σ)

/-- The loop, for a number of turns. -/
def within : Nat → (Nat → α) → σ → Option β
  | 0, _, _ => none
  | n + 1, answers, s =>
    match turn s (answers 0) with
    | .leave result => some result
    | .again s => within n (fun i => answers (i + 1)) s

/-- The state after a number of turns, if none of them leaves the loop. -/
def after : Nat → (Nat → α) → σ → Option σ
  | 0, _, s => some s
  | n + 1, answers, s =>
    match turn s (answers 0) with
    | .leave _ => none
    | .again s => after n (fun i => answers (i + 1)) s

def Returns (answers : Nat → α) (s : σ) : Prop := ∃ n, (within turn n answers s).isSome

variable {turn} {answers : Nat → α} {s s' : σ} {n m : Nat} {result : β}

@[simp] theorem within_zero : within turn 0 answers s = none := rfl

@[simp] theorem after_zero : after turn 0 answers s = some s := rfl

theorem within_leave (h : turn s (answers 0) = .leave result) :
    within turn (n + 1) answers s = some result := by
  rw [within, h]

theorem within_again (h : turn s (answers 0) = .again s') :
    within turn (n + 1) answers s = within turn n (fun i => answers (i + 1)) s' := by
  rw [within, h]

theorem after_again (h : turn s (answers 0) = .again s') :
    after turn (n + 1) answers s = after turn n (fun i => answers (i + 1)) s' := by
  rw [after, h]

/-- More turns do not change the result. -/
theorem within_mono (h : within turn n answers s = some result) (hle : n ≤ m) :
    within turn m answers s = some result := by
  induction n generalizing m answers s with
  | zero => cases h
  | succ n ih =>
      obtain ⟨m, rfl⟩ : ∃ k, m = k + 1 := ⟨m - 1, by omega⟩
      cases hturn : turn s (answers 0) with
      | leave r =>
          rw [within_leave hturn] at h ⊢
          exact h
      | again s' =>
          rw [within_again hturn] at h ⊢
          exact ih h (by omega)

/-- The turn after those that do not leave the loop gives the result. -/
theorem within_of_after (hafter : after turn n answers s = some s')
    (hleave : turn s' (answers n) = .leave result) :
    within turn (n + 1) answers s = some result := by
  induction n generalizing answers s with
  | zero =>
      obtain rfl := Option.some.inj hafter
      exact within_leave hleave
  | succ n ih =>
      cases hturn : turn s (answers 0) with
      | leave r =>
          rw [after, hturn] at hafter
          cases hafter
      | again s'' =>
          rw [after_again hturn] at hafter
          rw [within_again hturn]
          exact ih hafter hleave

/-- **Invariant rule.** What a turn that goes on keeps, with the number of turns so far. -/
theorem after_invariant {I : Nat → σ → Prop} (hstep : ∀ n s a s', I n s → turn s a = .again s' →
    I (n + 1) s') {k : Nat} (h : I k s) (hafter : after turn n answers s = some s') :
    I (k + n) s' := by
  induction n generalizing answers s k with
  | zero =>
      obtain rfl := Option.some.inj hafter
      exact h
  | succ n ih =>
      cases hturn : turn s (answers 0) with
      | leave r =>
          rw [after, hturn] at hafter
          cases hafter
      | again s'' =>
          rw [after_again hturn] at hafter
          have hnext := ih (hstep k s (answers 0) s'' h hturn) hafter
          rwa [Nat.add_right_comm, Nat.add_assoc] at hnext

/-- What every turn that leaves the loop gives. -/
theorem within_result {Q : β → Prop} (hleave : ∀ s k r, turn s (answers k) = .leave r → Q r)
    (h : within turn n answers s = some result) : Q result := by
  induction n generalizing answers s with
  | zero => cases h
  | succ n ih =>
      cases hturn : turn s (answers 0) with
      | leave r =>
          rw [within_leave hturn] at h
          obtain rfl := Option.some.inj h
          exact hleave s 0 r hturn
      | again s' =>
          rw [within_again hturn] at h
          exact ih (fun s k => hleave s (k + 1)) h

section Accepts

/-! ### If the answer alone decides -/

variable {Accepts : α → Prop}

theorem within_isSome_iff
    (hturn : ∀ s k, (∃ result, turn s (answers k) = .leave result) ↔ Accepts (answers k)) :
    (within turn n answers s).isSome ↔ ∃ k < n, Accepts (answers k) := by
  induction n generalizing answers s with
  | zero => simp
  | succ n ih =>
      rw [Nat.exists_lt_succ_left, ← hturn s]
      cases h : turn s (answers 0) with
      | leave r => simp [within_leave h]
      | again s' => simp [within_again h, ih fun s k => hturn s (k + 1)]

theorem returns_iff_exists
    (hturn : ∀ s k, (∃ result, turn s (answers k) = .leave result) ↔ Accepts (answers k)) :
    Returns turn answers s ↔ ∃ k, Accepts (answers k) := by
  simp only [Returns, within_isSome_iff hturn]
  constructor
  · rintro ⟨n, k, -, hk⟩
    exact ⟨k, hk⟩
  · rintro ⟨k, hk⟩
    exact ⟨k + 1, k, Nat.lt_succ_self k, hk⟩

theorem after_isSome
    (hturn : ∀ s k, (∃ result, turn s (answers k) = .leave result) ↔ Accepts (answers k))
    (h : ∀ k < n, ¬Accepts (answers k)) : ∃ s', after turn n answers s = some s' := by
  induction n generalizing answers s with
  | zero => exact ⟨s, rfl⟩
  | succ n ih =>
      cases hfirst : turn s (answers 0) with
      | leave r => exact absurd ((hturn s 0).mp ⟨r, hfirst⟩) (h 0 (Nat.succ_pos n))
      | again s' =>
          rw [after_again hfirst]
          exact ih (fun s k => hturn s (k + 1)) fun k hk => h (k + 1) (Nat.succ_lt_succ hk)

end Accepts

end Retry
