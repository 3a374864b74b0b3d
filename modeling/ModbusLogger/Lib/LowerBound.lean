import Mathlib.Data.List.Basic

/-!
# Binary search for a partition point

`search p left right` halves the interval until it is empty. When `p` holds up to some point and
fails from there on, the search finds that point. `IsPartition p l r` says the same of a list: `p`
holds of exactly the first `r` elements, so filtering by `p` is taking them.
-/

namespace LowerBound

/-- The first index in `[left, right)` at which `p` fails, for `p` that fails from there on. -/
def search (p : Nat → Bool) (left right : Nat) : Nat :=
  if left < right then
    if p (left + (right - left) / 2) then search p (left + (right - left) / 2 + 1) right
    else search p left (left + (right - left) / 2)
  else left
termination_by right - left

/-- `p` holds of exactly the first `r` elements. -/
def IsPartition {α : Type*} (p : α → Bool) (l : List α) (r : Nat) : Prop :=
  r ≤ l.length ∧ ∀ i (h : i < l.length), p l[i] = true ↔ i < r

theorem le_search (p : Nat → Bool) (left right : Nat) (h : left ≤ right) :
    left ≤ search p left right ∧ search p left right ≤ right := by
  fun_induction search p left right with
  | case1 left right hlt _ ih =>
      have := ih (by omega)
      grind
  | case2 left right hlt _ ih =>
      have := ih (by omega)
      grind
  | case3 left right _ => omega

/-- Whatever `p` and `q` are elsewhere: the search for the weaker one does not end earlier. -/
theorem search_mono {p q : Nat → Bool} (hpq : ∀ i, p i = true → q i = true) {left right : Nat}
    (h : left ≤ right) : search p left right ≤ search q left right := by
  fun_induction search p left right with
  | case1 left right hlt hmid ih =>
      rw [search.eq_1 q, if_pos hlt, if_pos (hpq _ hmid)]
      exact ih (by omega)
  | case2 left right hlt hmid ih =>
      rw [search.eq_1 q, if_pos hlt]
      split
      · -- the searches part here
        have hp := le_search p left (left + (right - left) / 2) (by omega)
        have hq := le_search q (left + (right - left) / 2 + 1) right (by omega)
        omega
      · exact ih (by omega)
  | case3 left right hnot => exact (le_search q left right h).1

/-- The search finds the point where `p` changes. -/
theorem search_spec {p : Nat → Bool} {left right : Nat} (h : left ≤ right)
    (hp : ∀ i j, left ≤ i → i ≤ j → j < right → p j = true → p i = true) :
    ∀ i, left ≤ i → i < right → (p i = true ↔ i < search p left right) := by
  fun_induction search p left right with
  | case1 left right hlt hmid ih =>
      intro i hi hir
      have hle := le_search p (left + (right - left) / 2 + 1) right (by omega)
      by_cases hleft : i ≤ left + (right - left) / 2
      · refine ⟨fun _ => by omega, fun _ => ?_⟩
        exact hp i _ hi hleft (by omega) hmid
      · exact ih (by omega) (fun i j hi hij hj => hp i j (by omega) hij hj) i (by omega) hir
  | case2 left right hlt hmid ih =>
      intro i hi hir
      have hle := le_search p left (left + (right - left) / 2) (by omega)
      by_cases hright : left + (right - left) / 2 ≤ i
      · refine ⟨fun hpi => absurd (hp _ i (by omega) hright hir hpi) hmid, fun _ => by omega⟩
      · exact ih (by omega) (fun i j hi hij hj => hp i j hi hij (by omega)) i hi (by omega)
  | case3 left right hnot => intro i _ _; omega

section Partition

variable {α : Type*} {p : α → Bool} {l : List α} {r : Nat}

theorem IsPartition.filter (h : IsPartition p l r) : l.filter p = l.take r := by
  have htake : (l.take r).filter p = l.take r := by
    rw [List.filter_eq_self]
    intro x hx
    obtain ⟨i, hi, rfl⟩ := List.mem_iff_getElem.mp hx
    rw [List.getElem_take]
    rw [List.length_take] at hi
    exact (h.2 i (by omega)).mpr (by omega)
  have hdrop : (l.drop r).filter p = [] := by
    rw [List.filter_eq_nil_iff]
    intro x hx
    obtain ⟨i, hi, rfl⟩ := List.mem_iff_getElem.mp hx
    rw [List.length_drop] at hi
    rw [List.getElem_drop, h.2 (r + i) (by omega)]
    grind
  calc l.filter p = (l.take r ++ l.drop r).filter p := by rw [List.take_append_drop]
    _ = l.take r := by rw [List.filter_append, htake, hdrop, List.append_nil]

theorem IsPartition.filter_not (h : IsPartition p l r) :
    l.filter (fun x => !p x) = l.drop r := by
  have htake : (l.take r).filter (fun x => !p x) = [] := by
    rw [List.filter_eq_nil_iff]
    intro x hx
    obtain ⟨i, hi, rfl⟩ := List.mem_iff_getElem.mp hx
    rw [List.length_take] at hi
    rw [List.getElem_take, (h.2 i (by omega)).mpr (by omega)]
    decide
  have hdrop : (l.drop r).filter (fun x => !p x) = l.drop r := by
    rw [List.filter_eq_self]
    intro x hx
    obtain ⟨i, hi, rfl⟩ := List.mem_iff_getElem.mp hx
    rw [List.length_drop] at hi
    rw [List.getElem_drop, Bool.not_eq_true', ← Bool.not_eq_true, h.2 (r + i) (by omega)]
    grind
  calc l.filter (fun x => !p x) = (l.take r ++ l.drop r).filter (fun x => !p x) := by
        rw [List.take_append_drop]
    _ = l.drop r := by rw [List.filter_append, htake, hdrop, List.nil_append]

/-- The elements on which `q` holds but not yet `p` lie between the two partition points. -/
theorem IsPartition.filter_between {q : α → Bool} {s : Nat} (hp : IsPartition p l r)
    (hq : IsPartition q l s) (hpq : ∀ x, p x = true → q x = true) :
    l.filter (fun x => !p x && q x) = (l.drop r).take (s - r) ∧ r ≤ s := by
  have hle : r ≤ s := by
    by_contra hlt
    have hlen := hp.1
    have hps := (hp.2 s (by omega)).mpr (by omega)
    have hqs := (hq.2 s (by omega)).mp (hpq _ hps)
    grind
  refine ⟨?_, hle⟩
  have hrest : IsPartition q (l.drop r) (s - r) := by
    refine ⟨by have := hq.1; rw [List.length_drop]; omega, fun i hi => ?_⟩
    rw [List.length_drop] at hi
    rw [List.getElem_drop, hq.2 (r + i) (by omega)]
    grind
  calc l.filter (fun x => !p x && q x)
      = (l.filter fun x => !p x).filter q := by
        rw [List.filter_filter]
        congr 1
        funext x
        exact Bool.and_comm _ _
    _ = (l.drop r).filter q := by rw [hp.filter_not]
    _ = (l.drop r).take (s - r) := hrest.filter

end Partition

end LowerBound
