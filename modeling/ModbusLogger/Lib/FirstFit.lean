import Mathlib.Data.List.Perm.Basic
import Mathlib.Data.List.Count

/-!
# First fit

Items are offered to bins one bin after the other, and each bin takes all that it accepts of what is
left. An item may change when it is offered, but what decides about it, its key, does not; so the
keys are distributed by `assign`, in which nothing changes.
-/

namespace FirstFit

variable {β ι κ : Type*}

/-- What a bin takes, as the search leaves it. -/
def taken (find : ι → ι × Bool) (items : List ι) : List ι :=
  ((items.map find).filter fun r => r.2).map fun r => r.1

/-- What a bin leaves to the others. -/
def left (find : ι → ι × Bool) (items : List ι) : List ι :=
  ((items.map find).filter fun r => !r.2).map fun r => r.1

/-- The contents of the bins. -/
def fill (find : β → ι → ι × Bool) : List β → List ι → List (List ι)
  | [], _ => []
  | b :: bs, items => taken (find b) items :: fill find bs (left (find b) items)

/-- First fit on keys. -/
def assign (accepts : β → κ → Bool) : List β → List κ → List (List κ)
  | [], _ => []
  | b :: bs, keys =>
    keys.filter (accepts b) :: assign accepts bs (keys.filter fun c => !accepts b c)

/-- The search decides by the key alone and does not change it. `free` items are those that are
still offered. -/
structure Lawful (find : β → ι → ι × Bool) (key : ι → κ) (accepts : β → κ → Bool)
    (free : ι → Prop) : Prop where
  decides : ∀ b x, free x → (find b x).2 = accepts b (key x)
  key : ∀ b x, free x → key (find b x).1 = key x
  free : ∀ b x, free x → (find b x).2 = false → free (find b x).1

section Lawful

variable {find : β → ι → ι × Bool} {key : ι → κ} {accepts : β → κ → Bool} {free : ι → Prop}

theorem Lawful.taken_keys (hl : Lawful find key accepts free) (b : β) {items : List ι}
    (h : ∀ x ∈ items, free x) :
    (taken (find b) items).map key = (items.map key).filter (accepts b) := by
  induction items with
  | nil => rfl
  | cons x items ih =>
      have hx := h x List.mem_cons_self
      have hrest := ih fun y hy => h y (List.mem_cons_of_mem x hy)
      rw [taken] at hrest ⊢
      rw [List.map_cons, List.map_cons, List.filter_cons, List.filter_cons, hl.decides b x hx]
      cases accepts b (key x) with
      | true =>
          simp only [if_true, List.map_cons, hl.key b x hx]
          rw [hrest]
      | false =>
          simp only [Bool.false_eq_true, if_false]
          exact hrest

theorem Lawful.left_keys (hl : Lawful find key accepts free) (b : β) {items : List ι}
    (h : ∀ x ∈ items, free x) :
    (left (find b) items).map key = (items.map key).filter fun c => !accepts b c := by
  induction items with
  | nil => rfl
  | cons x items ih =>
      have hx := h x List.mem_cons_self
      have hrest := ih fun y hy => h y (List.mem_cons_of_mem x hy)
      rw [left] at hrest ⊢
      rw [List.map_cons, List.map_cons, List.filter_cons, List.filter_cons, hl.decides b x hx]
      cases accepts b (key x) with
      | true =>
          simp only [Bool.not_true, Bool.false_eq_true, if_false]
          exact hrest
      | false =>
          simp only [Bool.not_false, if_true, List.map_cons, hl.key b x hx]
          rw [hrest]

theorem Lawful.left_free (hl : Lawful find key accepts free) (b : β) {items : List ι}
    (h : ∀ x ∈ items, free x) : ∀ y ∈ left (find b) items, free y := by
  intro y hy
  rw [left, List.mem_map] at hy
  obtain ⟨r, hr, rfl⟩ := hy
  rw [List.mem_filter, List.mem_map, Bool.not_eq_true'] at hr
  obtain ⟨⟨x, hx, rfl⟩, hfalse⟩ := hr
  exact hl.free b x (h x hx) hfalse

/-- The keys go where `assign` puts them. -/
theorem Lawful.fill_keys (hl : Lawful find key accepts free) (bs : List β) {items : List ι}
    (h : ∀ x ∈ items, free x) :
    (fill find bs items).map (fun content => content.map key) =
      assign accepts bs (items.map key) := by
  induction bs generalizing items with
  | nil => rfl
  | cons b bs ih =>
      rw [fill, assign, List.map_cons, hl.taken_keys b h, ih (hl.left_free b h), hl.left_keys b h]

/-- What lies in a bin was found by the search in that bin. -/
theorem Lawful.fill_found (hl : Lawful find key accepts free) {bs : List β} {items : List ι}
    (h : ∀ x ∈ items, free x) {k : Nat} {b : β} {content : List ι} (hb : bs[k]? = some b)
    (hcontent : (fill find bs items)[k]? = some content) :
    ∀ y ∈ content, ∃ x, free x ∧ find b x = (y, true) := by
  induction bs generalizing items k with
  | nil => cases hb
  | cons b' bs ih =>
      cases k with
      | zero =>
          obtain rfl := Option.some.inj hb
          obtain rfl := Option.some.inj hcontent
          intro y hy
          rw [taken, List.mem_map] at hy
          obtain ⟨r, hr, rfl⟩ := hy
          rw [List.mem_filter, List.mem_map] at hr
          obtain ⟨⟨x, hx, rfl⟩, htrue⟩ := hr
          exact ⟨x, h x hx, Prod.ext rfl htrue⟩
      | succ k => exact ih (hl.left_free b' h) hb hcontent

/-- The second list lacks some of the items `out` of the first. -/
inductive Drops (out : ι → Prop) : List ι → List ι → Prop where
  | nil : Drops out [] []
  | keep {x items items'} : Drops out items items' → Drops out (x :: items) (x :: items')
  | drop {x items items'} : out x → Drops out items items' → Drops out (x :: items) items'

theorem Drops.mono {out out' : ι → Prop} {items items' : List ι} (h : Drops out items items')
    (hout : ∀ x, out x → out' x) : Drops out' items items' := by
  induction h with
  | nil => exact .nil
  | keep _ ih => exact .keep ih
  | drop hx _ ih => exact .drop (hout _ hx) ih

theorem Drops.sublist {out : ι → Prop} {items items' : List ι} (h : Drops out items items') :
    items'.Sublist items := by
  induction h with
  | nil => exact .slnil
  | keep _ ih => exact .cons_cons _ ih
  | drop _ _ ih => exact .cons _ ih

/-- Items that no bin accepts are in nobody's way. -/
theorem Lawful.fill_drops (hl : Lawful find key accepts free) {bs : List β} {items items' : List ι}
    (h : Drops (fun x => free x ∧ ∀ b ∈ bs, accepts b (key x) = false) items items') :
    fill find bs items = fill find bs items' := by
  induction bs generalizing items items' with
  | nil => rfl
  | cons b bs ih =>
      suffices hstep : taken (find b) items = taken (find b) items' ∧
          Drops (fun x => free x ∧ ∀ b ∈ bs, accepts b (key x) = false) (left (find b) items)
            (left (find b) items') by
        rw [fill, fill, hstep.1, ih hstep.2]
      induction h with
      | nil => exact ⟨rfl, .nil⟩
      | @keep x _ _ _ ih =>
          obtain ⟨htaken, hleft⟩ := ih
          unfold taken left at *
          rw [List.map_cons, List.map_cons, List.filter_cons, List.filter_cons, List.filter_cons,
            List.filter_cons]
          cases hx : (find b x).2 with
          | true => exact ⟨congrArg ((find b x).1 :: ·) htaken, hleft⟩
          | false => exact ⟨htaken, .keep hleft⟩
      | @drop x _ _ hout _ ih =>
          obtain ⟨hfree, hnone⟩ := hout
          obtain ⟨htaken, hleft⟩ := ih
          have hx : (find b x).2 = false := by
            rw [hl.decides b x hfree]
            exact hnone b List.mem_cons_self
          unfold taken left at *
          rw [List.map_cons, List.filter_cons, List.filter_cons, hx]
          refine ⟨htaken, .drop ⟨hl.free b x hfree hx, fun b' hb' => ?_⟩ hleft⟩
          rw [hl.key b x hfree]
          exact hnone b' (List.mem_cons_of_mem b hb')

end Lawful

@[simp] theorem length_fill (find : β → ι → ι × Bool) (bs : List β) (items : List ι) :
    (fill find bs items).length = bs.length := by
  induction bs generalizing items with
  | nil => rfl
  | cons b bs ih => rw [fill, List.length_cons, ih, List.length_cons]

section Assign

variable (accepts : β → κ → Bool)

/-- All copies of a key go to the first bin that accepts it. -/
theorem count_assign [DecidableEq κ] (bs : List β) (keys : List κ) (c : κ) (k : Nat) :
    (((assign accepts bs keys)[k]?).getD []).count c =
      if bs.findIdx? (fun b => accepts b c) = some k then keys.count c else 0 := by
  induction bs generalizing keys k with
  | nil => simp [assign]
  | cons b bs ih =>
      rw [assign, List.findIdx?_cons]
      cases hb : accepts b c with
      | true =>
          cases k with
          | zero => simp [List.count_filter, hb]
          | succ k =>
              have hzero : (keys.filter fun c => !accepts b c).count c = 0 := by
                rw [List.count_eq_zero, List.mem_filter]
                simp [hb]
              have hrest := ih (keys.filter fun c => !accepts b c) k
              rw [hzero, ite_self] at hrest
              simpa using hrest
      | false =>
          cases k with
          | zero =>
              have hnot : c ∉ keys.filter (accepts b) := by simp [List.mem_filter, hb]
              simp [List.count_eq_zero.mpr hnot]
          | succ k =>
              have hcount : (keys.filter fun c => !accepts b c).count c = keys.count c :=
                List.count_filter (by simp [hb])
              have hrest := ih (keys.filter fun c => !accepts b c) k
              rw [hcount] at hrest
              simpa using hrest

/-- Together the bins have what some bin accepts. -/
theorem assign_flatten_perm (bs : List β) (keys : List κ) :
    (assign accepts bs keys).flatten.Perm (keys.filter fun c => bs.any fun b => accepts b c) := by
  induction bs generalizing keys with
  | nil => simp [assign]
  | cons b bs ih =>
      rw [assign, List.flatten_cons]
      have hsplit := List.filter_append_perm (accepts b)
        (keys.filter fun c => (b :: bs).any fun b => accepts b c)
      have hyes : (keys.filter fun c => (b :: bs).any fun b => accepts b c).filter (accepts b) =
          keys.filter (accepts b) := by
        rw [List.filter_filter]
        congr 1
        funext c
        cases hc : accepts b c <;> simp [hc]
      have hno : (keys.filter fun c => (b :: bs).any fun b => accepts b c).filter
          (fun c => !accepts b c) =
            (keys.filter fun c => !accepts b c).filter fun c => bs.any fun b => accepts b c := by
        rw [List.filter_filter, List.filter_filter]
        congr 1
        funext c
        cases hc : accepts b c <;> simp [hc]
      rw [hyes, hno] at hsplit
      exact ((ih _).append_left _).trans hsplit

end Assign

end FirstFit
