import Mathlib.Data.List.Induction
import Mathlib.Data.List.Nodup
import Mathlib.Logic.Function.Basic

/-!
# A replica kept by a snapshot and changes

A store maps keys to states, and a replica of it is built from changes alone, the latest change of a
key winning. `Mirrors` says that a replica shows the store on the keys it subscribes to, through a
rendering of the states, and nothing else. Changes of the store that are passed on keep it, and so do
changes of keys without subscription; a list of all entries, in any order, establishes it.
-/

namespace Replica

variable {K V W : Type*} [DecidableEq K]

/-- One change. -/
def change (seen : K → Option W) (key : K) (state : W) : K → Option W :=
  Function.update seen key (some state)

/-- Changes in order. -/
def apply (seen : K → Option W) (changes : List (K × W)) : K → Option W :=
  changes.foldl (fun seen c => change seen c.1 c.2) seen

@[simp] theorem apply_nil (seen : K → Option W) : apply seen [] = seen := rfl

theorem apply_append (seen : K → Option W) (changes changes' : List (K × W)) :
    apply seen (changes ++ changes') = apply (apply seen changes) changes' := List.foldl_append

theorem apply_concat (seen : K → Option W) (changes : List (K × W)) (key : K) (state : W) :
    apply seen (changes ++ [(key, state)]) = change (apply seen changes) key state := by
  rw [apply_append]
  rfl

/-- Changes of distinct keys. -/
theorem apply_eq_some_iff {changes : List (K × W)} (hkeys : (changes.map Prod.fst).Nodup) {k : K}
    {w : W} : apply (fun _ => none) changes k = some w ↔ (k, w) ∈ changes := by
  induction changes using List.reverseRecOn with
  | nil => simp
  | append_singleton changes c ih =>
      obtain ⟨key, state⟩ := c
      rw [List.map_append, List.nodup_append] at hkeys
      obtain ⟨hkeys, -, hfresh⟩ := hkeys
      rw [apply_concat, change, List.mem_append, List.mem_singleton, Prod.mk.injEq]
      by_cases hk : k = key
      · subst hk
        have hnot : (k, w) ∉ changes := fun hmem =>
          hfresh k (List.mem_map_of_mem hmem) k (List.mem_singleton_self k) rfl
        rw [Function.update_self, Option.some.injEq]
        simp [hnot, eq_comm]
      · rw [Function.update_of_ne hk, ih hkeys]
        simp [hk]

/-- The replica shows the states of the store at the subscribed keys. -/
def Mirrors (subscribed : K → Bool) (render : V → W) (stored : K → Option V)
    (seen : K → Option W) : Prop :=
  ∀ k, seen k = if subscribed k then (stored k).map render else none

namespace Mirrors

variable {subscribed : K → Bool} {render : V → W} {stored : K → Option V} {seen : K → Option W}

/-- A change that is passed on. -/
theorem passed (h : Mirrors subscribed render stored seen) {key : K}
    (hkey : subscribed key = true) (state : V) :
    Mirrors subscribed render (Function.update stored key (some state))
      (change seen key (render state)) := by
  intro k
  by_cases hk : k = key
  · subst hk
    rw [change, Function.update_self, Function.update_self, if_pos hkey]
    rfl
  · rw [change, Function.update_of_ne hk, Function.update_of_ne hk]
    exact h k

/-- A change of a key without subscription. -/
theorem ignored (h : Mirrors subscribed render stored seen) {key : K}
    (hkey : subscribed key = false) (state : V) :
    Mirrors subscribed render (Function.update stored key (some state)) seen := by
  intro k
  by_cases hk : k = key
  · subst hk
    rw [h k, hkey]
    rfl
  · rw [Function.update_of_ne hk]
    exact h k

/-- The snapshot: the subscribed entries of the store, in any order. -/
theorem snapshot {entries : List (K × V)} (hkeys : (entries.map Prod.fst).Nodup)
    (hentries : ∀ k v, (k, v) ∈ entries ↔ stored k = some v) :
    Mirrors subscribed render stored
      (apply (fun _ => none) ((entries.filter fun e => subscribed e.1).map fun e =>
        (e.1, render e.2))) := by
  have hdistinct : (((entries.filter fun e => subscribed e.1).map fun e =>
      (e.1, render e.2)).map Prod.fst).Nodup := by
    rw [List.map_map]
    exact hkeys.sublist (List.filter_sublist.map Prod.fst)
  intro k
  apply Option.ext
  intro w
  rw [apply_eq_some_iff hdistinct, List.mem_map]
  constructor
  · rintro ⟨⟨key, v⟩, hmem, heq⟩
    obtain ⟨rfl, rfl⟩ := Prod.mk.inj heq
    obtain ⟨hmem, hsubscribed⟩ := List.mem_filter.mp hmem
    rw [if_pos hsubscribed, (hentries key v).mp hmem]
    rfl
  · intro hseen
    obtain ⟨hsubscribed, hseen⟩ := Option.ite_none_right_eq_some.mp hseen
    obtain ⟨v, hv, rfl⟩ := Option.map_eq_some_iff.mp hseen
    exact ⟨(k, v), List.mem_filter.mpr ⟨(hentries k v).mpr hv, hsubscribed⟩, rfl⟩

end Mirrors

/-! ## A store that is kept by changes -/

/-- The latest state of each key. -/
def latest (changes : List (K × V)) : K → Option V := apply (fun _ => none) changes

/-- The store has the latest states, or others that stand for them. -/
def Tracks (R : V → V → Prop) (stored : K → Option V) (changes : List (K × V)) : Prop :=
  ∀ k, Option.Rel R (stored k) (latest changes k)

/-- The latest states of the subscribed keys are seen, or others that stand for them, and nothing
else. -/
def Presents (R : V → V → Prop) (subscribed : K → Bool) (render : V → W) (changes : List (K × V))
    (seen : K → Option W) : Prop :=
  ∀ k, Option.Rel (fun w v => ∃ x, R x v ∧ w = render x) (seen k)
    (if subscribed k then latest changes k else none)

section Stores

variable {R : V → V → Prop} {stored : K → Option V} {changes : List (K × V)}

theorem tracks_nil : Tracks (K := K) R (fun _ => none) [] := fun _ => .none

theorem Tracks.insert (h : Tracks R stored changes) (key : K) {state : V} (hstate : R state state) :
    Tracks R (Function.update stored key (some state)) (changes ++ [(key, state)]) := by
  intro k
  rw [latest, apply_concat, change]
  by_cases hk : k = key
  · subst hk
    rw [Function.update_self, Function.update_self]
    exact .some hstate
  · rw [Function.update_of_ne hk, Function.update_of_ne hk]
    exact h k

/-- A state that stands for the new one already. -/
theorem Tracks.keep (h : Tracks R stored changes) {key : K} {old state : V}
    (hold : stored key = some old) (hstate : R old state) :
    Tracks R stored (changes ++ [(key, state)]) := by
  intro k
  rw [latest, apply_concat, change]
  by_cases hk : k = key
  · subst hk
    rw [Function.update_self, hold]
    exact .some hstate
  · rw [Function.update_of_ne hk]
    exact h k

theorem Mirrors.presents {subscribed : K → Bool} {render : V → W} {seen : K → Option W}
    (h : Mirrors subscribed render stored seen) (htracks : Tracks R stored changes) :
    Presents R subscribed render changes seen := by
  intro k
  have hk := htracks k
  rw [h k]
  split
  · generalize stored k = state, latest changes k = last at hk ⊢
    cases hk with
    | none => exact .none
    | some hR => exact .some ⟨_, hR, rfl⟩
  · exact .none

/-- Where states stand for themselves only. -/
theorem Presents.eq {subscribed : K → Bool} {seen : K → Option V}
    (h : Presents Eq subscribed id changes seen) (k : K) :
    seen k = if subscribed k then latest changes k else none := by
  have hk := h k
  generalize seen k = told, (if subscribed k then latest changes k else none) = shown at hk ⊢
  cases hk with
  | none => rfl
  | some hR =>
      obtain ⟨x, rfl, rfl⟩ := hR
      rfl

end Stores

end Replica
