import Mathlib.Data.List.Perm.Basic
import Mathlib.Data.List.Nodup
import Std.Data.HashMap

/-!
# Rows that a hash map collects by key

The value of a row is pushed to the list of its key, and then the lists are taken out, key by key. With
different keys each of them gives the part of the rows that has it, in their order; with all keys of the
rows these parts make up the rows.
-/

namespace Partition

variable {K V R S : Type*} [DecidableEq K] [Hashable K]

/-- `entry(key).or_default().push(value)` -/
def push (m : Std.HashMap K (List V)) (key : K) (value : V) : Std.HashMap K (List V) :=
  m.insert key (m.getD key [] ++ [value])

def collect (key : R → K) (value : R → V) (m : Std.HashMap K (List V)) (rows : List R) :
    Std.HashMap K (List V) :=
  rows.foldl (fun m r => push m (key r) (value r)) m

/-- `remove(key).unwrap_or_default()`, for one after the other. -/
def takeOut (key : S → K) : List S → Std.HashMap K (List V) → List (S × List V)
  | [], _ => []
  | s :: rest, m => (s, m.getD (key s) []) :: takeOut key rest (m.erase (key s))

variable {m : Std.HashMap K (List V)} {key : R → K} {value : R → V}

theorem getD_push (k k' : K) (v : V) :
    (push m k v).getD k' [] = if k = k' then m.getD k' [] ++ [v] else m.getD k' [] := by
  unfold push
  rw [Std.HashMap.getD_insert]
  by_cases h : k = k'
  · subst h
    simp
  · simp [h]

/-- The list of a key grows by the values of its rows. -/
theorem getD_collect (rows : List R) (k : K) :
    (collect key value m rows).getD k [] =
      m.getD k [] ++ (rows.filter fun r => key r = k).map value := by
  induction rows generalizing m with
  | nil => simp [collect]
  | cons r rows ih =>
      have hstep : collect key value m (r :: rows) =
          collect key value (push m (key r) (value r)) rows := rfl
      rw [hstep, ih, getD_push]
      by_cases h : key r = k
      · simp [h]
      · simp [h]

/-- What is removed for one key is not missing for another. -/
theorem takeOut_eq {key : S → K} {l : List S} (hnodup : (l.map key).Nodup) :
    takeOut key l m = l.map fun s => (s, m.getD (key s) []) := by
  induction l generalizing m with
  | nil => rfl
  | cons s l ih =>
      obtain ⟨hnot, hrest⟩ := List.nodup_cons.mp hnodup
      rw [takeOut, ih hrest, List.map_cons]
      congr 1
      apply List.map_congr_left
      intro s' hs'
      have hne : key s ≠ key s' := fun heq => hnot (heq ▸ List.mem_map_of_mem hs')
      rw [Std.HashMap.getD_erase]
      simp [hne]

omit [Hashable K] in
/-- The parts of the rows, for all keys, are the rows. -/
theorem flatMap_filter_perm {key' : S → K} {l : List S} (hnodup : (l.map key').Nodup)
    {rows : List R} (hkeys : ∀ r ∈ rows, key r ∈ l.map key') :
    (l.flatMap fun s => rows.filter fun r => key r = key' s).Perm rows := by
  induction l generalizing rows with
  | nil =>
      rw [List.eq_nil_iff_forall_not_mem.mpr fun r hr => List.not_mem_nil (hkeys r hr)]
      exact .refl _
  | cons s l ih =>
      obtain ⟨hnot, hrest⟩ := List.nodup_cons.mp hnodup
      -- the other keys find their rows among those without the first one
      have hothers : (l.flatMap fun s' => rows.filter fun r => key r = key' s') =
          l.flatMap fun s' => (rows.filter fun r => !decide (key r = key' s)).filter
            fun r => key r = key' s' := by
        apply List.flatMap_congr
        intro s' hs'
        rw [List.filter_filter]
        apply List.filter_congr
        intro r _
        have hne : key' s' ≠ key' s := fun heq => hnot (heq ▸ List.mem_map_of_mem hs')
        by_cases h : key r = key' s'
        · simp [h, hne]
        · simp [h]
      have hremaining : ∀ r ∈ rows.filter (fun r => !decide (key r = key' s)), key r ∈ l.map key' := by
        intro r hr
        obtain ⟨hmem, hne⟩ := List.mem_filter.mp hr
        rcases List.mem_cons.mp (hkeys r hmem) with heq | hin
        · simp [heq] at hne
        · exact hin
      rw [List.flatMap_cons, hothers]
      exact ((ih hrest hremaining).append_left _).trans (List.filter_append_perm _ rows)

end Partition
