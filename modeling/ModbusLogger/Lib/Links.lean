import ModbusLogger.Lib.Table

/-!
# Link tables

The rows of a link table pair keys of two other tables, and they go when one of their keys goes. A new
key of the other tables is one that they never had, so what a link table says about a key is decided
by the last time at which its rows were written: they are still there, except those whose partner has
gone since.
-/

namespace Table

variable {R : Type*} {t t' : Table R} {key : Int} {row : R} {p : Int → R → Bool} {f : R → R}

/-- Later, as far as keys go: none comes back. -/
structure Onward (t t' : Table R) : Prop where
  next : t.next ≤ t'.next
  old : ∀ key, key < t.next → t'.contains key = true → t.contains key = true

@[refl] theorem Onward.refl (t : Table R) : t.Onward t := ⟨Int.le_refl _, fun _ _ h => h⟩

theorem onward_insert : t.Onward (t.insert row) where
  next := Int.le_of_lt (Int.lt_succ _)
  old key hkey hcontains := by
    rcases contains_insert.mp hcontains with hold | rfl
    · exact hold
    · exact absurd hkey (Int.lt_irrefl _)

theorem onward_modify : t.Onward (t.modify p f) :=
  ⟨Int.le_refl _, fun _ _ hcontains => contains_modify.mp hcontains⟩

theorem onward_delete : t.Onward (t.delete p) where
  next := Int.le_refl _
  old key _ hcontains := by
    obtain ⟨row, hrow, -⟩ := contains_delete.mp hcontains
    exact hrow.contains

/-- The table had the key. -/
def lost (t t' : Table R) (key : Int) : Bool := t.contains key && !t'.contains key

theorem lost_self : t.lost t key = false := by
  cases h : t.contains key <;> simp [lost, h]

end Table

namespace Links

variable {R L S : Type*} (left right : R → Int)

/-- What is linked to a key. -/
def of (rows : List R) (a : Int) : List Int := (rows.filter (left · = a)).map right

/-- `ON DELETE CASCADE`, on both sides. -/
def cascade (l l' : Table L) (r r' : Table S) (rows : List R) : List R :=
  rows.filter fun row => !l.lost l' (left row) && !r.lost r' (right row)

/-- The links of `a` are `bs`, except what is not there any more. -/
structure Assigned (l : Table L) (r : Table S) (rows : List R) (a : Int) (bs : List Int) : Prop where
  links : of left right rows a = bs.filter fun b => l.contains a && r.contains b
  old : ∀ b ∈ bs, a < l.next ∧ b < r.next

variable {left right} {rows rows' new : List R} {a a' : Int} {bs : List Int} {l l' : Table L}
  {r r' : Table S}

theorem of_append (new : List R) : of left right (rows ++ new) a =
    of left right rows a ++ of left right new a := by
  simp [of]

/-- Rows of another key. -/
theorem of_eq_nil (h : ∀ row ∈ new, left row ≠ a) : of left right new a = [] := by
  rw [of, List.filter_eq_nil_iff.mpr, List.map_nil]
  simpa using h

theorem of_append_ne (h : ∀ row ∈ new, left row ≠ a) :
    of left right (rows ++ new) a = of left right rows a := by
  rw [of_append, of_eq_nil h, List.append_nil]

/-- Rows of the key itself. -/
theorem of_new {mk : Int → R} (hleft : ∀ b, left (mk b) = a) (hright : ∀ b, right (mk b) = b) :
    of left right (bs.map mk) a = bs := by
  unfold of
  rw [List.filter_eq_self.mpr, List.map_map, List.map_congr_left (g := id), List.map_id]
  · exact fun b _ => hright b
  · intro row hrow
    obtain ⟨b, -, rfl⟩ := List.mem_map.mp hrow
    exact decide_eq_true (hleft b)

/-- Rows that are taken away by their keys. -/
theorem of_filter (p : Int → Int → Bool) :
    of left right (rows.filter fun row => p (left row) (right row)) a =
      (of left right rows a).filter (p a) := by
  unfold of
  rw [List.filter_map, List.filter_filter, List.filter_filter]
  congr 1
  apply List.filter_congr
  intro row _
  by_cases h : left row = a
  · simp [h]
  · simp [h]

theorem of_clear_self : of left right (rows.filter (left · ≠ a)) a = [] := by
  apply of_eq_nil
  intro row hrow
  simpa using (List.mem_filter.mp hrow).2

theorem of_clear_ne (h : a ≠ a') :
    of left right (rows.filter (left · ≠ a')) a = of left right rows a := by
  rw [of_filter (fun key _ => decide (key ≠ a')) (a := a)]
  simp [h]

/-- **Assignments.** They stay as they are while the tables go on. -/
theorem Assigned.later (h : Assigned left right l r rows a bs) (hl : l.Onward l') (hr : r.Onward r')
    (hrows : of left right rows' a =
      (of left right rows a).filter fun b => l'.contains a && r'.contains b) :
    Assigned left right l' r' rows' a bs := by
  obtain ⟨hlinks, hold⟩ := h
  refine ⟨?_, fun b hb => ⟨Int.lt_of_lt_of_le (hold b hb).1 hl.next,
    Int.lt_of_lt_of_le (hold b hb).2 hr.next⟩⟩
  rw [hrows, hlinks, List.filter_filter]
  apply List.filter_congr
  intro b hb
  have hleft := hl.old a (hold b hb).1
  have hright := hr.old b (hold b hb).2
  rw [Bool.eq_iff_iff]
  simp only [Bool.and_eq_true]
  constructor
  · exact fun h => h.1
  · exact fun h => ⟨h, hleft h.1, hright h.2⟩

/-- The other tables lose nothing. -/
theorem Assigned.kept (h : Assigned left right l r rows a bs) (hl : l.Onward l') (hr : r.Onward r')
    (hleft : l.contains a = true → l'.contains a = true)
    (hright : ∀ b, r.contains b = true → r'.contains b = true)
    (hrows : of left right rows' a = of left right rows a) :
    Assigned left right l' r' rows' a bs := by
  refine h.later hl hr ?_
  rw [hrows, eq_comm, List.filter_eq_self]
  intro b hb
  rw [h.links, List.mem_filter, Bool.and_eq_true] at hb
  rw [hleft hb.2.1, hright b hb.2.2]
  rfl

/-- What the other tables lose is taken out. -/
theorem Assigned.cascade (h : Assigned left right l r rows a bs) (hl : l.Onward l')
    (hr : r.Onward r') : Assigned left right l' r' (cascade left right l l' r r' rows) a bs := by
  refine h.later hl hr ?_
  refine (of_filter fun a b => !l.lost l' a && !r.lost r' b).trans ?_
  apply List.filter_congr
  intro b hb
  rw [h.links, List.mem_filter, Bool.and_eq_true] at hb
  simp [Table.lost, hb.2.1, hb.2.2]

/-- A new assignment, whose keys are there. -/
theorem assigned_of_written (hold : of left right rows a = [])
    (hnew : of left right new a = bs)
    (hkeys : ∀ b ∈ bs, l.contains a = true ∧ r.contains b = true) :
    Assigned left right l r (rows ++ new) a bs := by
  refine ⟨?_, fun b hb => ⟨Table.lt_next_of_contains (hkeys b hb).1,
    Table.lt_next_of_contains (hkeys b hb).2⟩⟩
  rw [of_append, hold, hnew, List.nil_append, eq_comm, List.filter_eq_self]
  intro b hb
  rw [(hkeys b hb).1, (hkeys b hb).2]
  rfl

end Links
