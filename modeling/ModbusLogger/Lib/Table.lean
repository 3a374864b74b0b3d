import Mathlib.Data.List.Pairwise
import Mathlib.Data.List.Nodup

/-!
# A table with an auto-increment key

The rows of a table stand in the order of their keys. The key of a new row is above all keys that the
table ever had, so a key never comes back. `modify` and `delete` act on the rows that a condition
selects, as `UPDATE … WHERE` and `DELETE … WHERE` do.
-/

structure Table (R : Type*) where
  rows : List (Int × R)
  next : Int
  sorted : (rows.map Prod.fst).Pairwise (· < ·)
  fresh : ∀ r ∈ rows, r.1 < next

namespace Table

variable {R : Type*}

def empty : Table R := ⟨[], 1, .nil, by simp⟩

/-- An empty table whose first key is given. -/
def startingAt (next : Int) : Table R := ⟨[], next, .nil, by simp⟩

/-- A new row, with the next key. -/
def insert (t : Table R) (row : R) : Table R where
  rows := t.rows ++ [(t.next, row)]
  next := t.next + 1
  sorted := by
    rw [List.map_append, List.pairwise_append]
    refine ⟨t.sorted, List.pairwise_singleton _ _, ?_⟩
    intro key hkey key' hkey'
    obtain ⟨r, hr, rfl⟩ := List.mem_map.mp hkey
    obtain rfl := List.mem_singleton.mp hkey'
    exact t.fresh r hr
  fresh := by
    intro r hr
    rcases List.mem_append.mp hr with hold | hnew
    · have := t.fresh r hold
      omega
    · obtain rfl := List.mem_singleton.mp hnew
      exact Int.lt_succ _

/-- A row with a given key, in place of the one that had it. -/
def put (t : Table R) (key : Int) (row : R) : Table R where
  rows := t.rows.filter (·.1 < key) ++ (key, row) :: t.rows.filter (key < ·.1)
  next := max t.next (key + 1)
  sorted := by
    rw [List.map_append, List.map_cons, List.pairwise_append, List.pairwise_cons]
    have hfilter (q : Int × R → Bool) : ((t.rows.filter q).map Prod.fst).Pairwise (· < ·) :=
      t.sorted.sublist (List.filter_sublist.map Prod.fst)
    refine ⟨hfilter _, ⟨?_, hfilter _⟩, ?_⟩
    · intro k hk
      obtain ⟨r, hr, rfl⟩ := List.mem_map.mp hk
      exact of_decide_eq_true (List.mem_filter.mp hr).2
    · intro k hk k' hk'
      obtain ⟨r, hr, rfl⟩ := List.mem_map.mp hk
      have hlt : r.1 < key := of_decide_eq_true (List.mem_filter.mp hr).2
      rcases List.mem_cons.mp hk' with rfl | hk'
      · exact hlt
      · obtain ⟨r', hr', rfl⟩ := List.mem_map.mp hk'
        have hgt : key < r'.1 := of_decide_eq_true (List.mem_filter.mp hr').2
        exact Int.lt_trans hlt hgt
  fresh := by
    intro r hr
    rcases List.mem_append.mp hr with hr | hr
    · exact Int.lt_of_lt_of_le (t.fresh r (List.mem_of_mem_filter hr)) (Int.le_max_left _ _)
    · rcases List.mem_cons.mp hr with rfl | hr
      · exact Int.lt_of_lt_of_le (Int.lt_succ key) (Int.le_max_right _ _)
      · exact Int.lt_of_lt_of_le (t.fresh r (List.mem_of_mem_filter hr)) (Int.le_max_left _ _)

/-- `f` in the rows that `p` selects. -/
def modify (t : Table R) (p : Int → R → Bool) (f : R → R) : Table R where
  rows := t.rows.map fun r => (r.1, if p r.1 r.2 then f r.2 else r.2)
  next := t.next
  sorted := by
    rw [List.map_map]
    exact t.sorted
  fresh := by
    intro r hr
    obtain ⟨old, hold, rfl⟩ := List.mem_map.mp hr
    exact t.fresh old hold

/-- Without the rows that `p` selects. -/
def delete (t : Table R) (p : Int → R → Bool) : Table R where
  rows := t.rows.filter fun r => !p r.1 r.2
  next := t.next
  sorted := t.sorted.sublist (List.filter_sublist.map Prod.fst)
  fresh := fun r hr => t.fresh r (List.mem_of_mem_filter hr)

/-- The rows that `p` selects. -/
def select (t : Table R) (p : Int → R → Bool) : List (Int × R) := t.rows.filter fun r => p r.1 r.2

/-- The first of them. -/
def first? (t : Table R) (p : Int → R → Bool) : Option (Int × R) := t.rows.find? fun r => p r.1 r.2

/-- The row of a key. -/
def get? (t : Table R) (key : Int) : Option R := (t.first? fun k _ => k = key).map Prod.snd

def contains (t : Table R) (key : Int) : Bool := (t.get? key).isSome

/-- A row that is in the table. -/
def Has (t : Table R) (key : Int) (row : R) : Prop := (key, row) ∈ t.rows

variable {t : Table R} {key key' : Int} {row row' : R} {p : Int → R → Bool} {f : R → R}

@[simp] theorem not_has_empty : ¬(empty : Table R).Has key row := List.not_mem_nil

@[simp] theorem not_has_startingAt {next : Int} : ¬(startingAt next : Table R).Has key row :=
  List.not_mem_nil

theorem has_insert : (t.insert row').Has key row ↔ t.Has key row ∨ key = t.next ∧ row = row' := by
  show (key, row) ∈ t.rows ++ [(t.next, row')] ↔ _
  rw [List.mem_append, List.mem_singleton, Prod.mk.injEq]
  rfl

theorem has_put : (t.put key' row').Has key row ↔
    key = key' ∧ row = row' ∨ key ≠ key' ∧ t.Has key row := by
  unfold Has put
  simp only [List.mem_append, List.mem_cons, List.mem_filter, Prod.mk.injEq, decide_eq_true_eq]
  constructor
  · rintro (⟨hrow, hlt⟩ | heq | ⟨hrow, hgt⟩)
    · exact .inr ⟨Int.ne_of_lt hlt, hrow⟩
    · exact .inl heq
    · exact .inr ⟨(Int.ne_of_lt hgt).symm, hrow⟩
  · rintro (heq | ⟨hne, hrow⟩)
    · exact .inr (.inl heq)
    · rcases Int.lt_or_gt_of_ne hne with hlt | hgt
      · exact .inl ⟨hrow, hlt⟩
      · exact .inr (.inr ⟨hrow, hgt⟩)

theorem has_modify : (t.modify p f).Has key row ↔
    ∃ old, t.Has key old ∧ row = if p key old then f old else old := by
  unfold Has modify
  rw [List.mem_map]
  constructor
  · rintro ⟨⟨k, old⟩, hold, heq⟩
    obtain ⟨rfl, rfl⟩ := Prod.mk.inj heq
    exact ⟨old, hold, rfl⟩
  · rintro ⟨old, hold, rfl⟩
    exact ⟨(key, old), hold, rfl⟩

theorem has_delete : (t.delete p).Has key row ↔ t.Has key row ∧ p key row = false := by
  unfold Has delete
  rw [List.mem_filter, Bool.not_eq_true']

/-- A row of the kind `P` is neither changed nor made. -/
theorem has_modify_of {P : R → Prop} (hrow : P row) (hold : ∀ old, t.Has key old → P old → p key old = false)
    (hnew : ∀ old, t.Has key old → p key old = true → ¬P (f old)) :
    t.Has key row ↔ (t.modify p f).Has key row := by
  rw [has_modify]
  constructor
  · intro h
    refine ⟨row, h, ?_⟩
    rw [hold row h hrow, if_neg Bool.false_ne_true]
  · rintro ⟨old, h, rfl⟩
    by_cases hp : p key old = true
    · rw [if_pos hp] at hrow
      exact absurd hrow (hnew old h hp)
    · rwa [if_neg hp]

theorem has_delete_of (hrow : t.Has key row → p key row = false) :
    t.Has key row ↔ (t.delete p).Has key row := by
  rw [has_delete]
  exact ⟨fun h => ⟨h, hrow h⟩, fun h => h.1⟩

theorem has_insert_of_ne (hrow : row ≠ row') : t.Has key row ↔ (t.insert row').Has key row := by
  rw [has_insert]
  exact ⟨.inl, fun h => h.resolve_right fun hnew => hrow hnew.2⟩

theorem mem_select {r : Int × R} : r ∈ t.select p ↔ t.Has r.1 r.2 ∧ p r.1 r.2 = true :=
  List.mem_filter

/-- The rows that are selected decide the order in which they stand. -/
theorem select_congr {t' : Table R}
    (h : ∀ key row, p key row = true → (t.Has key row ↔ t'.Has key row)) :
    t.select p = t'.select p := by
  have hpairwise (t : Table R) : (t.select p).Pairwise fun a b => a.1 < b.1 :=
    (List.pairwise_map.mp t.sorted).sublist List.filter_sublist
  have hnodup (t : Table R) : (t.select p).Nodup := by
    refine (hpairwise t).imp fun hlt heq => ?_
    rw [heq] at hlt
    exact Int.lt_irrefl _ hlt
  refine List.Perm.eq_of_pairwise (fun a b _ _ hlt hgt => absurd hlt (Int.lt_asymm hgt)) (hpairwise t)
    (hpairwise t') ((List.perm_ext_iff_of_nodup (hnodup t) (hnodup t')).mpr ?_)
  intro r
  rw [mem_select, mem_select]
  exact and_congr_left fun hp => h r.1 r.2 hp

theorem Has.lt_next (h : t.Has key row) : key < t.next := t.fresh _ h

theorem nodup_keys (t : Table R) : (t.rows.map Prod.fst).Nodup :=
  t.sorted.imp fun {_ _} hlt => Int.ne_of_lt hlt

/-- A key has one row. -/
theorem Has.unique (h : t.Has key row) (h' : t.Has key row') : row = row' := by
  have := List.inj_on_of_nodup_map t.nodup_keys h h' rfl
  exact (Prod.mk.inj this).2

/-- The row of a key, before and after. -/
theorem modify_unique {old new : R} (hold : t.Has key old) (hnew : (t.modify p f).Has key new) :
    new = if p key old then f old else old := by
  obtain ⟨row, hrow, rfl⟩ := has_modify.mp hnew
  obtain rfl := hold.unique hrow
  rfl

theorem first?_has {r : Int × R} (h : t.first? p = some r) : t.Has r.1 r.2 ∧ p r.1 r.2 = true :=
  ⟨List.mem_of_find?_eq_some h, by simpa using List.find?_some h⟩

theorem first?_eq_none : t.first? p = none ↔ ∀ k row, t.Has k row → p k row = false := by
  unfold first? Has
  rw [List.find?_eq_none]
  constructor
  · intro h k row hrow
    exact Bool.eq_false_iff.mpr (h (k, row) hrow)
  · intro h r hr
    rw [h r.1 r.2 hr]
    exact Bool.false_ne_true

/-- No row of another table refers to one of these. -/
theorem unreferenced_iff {S : Type*} {t' : Table S} {foreign : S → Int} :
    (t'.rows.find? fun r =>
      (t.first? fun key row => key = foreign r.2 ∧ p key row).isSome).isNone = true ↔
      ∀ id child, t'.Has id child → ∀ row, t.Has (foreign child) row → p (foreign child) row = false := by
  rw [Option.isNone_iff_eq_none, List.find?_eq_none]
  constructor
  · intro h id child hchild row hrow
    have hnone := h (id, child) hchild
    rw [Bool.not_eq_true, Option.isSome_eq_false_iff, Option.isNone_iff_eq_none,
      first?_eq_none] at hnone
    simpa using hnone _ row hrow
  · intro h r hr
    rw [Bool.not_eq_true, Option.isSome_eq_false_iff, Option.isNone_iff_eq_none, first?_eq_none]
    intro key row hrow
    rw [decide_eq_false_iff_not]
    rintro ⟨rfl, hp⟩
    rw [h r.1 r.2 hr row hrow] at hp
    cases hp

/-- A condition that selects rows of one key only. -/
theorem first?_eq_some (hkey : ∀ k row, p k row = true → k = key) :
    t.first? p = some (key, row) ↔ t.Has key row ∧ p key row = true := by
  constructor
  · exact first?_has
  · rintro ⟨hrow, hp⟩
    cases hfirst : t.first? p with
    | none => exact absurd hp (by simp [first?_eq_none.mp hfirst key row hrow])
    | some r =>
        obtain ⟨k, row'⟩ := r
        obtain ⟨hhas, hr⟩ := first?_has hfirst
        obtain rfl : k = key := hkey k row' hr
        obtain rfl : row' = row := hhas.unique hrow
        rfl

/-- The first row has the least key. -/
theorem le_of_first? {r : Int × R} (h : t.first? p = some r) (hrow : t.Has key row)
    (hp : p key row = true) : r.1 ≤ key := by
  obtain ⟨hr, before, after, hrows, hbefore⟩ := List.find?_eq_some_iff_append.mp h
  have hsorted := t.sorted
  rw [hrows, List.map_append, List.map_cons, List.pairwise_append, List.pairwise_cons] at hsorted
  have hmem : (key, row) ∈ before ++ r :: after := hrows ▸ hrow
  rcases List.mem_append.mp hmem with hearlier | hlater
  · have := hbefore _ hearlier
    simp [hp] at this
  · rcases List.mem_cons.mp hlater with rfl | hlater
    · exact Int.le_refl _
    · exact Int.le_of_lt (hsorted.2.1.1 key (List.mem_map_of_mem hlater))

theorem get?_eq_some : t.get? key = some row ↔ t.Has key row := by
  unfold get?
  rw [Option.map_eq_some_iff]
  have hkey (k : Int) (_ : R) (hk : decide (k = key) = true) : k = key := of_decide_eq_true hk
  constructor
  · rintro ⟨r, hr, rfl⟩
    obtain ⟨hhas, hr⟩ := first?_has hr
    obtain rfl : r.1 = key := hkey r.1 r.2 hr
    exact hhas
  · intro h
    exact ⟨(key, row), (first?_eq_some hkey).mpr ⟨h, decide_eq_true rfl⟩, rfl⟩

theorem get?_eq_none : t.get? key = none ↔ ∀ row, ¬t.Has key row := by
  rw [Option.eq_none_iff_forall_not_mem]
  exact forall_congr' fun row => not_congr get?_eq_some

theorem contains_iff : t.contains key = true ↔ ∃ row, t.Has key row := by
  rw [contains, Option.isSome_iff_exists]
  exact exists_congr fun row => get?_eq_some

theorem contains_iff_mem_keys : t.contains key = true ↔ key ∈ t.rows.map Prod.fst := by
  rw [contains_iff, List.mem_map]
  constructor
  · rintro ⟨row, hrow⟩
    exact ⟨_, hrow, rfl⟩
  · rintro ⟨r, hr, rfl⟩
    exact ⟨r.2, hr⟩

theorem contains_insert :
    (t.insert row).contains key = true ↔ t.contains key = true ∨ key = t.next := by
  simp only [contains_iff, has_insert, exists_or, exists_and_left, exists_eq, and_true]

theorem contains_put :
    (t.put key' row).contains key = true ↔ key = key' ∨ t.contains key = true := by
  simp only [contains_iff, has_put]
  constructor
  · rintro ⟨row, ⟨rfl, -⟩ | ⟨-, hrow⟩⟩
    · exact .inl rfl
    · exact .inr ⟨row, hrow⟩
  · by_cases hkey : key = key'
    · exact fun _ => ⟨row, .inl ⟨hkey, rfl⟩⟩
    · rintro (heq | ⟨row, hrow⟩)
      · exact absurd heq hkey
      · exact ⟨row, .inr ⟨hkey, hrow⟩⟩

theorem contains_modify : (t.modify p f).contains key = true ↔ t.contains key = true := by
  simp only [contains_iff, has_modify]
  constructor
  · rintro ⟨_, old, hold, -⟩
    exact ⟨old, hold⟩
  · rintro ⟨old, hold⟩
    exact ⟨_, old, hold, rfl⟩

theorem contains_delete :
    (t.delete p).contains key = true ↔ ∃ row, t.Has key row ∧ p key row = false := by
  simp only [contains_iff, has_delete]

theorem Has.contains (h : t.Has key row) : t.contains key = true := contains_iff.mpr ⟨row, h⟩

theorem lt_next_of_contains (h : t.contains key = true) : key < t.next := by
  obtain ⟨row, hrow⟩ := contains_iff.mp h
  exact hrow.lt_next

theorem not_contains_next : t.contains t.next = false := by
  rw [← Bool.not_eq_true]
  exact fun h => Int.lt_irrefl _ (lt_next_of_contains h)

theorem rows_foldl_insert (rows : List R) (t : Table R) :
    (rows.foldl insert t).rows.map Prod.snd = t.rows.map Prod.snd ++ rows := by
  induction rows generalizing t with
  | nil => simp
  | cons row rows ih =>
      rw [List.foldl_cons, ih]
      simp [insert]

theorem exists_has_iff : (∃ key, t.Has key row) ↔ row ∈ t.rows.map Prod.snd := by
  rw [List.mem_map]
  constructor
  · rintro ⟨key, hkey⟩
    exact ⟨_, hkey, rfl⟩
  · rintro ⟨r, hr, rfl⟩
    exact ⟨r.1, hr⟩

theorem exists_has_foldl_insert {rows : List R} :
    (∃ key, (rows.foldl insert t).Has key row) ↔ (∃ key, t.Has key row) ∨ row ∈ rows := by
  rw [exists_has_iff, exists_has_iff, rows_foldl_insert, List.mem_append]

end Table
