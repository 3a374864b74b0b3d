import Mathlib.Data.List.Chain
import Mathlib.Order.Lattice

/-!
# Serving the least deadline first

Entries have deadlines, and the one with the least deadline is served, the first of them if there
are several. A turn may renew the deadline of the entry that it serves. No other deadline moves, so
an entry that is passed over stays where it is in the order, and what a turn has to do for the others
to be served is to put its own entry behind them.
-/

namespace LeastFirst

variable {α D : Type*} [LinearOrder D]

/-! ## The search for the least deadline -/

/-- One turn of a search: `best` is the least deadline so far and its index. Entries that are not
eligible are passed over. -/
def scan (deadline : α → D) (eligible : α → Bool) (best : D × Nat) (entry : α × Nat) : D × Nat :=
  if deadline entry.1 < best.1 ∧ eligible entry.1 then (deadline entry.1, entry.2) else best

section Search

variable (deadline : α → D) (eligible : α → Bool)

/-- A turn never raises the best deadline, and leaves it at or below that of the entry. -/
theorem scan_le (best : D × Nat) (entry : α × Nat) :
    (scan deadline eligible best entry).1 ≤ best.1 ∧
      (eligible entry.1 = true → (scan deadline eligible best entry).1 ≤ deadline entry.1) := by
  unfold scan
  split
  · next hbetter => exact ⟨hbetter.1.le, fun _ => le_refl _⟩
  · next hnot => exact ⟨le_refl _, fun helig => not_lt.mp fun hlt => hnot ⟨hlt, helig⟩⟩

/-- The search ends at or below the deadlines of all eligible entries. -/
theorem foldl_scan_le (entries : List α) (k : Nat) (best : D × Nat) :
    ((entries.zipIdx k).foldl (scan deadline eligible) best).1 ≤ best.1 ∧
      ∀ b ∈ entries, eligible b = true →
        ((entries.zipIdx k).foldl (scan deadline eligible) best).1 ≤ deadline b := by
  induction entries generalizing k best with
  | nil => exact ⟨le_refl _, fun b hb => absurd hb List.not_mem_nil⟩
  | cons a entries ih =>
      rw [List.zipIdx_cons, List.foldl_cons, List.forall_mem_cons]
      obtain ⟨hstep, ha⟩ := scan_le deadline eligible best (a, k)
      obtain ⟨hbest, hentries⟩ := ih (k + 1) (scan deadline eligible best (a, k))
      exact ⟨hbest.trans hstep, fun helig => hbest.trans (ha helig), hentries⟩

/-- The search ends with what it started from, or with the first of the least eligible entries. -/
theorem foldl_scan (entries : List α) (k : Nat) (best : D × Nat) :
    (entries.zipIdx k).foldl (scan deadline eligible) best = best ∨
      ∃ j a, entries[j]? = some a ∧ eligible a = true ∧ deadline a < best.1 ∧
        (entries.zipIdx k).foldl (scan deadline eligible) best = (deadline a, k + j) ∧
        ∀ i < j, ∀ b, entries[i]? = some b → eligible b = true → deadline a < deadline b := by
  induction entries generalizing k best with
  | nil => exact .inl rfl
  | cons a entries ih =>
      rw [List.zipIdx_cons, List.foldl_cons]
      obtain ⟨hstep, ha⟩ := scan_le deadline eligible best (a, k)
      rcases ih (k + 1) (scan deadline eligible best (a, k)) with
        heq | ⟨j, c, hc, helig, hlt, heq, hfirst⟩
      · -- nothing behind `a` is better
        rw [heq]
        unfold scan
        split
        · next hbetter =>
          refine .inr ⟨0, a, rfl, hbetter.2, hbetter.1, rfl, ?_⟩
          exact fun i hi => absurd hi (Nat.not_lt_zero i)
        · exact .inl rfl
      · refine .inr ⟨j + 1, c, hc, helig, hlt.trans_le hstep, ?_, ?_⟩
        · rw [heq, Nat.add_right_comm]
          rfl
        · intro i hi b hb hbelig
          cases i with
          | zero =>
              obtain rfl := Option.some.inj hb
              exact hlt.trans_le (ha hbelig)
          | succ i => exact hfirst i (Nat.lt_of_succ_lt_succ hi) b hb hbelig

end Search

/-! ## Least deadlines -/

/-- `x` is the least deadline, and `i` the first place where it is. -/
structure IsLeast (deadlines : List D) (i : Nat) (x : D) : Prop where
  at_index : deadlines[i]? = some x
  le : ∀ (j : Nat) (y : D), deadlines[j]? = some y → x ≤ y
  first : ∀ (j : Nat) (y : D), j < i → deadlines[j]? = some y → x < y

/-- The order in which entries are served: by deadline, then by index. -/
def Before (x : D) (i : Nat) (y : D) (j : Nat) : Prop := x < y ∨ x = y ∧ i < j

theorem IsLeast.before {deadlines : List D} {i j : Nat} {x y : D} (h : IsLeast deadlines i x)
    (hy : deadlines[j]? = some y) (hne : j ≠ i) : Before x i y j := by
  rcases (h.le j y hy).lt_or_eq with hlt | rfl
  · exact .inl hlt
  · rcases Nat.lt_or_gt_of_ne hne with hj | hj
    · exact absurd (h.first j x hj hy) (lt_irrefl x)
    · exact .inr ⟨rfl, hj⟩

/-- A search among eligible entries that starts from the first of them finds the least deadline. -/
theorem isLeast_scan {deadline : α → D} {eligible : α → Bool} {entries : List α} {first : α}
    (hfirst : entries[0]? = some first) (helig : ∀ a ∈ entries, eligible a = true) :
    ∃ x, IsLeast (entries.map deadline)
      (entries.zipIdx.foldl (scan deadline eligible) (deadline first, 0)).2 x := by
  have hleast := (foldl_scan_le deadline eligible entries 0 (deadline first, 0)).2
  have hle : ∀ (j : Nat) (y : D), (entries.map deadline)[j]? = some y →
      (entries.zipIdx.foldl (scan deadline eligible) (deadline first, 0)).1 ≤ y := by
    intro j y hy
    obtain ⟨b, hb, rfl⟩ := Option.map_eq_some_iff.mp (List.getElem?_map.symm.trans hy)
    have hmem := List.mem_of_getElem? hb
    exact hleast b hmem (helig b hmem)
  rcases foldl_scan deadline eligible entries 0 (deadline first, 0) with
    heq | ⟨j, a, ha, -, -, heq, hearlier⟩
  · rw [heq] at hle ⊢
    refine ⟨deadline first, ?_, hle, fun j y hj => absurd hj (Nat.not_lt_zero j)⟩
    rw [List.getElem?_map, hfirst, Option.map_some]
  · rw [heq, Nat.zero_add] at hle ⊢
    refine ⟨deadline a, ?_, hle, ?_⟩
    · rw [List.getElem?_map, ha, Option.map_some]
    · intro i y hi hy
      obtain ⟨b, hb, rfl⟩ := Option.map_eq_some_iff.mp (List.getElem?_map.symm.trans hy)
      exact hearlier i hi b hb (helig b (List.mem_of_getElem? hb))

theorem Before.asymm {x y : D} {i j : Nat} (h : Before x i y j) : ¬Before y j x i := by
  rintro (h' | ⟨rfl, h'⟩)
  · rcases h with h | ⟨rfl, -⟩
    · exact lt_asymm h h'
    · exact lt_irrefl x h'
  · rcases h with h | ⟨-, h⟩
    · exact lt_irrefl y h
    · exact Nat.lt_asymm h h'

/-! ## Schedules -/

/-- One turn: the deadlines before it, the entry that is served, and its new deadline, if it gets
one. -/
structure Turn (D : Type*) where
  deadlines : List D
  served : Nat
  renewed : Option D

/-- The deadlines after a turn. -/
def Turn.after (t : Turn D) : List D :=
  match t.renewed with
  | some x => t.deadlines.set t.served x
  | none => t.deadlines

omit [LinearOrder D] in
/-- A turn moves no other deadline. -/
theorem Turn.after_of_ne (t : Turn D) {j : Nat} (h : j ≠ t.served) :
    t.after[j]? = t.deadlines[j]? := by
  unfold Turn.after
  split
  · exact List.getElem?_set_ne h.symm
  · rfl

/-- Turns that follow each other, serve the least deadline each, and end with `final`. -/
structure Schedule (turns : List (Turn D)) (final : List D) : Prop where
  linked : turns.IsChain fun t u => u.deadlines = t.after
  least : ∀ t ∈ turns, ∃ x, IsLeast t.deadlines t.served x
  last : ∀ t ∈ turns.getLast?, final = t.after

theorem Schedule.nil (final : List D) : Schedule [] final :=
  ⟨.nil, fun t ht => absurd ht List.not_mem_nil, fun t ht => by cases ht⟩

theorem Schedule.concat {turns : List (Turn D)} {t : Turn D} {x : D}
    (h : Schedule turns t.deadlines) (ht : IsLeast t.deadlines t.served x) :
    Schedule (turns ++ [t]) t.after := by
  refine ⟨?_, ?_, ?_⟩
  · rw [List.isChain_append]
    refine ⟨h.linked, List.isChain_singleton t, ?_⟩
    intro u hu v hv
    obtain rfl : t = v := by simpa using hv
    exact h.last u hu
  · intro u hu
    rcases List.mem_append.mp hu with hu | hu
    · exact h.least u hu
    · obtain rfl := List.mem_singleton.mp hu
      exact ⟨x, ht⟩
  · intro u hu
    obtain rfl : t = u := by simpa using hu
    rfl

omit [LinearOrder D] in
/-- The deadline of an entry stays as it is until the entry is served. -/
theorem deadline_stays {t : Turn D} {mid : List (Turn D)} {u : Turn D}
    (h : (t :: mid ++ [u]).IsChain fun t u => u.deadlines = t.after) {j : Nat}
    (hmid : ∀ m ∈ mid, m.served ≠ j) : u.deadlines[j]? = t.after[j]? := by
  induction mid generalizing t with
  | nil =>
      have hlink : u.deadlines = t.after := by simpa using h
      rw [hlink]
  | cons m mid ih =>
      obtain ⟨hlink, hrest⟩ := List.isChain_cons_cons.mp h
      rw [ih hrest fun m' hm' => hmid m' (List.mem_cons_of_mem _ hm'),
        m.after_of_ne (hmid m List.mem_cons_self).symm, hlink]

omit [LinearOrder D] in
/-- The new deadline is what the entry has after the turn. -/
theorem Turn.after_served {t : Turn D} {x₀ x : D} (h : t.deadlines[t.served]? = some x₀)
    (hrenewed : t.renewed = some x) : t.after[t.served]? = some x := by
  obtain ⟨hlt, -⟩ := List.getElem?_eq_some_iff.mp h
  simp only [Turn.after, hrenewed]
  exact List.getElem?_set_self hlt

omit [LinearOrder D] in
/-- The first of the turns that serve `j`. -/
theorem exists_first_turn {turns : List (Turn D)} {m : Turn D} (hm : m ∈ turns) {j : Nat}
    (hmj : m.served = j) : ∃ earlier m' later, turns = earlier ++ m' :: later ∧ m'.served = j ∧
      ∀ e ∈ earlier, e.served ≠ j := by
  obtain ⟨m', hm'⟩ : ∃ m', turns.find? (fun m => m.served == j) = some m' := by
    rw [← Option.isSome_iff_exists, List.find?_isSome]
    exact ⟨m, hm, beq_iff_eq.mpr hmj⟩
  obtain ⟨hserved, earlier, later, hturns, hnot⟩ := List.find?_eq_some_iff_append.mp hm'
  refine ⟨earlier, m', later, hturns, beq_iff_eq.mp hserved, ?_⟩
  intro e he
  simpa using hnot e he

/-- **Who is served in between.** Between two turns of an entry, another one is served if and only if
the first turn puts its entry behind that one. -/
theorem Schedule.served_between {before mid after : List (Turn D)} {t u : Turn D} {final : List D}
    (h : Schedule (before ++ t :: mid ++ u :: after) final) (hagain : u.served = t.served)
    (hfirst : ∀ m ∈ mid, m.served ≠ t.served) {j : Nat} (hne : j ≠ t.served) {y : D}
    (hy : t.deadlines[j]? = some y) :
    (∃ m ∈ mid, m.served = j) ↔ ∃ x, t.renewed = some x ∧ Before y j x t.served := by
  have hchain : (t :: mid ++ [u]).IsChain fun t u => u.deadlines = t.after :=
    h.linked.infix ⟨before, after, by simp⟩
  have hleast : ∀ m ∈ t :: mid ++ [u], ∃ x, IsLeast m.deadlines m.served x := by
    intro m hm
    apply h.least m
    simp only [List.cons_append, List.mem_cons, List.mem_append, List.not_mem_nil, or_false] at hm ⊢
    tauto
  obtain ⟨x₀, hx₀⟩ := hleast t (by simp)
  constructor
  · rintro ⟨m, hm, hmj⟩
    -- neither deadline moves before the first turn that serves `j`
    obtain ⟨earlier, m, later, rfl, hmj, hearlier⟩ := exists_first_turn hm hmj
    have hprefix : (t :: earlier ++ [m]).IsChain fun t u => u.deadlines = t.after :=
      hchain.infix ⟨[], later ++ [u], by simp⟩
    have hj := deadline_stays hprefix hearlier
    rw [t.after_of_ne hne, hy] at hj
    have ht := deadline_stays hprefix fun e he => hfirst e (by simp [he])
    obtain ⟨y', hleast'⟩ := hleast m (by simp)
    rw [hmj] at hleast'
    obtain rfl : y' = y := Option.some.inj (hleast'.at_index.symm.trans hj)
    cases hrenewed : t.renewed with
    | none =>
        -- an interrupted turn stays before all others
        have hstill : t.after[t.served]? = some x₀ := by
          simp only [Turn.after, hrenewed]
          exact hx₀.at_index
        rw [hstill] at ht
        exact absurd (hleast'.before ht hne.symm) (hx₀.before hy hne).asymm
    | some x =>
        rw [Turn.after_served hx₀.at_index hrenewed] at ht
        exact ⟨x, rfl, hleast'.before ht hne.symm⟩
  · rintro ⟨x, hrenewed, hbefore⟩
    by_contra hnone
    push Not at hnone
    have hj := deadline_stays hchain hnone
    rw [t.after_of_ne hne, hy] at hj
    have ht := deadline_stays hchain hfirst
    rw [Turn.after_served hx₀.at_index hrenewed] at ht
    obtain ⟨x', hleast'⟩ := hleast u (by simp)
    rw [hagain] at hleast'
    obtain rfl : x' = x := Option.some.inj (hleast'.at_index.symm.trans ht)
    exact (hleast'.before hj hne).asymm hbefore

end LeastFirst
