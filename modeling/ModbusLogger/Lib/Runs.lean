import Mathlib.Data.List.SplitBy
import Mathlib.Data.List.Sort
import Mathlib.Algebra.Order.Group.Unbundled.Int

/-!
# Runs of consecutive integers

`runs l` cuts a list where the next element is not the successor of the one before. For a sorted
list, possibly with repetitions, two neighbouring integers always meet in some run, and the run of
an integer that occurs once is unique. Without repetitions the runs are the maximal stretches of the
members of the list.
-/

namespace Runs

/-! ## Cutting a list from the left -/

section Cut

variable {α : Type*} {r : α → α → Bool} {older start group : List α} {last x : α}
  {groups : List (List α)}

/-- The last group ends with the last element. -/
theorem exists_concat_of_splitBy (h : (older ++ [last]).splitBy r = groups ++ [group]) :
    ∃ start, group = start ++ [last] := by
  obtain ⟨hflat, hnil, -⟩ := List.splitBy_eq_iff.mp h
  have hgroup : group ≠ [] := by
    rintro rfl
    exact hnil List.mem_concat_self
  obtain ⟨start, last', rfl⟩ := (List.eq_nil_or_concat' group).resolve_left hgroup
  rw [List.flatten_append, List.flatten_singleton, ← List.append_assoc] at hflat
  obtain ⟨rfl, -⟩ := List.cons.inj (List.append_inj' hflat rfl).2
  exact ⟨start, rfl⟩

/-- An element that follows on the last one joins its group. -/
theorem splitBy_concat_of_rel (h : (older ++ [last]).splitBy r = groups ++ [start ++ [last]])
    (hr : r last x = true) :
    (older ++ [last] ++ [x]).splitBy r = groups ++ [start ++ [last] ++ [x]] := by
  obtain ⟨hflat, hnil, hchain, hcuts⟩ := List.splitBy_eq_iff.mp h
  rw [List.isChain_append] at hcuts
  obtain ⟨hcuts, -, hcut⟩ := hcuts
  apply List.splitBy_eq_iff.mpr
  refine ⟨?_, ?_, ?_, ?_⟩
  · rw [hflat]
    simp
  · simp only [List.mem_append, List.mem_singleton, not_or] at hnil ⊢
    exact ⟨hnil.1, by simp⟩
  · rw [List.forall_mem_append, List.forall_mem_singleton] at hchain ⊢
    refine ⟨hchain.1, ?_⟩
    rw [List.isChain_append]
    exact ⟨hchain.2, List.isChain_singleton _, by simp [hr]⟩
  · rw [List.isChain_append]
    refine ⟨hcuts, List.isChain_singleton _, ?_⟩
    intro g hg g' hg'
    obtain ⟨hne, hne', hrel⟩ := hcut g hg _ rfl
    obtain rfl : _ = g' := by simpa using hg'
    refine ⟨hne, by simp, ?_⟩
    rw [← hrel]
    congr 1
    cases start <;> rfl

/-- An element that does not starts a group. -/
theorem splitBy_concat_of_not_rel (h : (older ++ [last]).splitBy r = groups ++ [group])
    (hr : r last x = false) :
    (older ++ [last] ++ [x]).splitBy r = groups ++ [group] ++ [[x]] := by
  rw [List.splitBy_append_cons, h]
  · simp [List.splitBy_of_isChain]
  · intro y hy
    obtain rfl : last = y := by simpa using hy
    exact hr

end Cut

/-! ## Runs of integers -/

/-- `b` follows `a` in a run. -/
def follows (a b : Int) : Bool := decide (b = a + 1)

def runs (l : List Int) : List (List Int) := l.splitBy follows

theorem flatten_runs (l : List Int) : (runs l).flatten = l := List.flatten_splitBy follows l

theorem ne_nil_of_mem_runs {l g : List Int} (h : g ∈ runs l) : g ≠ [] :=
  List.ne_nil_of_mem_splitBy h

theorem mem_of_mem_runs {l g : List Int} (h : g ∈ runs l) {a : Int} (ha : a ∈ g) : a ∈ l := by
  rw [← flatten_runs l]
  exact List.mem_flatten_of_mem h ha

theorem exists_run {l : List Int} {a : Int} (h : a ∈ l) : ∃ g ∈ runs l, a ∈ g := by
  rw [← flatten_runs l] at h
  exact List.mem_flatten.mp h

theorem isChain_and_pairwise {β : Type*} {R S : β → β → Prop} {l : List β} (h : l.IsChain R)
    (h' : l.Pairwise S) : l.IsChain fun a b => R a b ∧ S a b := by
  rw [List.isChain_iff_getElem] at h ⊢
  intro i hi
  exact ⟨h i hi, List.pairwise_iff_getElem.mp h' i (i + 1) _ _ (Nat.lt_succ_self i)⟩

/-- On a sorted list it is enough that a relation agrees with `follows` on ordered pairs. -/
theorem splitBy_eq_runs {l : List Int} (hl : l.Pairwise (· ≤ ·)) {r : Int → Int → Bool}
    (hr : ∀ a ∈ l, ∀ b, a ≤ b → r a b = follows a b) : l.splitBy r = runs l := by
  obtain ⟨hflat, hnil, hchain, hcuts⟩ := List.splitBy_eq_iff.mp (rfl : runs l = l.splitBy follows)
  have hsorted := hl
  rw [← flatten_runs l, List.pairwise_flatten] at hsorted
  obtain ⟨hin, hcross⟩ := hsorted
  rw [List.splitBy_eq_iff]
  refine ⟨hflat, hnil, ?_, ?_⟩
  · intro g hg
    refine (isChain_and_pairwise (hchain g hg) (hin g hg)).imp_of_mem_imp fun a b ha _ h => ?_
    rw [hr a (mem_of_mem_runs hg ha) b h.2]
    exact h.1
  · refine (isChain_and_pairwise hcuts hcross).imp_of_mem_imp fun g g' hg _ h => ?_
    obtain ⟨⟨hne, hne', hcut⟩, hle⟩ := h
    refine ⟨hne, hne', ?_⟩
    rw [hr _ (mem_of_mem_runs hg (List.getLast_mem hne)) _
      (hle _ (List.getLast_mem hne) _ (List.head_mem hne'))]
    exact hcut

/-! ## One run -/

/-- The element at an index is the head plus the index. -/
def Consecutive (g : List Int) : Prop :=
  ∀ i (h : i < g.length), g[i] = g[0] + i

theorem consecutive_of_isChain {g : List Int} (h : g.IsChain fun a b => follows a b = true) :
    Consecutive g := by
  have hchain := List.isChain_iff_getElem.mp h
  intro i
  induction i with
  | zero =>
      intro hi
      simp
  | succ i ih =>
      intro hi
      have hnext : g[i + 1] = g[i] + 1 := by simpa [follows] using hchain i hi
      rw [hnext, ih (by omega)]
      push_cast
      grind

theorem consecutive_of_mem {l g : List Int} (h : g ∈ runs l) : Consecutive g :=
  consecutive_of_isChain (List.isChain_of_mem_splitBy h)

section Consecutive

variable {g : List Int}

theorem Consecutive.mem_iff (hg : Consecutive g) (hpos : 0 < g.length) {a : Int} :
    a ∈ g ↔ g[0] ≤ a ∧ a < g[0] + g.length := by
  constructor
  · intro ha
    obtain ⟨i, hi, rfl⟩ := List.mem_iff_getElem.mp ha
    rw [hg i hi]
    grind
  · rintro ⟨hle, hlt⟩
    have hi : (a - g[0]).toNat < g.length := by omega
    have ha : g[(a - g[0]).toNat] = a := by
      rw [hg _ hi]
      grind
    exact ha ▸ List.getElem_mem hi

theorem Consecutive.nodup (hg : Consecutive g) : g.Nodup := by
  rw [List.nodup_iff_injective_get]
  intro i j hij
  have hi := hg i i.isLt
  have hj := hg j j.isLt
  simp only [List.get_eq_getElem] at hij
  exact Fin.ext (by omega)

/-- The last element is the only one without its successor. -/
theorem Consecutive.eq_last (hg : Consecutive g) (hne : g ≠ []) {a : Int} (ha : a ∈ g)
    (hsucc : a + 1 ∉ g) : g.getLast hne = a := by
  have hpos : 0 < g.length := List.length_pos_iff.mpr hne
  rw [hg.mem_iff hpos] at ha hsucc
  rw [List.getLast_eq_getElem, hg _ (by omega)]
  grind

end Consecutive

/-! ## Neighbours meet -/

/-- In a sorted list the runs come in order. -/
theorem le_of_runs_append {l : List Int} (hl : l.Pairwise (· ≤ ·)) {before after : List (List Int)}
    {g : List Int} (h : runs l = before ++ g :: after) :
    (∀ g' ∈ before, ∀ a ∈ g', ∀ b ∈ g, a ≤ b) ∧ ∀ g' ∈ after, ∀ a ∈ g, ∀ b ∈ g', a ≤ b := by
  rw [← flatten_runs l, h, List.flatten_append, List.flatten_cons, List.pairwise_append,
    List.pairwise_append] at hl
  obtain ⟨-, ⟨-, -, hafter⟩, hbefore⟩ := hl
  refine ⟨?_, ?_⟩
  · intro g' hg' a ha b hb
    exact hbefore a (List.mem_flatten_of_mem hg' ha) b (List.mem_append_left _ hb)
  · intro g' hg' a ha b hb
    exact hafter a ha b (List.mem_flatten_of_mem hg' hb)

/-- **Neighbours meet.** If an integer and its successor both occur, some run has both. -/
theorem exists_run_pair {l : List Int} (hl : l.Pairwise (· ≤ ·)) {a : Int} (ha : a ∈ l)
    (hsucc : a + 1 ∈ l) : ∃ g ∈ runs l, a ∈ g ∧ a + 1 ∈ g := by
  suffices h : ∀ L : List (List Int), L.flatten.Pairwise (· ≤ ·) → [] ∉ L →
      (∀ g ∈ L, Consecutive g) →
      (L.IsChain fun g g' => ∃ hg hg', follows (g.getLast hg) (g'.head hg') = false) →
      a ∈ L.flatten → a + 1 ∈ L.flatten → ∃ g ∈ L, a ∈ g ∧ a + 1 ∈ g by
    refine h (runs l) ?_ (List.nil_notMem_splitBy follows l) (fun g hg => consecutive_of_mem hg)
      (List.isChain_getLast_head_splitBy follows l) ?_ ?_
    all_goals rwa [flatten_runs]
  intro L
  induction L with
  | nil =>
      intro _ _ _ _ ha _
      exact absurd ha List.not_mem_nil
  | cons g L ih =>
      intro hsorted hnil hcons hchain ha hsucc
      have hsorted' := hsorted
      rw [List.flatten_cons, List.pairwise_append] at hsorted'
      obtain ⟨-, hrest, hcross⟩ := hsorted'
      rw [List.flatten_cons, List.mem_append] at ha hsucc
      by_cases hlater : a ∈ L.flatten
      · -- the successor cannot come before it
        have hsucc' : a + 1 ∈ L.flatten := by
          rcases hsucc with h | h
          · have := hcross (a + 1) h a hlater
            grind
          · exact h
        obtain ⟨g', hg', hpair⟩ := ih hrest (fun h => hnil (List.mem_cons_of_mem g h))
          (fun g' h => hcons g' (List.mem_cons_of_mem g h)) hchain.of_cons hlater hsucc'
        exact ⟨g', List.mem_cons_of_mem g hg', hpair⟩
      · have ha' : a ∈ g := ha.resolve_right hlater
        by_cases hhere : a + 1 ∈ g
        · exact ⟨g, List.mem_cons_self, ha', hhere⟩
        · -- then `a` ends its run, and the next run would have to begin with its successor
          exfalso
          have hsucc' : a + 1 ∈ L.flatten := hsucc.resolve_left hhere
          cases L with
          | nil => exact absurd hsucc' List.not_mem_nil
          | cons g' L =>
              obtain ⟨hg, hg', hcut⟩ := (List.isChain_cons_cons.mp hchain).1
              rw [(hcons g List.mem_cons_self).eq_last hg ha' hhere] at hcut
              have hhead : g'.head hg' ∈ (g' :: L).flatten := by
                rw [List.flatten_cons]
                exact List.mem_append_left _ (List.head_mem hg')
              have hge := hcross a ha' _ hhead
              have hne : g'.head hg' ≠ a := fun h => hlater (h ▸ hhead)
              have hle : g'.head hg' ≤ a + 1 := by
                rw [List.flatten_cons] at hrest hsucc'
                obtain ⟨h, t, rfl⟩ := List.exists_cons_of_ne_nil hg'
                rw [List.cons_append, List.pairwise_cons] at hrest
                rw [List.cons_append, List.mem_cons] at hsucc'
                rcases hsucc' with h' | h'
                · exact le_of_eq h'.symm
                · exact hrest.1 _ h'
              simp only [follows, decide_eq_false_iff_not] at hcut
              grind

/-! ## The run of the whole range -/

section Range

variable {l : List Int} {lo hi : Int}

/-- Every integer of the range occurs, and those inside it occur once. -/
def FullRange (lo hi : Int) (l : List Int) : Prop :=
  (∀ a, lo ≤ a → a ≤ hi → a ∈ l) ∧ ∀ a, lo < a → a < hi → l.count a = 1

/-- The occurrences of an integer before, in and after a run. -/
theorem count_split {before after : List (List Int)} {g : List Int}
    (h : runs l = before ++ g :: after) (a : Int) :
    l.count a = before.flatten.count a + (g.count a + after.flatten.count a) := by
  conv_lhs => rw [← flatten_runs l, h]
  rw [List.flatten_append, List.flatten_cons, List.count_append, List.count_append]

/-- An integer that occurs once lies in one run. -/
theorem eq_of_count_one {a : Int} (ha : l.count a = 1) {g g' : List Int} (hg : g ∈ runs l)
    (hg' : g' ∈ runs l) (hag : a ∈ g) (hag' : a ∈ g') : g = g' := by
  obtain ⟨before, after, h⟩ := List.append_of_mem hg
  have hcount := count_split h a
  have hpos := List.count_pos_iff.mpr hag
  rw [h, List.mem_append, List.mem_cons] at hg'
  rcases hg' with hbefore | rfl | hafter
  · have := List.count_pos_iff.mpr (List.mem_flatten_of_mem hbefore hag')
    grind
  · rfl
  · have := List.count_pos_iff.mpr (List.mem_flatten_of_mem hafter hag')
    grind

theorem Consecutive.covers {g : List Int} (hg : Consecutive g) (hlo : lo ∈ g) (hhi : hi ∈ g)
    {a : Int} (h : lo ≤ a) (h' : a ≤ hi) : a ∈ g := by
  have hpos := List.length_pos_of_mem hlo
  rw [hg.mem_iff hpos] at hlo hhi ⊢
  grind

/-- A run has the whole range exactly if the range is full and nothing inside it is repeated. -/
theorem full_run_iff (hl : l.Pairwise (· ≤ ·)) (hlt : lo < hi) :
    (∃ g ∈ runs l, lo ∈ g ∧ hi ∈ g) ↔ FullRange lo hi l := by
  constructor
  · rintro ⟨g, hg, hlo, hhi⟩
    have hcons := consecutive_of_mem hg
    refine ⟨fun a h h' => mem_of_mem_runs hg (hcons.covers hlo hhi h h'), ?_⟩
    intro a h h'
    obtain ⟨before, after, hruns⟩ := List.append_of_mem hg
    obtain ⟨hbefore, hafter⟩ := le_of_runs_append hl hruns
    -- what comes before the run is `lo`, what comes after it is `hi`
    have hb : before.flatten.count a = 0 := by
      rw [List.count_eq_zero, List.mem_flatten]
      rintro ⟨g', hg', ha⟩
      have := hbefore g' hg' a ha lo hlo
      grind
    have ha : after.flatten.count a = 0 := by
      rw [List.count_eq_zero, List.mem_flatten]
      rintro ⟨g', hg', ha⟩
      have := hafter g' hg' hi hhi a ha
      grind
    have hg := List.count_eq_one_of_mem hcons.nodup (hcons.covers hlo hhi (le_of_lt h) (le_of_lt h'))
    rw [count_split hruns, hb, ha, hg]
  · rintro ⟨hall, honce⟩
    suffices h : ∀ n : Nat, lo + 1 + n ≤ hi → ∃ g ∈ runs l, lo ∈ g ∧ lo + 1 + n ∈ g by
      obtain ⟨g, hg, hlo, hhi⟩ := h (hi - lo - 1).toNat (by omega)
      refine ⟨g, hg, hlo, ?_⟩
      rwa [show lo + 1 + ((hi - lo - 1).toNat : Int) = hi by omega] at hhi
    intro n
    induction n with
    | zero =>
        intro hle
        obtain ⟨g, hg, hlo, hsucc⟩ := exists_run_pair hl (hall lo (by omega) (by omega))
          (hall (lo + 1) (by omega) (by omega))
        exact ⟨g, hg, hlo, by simpa using hsucc⟩
    | succ n ih =>
        intro hle
        push_cast at hle ⊢
        obtain ⟨g, hg, hlo, hn⟩ := ih (by omega)
        obtain ⟨g', hg', hn', hsucc⟩ := exists_run_pair hl
          (hall (lo + 1 + n) (by omega) (by omega)) (hall (lo + 1 + n + 1) (by omega) (by omega))
        obtain rfl := eq_of_count_one (honce (lo + 1 + n) (by omega) (by omega)) hg hg' hn hn'
        refine ⟨g, hg, hlo, ?_⟩
        rwa [show lo + 1 + ((n : Int) + 1) = lo + 1 + n + 1 by omega]

/-- When the first run that has all of `needs` is the run of the whole range: the range is full, and
no run of `lo` alone comes first. -/
theorem first_run_full_iff (hl : l.Pairwise (· ≤ ·)) (hin : ∀ a ∈ l, lo ≤ a ∧ a ≤ hi) (hlt : lo < hi)
    {needs : List Int} {before after : List (List Int)} {g : List Int}
    (hruns : runs l = before ++ g :: after) (hg : ∀ a ∈ needs, a ∈ g)
    (hfirst : ∀ g' ∈ before, ∃ a ∈ needs, a ∉ g') :
    (lo ∈ g ∧ hi ∈ g) ↔ FullRange lo hi l ∧ ¬((∀ a ∈ needs, a = lo) ∧ 2 ≤ l.count lo) := by
  have hmem : g ∈ runs l := hruns ▸ List.mem_append_right _ List.mem_cons_self
  obtain ⟨hbefore, hafter⟩ := le_of_runs_append hl hruns
  have hcount := count_split hruns lo
  constructor
  · rintro ⟨hlo, hhi⟩
    refine ⟨(full_run_iff hl hlt).mp ⟨g, hmem, hlo, hhi⟩, ?_⟩
    rintro ⟨hneeds, htwo⟩
    rw [List.count_eq_one_of_mem (consecutive_of_mem hmem).nodup hlo] at hcount
    have hnone : after.flatten.count lo = 0 := by
      rw [List.count_eq_zero, List.mem_flatten]
      rintro ⟨g', hg', h⟩
      have := hafter g' hg' hi hhi lo h
      grind
    -- the other occurrence is in a run before this one, which has all of `needs` too
    have hpos : 0 < before.flatten.count lo := by omega
    obtain ⟨g', hg', hlo'⟩ := List.mem_flatten.mp (List.count_pos_iff.mp hpos)
    obtain ⟨a, ha, hnot⟩ := hfirst g' hg'
    rw [hneeds a ha] at hnot
    exact hnot hlo'
  · rintro ⟨hfull, hsingle⟩
    obtain ⟨G, hG, hlo, hhi⟩ := (full_run_iff hl hlt).mpr hfull
    have hcons := consecutive_of_mem hG
    rw [hruns, List.mem_append, List.mem_cons] at hG
    rcases hG with hG | rfl | hG
    · -- the full run has all of `needs`, so it is not before the first that does
      obtain ⟨a, ha, hnot⟩ := hfirst G hG
      obtain ⟨h, h'⟩ := hin a (mem_of_mem_runs hmem (hg a ha))
      exact absurd (hcons.covers hlo hhi h h') hnot
    · exact ⟨hlo, hhi⟩
    · -- a run before the full one has `lo` alone
      refine absurd ⟨?_, ?_⟩ hsingle
      · intro a ha
        have := hafter G hG a (hg a ha) lo hlo
        have := (hin a (mem_of_mem_runs hmem (hg a ha))).1
        grind
      · obtain ⟨a, ha⟩ := List.exists_mem_of_ne_nil g (ne_nil_of_mem_runs hmem)
        have hle := hafter G hG a ha lo hlo
        have hge := (hin a (mem_of_mem_runs hmem ha)).1
        obtain rfl : a = lo := by omega
        have hone := List.count_pos_iff.mpr ha
        have hother := List.count_pos_iff.mpr (List.mem_flatten_of_mem hG hlo)
        grind

end Range

/-! ## Maximal stretches -/

/-- The members `r.1, …, r.1 + r.2 - 1` of `s`, which cannot be extended. -/
structure IsMaximal (s : Int → Prop) (r : Int × Nat) : Prop where
  pos : 0 < r.2
  mem : ∀ a, r.1 ≤ a → a < r.1 + r.2 → s a
  before : ¬s (r.1 - 1)
  after : ¬s (r.1 + r.2)

/-- The list has the maximal stretches of `s` in increasing order. -/
structure AreMaximal (s : Int → Prop) (rs : List (Int × Nat)) : Prop where
  sorted : rs.Pairwise fun r r' => r.1 < r'.1
  maximal : ∀ r ∈ rs, IsMaximal s r
  covers : ∀ a, s a → ∃ r ∈ rs, r.1 ≤ a ∧ a < r.1 + r.2

/-- The head and the length of a run. -/
def extent (g : List Int) : Int × Nat := (g.headD 0, g.length)

section Maximal

variable {s : Int → Prop} {l g : List Int}

theorem IsMaximal.head_mem {r : Int × Nat} (h : IsMaximal s r) : s r.1 :=
  h.mem r.1 (le_refl _) (by have := h.pos; omega)

/-- Between two maximal stretches there is a gap. -/
theorem IsMaximal.gap {r r' : Int × Nat} (h : IsMaximal s r) (h' : IsMaximal s r')
    (hlt : r.1 < r'.1) : r.1 + r.2 < r'.1 := by
  by_contra hle
  exact h'.before (h.mem (r'.1 - 1) (by omega) (by omega))

/-- The first stretch starts at the least member. -/
theorem AreMaximal.head_le {r : Int × Nat} {rs : List (Int × Nat)} (h : AreMaximal s (r :: rs))
    {a : Int} (ha : s a) : r.1 ≤ a := by
  obtain ⟨r', hr', hle, -⟩ := h.covers a ha
  rcases List.mem_cons.mp hr' with rfl | hr'
  · exact hle
  · have := (List.pairwise_cons.mp h.sorted).1 r' hr'
    omega

/-- Maximal stretches have no member in common. -/
theorem AreMaximal.disjoint {rs : List (Int × Nat)} (h : AreMaximal s rs) :
    rs.Pairwise fun r r' => ∀ a : Int, ¬((r.1 ≤ a ∧ a < r.1 + r.2) ∧ r'.1 ≤ a ∧ a < r'.1 + r'.2) := by
  refine h.sorted.imp_of_mem ?_
  rintro r r' hr hr' hlt a ⟨⟨-, ha⟩, ha', -⟩
  have := (h.maximal r hr).gap (h.maximal r' hr') hlt
  omega

theorem AreMaximal.covers_iff {rs : List (Int × Nat)} (h : AreMaximal s rs) (a : Int) :
    (∃ r ∈ rs, r.1 ≤ a ∧ a < r.1 + r.2) ↔ s a := by
  constructor
  · rintro ⟨r, hr, hle, hlt⟩
    exact (h.maximal r hr).mem a hle hlt
  · exact h.covers a

theorem Consecutive.mem_extent (hg : Consecutive g) (hne : g ≠ []) {a : Int} :
    a ∈ g ↔ (extent g).1 ≤ a ∧ a < (extent g).1 + (extent g).2 := by
  rw [hg.mem_iff (List.length_pos_iff.mpr hne)]
  obtain ⟨b, t, rfl⟩ := List.exists_cons_of_ne_nil hne
  exact Iff.rfl

theorem eq_of_nodup (hl : l.Nodup) {a : Int} {g' : List Int} (hg : g ∈ runs l) (hg' : g' ∈ runs l)
    (ha : a ∈ g) (ha' : a ∈ g') : g = g' :=
  eq_of_count_one (List.count_eq_one_of_mem hl (mem_of_mem_runs hg ha)) hg hg' ha ha'

/-- **The runs of a list without repetitions** are the maximal stretches of its members. -/
theorem areMaximal_runs (hl : l.Pairwise (· ≤ ·)) (hnodup : l.Nodup) :
    AreMaximal (· ∈ l) ((runs l).map extent) := by
  have hmem : ∀ g ∈ runs l, ∀ a, a ∈ g ↔ (extent g).1 ≤ a ∧ a < (extent g).1 + (extent g).2 :=
    fun g hg a => (consecutive_of_mem hg).mem_extent (ne_nil_of_mem_runs hg)
  have hpos : ∀ g ∈ runs l, 0 < (extent g).2 :=
    fun g hg => List.length_pos_iff.mpr (ne_nil_of_mem_runs hg)
  have hhead : ∀ g ∈ runs l, (extent g).1 ∈ g := by
    intro g hg
    rw [hmem g hg]
    have := hpos g hg
    omega
  refine ⟨?_, ?_, ?_⟩
  · -- the runs come in order, and no two of them have the same head
    rw [List.pairwise_map, List.pairwise_iff_forall_sublist]
    intro g g' hsub
    have hg : g ∈ runs l := hsub.subset (by simp)
    have hg' : g' ∈ runs l := hsub.subset (by simp)
    have hflat : (g ++ g').Sublist l := by
      have := hsub.flatten
      rwa [flatten_runs, List.flatten_cons, List.flatten_singleton] at this
    have hle := (List.pairwise_append.mp (hl.sublist hflat)).2.2 _ (hhead g hg) _ (hhead g' hg')
    have hne := (List.nodup_append.mp (hnodup.sublist hflat)).2.2 _ (hhead g hg) _ (hhead g' hg')
    omega
  · intro r hr
    obtain ⟨g, hg, rfl⟩ := List.mem_map.mp hr
    have := hpos g hg
    refine ⟨hpos g hg, ?_, ?_, ?_⟩
    · intro a h h'
      exact mem_of_mem_runs hg ((hmem g hg a).mpr ⟨h, h'⟩)
    · intro hbefore
      have hsucc : (extent g).1 - 1 + 1 ∈ l := by
        rw [Int.sub_add_cancel]
        exact mem_of_mem_runs hg (hhead g hg)
      obtain ⟨g', hg', h, h'⟩ := exists_run_pair hl hbefore hsucc
      rw [Int.sub_add_cancel] at h'
      obtain rfl := eq_of_nodup hnodup hg hg' (hhead g hg) h'
      rw [hmem g hg] at h
      omega
    · intro hafter
      have hlast : (extent g).1 + (extent g).2 - 1 ∈ g := by
        rw [hmem g hg]
        omega
      have hsucc : (extent g).1 + (extent g).2 - 1 + 1 ∈ l := by
        rwa [Int.sub_add_cancel]
      obtain ⟨g', hg', h, h'⟩ := exists_run_pair hl (mem_of_mem_runs hg hlast) hsucc
      rw [Int.sub_add_cancel] at h'
      obtain rfl := eq_of_nodup hnodup hg hg' hlast h
      rw [hmem g hg] at h'
      omega
  · intro a ha
    obtain ⟨g, hg, hag⟩ := exists_run ha
    exact ⟨extent g, List.mem_map_of_mem hg, (hmem g hg a).mp hag⟩

end Maximal

end Runs
