import ModbusLogger.Db.Hasher.Refinement
import ModbusLogger.Lib.LowerBound

/-!
# Range queries on the ring

`get_hashed` answers a query by two binary searches over the live window. The window is sorted as
long as timestamps do not decrease, so the searches find the ends of the range, and what lies
between them is the answer. Everything is said about `liveWindow`; which slots it reads is the
business of `Refinement`.
-/

namespace ModbusLogger.Hasher

open CyclicWindow

/-! ## The window is sorted -/

/-- Oldest first, all timestamps between `lo` and `hi`. -/
structure Ordered (lo hi : Int) (log : List HashedValue) : Prop where
  sorted : log.Pairwise fun a b => a.timestamp ≤ b.timestamp
  bounds : ∀ r ∈ log, lo ≤ r.timestamp ∧ r.timestamp ≤ hi

namespace Ordered

variable {lo hi : Int} {log : List HashedValue}

theorem mono (ho : Ordered lo hi log) {hi' : Int} (h : hi ≤ hi') : Ordered lo hi' log :=
  ⟨ho.sorted, fun r hr => ⟨(ho.bounds r hr).1, le_trans (ho.bounds r hr).2 h⟩⟩

theorem sublist (ho : Ordered lo hi log) {log' : List HashedValue} (h : log'.Sublist log) :
    Ordered lo hi log' :=
  ⟨ho.sorted.sublist h, fun r hr => ho.bounds r (h.subset hr)⟩

theorem concat (ho : Ordered lo hi log) {v : HashedValue} (hlo : lo ≤ v.timestamp)
    (hhi : hi ≤ v.timestamp) : Ordered lo v.timestamp (log ++ [v]) := by
  have hbelow : ∀ r ∈ log, r.timestamp ≤ v.timestamp := fun r hr => (ho.bounds r hr).2.trans hhi
  refine ⟨?_, ?_⟩
  · rw [Transducer.pairwise_concat]
    exact ⟨ho.sorted, hbelow⟩
  · rw [Transducer.forall_mem_concat]
    exact ⟨fun r hr => ⟨(ho.bounds r hr).1, hbelow r hr⟩, hlo, le_refl _⟩

/-- Moving the timestamp of the newest record forward replaces the record. -/
theorem refresh (ho : Ordered lo hi log) {timestamp : Int} (hlo : lo ≤ timestamp)
    (hhi : hi ≤ timestamp) :
    Ordered lo timestamp (log.modifyLast fun r => { r with timestamp }) := by
  rcases List.eq_nil_or_concat' log with rfl | ⟨older, last, rfl⟩
  · exact ⟨List.Pairwise.nil, fun r hr => absurd hr List.not_mem_nil⟩
  · rw [List.modifyLast_concat]
    exact (ho.sublist (List.sublist_append_left _ _)).concat (v := ⟨last.val, timestamp⟩) hlo hhi

end Ordered

/-- The operations of one sample: it is appended, its timestamp is taken over, or the last record
is given up. -/
inductive LogOp.Of (v : HashedValue) : LogOp → Prop where
  | push : LogOp.Of v (.push v)
  | refresh : LogOp.Of v (.refresh v.timestamp)
  | recover : LogOp.Of v .recover

theorem Dedup.good_ops (slot : HashedValue) (pending : Bool) (last : Int) (v : HashedValue) :
    ∀ op ∈ (Dedup.good slot pending last v).ops, op.Of v := by
  intro op hop
  by_cases heq : (slot.val == v.val) = true
  · by_cases hold : v.timestamp - last > STABLE_DELTA
    · rw [good_heartbeat heq hold] at hop
      rw [List.mem_singleton.mp hop]
      exact .push
    · rw [good_duplicate heq hold] at hop
      rw [List.mem_singleton.mp hop]
      exact .refresh
  · rw [good_change heq] at hop
    rw [List.mem_singleton.mp hop]
    exact .push

theorem Dedup.step_ops (d : Dedup) (v : HashedValue) : ∀ op ∈ (d.step v).ops, op.Of v := by
  intro op hop
  cases d with
  | normal slot pending last =>
      cases hv : v.isFailure with
      | true =>
          rw [step_begins hv] at hop
          rw [List.mem_singleton.mp hop]
          exact .push
      | false =>
          rw [step_normal hv] at hop
          exact good_ops slot pending last v op hop
  | inFail slot pending last since =>
      cases hv : v.isFailure with
      | true =>
          by_cases hlong : v.timestamp - since > FAILURE_DELTA
          · rw [step_reports hv hlong] at hop
            rw [List.mem_singleton.mp hop]
            exact .refresh
          · rw [step_waits hv hlong] at hop
            exact absurd hop List.not_mem_nil
      | false =>
          rw [step_noise hv] at hop
          rcases List.mem_cons.mp hop with rfl | hop
          · exact .recover
          · exact good_ops slot pending last v op hop
  | failReported =>
      cases hv : v.isFailure with
      | true =>
          rw [step_lasts hv] at hop
          exact absurd hop List.not_mem_nil
      | false =>
          rw [step_returns hv] at hop
          rw [List.mem_singleton.mp hop]
          exact .push

theorem LogOp.Of.ordered {N : Nat} {lo : Int} {log : List HashedValue} {v : HashedValue}
    {op : LogOp} (hop : op.Of v) (hlo : lo ≤ v.timestamp) (ho : Ordered lo v.timestamp log) :
    Ordered lo v.timestamp (op.apply N log) := by
  cases hop with
  | push =>
      obtain ⟨k, -, hk⟩ := push_eq_drop N log v
      rw [LogOp.apply, hk]
      exact (ho.concat hlo (le_refl _)).sublist (List.drop_sublist k _)
  | refresh => exact ho.refresh hlo (le_refl _)
  | recover => exact ho.sublist (List.dropLast_sublist log)

/-- A sample that is not older than the log leaves it sorted. -/
theorem History.add_ordered {N : Nat} {lo hi : Int} {a : History} {v : HashedValue}
    (ho : Ordered lo hi a.log) (hlo : lo ≤ v.timestamp) (hhi : hi ≤ v.timestamp) :
    Ordered lo v.timestamp (a.add N v).1.log := by
  have hfold : ∀ (ops : List LogOp) (log : List HashedValue), (∀ op ∈ ops, op.Of v) →
      Ordered lo v.timestamp log → Ordered lo v.timestamp (ops.foldl (LogOp.apply N) log) := by
    intro ops
    induction ops with
    | nil => exact fun log _ ho => ho
    | cons op ops ih =>
        intro log hops ho
        exact ih _ (fun op' h => hops op' (List.mem_cons_of_mem _ h))
          ((hops op List.mem_cons_self).ordered hlo ho)
  exact hfold _ _ (Dedup.step_ops a.dedup v) (ho.mono hhi)

/-- Over a run of samples with non-decreasing timestamps the log stays sorted. -/
theorem History.run_ordered {N : Nat} {first : HashedValue} {rest : List HashedValue}
    (hmono : (first :: rest).Pairwise fun a b => a.timestamp ≤ b.timestamp) :
    ∃ hi, Ordered first.timestamp hi (Transducer.run (History.add N) (.start first) rest).1.log := by
  suffices h : ∀ (rest : List HashedValue) (a : History) (hi : Int),
      Ordered first.timestamp hi a.log → first.timestamp ≤ hi → (∀ v ∈ rest, hi ≤ v.timestamp) →
      rest.Pairwise (fun a b => a.timestamp ≤ b.timestamp) →
      ∃ hi, Ordered first.timestamp hi (Transducer.run (History.add N) a rest).1.log by
    rw [List.pairwise_cons] at hmono
    refine h rest (.start first) first.timestamp ⟨List.pairwise_singleton _ _, ?_⟩ (le_refl _)
      hmono.1 hmono.2
    intro r hr
    rw [List.mem_singleton.mp hr]
    exact ⟨le_refl _, le_refl _⟩
  intro rest
  induction rest with
  | nil => exact fun a hi ho _ _ _ => ⟨hi, ho⟩
  | cons v rest ih =>
      intro a hi ho hlo hhi hsorted
      rw [List.pairwise_cons] at hsorted
      have hv := hhi v List.mem_cons_self
      exact ih _ v.timestamp (History.add_ordered ho (le_trans hlo hv) hv) (le_trans hlo hv)
        hsorted.1 hsorted.2

/-! ## The binary search -/

/-- A record of the half-open range. -/
def inRange (fromTs toTs : Int) (v : HashedValue) : Bool :=
  !decide (v.timestamp < fromTs) && decide (v.timestamp < toTs)

theorem inRange_iff {fromTs toTs : Int} {v : HashedValue} :
    inRange fromTs toTs v = true ↔ fromTs ≤ v.timestamp ∧ v.timestamp < toTs := by
  simp [inRange]

/-- `older than target`, at an offset of the window. -/
def olderAt (w : List HashedValue) (target : Int) (i : Nat) : Bool :=
  (w[i]?.map fun v => decide (v.timestamp < target)).getD false

/-- The loop of `lower_bound_ring` is the search of the library, on the window. -/
theorem lowerBoundLoop_eq {arr : List HashedValue} {oldest len : Nat} (hlen : len ≤ arr.length)
    (target : Int) {left right : Nat} (hright : right ≤ len) :
    ValueHasher.lowerBoundLoop arr oldest target left right =
      some (LowerBound.search (olderAt (window arr oldest len) target) left right) := by
  fun_induction LowerBound.search (olderAt (window arr oldest len) target) left right with
  | case1 left right hlt hmid ih =>
      rw [ValueHasher.lowerBoundLoop, if_pos hlt]
      dsimp only
      rw [← getElem?_window _ _ (by omega) hlen]
      cases hslot : (window arr oldest len)[left + (right - left) / 2]? with
      | none => simp [olderAt, hslot] at hmid
      | some v =>
          have hv : v.timestamp < target := by simpa [olderAt, hslot] using hmid
          simp only [hv, if_true]
          exact ih hright
  | case2 left right hlt hmid ih =>
      rw [ValueHasher.lowerBoundLoop, if_pos hlt]
      dsimp only
      rw [← getElem?_window _ _ (by omega) hlen]
      cases hslot : (window arr oldest len)[left + (right - left) / 2]? with
      | none =>
          -- the offset is inside the window
          rw [List.getElem?_eq_none_iff, length_window hlen] at hslot
          grind
      | some v =>
          have hv : ¬v.timestamp < target := by simpa [olderAt, hslot] using hmid
          simp only [hv, if_false]
          exact ih (by omega)
  | case3 left right hnot => rw [ValueHasher.lowerBoundLoop, if_neg hnot]

/-- What is older than the one target is older than a later one, in whatever order the records
stand. -/
theorem olderAt_mono (w : List HashedValue) {target target' : Int} (h : target ≤ target') (i : Nat)
    (hi : olderAt w target i = true) : olderAt w target' i = true := by
  unfold olderAt at hi ⊢
  cases hslot : w[i]? with
  | none => simp [hslot] at hi
  | some v =>
      rw [hslot] at hi
      have hi : v.timestamp < target := of_decide_eq_true hi
      exact decide_eq_true (lt_of_lt_of_le hi h)

section AnyOrder

variable {arr : List HashedValue} {size oldestIdx : Nat}

theorem lowerBoundRing_eq_search (hsize : size ≤ arr.length) (target : Int) :
    ValueHasher.lowerBoundRing arr size oldestIdx target =
      some (LowerBound.search (olderAt (window arr oldestIdx size) target) 0 size) :=
  lowerBoundLoop_eq hsize target (le_refl size)

theorem lowerBoundRing_le (hsize : size ≤ arr.length) (oldestIdx : Nat) (target : Int) :
    ∃ r ≤ size, ValueHasher.lowerBoundRing arr size oldestIdx target = some r :=
  ⟨_, (LowerBound.le_search _ 0 size (Nat.zero_le _)).2, lowerBoundRing_eq_search hsize target⟩

theorem lowerBoundRing_mono (hsize : size ≤ arr.length) {target target' : Int}
    (h : target ≤ target') {r r' : Nat}
    (hr : ValueHasher.lowerBoundRing arr size oldestIdx target = some r)
    (hr' : ValueHasher.lowerBoundRing arr size oldestIdx target' = some r') : r ≤ r' := by
  rw [lowerBoundRing_eq_search hsize] at hr hr'
  obtain rfl := Option.some.inj hr
  obtain rfl := Option.some.inj hr'
  exact LowerBound.search_mono (olderAt_mono _ h) (Nat.zero_le size)

end AnyOrder

/-- On a sorted window the search separates the records older than `target` from the others. -/
theorem search_isPartition {w : List HashedValue}
    (hw : w.Pairwise fun a b => a.timestamp ≤ b.timestamp) (target : Int) :
    LowerBound.IsPartition (fun v : HashedValue => decide (v.timestamp < target)) w
      (LowerBound.search (olderAt w target) 0 w.length) := by
  have hat : ∀ i (hi : i < w.length),
      olderAt w target i = decide (w[i].timestamp < target) := by
    intro i hi
    rw [olderAt, List.getElem?_eq_getElem hi, Option.map_some, Option.getD_some]
  refine ⟨(LowerBound.le_search _ _ _ (Nat.zero_le _)).2, fun i hi => ?_⟩
  show decide (w[i].timestamp < target) = true ↔ _
  rw [← hat i hi]
  refine LowerBound.search_spec (Nat.zero_le _) ?_ i (Nat.zero_le i) hi
  intro i j _ hij hj hp
  rw [hat j hj, decide_eq_true_eq] at hp
  rw [hat i (by omega), decide_eq_true_eq]
  rcases Nat.eq_or_lt_of_le hij with rfl | hlt
  · exact hp
  · have hle := List.pairwise_iff_getElem.mp hw i j (by omega) hj hlt
    grind

/-- Reading consecutive offsets of the window. -/
theorem mapM_window {arr : List HashedValue} {oldest len : Nat} (hlen : len ≤ arr.length)
    {start count : Nat} (h : start + count ≤ len) :
    (List.range' start count).mapM (fun i => arr[(oldest + i) % arr.length]?) =
      some (((window arr oldest len).drop start).take count) := by
  induction count generalizing start with
  | zero => simp
  | succ count ih =>
      have hlt : start < (window arr oldest len).length := by rw [length_window hlen]; omega
      rw [List.range'_succ, List.mapM_cons, ← getElem?_window _ _ (by omega) hlen, ih (by omega),
        List.getElem?_eq_getElem hlt, List.drop_eq_getElem_cons hlt, List.take_succ_cons]
      rfl

/-! ## The answer -/

/-- One slot is in use and the ring has not wrapped. -/
def ValueHasher.SingleSlot (h : ValueHasher) : Prop :=
  h.liveWindow.length = 1 ∧ h.ringFinished = false

section Query

variable {N : Nat} {h : ValueHasher} {log : List HashedValue}

theorem RingOf.singleSlot_iff (hr : RingOf N h log) :
    h.SingleSlot ↔ h.head = h.tail ∧ ¬h.ringFinished = true := by
  rw [ValueHasher.SingleSlot, hr.liveWindow_eq]
  generalize hlen : log.length = len
  have hs := hr.shape
  rw [hlen] at hs
  cases hs with
  | filling hfin htail _ => simp [hfin, htail]
  | full hfin _ => simp [hfin]
  | gap hfin _ => simp [hfin]

/-- The tail is a slot. -/
theorem RingOf.tail_lt (hr : RingOf N h log) : h.tail < N := by
  have hN := hr.two_le
  generalize hlen : log.length = len
  have hs := hr.shape
  rw [hlen] at hs
  cases hs with
  | filling _ htail _ => omega
  | full _ htail => rw [htail]; exact Nat.mod_lt _ (by omega)
  | gap _ htail => rw [htail]; exact Nat.mod_lt _ (by omega)

/-- The tail is the oldest record. -/
theorem RingOf.oldest_eq (hr : RingOf N h log) : h.hashedValues[h.tail]? = log.head? := by
  have hw := getElem?_window h.hashedValues h.tail hr.length_pos
    (hr.slots ▸ hr.length_le)
  rw [hr.live, Nat.add_zero, hr.slots, Nat.mod_eq_of_lt hr.tail_lt] at hw
  rw [List.head?_eq_getElem?, hw]

theorem RingOf.lowerBoundRing_eq (hr : RingOf N h log) (target : Int) :
    ValueHasher.lowerBoundRing h.hashedValues log.length h.tail target =
      some (LowerBound.search (olderAt log target) 0 log.length) := by
  have hle : log.length ≤ h.hashedValues.length := hr.slots ▸ hr.length_le
  rw [ValueHasher.lowerBoundRing, lowerBoundLoop_eq hle target (Nat.le_refl _), hr.live]

/-- When the window can tell: the range is not empty, more than the first slot is in use, the oldest
record is not newer than the range, and a record lies in it. -/
def Tells (blocked : Prop) (w : List HashedValue) (fromTs toTs : Int) : Prop :=
  fromTs < toTs ∧ ¬blocked ∧ (∀ oldest ∈ w.head?, oldest.timestamp ≤ fromTs) ∧
    ∃ v ∈ w, fromTs ≤ v.timestamp ∧ v.timestamp < toTs

/-- The two searches cut the records of the range out of the log. -/
theorem RingOf.searches (hr : RingOf N h log)
    (hsorted : log.Pairwise fun a b => a.timestamp ≤ b.timestamp) {fromTs toTs : Int}
    (hlt : fromTs < toTs) :
    ∃ start stop,
      ValueHasher.lowerBoundRing h.hashedValues log.length h.tail fromTs = some start ∧
      ValueHasher.lowerBoundRing h.hashedValues log.length h.tail toTs = some stop ∧
      start ≤ stop ∧ stop ≤ log.length ∧
      log.filter (inRange fromTs toTs) = (log.drop start).take (stop - start) := by
  -- both searches end at partition points of the log
  have hstart := search_isPartition hsorted fromTs
  have hstop := search_isPartition hsorted toTs
  have holder : ∀ v : HashedValue, decide (v.timestamp < fromTs) = true →
      decide (v.timestamp < toTs) = true := by
    intro v hv
    rw [decide_eq_true_eq] at hv ⊢
    exact hv.trans hlt
  obtain ⟨hbetween, hle⟩ := hstart.filter_between hstop holder
  exact ⟨_, _, hr.lowerBoundRing_eq fromTs, hr.lowerBoundRing_eq toTs, hle, hstop.1, hbetween⟩

theorem getHashed_of_le (h : ValueHasher) {fromTs toTs : Int} (hle : toTs ≤ fromTs) :
    h.getHashed fromTs toTs = some none := by
  rw [ValueHasher.getHashed, if_pos (.inl hle)]
  rfl

/-- No index is out of range and no difference is negative, whatever the slots hold. -/
theorem exists_getHashed (h : ValueHasher) (hslots : h.hashedValues.length = h.capacity)
    (htail : h.tail < h.capacity) (fromTs toTs : Int) :
    ∃ answer, h.getHashed fromTs toTs = some answer := by
  rcases le_or_gt toTs fromTs with hge | hlt
  · exact ⟨none, getHashed_of_le h hge⟩
  have hlen : (h.head + h.capacity - h.tail) % h.capacity + 1 ≤ h.hashedValues.length := by
    rw [hslots]
    exact Nat.mod_lt _ (by omega)
  obtain ⟨start, -, hstart⟩ := lowerBoundRing_le hlen h.tail fromTs
  obtain ⟨stop, hstopLe, hstop⟩ := lowerBoundRing_le hlen h.tail toTs
  have hle : start ≤ stop := lowerBoundRing_mono hlen hlt.le hstart hstop
  have holdest := List.getElem?_eq_getElem (hslots ▸ htail)
  have hread : (List.range' start (stop - start)).mapM
      (fun i => h.hashedValues[(h.tail + i) % h.hashedValues.length]?) = _ :=
    mapM_window hlen (by omega)
  rw [ValueHasher.getHashed]
  split
  · exact ⟨none, rfl⟩
  simp only [holdest, hstart, hstop, Option.bind_eq_bind, Option.bind_some]
  split
  · exact ⟨none, rfl⟩
  split
  · exact ⟨none, rfl⟩
  rw [checkedSub, if_pos hle, Option.bind_some, ← hslots, hread]
  exact ⟨_, rfl⟩

/-- No index is out of range, in whatever order the records stand. -/
theorem RingOf.exists_getHashed (hr : RingOf N h log) (fromTs toTs : Int) :
    ∃ answer, h.getHashed fromTs toTs = some answer :=
  Hasher.exists_getHashed h (hr.slots.trans hr.capacity.symm) (hr.capacity ▸ hr.tail_lt) fromTs toTs

/-- `get_hashed` past its first two checks. Timestamp zero marks a slot that was never written. -/
theorem RingOf.getHashed_open (hr : RingOf N h log)
    (hsorted : log.Pairwise fun a b => a.timestamp ≤ b.timestamp) {fromTs toTs : Int}
    (hopen : ¬(fromTs ≥ toTs ∨ (h.head = h.tail ∧ ¬h.ringFinished = true)))
    {oldest : HashedValue} (hhead : log.head? = some oldest) (hold : ¬fromTs < oldest.timestamp) :
    h.getHashed fromTs toTs = some (if log.filter (inRange fromTs toTs) = [] then none
      else some ((log.filter (inRange fromTs toTs)).filter fun hv => hv.timestamp != 0)) := by
  have hlt : fromTs < toTs := not_le.mp fun hge => hopen (.inl hge)
  obtain ⟨start, stop, hstart, hstop, hle, hstopLe, hfilter⟩ := hr.searches hsorted hlt
  have hlen : (h.head + h.capacity - h.tail) % h.capacity + 1 = log.length := hr.liveLen
  by_cases hsame : start = stop
  · rw [← hsame] at hstop
    have hnone : log.filter (inRange fromTs toTs) = [] := by
      rw [hfilter, hsame, Nat.sub_self, List.take_zero]
    rw [ValueHasher.getHashed, if_neg hopen, if_pos hnone]
    simp [hr.oldest_eq, hhead, hlen, hstart, hstop]
  · have hsome : log.filter (inRange fromTs toTs) ≠ [] := by
      rw [hfilter]
      apply List.ne_nil_of_length_pos
      rw [List.length_take, List.length_drop]
      grind
    have hsub : checkedSub stop start = some (stop - start) := by rw [checkedSub, if_pos hle]
    have hmap : (List.range' start (stop - start)).mapM
        (fun i => h.hashedValues[(h.tail + i) % h.capacity]?) =
          some (log.filter (inRange fromTs toTs)) := by
      have hlog : log.length ≤ h.hashedValues.length := hr.slots ▸ hr.length_le
      rw [hfilter, ← hr.slots.trans hr.capacity.symm, mapM_window hlog (by omega), hr.live]
    rw [ValueHasher.getHashed, if_neg hopen, if_neg hsome]
    simp only [hr.oldest_eq, hhead, hold, hlen, hstart, hstop, hsame, hsub, hmap,
      Option.bind_eq_bind, Option.bind_some, if_false]
    rfl

/-- A record in the range is a record among those filtered. -/
theorem filter_inRange_ne_nil {fromTs toTs : Int} :
    log.filter (inRange fromTs toTs) ≠ [] ↔
      ∃ v ∈ log, fromTs ≤ v.timestamp ∧ v.timestamp < toTs := by
  rw [Ne, List.filter_eq_nil_iff]
  push Not
  simp only [inRange_iff]

/-- `get_hashed` on a sorted ring. -/
theorem RingOf.getHashed_spec (hr : RingOf N h log)
    (hsorted : log.Pairwise fun a b => a.timestamp ≤ b.timestamp) (fromTs toTs : Int) :
    ∃ answer, h.getHashed fromTs toTs = some answer ∧
      (Tells h.SingleSlot log fromTs toTs → answer =
        some ((log.filter (inRange fromTs toTs)).filter fun hv => hv.timestamp != 0)) ∧
      (¬Tells h.SingleSlot log fromTs toTs → answer = none) := by
  by_cases hblocked : fromTs ≥ toTs ∨ (h.head = h.tail ∧ ¬h.ringFinished = true)
  · refine ⟨none, by rw [ValueHasher.getHashed, if_pos hblocked]; rfl, ?_, fun _ => rfl⟩
    rintro ⟨hlt, hnot, -⟩
    rcases hblocked with hge | hsingle
    · exact absurd hlt (not_lt.mpr hge)
    · exact absurd (hr.singleSlot_iff.mpr hsingle) hnot
  have hhead := List.head?_eq_some_head hr.ne_nil
  by_cases hold : fromTs < (log.head hr.ne_nil).timestamp
  · refine ⟨none, ?_, ?_, fun _ => rfl⟩
    · rw [ValueHasher.getHashed, if_neg hblocked]
      simp [hr.oldest_eq, hhead, hold]
    · rintro ⟨-, -, htold, -⟩
      exact absurd hold (not_lt.mpr (htold _ hhead))
  refine ⟨_, hr.getHashed_open hsorted hblocked hhead hold, ?_, ?_⟩
  · rintro ⟨-, -, -, hfound⟩
    rw [if_neg (filter_inRange_ne_nil.mpr hfound)]
  · intro hnot
    rw [if_pos]
    by_contra hsome
    refine hnot ⟨?_, ?_, ?_, filter_inRange_ne_nil.mp hsome⟩
    · exact not_le.mp fun hge => hblocked (.inl hge)
    · rw [hr.singleSlot_iff]
      exact fun hsingle => hblocked (.inr hsingle)
    · intro oldest holdest
      rw [hhead, Option.mem_some_iff] at holdest
      subst holdest
      exact not_lt.mp hold

end Query

/-! ## Exactness -/

/-- The exact answer to a query, unless it is `blocked`. -/
structure Answers (blocked : Prop) (w : List HashedValue) (fromTs toTs : Int)
    (answer : Option (List HashedValue)) : Prop where
  sorted : w.Pairwise fun a b => a.timestamp ≤ b.timestamp
  found : Tells blocked w fromTs toTs → answer = some (w.filter (inRange fromTs toTs))
  silent : ¬Tells blocked w fromTs toTs → answer = none

/-- Positive timestamps are not taken for unused slots. -/
theorem RingOf.getHashed_answers {N : Nat} {h : ValueHasher} {log : List HashedValue}
    (hr : RingOf N h log) {lo hi : Int} (hlo : 0 < lo) (ho : Ordered lo hi log)
    (fromTs toTs : Int) :
    ∃ answer, h.getHashed fromTs toTs = some answer ∧
      Answers h.SingleSlot h.liveWindow fromTs toTs answer := by
  rw [hr.liveWindow_eq]
  obtain ⟨answer, hget, hfound, hsilent⟩ := hr.getHashed_spec ho.sorted fromTs toTs
  refine ⟨answer, hget, ho.sorted, ?_, hsilent⟩
  intro htells
  rw [hfound htells]
  congr 1
  rw [List.filter_eq_self]
  intro v hv
  have := (ho.bounds v (List.mem_of_mem_filter hv)).1
  rw [bne_iff_ne]
  grind

/-- After the samples `first :: rest` the ring answers `[fromTs, toTs)` exactly, unless the state is
one that `blocks`. -/
def QueriesExactly (N : Nat) (first : HashedValue) (rest : List HashedValue)
    (blocks : ValueHasher → Prop) (fromTs toTs : Int) : Prop :=
  ∃ h₀ h saved answer, ValueHasher.new N first.val first.timestamp = some h₀ ∧
    Transducer.runM ValueHasher.feed h₀ rest = some (h, saved) ∧
    h.getHashed fromTs toTs = some answer ∧
    Answers (blocks h) h.liveWindow fromTs toTs answer

/-- **Exact range queries.** The ring refuses only while a single slot is in use and it has not
wrapped. -/
theorem get_hashed_exact (N : Nat) (hN : 2 ≤ N) (first : HashedValue) (rest : List HashedValue)
    (hpos : 0 < first.timestamp)
    (hmono : (first :: rest).Pairwise fun a b => a.timestamp ≤ b.timestamp) (fromTs toTs : Int) :
    QueriesExactly N first rest ValueHasher.SingleSlot fromTs toTs := by
  obtain ⟨h₀, h, hnew, hrun, hrep⟩ := run_represents hN first rest
  obtain ⟨hi, ho⟩ := History.run_ordered (N := N) hmono
  obtain ⟨answer, hget, hanswers⟩ := hrep.ring.getHashed_answers hpos ho fromTs toTs
  exact ⟨h₀, h, _, answer, hnew, hrun, hget, hanswers⟩

/-- A run whose wrapped ring holds the noise of a rolled-back failure behind its head. -/
theorem get_hashed_exact_wrapped :
    QueriesExactly 2 ⟨Binary64.ofInt 1, 1000⟩
      [⟨Binary64.ofInt 2, 1010⟩, ⟨Binary64.MIN, 1020⟩, ⟨Binary64.ofInt 2, 1030⟩]
      ValueHasher.SingleSlot 1030 2000 :=
  get_hashed_exact 2 (by decide) _ _ (by decide) (by decide) 1030 2000

/-- No sample ever made the ring leave its first slot. -/
def NeverAdvanced (N : Nat) (first : HashedValue) (rest : List HashedValue) : Prop :=
  ∀ k ≤ rest.length, ∃ h₀ h saved, ValueHasher.new N first.val first.timestamp = some h₀ ∧
    Transducer.runM ValueHasher.feed h₀ (rest.take k) = some (h, saved) ∧ h.current = 0

/-- A failure that turns out to be noise advances the ring and is rolled back; the ring then
refuses a query that its one record answers. -/
theorem get_hashed_refuses_rolled_back_ring :
    ¬QueriesExactly 4 ⟨Binary64.ofInt 1, 1000⟩
      [⟨Binary64.MIN, 1050⟩, ⟨Binary64.ofInt 1, 1100⟩]
      (fun h => h.liveWindow.length = 1 ∧ NeverAdvanced 4 ⟨Binary64.ofInt 1, 1000⟩
        [⟨Binary64.MIN, 1050⟩, ⟨Binary64.ofInt 1, 1100⟩]) 1100 1200 := by
  rintro ⟨h₀, h, saved, answer, hnew, hrun, hget, hanswers⟩
  have hend : ∀ h₀ ∈ ValueHasher.new 4 (Binary64.ofInt 1) 1000,
      ∀ r ∈ Transducer.runM ValueHasher.feed h₀ [⟨Binary64.MIN, 1050⟩, ⟨Binary64.ofInt 1, 1100⟩],
        r.1.liveWindow = [⟨Binary64.ofInt 1, 1100⟩] ∧ r.1.getHashed 1100 1200 = some none := by
    decide +kernel
  have hadvanced : ∀ h₀ ∈ ValueHasher.new 4 (Binary64.ofInt 1) 1000,
      ∀ r ∈ Transducer.runM ValueHasher.feed h₀ [⟨Binary64.MIN, 1050⟩], r.1.current ≠ 0 := by
    decide +kernel
  obtain ⟨hwindow, hnone⟩ := hend h₀ hnew (h, saved) hrun
  have hfound := hanswers.found ⟨by decide, ?_, ?_, ?_⟩
  · rw [hnone] at hget
    rw [← Option.some.inj hget] at hfound
    exact absurd hfound (by simp)
  · rintro ⟨-, hnever⟩
    obtain ⟨h₁, h', saved', hnew', hrun', hzero⟩ := hnever 1 (by decide)
    exact hadvanced h₁ hnew' (h', saved') hrun' hzero
  · rw [hwindow]
    simp
  · rw [hwindow]
    exact ⟨_, List.mem_singleton_self _, by decide, by decide⟩

/-! ## Rings that are not sorted

The system clock may be set back, so the timestamps of a ring may stand in any order. The searches do
not find a partition point then, but they still keep their order: they probe the same offsets until
the later target goes right where the earlier one goes left.
-/

/-- **Range bounds never cross**, whatever the slots hold: a search stays in the array and ends inside
its window, a later target does not end earlier, and `get_hashed` never subtracts a larger bound from a
smaller one. -/
theorem range_bounds_never_cross {arr : List HashedValue} {size oldestIdx : Nat}
    (hsize : size ≤ arr.length) (hstart : oldestIdx < arr.length) :
    (∀ target, ∃ r ≤ size, ValueHasher.lowerBoundRing arr size oldestIdx target = some r) ∧
      (∀ target target' r r', target ≤ target' →
        ValueHasher.lowerBoundRing arr size oldestIdx target = some r →
        ValueHasher.lowerBoundRing arr size oldestIdx target' = some r' → r ≤ r') ∧
      ∀ h : ValueHasher, h.hashedValues = arr → h.capacity = arr.length → h.tail = oldestIdx →
        ∀ fromTs toTs, fromTs < toTs → ∃ answer, h.getHashed fromTs toTs = some answer := by
  refine ⟨lowerBoundRing_le hsize oldestIdx, ?_, ?_⟩
  · intro target target' r r' hle hr hr'
    exact lowerBoundRing_mono hsize hle hr hr'
  · rintro h rfl hcapacity rfl fromTs toTs -
    exact exists_getHashed h hcapacity.symm (hcapacity ▸ hstart) fromTs toTs

/-- The clock was set back between the first two slots of the window. -/
theorem range_bounds_never_cross_setBack :
    ValueHasher.lowerBoundRing [⟨Binary64.ofInt 1, 1020⟩, ⟨Binary64.ofInt 2, 1100⟩,
        ⟨Binary64.ofInt 3, 1010⟩] 3 1 1015 = some 2 ∧
      ValueHasher.lowerBoundRing [⟨Binary64.ofInt 1, 1020⟩, ⟨Binary64.ofInt 2, 1100⟩,
        ⟨Binary64.ofInt 3, 1010⟩] 3 1 1200 = some 3 ∧ 2 ≤ 3 :=
  have hearlier : ValueHasher.lowerBoundRing [⟨Binary64.ofInt 1, 1020⟩, ⟨Binary64.ofInt 2, 1100⟩,
      ⟨Binary64.ofInt 3, 1010⟩] 3 1 1015 = some 2 := by decide +kernel
  have hlater : ValueHasher.lowerBoundRing [⟨Binary64.ofInt 1, 1020⟩, ⟨Binary64.ofInt 2, 1100⟩,
      ⟨Binary64.ofInt 3, 1010⟩] 3 1 1200 = some 3 := by decide +kernel
  ⟨hearlier, hlater,
    (range_bounds_never_cross (by decide) (by decide)).2.1 1015 1200 2 3 (by decide) hearlier hlater⟩

end ModbusLogger.Hasher
