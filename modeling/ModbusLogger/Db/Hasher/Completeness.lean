import ModbusLogger.Db.Hasher.HashMaster
import ModbusLogger.Db.Hasher.RangeQuery

/-!
# The ring against the database

The ring answers a query from one slot per run of equal values, the database from the first and the
last sample of the run. `Cover` says what the ring keeps of a saved record: the record itself; or,
once its slot has been refreshed, a later sample of the same run; or nothing, when it is older than
all that is kept, and then the ring does not answer for its time.

An unreported failure is no record, so the invariant is about the log without it.
-/

namespace ModbusLogger.Hasher

open Reader Transducer

/-- `r'` is the slot of `r` after later samples of the same value moved its timestamp. -/
structure StandsFor (samples saved : List HashedValue) (r r' : HashedValue) : Prop where
  val : r'.val = r.val
  later : r.timestamp < r'.timestamp
  quiet : ∀ s ∈ samples, r.timestamp < s.timestamp → s.timestamp ≤ r'.timestamp →
    s.isFailure = true ∨ (r.val == s.val) = true
  unsaved : ∀ q ∈ saved, r.timestamp < q.timestamp → r'.timestamp ≤ q.timestamp

/-- What the log `base` keeps of `r`. Only records of `stand` stand for others. -/
def Cover (samples saved base stand : List HashedValue) (r : HashedValue) : Prop :=
  r ∈ base ∨ (∀ q ∈ base, r.timestamp < q.timestamp) ∨ ∃ r' ∈ stand, StandsFor samples saved r r'

/-- The log `base`, without an unreported failure, covers what is saved. -/
structure Covering (samples saved base stand : List HashedValue) : Prop where
  sorted : base.Pairwise fun a b => a.timestamp < b.timestamp
  fed : ∀ q ∈ base, ∃ s ∈ samples, q.timestamp ≤ s.timestamp
  savedFed : ∀ q ∈ saved, ∃ s ∈ samples, q.timestamp ≤ s.timestamp
  older : stand <+: base
  cover : ∀ r ∈ saved, Cover samples saved base stand r

/-- The slot stands for other records from the first refresh on. -/
def standIns (pending : Bool) (base : List HashedValue) : List HashedValue :=
  if pending then base else base.dropLast

/-- The newest record of the log is the slot of the state. -/
structure Slotted (samples saved base : List HashedValue) (slot : HashedValue) (pending : Bool) :
    Prop extends Covering samples saved base (standIns pending base) where
  last : base.getLast? = some slot
  upTo : ∀ q ∈ saved, q.timestamp ≤ slot.timestamp
  fresh : pending = true → ∀ q ∈ saved, q.timestamp < slot.timestamp
  since : ∀ s ∈ samples, slot.timestamp < s.timestamp → s.isFailure = true

/-- The invariant in each state. -/
inductive Complete (samples saved : List HashedValue) : History → Prop where
  | normal {slot : HashedValue} {pending : Bool} {last : Int} {log : List HashedValue} :
      Slotted samples saved log slot pending → Complete samples saved ⟨.normal slot pending last, log⟩
  | inFail {slot failure : HashedValue} {pending : Bool} {last since : Int}
      {base : List HashedValue} :
      Slotted samples saved base slot pending → slot.timestamp < failure.timestamp →
      failure.isFailure = true →
      Complete samples saved ⟨.inFail slot pending last since, base ++ [failure]⟩
  | failReported {log : List HashedValue} :
      Covering samples saved log log → Complete samples saved ⟨.failReported, log⟩

section Operations

variable {samples saved base stand : List HashedValue} {slot v : HashedValue}

theorem StandsFor.extend {r r' : HashedValue} (hs : StandsFor samples saved r r')
    (hv : r'.timestamp < v.timestamp) {out : List HashedValue}
    (hout : ∀ q ∈ out, r'.timestamp ≤ q.timestamp) :
    StandsFor (samples ++ [v]) (saved ++ out) r r' := by
  refine ⟨hs.val, hs.later, ?_, ?_⟩
  · rw [forall_mem_concat]
    exact ⟨hs.quiet, fun _ hle => absurd hle (not_le.mpr hv)⟩
  · rw [List.forall_mem_append]
    exact ⟨hs.unsaved, fun q hq _ => hout q hq⟩

theorem StandsFor.wait {r r' : HashedValue} (hs : StandsFor samples saved r r')
    (hv : r'.timestamp < v.timestamp) : StandsFor (samples ++ [v]) saved r r' := by
  have hext := hs.extend hv (fun q (hq : q ∈ []) => absurd hq List.not_mem_nil)
  rwa [List.append_nil] at hext

/-- Evicting the oldest records. -/
theorem Covering.drop (hc : Covering samples saved base stand) (k : Nat) :
    Covering samples saved (base.drop k) (stand.drop k) := by
  refine ⟨hc.sorted.sublist (List.drop_sublist k base),
    fun q hq => hc.fed q (List.mem_of_mem_drop hq), hc.savedFed, hc.older.drop k, ?_⟩
  have hsorted := hc.sorted
  rw [← List.take_append_drop k base, List.pairwise_append] at hsorted
  -- what was evicted is older than all that is left
  have hevicted : ∀ l, l <+: base → ∀ q ∈ l,
      q ∈ l.drop k ∨ ∀ q' ∈ base.drop k, q.timestamp < q'.timestamp := by
    intro l hl q hq
    rw [← List.take_append_drop k l] at hq
    rcases List.mem_append.mp hq with hq | hq
    · exact .inr (hsorted.2.2 q ((hl.take k).subset hq))
    · exact .inl hq
  intro r hr
  rcases hc.cover r hr with hmem | hold | ⟨r', hmem, hs⟩
  · rcases hevicted base (List.prefix_refl base) r hmem with h | h
    · exact .inl h
    · exact .inr (.inl h)
  · exact .inr (.inl fun q hq => hold q (List.mem_of_mem_drop hq))
  · rcases hevicted stand hc.older r' hmem with h | h
    · exact .inr (.inr ⟨r', h, hs⟩)
    · exact .inr (.inl fun q hq => lt_trans hs.later (h q hq))

theorem Covering.mono (hc : Covering samples saved base stand) : Covering samples saved base base := by
  refine ⟨hc.sorted, hc.fed, hc.savedFed, List.prefix_refl base, ?_⟩
  intro r hr
  rcases hc.cover r hr with hmem | hold | ⟨r', hmem, hs⟩
  · exact .inl hmem
  · exact .inr (.inl hold)
  · exact .inr (.inr ⟨r', hc.older.subset hmem, hs⟩)

theorem Covering.base_lt (hc : Covering samples saved base stand)
    (hlater : ∀ s ∈ samples, s.timestamp < v.timestamp) : ∀ q ∈ base, q.timestamp < v.timestamp := by
  intro q hq
  obtain ⟨s, hs, hle⟩ := hc.fed q hq
  exact lt_of_le_of_lt hle (hlater s hs)

/-- The last record of the log is its newest. -/
theorem Covering.le_last (hc : Covering samples saved base stand) {q : HashedValue}
    (hlast : base.getLast? = some q) : ∀ r ∈ base, r.timestamp ≤ q.timestamp := by
  obtain ⟨older, rfl⟩ := List.getLast?_eq_some_iff.mp hlast
  rw [forall_mem_concat]
  exact ⟨fun r hr => le_of_lt ((pairwise_concat.mp hc.sorted).2 r hr), le_refl _⟩

/-- A further sample does no harm. -/
theorem fed_concat {l : List HashedValue} (h : ∀ q ∈ l, ∃ s ∈ samples, q.timestamp ≤ s.timestamp) :
    ∀ q ∈ l, ∃ s ∈ samples ++ [v], q.timestamp ≤ s.timestamp := by
  intro q hq
  obtain ⟨s, hs, hle⟩ := h q hq
  exact ⟨s, List.mem_append_left _ hs, hle⟩

/-- Appending a newer sample. What is saved with it is the sample or the last record. -/
theorem Covering.append (hc : Covering samples saved base stand)
    (hlater : ∀ s ∈ samples, s.timestamp < v.timestamp) {out : List HashedValue}
    (hout : ∀ q ∈ out, base.getLast? = some q ∨ q = v) :
    Covering (samples ++ [v]) (saved ++ out) (base ++ [v]) stand := by
  have hbase := hc.base_lt hlater
  have hnewest : ∀ q ∈ out, ∀ r' ∈ base, r'.timestamp ≤ q.timestamp := by
    intro q hq r' hr'
    rcases hout q hq with hlast | rfl
    · exact hc.le_last hlast r' hr'
    · exact le_of_lt (hbase r' hr')
  have hv : v ∈ samples ++ [v] := List.mem_append_right _ (List.mem_singleton_self v)
  refine ⟨?_, ?_, ?_, hc.older.trans (List.prefix_append base [v]), ?_⟩
  · rw [pairwise_concat]
    exact ⟨hc.sorted, hbase⟩
  · rw [forall_mem_concat]
    exact ⟨fun q hq => ⟨v, hv, le_of_lt (hbase q hq)⟩, v, hv, le_refl _⟩
  · rw [List.forall_mem_append]
    refine ⟨fed_concat hc.savedFed, ?_⟩
    intro q hq
    rcases hout q hq with hlast | rfl
    · exact ⟨v, hv, le_of_lt (hbase q (List.mem_of_getLast? hlast))⟩
    · exact ⟨q, hv, le_refl _⟩
  · intro r hr
    rcases List.mem_append.mp hr with hr | hr
    · rcases hc.cover r hr with hmem | hold | ⟨r', hmem, hs⟩
      · exact .inl (List.mem_append_left _ hmem)
      · obtain ⟨s, hs, hle⟩ := hc.savedFed r hr
        exact .inr (.inl (forall_mem_concat.mpr ⟨hold, lt_of_le_of_lt hle (hlater s hs)⟩))
      · have hmem' := hc.older.subset hmem
        exact .inr (.inr ⟨r', hmem, hs.extend (hbase r' hmem') fun q hq => hnewest q hq r' hmem'⟩)
    · rcases hout r hr with hlast | rfl
      · exact .inl (List.mem_append_left _ (List.mem_of_getLast? hlast))
      · exact .inl (List.mem_append_right _ (List.mem_singleton_self _))

/-- A sample that changes neither the log nor what is saved. -/
theorem Covering.skip (hc : Covering samples saved base stand)
    (hlater : ∀ s ∈ samples, s.timestamp < v.timestamp) :
    Covering (samples ++ [v]) saved base stand := by
  refine ⟨hc.sorted, fed_concat hc.fed, fed_concat hc.savedFed, hc.older, ?_⟩
  intro r hr
  rcases hc.cover r hr with hmem | hold | ⟨r', hmem, hs⟩
  · exact .inl hmem
  · exact .inr (.inl hold)
  · exact .inr (.inr ⟨r', hmem, hs.wait (hc.base_lt hlater r' (hc.older.subset hmem))⟩)

/-- The state after `v` was pushed and saved as it came. -/
theorem Covering.start (hc : Covering samples saved base stand) (N : Nat) (hN : 2 ≤ N)
    (hlater : ∀ s ∈ samples, s.timestamp < v.timestamp) {out : List HashedValue}
    (hout : ∀ q ∈ out, base.getLast? = some q ∨ q = v) :
    Complete (samples ++ [v]) (saved ++ out) ⟨.start v, CyclicWindow.push N base v⟩ := by
  obtain ⟨k, -, hk⟩ := CyclicWindow.push_eq_drop N base v
  have happ := hc.mono.append hlater hout
  have hdrop := happ.drop k
  have hstand : base.drop k = ((base ++ [v]).drop k).dropLast := by
    rw [List.dropLast_drop_eq_drop_dropLast, List.dropLast_concat]
  have hlast : ((base ++ [v]).drop k).getLast? = some v := by
    rw [← hk]
    exact CyclicWindow.getLast?_push (by omega) base v
  have hbase := hc.base_lt hlater
  rw [hstand] at hdrop
  rw [hk]
  refine .normal ⟨hdrop, hlast, ?_, ?_, ?_⟩
  · intro q hq
    obtain ⟨s, hs, hle⟩ := happ.savedFed q hq
    rcases List.mem_append.mp hs with hs | hs
    · exact le_trans hle (le_of_lt (hlater s hs))
    · rwa [List.mem_singleton.mp hs] at hle
  · intro h
    cases h
  · rw [forall_mem_concat]
    exact ⟨fun s hs hlt => absurd hlt (lt_asymm (hlater s hs)), fun hlt => absurd hlt (lt_irrefl _)⟩

/-- A failure that is not reported leaves the slot in place. -/
theorem Slotted.failure {pending : Bool} (hs : Slotted samples saved base slot pending)
    (hv : v.isFailure = true) (hlater : ∀ s ∈ samples, s.timestamp < v.timestamp) :
    Slotted (samples ++ [v]) saved base slot pending := by
  refine ⟨hs.toCovering.skip hlater, hs.last, hs.upTo, hs.fresh, ?_⟩
  rw [forall_mem_concat]
  exact ⟨hs.since, fun _ => hv⟩

/-- Eviction leaves the slot in place. -/
theorem Slotted.evict {pending : Bool} {older : List HashedValue}
    (hs : Slotted samples saved (older ++ [slot]) slot pending) (k : Nat) :
    Slotted samples saved (older.drop k ++ [slot]) slot pending := by
  refine ⟨?_, List.getLast?_concat, hs.upTo, hs.fresh, hs.since⟩
  have hdrop := hs.toCovering.drop (min k older.length)
  have hkeep : ∀ l : List HashedValue, (older ++ l).drop (min k older.length) = older.drop k ++ l := by
    intro l
    rw [List.drop_append_of_le_length (Nat.min_le_right _ _)]
    congr 1
    rcases Nat.le_total k older.length with h | h
    · rw [Nat.min_eq_left h]
    · rw [Nat.min_eq_right h, List.drop_length, List.drop_of_length_le h]
  rw [hkeep] at hdrop
  cases pending with
  | true =>
      rw [standIns, if_pos rfl, hkeep] at hdrop
      exact hdrop
  | false =>
      have hold := hkeep []
      rw [List.append_nil, List.append_nil] at hold
      rw [standIns, if_neg Bool.false_ne_true, List.dropLast_concat, hold] at hdrop
      rw [standIns, if_neg Bool.false_ne_true, List.dropLast_concat]
      exact hdrop

/-- The refreshed slot stands for the record that it was: all since is noise, and nothing was saved. -/
theorem Slotted.stands_now {pending : Bool} (hslot : Slotted samples saved base slot pending)
    (heq : (slot.val == v.val) = true) (hlt : slot.timestamp < v.timestamp) :
    StandsFor (samples ++ [v]) saved slot { slot with timestamp := v.timestamp } := by
  refine ⟨rfl, hlt, ?_, ?_⟩
  · rw [forall_mem_concat]
    exact ⟨fun s hs hlt _ => .inl (hslot.since s hs hlt), fun _ _ => .inr heq⟩
  · intro q hq hlt
    exact absurd (hslot.upTo q hq) (not_le.mpr hlt)

/-- A slot that stood for a record already is pending, and goes on to stand for it. -/
theorem Slotted.stands_on (hslot : Slotted samples saved base slot true) {r : HashedValue}
    (hs : StandsFor samples saved r slot) (heq : (slot.val == v.val) = true)
    (hlt : slot.timestamp < v.timestamp) :
    StandsFor (samples ++ [v]) saved r { slot with timestamp := v.timestamp } := by
  refine ⟨hs.val, lt_trans hs.later hlt, ?_, ?_⟩
  · rw [forall_mem_concat]
    refine ⟨?_, fun _ _ => .inr (hs.val ▸ heq)⟩
    intro s hmem hafter _
    by_cases hnew : slot.timestamp < s.timestamp
    · exact .inl (hslot.since s hmem hnew)
    · exact hs.quiet s hmem hafter (not_lt.mp hnew)
  · intro q hq hafter
    exact absurd (hs.unsaved q hq hafter) (not_le.mpr (hslot.fresh rfl q hq))

/-- A repeated value moves the timestamp of the slot. -/
theorem Slotted.refresh {pending : Bool} (hslot : Slotted samples saved base slot pending)
    (heq : (slot.val == v.val) = true) (hlater : ∀ s ∈ samples, s.timestamp < v.timestamp) :
    Slotted (samples ++ [v]) saved (base.dropLast ++ [{ slot with timestamp := v.timestamp }])
      { slot with timestamp := v.timestamp } true := by
  have hbase := hslot.base_lt hlater
  obtain ⟨older, rfl⟩ := List.getLast?_eq_some_iff.mp hslot.last
  obtain ⟨hsorted, hnewest⟩ := pairwise_concat.mp hslot.sorted
  obtain ⟨holder, hlt⟩ := forall_mem_concat.mp hbase
  have hv : v ∈ samples ++ [v] := List.mem_concat_self
  have hsaved : ∀ q ∈ saved, q.timestamp < v.timestamp :=
    fun q hq => lt_of_le_of_lt (hslot.upTo q hq) hlt
  rw [List.dropLast_concat]
  refine ⟨⟨?_, ?_, fed_concat hslot.savedFed, List.prefix_refl _, ?_⟩, List.getLast?_concat,
    fun q hq => le_of_lt (hsaved q hq), fun _ => hsaved, ?_⟩
  · rw [pairwise_concat]
    exact ⟨hsorted, holder⟩
  · rw [forall_mem_concat]
    exact ⟨fun q hq => ⟨v, hv, le_of_lt (holder q hq)⟩, v, hv, le_refl _⟩
  · intro r hr
    rcases hslot.cover r hr with hmem | hold | ⟨r', hmem, hs⟩
    · rcases List.mem_append.mp hmem with hmem | hmem
      · exact .inl (List.mem_append_left _ hmem)
      · rw [List.mem_singleton.mp hmem]
        exact .inr (.inr ⟨_, List.mem_concat_self, hslot.stands_now heq hlt⟩)
    · obtain ⟨hold, hslotOld⟩ := forall_mem_concat.mp hold
      exact .inr (.inl (forall_mem_concat.mpr ⟨hold, lt_trans hslotOld hlt⟩))
    · cases pending with
      | false =>
          rw [standIns, if_neg Bool.false_ne_true, List.dropLast_concat] at hmem
          exact .inr (.inr ⟨r', List.mem_append_left _ hmem, hs.wait (holder r' hmem)⟩)
      | true =>
          rw [standIns, if_pos rfl] at hmem
          rcases List.mem_append.mp hmem with hmem | hmem
          · exact .inr (.inr ⟨r', List.mem_append_left _ hmem, hs.wait (holder r' hmem)⟩)
          · rw [List.mem_singleton.mp hmem] at hs
            exact .inr (.inr ⟨_, List.mem_concat_self, hslot.stands_on hs heq hlt⟩)
  · rw [forall_mem_concat]
    exact ⟨fun s hs hlt => absurd hlt (lt_asymm (hlater s hs)), fun hlt => absurd hlt (lt_irrefl _)⟩

end Operations

/-! ## Steps and runs -/

section Run

variable {samples saved base : List HashedValue} {slot v : HashedValue} {pending : Bool}
  {N : Nat}

/-- The normal rule. -/
theorem Slotted.good_step (hs : Slotted samples saved base slot pending) (hN : 2 ≤ N) (last : Int)
    (hlater : ∀ s ∈ samples, s.timestamp < v.timestamp) :
    Complete (samples ++ [v]) (saved ++ (Dedup.good slot pending last v).saved)
      ⟨(Dedup.good slot pending last v).next,
        (Dedup.good slot pending last v).ops.foldl (LogOp.apply N) base⟩ := by
  by_cases heq : (slot.val == v.val) = true
  · by_cases hold : v.timestamp - last > STABLE_DELTA
    · rw [Dedup.good_heartbeat heq hold]
      exact hs.toCovering.start N hN hlater fun q hq => .inr (List.mem_singleton.mp hq)
    · rw [Dedup.good_duplicate heq hold, List.append_nil]
      have href := hs.refresh heq hlater
      rw [← refresh_eq (N := N) v.timestamp hs.last] at href
      exact .normal href
  · rw [Dedup.good_change heq]
    refine hs.toCovering.start N hN hlater fun q hq => ?_
    rcases List.mem_append.mp hq with hq | hq
    · cases pending with
      | false => exact absurd hq List.not_mem_nil
      | true =>
          rw [List.mem_singleton.mp hq]
          exact .inl hs.last
    · exact .inr (List.mem_singleton.mp hq)

/-- **One sample**, newer than all before it. -/
theorem Complete.add {a : History} (hc : Complete samples saved a) (hN : 2 ≤ N)
    (hlater : ∀ s ∈ samples, s.timestamp < v.timestamp) :
    Complete (samples ++ [v]) (saved ++ (a.add N v).2) (a.add N v).1 := by
  cases hv : v.isFailure with
  | false =>
      cases hc with
      | normal hs =>
          rw [History.add, Dedup.step_normal hv]
          exact hs.good_step hN _ hlater
      | inFail hs _ _ =>
          -- the failure was noise, and the log is `base` again
          rw [History.add, Dedup.step_noise hv]
          dsimp only
          rw [List.foldl_cons, LogOp.apply, List.dropLast_concat]
          exact hs.good_step hN _ hlater
      | failReported hc =>
          rw [History.add, Dedup.step_returns hv]
          exact hc.start N hN hlater fun q hq => .inr (List.mem_singleton.mp hq)
  | true =>
      cases hc with
      | @normal slot pending last log hs =>
          rw [History.add, Dedup.step_begins hv, List.append_nil]
          dsimp only
          rw [List.foldl_cons, List.foldl_nil, LogOp.apply]
          -- the slot of the last good sample survives the push
          have hlt := hs.base_lt hlater slot (List.mem_of_getLast? hs.last)
          obtain ⟨older, rfl⟩ := List.getLast?_eq_some_iff.mp hs.last
          obtain ⟨k, hk⟩ := CyclicWindow.push_concat hN older slot v
          have hlog : older.drop k ++ [slot, v] = (older.drop k ++ [slot]) ++ [v] := by simp
          rw [hk, hlog]
          exact .inFail ((hs.failure hv hlater).evict k) hlt hv
      | @inFail slot failure pending last since base hs hlt hfail =>
          by_cases hlong : v.timestamp - since > FAILURE_DELTA
          · -- the failure becomes a record, with the time of the report
            rw [History.add, Dedup.step_reports hv hlong]
            dsimp only
            have hnow : ({ failure with timestamp := v.timestamp } : HashedValue) = v := by
              rw [Binary64.beq_MIN.mp hfail, ← Binary64.beq_MIN.mp hv]
            rw [List.foldl_cons, List.foldl_nil, LogOp.apply, List.modifyLast_concat, hnow]
            refine .failReported (hs.toCovering.append hlater fun q hq => ?_).mono
            rcases List.mem_append.mp hq with hq | hq
            · cases pending with
              | false => exact absurd hq List.not_mem_nil
              | true =>
                  rw [List.mem_singleton.mp hq]
                  exact .inl hs.last
            · exact .inr (List.mem_singleton.mp hq)
          · rw [History.add, Dedup.step_waits hv hlong, List.append_nil]
            exact .inFail (hs.failure hv hlater) hlt hfail
      | failReported hc =>
          rw [History.add, Dedup.step_lasts hv, List.append_nil]
          exact .failReported (hc.skip hlater)

/-- The unreported failure at the end of the log changes nothing. -/
theorem Complete.log {a : History} (hc : Complete samples saved a) :
    (a.log.Pairwise fun a b => a.timestamp ≤ b.timestamp) ∧
      ∀ r ∈ saved, Cover samples saved a.log a.log r := by
  cases hc with
  | normal hs => exact ⟨hs.sorted.imp le_of_lt, hs.toCovering.mono.cover⟩
  | failReported hc => exact ⟨hc.sorted.imp le_of_lt, hc.cover⟩
  | @inFail slot failure pending last since base hs hlt _ =>
      refine ⟨?_, ?_⟩
      · rw [pairwise_concat]
        refine ⟨hs.sorted.imp le_of_lt, fun q hq => ?_⟩
        exact le_of_lt (lt_of_le_of_lt (hs.le_last hs.last q hq) hlt)
      · intro r hr
        rcases hs.toCovering.mono.cover r hr with hmem | hold | ⟨r', hmem, hstands⟩
        · exact .inl (List.mem_append_left _ hmem)
        · have hslotOld := hold slot (List.mem_of_getLast? hs.last)
          exact .inr (.inl (forall_mem_concat.mpr ⟨hold, lt_trans hslotOld hlt⟩))
        · exact .inr (.inr ⟨r', List.mem_append_left _ hmem, hstands⟩)

theorem complete_run (hN : 2 ≤ N) (first : HashedValue) (rest : List HashedValue)
    (hmono : (first :: rest).Pairwise fun a b => a.timestamp < b.timestamp) :
    Complete (first :: rest) (Dedup.savedOf (first :: rest))
      (run (History.add N) (.start first) rest).1 := by
  have hsaved : Dedup.savedOf (first :: rest) =
      first :: (run (History.add N) (.start first) rest).2 :=
    congrArg (first :: ·) (History.run_dedup N (.start first) rest).2.symm
  rw [hsaved]
  refine run_induction (History.add N) (s := .start first)
    (motive := fun rest a out => (first :: rest).Pairwise (fun a b => a.timestamp < b.timestamp) →
      Complete (first :: rest) (first :: out) a) ?_ ?_ rest hmono
  · intro _
    refine .normal ⟨⟨List.pairwise_singleton _ _, ?_, ?_, ?_, ?_⟩, rfl, ?_, ?_, ?_⟩
    · exact fun q hq => ⟨q, hq, le_refl _⟩
    · exact fun q hq => ⟨q, hq, le_refl _⟩
    · exact List.nil_prefix
    · exact fun r hr => .inl hr
    · intro q hq
      rw [List.mem_singleton.mp hq]
    · intro h
      cases h
    · intro s hs hlt
      rw [List.mem_singleton.mp hs] at hlt
      exact absurd hlt (lt_irrefl _)
  · intro rest a out v ih hmono
    rw [← List.cons_append, pairwise_concat] at hmono
    exact (ih hmono.1).add hN hmono.2

end Run

/-! ## Answers from the ring -/

/-- After `events`, an answer that `read_measure` takes from the ring has every saved record of
`[fromTs, toTs)`, except those whose slot has been refreshed since; for these the ring has a later
sample of the same run. -/
def RingIsComplete (capacity : Nat) (events : List DeviceEvent) (id fromTs toTs : Int) : Prop :=
  ∃ map saved, runM (writeMeasure capacity) (fun _ => none) events = some (map, saved) ∧
    ∀ answer, fromRing map id fromTs toTs = some (some answer) →
      (∀ getMeasures, readMeasure map getMeasures fromTs toTs [id] =
        some (.ok [⟨id, answer, fromTs, toTs⟩])) ∧
      ∀ r ∈ selectMeasures saved id fromTs toTs, r.timestamp < toTs → r.timestamp ≠ 0 →
        r ∈ answer ∨ ∃ h, map id = some h ∧ ∃ r' ∈ h.liveWindow,
          StandsFor (samplesOf id events) (ofKey id saved) r r' ∧
            (r'.timestamp < toTs → r'.timestamp ≠ 0 → r' ∈ answer)

/-- **Completeness of the ring.** -/
theorem get_hashed_complete (capacity : Nat) (hcap : 2 ≤ capacity) (events : List DeviceEvent)
    (id fromTs toTs : Int)
    (hmono : (samplesOf id events).Pairwise fun a b => a.timestamp < b.timestamp) :
    RingIsComplete capacity events id fromTs toTs := by
  obtain ⟨map, saved, hrun, hsplit⟩ := writeMeasure_split hcap events
  refine ⟨map, saved, hrun, ?_⟩
  intro answer hring
  refine ⟨fun getMeasures => by simp [readMeasure, hring, Except.map], ?_⟩
  obtain ⟨hsaved, hmap⟩ := hsplit id
  cases hs : samplesOf id events with
  | nil =>
      -- nothing was ever saved
      intro r hr
      rw [selectMeasures, hsaved, hs] at hr
      exact absurd hr List.not_mem_nil
  | cons first rest =>
      obtain ⟨h, hid, hrep⟩ := hmap first rest hs
      rw [hs] at hmono hsaved
      obtain ⟨hsorted, hcover⟩ := (complete_run hcap first rest hmono).log
      obtain ⟨answer', hget, hfound, hsilent⟩ := hrep.ring.getHashed_spec hsorted fromTs toTs
      rw [fromRing, hid] at hring
      have hanswer := Option.some.inj (hget.symm.trans hring)
      have htells : Tells h.SingleSlot (run (History.add capacity) (.start first) rest).1.log
          fromTs toTs := by
        by_contra hnot
        rw [hsilent hnot] at hanswer
        cases hanswer
      rw [hfound htells] at hanswer
      have hmem : ∀ q ∈ (run (History.add capacity) (.start first) rest).1.log,
          fromTs ≤ q.timestamp → q.timestamp < toTs → q.timestamp ≠ 0 → q ∈ answer := by
        intro q hq hle hlt hzero
        rw [← Option.some.inj hanswer, List.mem_filter, List.mem_filter, inRange_iff]
        exact ⟨⟨hq, hle, hlt⟩, bne_iff_ne.mpr hzero⟩
      intro r hr hlt hzero
      rw [selectMeasures, hsaved, List.mem_filter, Bool.and_eq_true, decide_eq_true_eq] at hr
      obtain ⟨hr, hle, -⟩ := hr
      rcases hcover r hr with hlog | hold | ⟨r', hlog, hstands⟩
      · exact .inl (hmem r hlog hle hlt hzero)
      · -- the ring does not answer for the time of an evicted record
        obtain ⟨-, -, htold, -⟩ := htells
        have hhead := List.head?_eq_some_head hrep.ring.ne_nil
        have := htold _ hhead
        have := hold _ (List.mem_of_head? hhead)
        grind
      · refine .inr ⟨h, hid, r', ?_, ?_, ?_⟩
        · rwa [hrep.ring.liveWindow_eq]
        · rw [hsaved]
          exact hstands
        · exact hmem r' hlog (le_trans hle (le_of_lt hstands.later))

/-- A run of equal values whose slot was refreshed, queried over its end. -/
theorem get_hashed_complete_refreshed :
    RingIsComplete 4
      [⟨.full, 1, [⟨Binary64.ofInt 1, true, 7, "U", 1000⟩]⟩,
        ⟨.full, 1, [⟨Binary64.ofInt 2, true, 7, "U", 1010⟩]⟩,
        ⟨.full, 1, [⟨Binary64.ofInt 2, true, 7, "U", 1020⟩]⟩] 7 1005 1100 :=
  get_hashed_complete 4 (by decide) _ 7 1005 1100 (by decide +kernel)

/-- The record saved at the start of that run is in the range of the database query and not in the
answer of the ring. -/
theorem get_hashed_hides_refreshed_record :
    ¬∀ r ∈ runM (writeMeasure 4) (fun _ => none)
        [⟨.full, 1, [⟨Binary64.ofInt 1, true, 7, "U", 1000⟩]⟩,
          ⟨.full, 1, [⟨Binary64.ofInt 2, true, 7, "U", 1010⟩]⟩,
          ⟨.full, 1, [⟨Binary64.ofInt 2, true, 7, "U", 1020⟩]⟩],
      ∀ answer ∈ (fromRing r.1 7 1005 1100).join, ∀ v ∈ selectMeasures r.2 7 1005 1100,
        v ∈ answer := by
  decide +kernel

end ModbusLogger.Hasher
