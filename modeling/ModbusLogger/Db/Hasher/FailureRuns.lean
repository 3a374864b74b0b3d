import ModbusLogger.Db.Hasher.Refinement

/-!
# How failures are reported

A run of failure samples is an outage of one value. Its start is kept in the ring slot that the
first failure takes, and the slot is written again by the report; nothing of this is visible here,
since the ring behaves like `Dedup`. What is proved is what the caller sees, sample by sample: a run
is reported once, by the first failure that is more than `FAILURE_DELTA` past the start of the run.
-/

namespace ModbusLogger.Hasher

open Transducer

/-! ## What is to be reported -/

/-- The failure records among the records to save. -/
def failureRecords (saved : List HashedValue) : List HashedValue := saved.filter (·.isFailure)

/-- Consecutive failures with no failure right before or after them. -/
structure MaximalRun (before failures after : List HashedValue) : Prop where
  ne_nil : failures ≠ []
  failing : ∀ v ∈ failures, v.isFailure = true
  starts : ∀ v ∈ before.getLast?, v.isFailure = false
  ends : ∀ v ∈ after.head?, v.isFailure = false

/-- More than 120 s after `since`. -/
def late (since : Int) (v : HashedValue) : Bool := decide (v.timestamp - since > FAILURE_DELTA)

/-- The failure records at each sample of an outage since `since`: the first late sample is the
report. -/
def reportOnce (since : Int) (failures : List HashedValue) : List (List HashedValue) :=
  failures.mapIdx fun i v => if i = failures.findIdx (late since) then [v] else []

theorem reportOnce_cons_late {since : Int} {v : HashedValue} (hlate : late since v = true)
    (failures : List HashedValue) :
    reportOnce since (v :: failures) = [v] :: List.replicate failures.length [] := by
  have hrest : failures.mapIdx (fun _ _ => ([] : List HashedValue)) =
      List.replicate failures.length [] := by
    apply List.ext_getElem <;> simp
  simp [reportOnce, List.mapIdx_cons, List.findIdx_cons, hlate, hrest]

theorem reportOnce_cons_early {since : Int} {v : HashedValue} (hearly : late since v = false)
    (failures : List HashedValue) :
    reportOnce since (v :: failures) = [] :: reportOnce since failures := by
  simp [reportOnce, List.mapIdx_cons, List.findIdx_cons, hearly]

/-! ## The abstract machine -/

namespace Dedup

/-- The last good sample is one. -/
def Good : Dedup → Prop
  | .normal slot _ _ => slot.isFailure = false
  | .inFail slot _ _ _ => slot.isFailure = false
  | .failReported => True

/-- No outage is in progress. -/
def Calm : Dedup → Prop
  | .normal _ _ _ => True
  | _ => False

theorem failureRecords_before {slot : HashedValue} (hslot : slot.isFailure = false)
    (pending : Bool) : failureRecords (before slot pending) = [] := by
  cases pending with
  | false => rfl
  | true => simp [before, failureRecords, hslot]

/-- A good sample reports no failure and leaves no outage. -/
theorem good_calm {slot v : HashedValue} (hslot : slot.isFailure = false)
    (hv : v.isFailure = false) (pending : Bool) (lastEmittedTs : Int) :
    (good slot pending lastEmittedTs v).next.Good ∧ (good slot pending lastEmittedTs v).next.Calm ∧
      failureRecords (good slot pending lastEmittedTs v).saved = [] := by
  by_cases heq : (slot.val == v.val) = true
  · by_cases hold : v.timestamp - lastEmittedTs > STABLE_DELTA
    · rw [good_heartbeat heq hold]
      exact ⟨hv, trivial, by simp [failureRecords, hv]⟩
    · rw [good_duplicate heq hold]
      exact ⟨hslot, trivial, rfl⟩
  · rw [good_change heq]
    refine ⟨hv, trivial, ?_⟩
    have hbefore := failureRecords_before hslot pending
    rw [failureRecords] at hbefore ⊢
    rw [List.filter_append, hbefore, List.nil_append]
    simp [hv]

theorem step_calm {d : Dedup} (hd : d.Good) {v : HashedValue} (hv : v.isFailure = false) :
    (d.step v).next.Good ∧ (d.step v).next.Calm ∧ failureRecords (d.step v).saved = [] := by
  cases d with
  | normal slot pending last =>
      rw [step_normal hv]
      exact good_calm hd hv pending last
  | inFail slot pending last since =>
      rw [step_noise hv]
      exact good_calm hd hv pending last
  | failReported =>
      rw [step_returns hv]
      exact ⟨hv, trivial, by simp [failureRecords, hv]⟩

theorem step_good {d : Dedup} (hd : d.Good) (v : HashedValue) : (d.step v).next.Good := by
  cases hv : v.isFailure with
  | false => exact (step_calm hd hv).1
  | true =>
      cases d with
      | normal slot pending last =>
          rw [step_begins hv]
          exact hd
      | failReported =>
          rw [step_lasts hv]
          exact hd
      | inFail slot pending last since =>
          by_cases hlate : v.timestamp - since > FAILURE_DELTA
          · rw [step_reports hv hlate]
            trivial
          · rw [step_waits hv hlate]
            exact hd

theorem run_good {d : Dedup} (hd : d.Good) (vs : List HashedValue) :
    (run (each feed) d vs).1.Good := by
  induction vs generalizing d with
  | nil => exact hd
  | cons v vs ih => exact ih (step_good hd v)

/-- Without an outage before it, a run of samples that ends well leaves none. -/
theorem run_calm {d : Dedup} (hd : d.Good) (hcalm : d.Calm) {vs : List HashedValue}
    (hlast : ∀ v ∈ vs.getLast?, v.isFailure = false) : (run (each feed) d vs).1.Calm := by
  rcases List.eq_nil_or_concat vs with rfl | ⟨init, v, rfl⟩
  · exact hcalm
  · have hv : v.isFailure = false := hlast v (by simp)
    rw [List.concat_eq_append, run_concat]
    exact (step_calm (run_good hd init) hv).2.1

/-- After the report, an outage is silent. -/
theorem run_reported {failures : List HashedValue} (hfail : ∀ v ∈ failures, v.isFailure = true) :
    (run (each feed) .failReported failures).2.map failureRecords =
      List.replicate failures.length [] := by
  induction failures with
  | nil => rfl
  | cons v failures ih =>
      obtain ⟨hv, hfail⟩ := List.forall_mem_cons.mp hfail
      rw [run_cons, each, feed, step_lasts hv, List.map_append, ih hfail]
      rfl

/-- An outage in progress is reported by its first late failure. -/
theorem run_inFail {slot : HashedValue} (hslot : slot.isFailure = false) (pending : Bool)
    (last since : Int) {failures : List HashedValue}
    (hfail : ∀ v ∈ failures, v.isFailure = true) :
    (run (each feed) (.inFail slot pending last since) failures).2.map failureRecords =
      reportOnce since failures := by
  induction failures with
  | nil => rfl
  | cons v failures ih =>
      obtain ⟨hv, hfail⟩ := List.forall_mem_cons.mp hfail
      cases hlate : late since v with
      | true =>
          have hlong : v.timestamp - since > FAILURE_DELTA := of_decide_eq_true hlate
          have hsaved : failureRecords (before slot pending ++ [v]) = [v] := by
            have hbefore := failureRecords_before hslot pending
            rw [failureRecords] at hbefore ⊢
            rw [List.filter_append, hbefore, List.nil_append]
            simp [hv]
          rw [reportOnce_cons_late hlate, run_cons, each, feed, step_reports hv hlong,
            List.map_append, run_reported hfail, List.map_singleton, hsaved]
          rfl
      | false =>
          have hshort : ¬v.timestamp - since > FAILURE_DELTA := of_decide_eq_false hlate
          rw [reportOnce_cons_early hlate, run_cons, each, feed, step_waits hv hshort,
            List.map_append, ih hfail]
          rfl

/-- The first failure of an outage names its start and is not late itself. -/
theorem run_failures {d : Dedup} (hd : d.Good) (hcalm : d.Calm) {v : HashedValue}
    {failures : List HashedValue} (hfail : ∀ w ∈ v :: failures, w.isFailure = true) :
    (run (each feed) d (v :: failures)).2.map failureRecords =
      reportOnce v.timestamp (v :: failures) := by
  obtain ⟨hv, hfail⟩ := List.forall_mem_cons.mp hfail
  have hearly : late v.timestamp v = false := by simp [late, FAILURE_DELTA]
  cases d with
  | normal slot pending last =>
      rw [reportOnce_cons_early hearly, run_cons, each, feed, step_begins hv, List.map_append,
        run_inFail hd pending last v.timestamp hfail]
      rfl
  | inFail slot pending last since => exact absurd hcalm id
  | failReported => exact absurd hcalm id

end Dedup

/-! ## The ring -/

/-- The ring reports failures as it should: the emissions line up with the samples `rest`, each
maximal run of failures is reported once, and no other sample reports a failure. -/
def ReportsFailures (N : Nat) (first : HashedValue) (rest : List HashedValue) : Prop :=
  ∃ h₀ h emitted, ValueHasher.new N first.val first.timestamp = some h₀ ∧
    runM (eachM ValueHasher.feed) h₀ rest = some (h, emitted) ∧
    emitted.length = rest.length ∧
    (∀ before v failures after, rest = before ++ (v :: failures) ++ after →
      MaximalRun before (v :: failures) after →
        ((emitted.drop before.length).take (v :: failures).length).map failureRecords =
          reportOnce v.timestamp (v :: failures)) ∧
    ∀ before v after, rest = before ++ [v] ++ after → v.isFailure = false →
      ((emitted.drop before.length).take 1).map failureRecords = [[]]

/-- The emissions of the ring, sample by sample, are those of the abstract machine. -/
theorem runM_eachM_feed {N : Nat} (hN : 2 ≤ N) (first : HashedValue) (rest : List HashedValue) :
    ∃ h₀ h log, ValueHasher.new N first.val first.timestamp = some h₀ ∧
      runM (eachM ValueHasher.feed) h₀ rest =
        some (h, (run (each Dedup.feed) (.start first) rest).2) ∧
      Represents N h ⟨(run (each Dedup.feed) (.start first) rest).1, log⟩ := by
  obtain ⟨h₀, hnew, hrep⟩ := new_represents hN first
  have hstep : ∀ h d v, (∃ log, Represents N h ⟨d, log⟩) →
      ∃ h', eachM ValueHasher.feed h v = some (h', (each Dedup.feed d v).2) ∧
        ∃ log, Represents N h' ⟨(each Dedup.feed d v).1, log⟩ := by
    intro h d v hR
    obtain ⟨log, hrep⟩ := hR
    obtain ⟨h', hfeed, hrep'⟩ := feed_represents hrep v
    exact ⟨h', by rw [eachM, hfeed]; rfl, _, hrep'⟩
  obtain ⟨h, hrun, log, hrep'⟩ := simulation hstep ⟨_, hrep⟩ rest
  exact ⟨h₀, h, log, hnew, hrun, hrep'⟩

/-- **A failure period is recorded once**, however the samples around it alternate. The order of the
timestamps plays no part. -/
theorem failure_period_recorded_once (N : Nat) (hN : 2 ≤ N) (first : HashedValue)
    (hfirst : first.isFailure = false) (rest : List HashedValue) :
    ReportsFailures N first rest := by
  have hgood : (Dedup.start first).Good := hfirst
  have hcalm : (Dedup.start first).Calm := trivial
  obtain ⟨h₀, h, -, hnew, hrun, -⟩ := runM_eachM_feed hN first rest
  refine ⟨h₀, h, _, hnew, hrun, length_run_each _ _ _, ?_, ?_⟩
  · rintro before v failures after rfl hmax
    rw [run_each_segment]
    exact Dedup.run_failures (Dedup.run_good hgood before) (Dedup.run_calm hgood hcalm hmax.starts)
      hmax.failing
  · rintro before v after rfl hv
    have hsegment := run_each_segment Dedup.feed (.start first) before [v] after
    rw [List.length_singleton] at hsegment
    have hsaved := (Dedup.step_calm (Dedup.run_good hgood before) hv).2.2
    rw [hsegment, run_cons, run_nil, List.append_nil, each, List.map_singleton]
    exact congrArg (fun records => [records]) hsaved

/-- Noise of two failures, then an outage that its third failure reports. -/
theorem failure_period_recorded_once_noise :
    ReportsFailures 3 ⟨Binary64.zero false, 1000⟩
      [⟨Binary64.MIN, 1050⟩, ⟨Binary64.MIN, 1170⟩, ⟨Binary64.zero false, 1200⟩,
        ⟨Binary64.MIN, 1210⟩, ⟨Binary64.MIN, 1330⟩, ⟨Binary64.MIN, 1331⟩, ⟨Binary64.MIN, 1500⟩] :=
  failure_period_recorded_once 3 (by decide) _ (by decide) _

end ModbusLogger.Hasher
