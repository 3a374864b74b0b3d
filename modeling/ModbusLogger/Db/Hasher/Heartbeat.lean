import ModbusLogger.Db.Hasher.FailureRuns
import ModbusLogger.Db.Hasher.Lossless
import Mathlib.Data.List.DropRight

/-!
# The heartbeat of a steady value

`last_emitted_ts` is set when a good sample is saved as it comes, and by nothing else: not by the
report of an outage, nor by the slot that is saved in front of a change. So in every state but
`failReported` it is the time of the newest good record, and that record has the value of the slot
(`Beats`). This gives the upper bound on the age of what is saved and the lower bound on the
distance of two equal records.
-/

namespace ModbusLogger.Hasher

open Transducer

/-! ## Samples and what they emitted -/

/-- Each sample with the records that it emitted. -/
abbrev Trace := List (HashedValue × List HashedValue)

namespace Trace

def emitted (trace : Trace) : List HashedValue := trace.flatMap (·.2)

/-- The good samples that were emitted as they came. -/
def direct (trace : Trace) : List HashedValue :=
  (trace.filter fun p => !p.1.isFailure && p.2.contains p.1).map (·.1)

/-- The last direct emission of a value. -/
def lastDirect (trace : Trace) (val : Binary64) : Option HashedValue :=
  (trace.direct.filter fun v => v.val == val).getLast?

/-- A failure was reported since the last good sample. -/
def AfterReport (trace : Trace) : Prop :=
  ∃ p ∈ trace.rtakeWhile (·.1.isFailure), ∃ r ∈ p.2, r.isFailure = true

section Concat

variable {trace : Trace} {v : HashedValue} {out : List HashedValue}

@[simp] theorem emitted_concat (trace : Trace) (v : HashedValue) (out : List HashedValue) :
    emitted (trace ++ [(v, out)]) = emitted trace ++ out := by
  simp [emitted]

/-- A good sample is emitted directly if the records it emits end with it. -/
theorem direct_concat_good (trace : Trace) (hv : v.isFailure = false)
    (before : List HashedValue) :
    direct (trace ++ [(v, before ++ [v])]) = direct trace ++ [v] := by
  simp [direct, hv]

theorem direct_concat_silent (trace : Trace) (v : HashedValue) :
    direct (trace ++ [(v, [])]) = direct trace := by
  simp [direct]

theorem AfterReport.next (h : AfterReport trace) (hv : v.isFailure = true)
    (out : List HashedValue) : AfterReport (trace ++ [(v, out)]) := by
  obtain ⟨p, hp, hr⟩ := h
  rw [AfterReport, List.rtakeWhile_concat_pos _ _ (v, out) hv]
  exact ⟨p, List.mem_append_left _ hp, hr⟩

theorem AfterReport.now (trace : Trace) (hv : v.isFailure = true) (before : List HashedValue) :
    AfterReport (trace ++ [(v, before ++ [v])]) := by
  rw [AfterReport, List.rtakeWhile_concat_pos _ _ (v, before ++ [v]) hv]
  exact ⟨_, List.mem_concat_self, v, List.mem_concat_self, hv⟩

theorem lastDirect_eq {d : HashedValue} (hd : trace.direct.getLast? = some d) {val : Binary64}
    (hval : (d.val == val) = true) : trace.lastDirect val = some d := by
  obtain ⟨older, hdirect⟩ := List.getLast?_eq_some_iff.mp hd
  rw [lastDirect, hdirect, List.filter_append, List.filter_singleton, hval]
  exact List.getLast?_concat

end Concat

end Trace

/-- A good sample `v` that emits `out`: its value is on record and not older than 300 s; and if the
newest good record has its value, `v` is emitted only when the heartbeat is due, or when it ends a
reported outage. Values are compared as numbers; what is no number equals nothing. -/
structure Disciplined (trace : Trace) (v : HashedValue) (out : List HashedValue) : Prop where
  fresh : ∃ r ∈ trace.emitted ++ out, r.isFailure = false ∧
    r.timestamp ≥ v.timestamp - STABLE_DELTA ∧ Binary64.Same r.val v.val
  throttled : ∀ r, newestGood trace.emitted = some r → (r.val == v.val) = true → out ≠ [] →
    (∃ d, trace.lastDirect v.val = some d ∧ v.timestamp > d.timestamp + STABLE_DELTA) ∨
      trace.AfterReport

/-! ## The invariant -/

namespace Dedup

/-- The slot has the value of the newest good record, which was emitted directly at `last`. -/
structure Beat (trace : Trace) (slot : HashedValue) (last : Int) : Prop where
  good : slot.isFailure = false
  newest : newestGood trace.emitted = some ⟨slot.val, last⟩
  direct : trace.direct.getLast? = some ⟨slot.val, last⟩

/-- What is known in each state. -/
inductive Beats (trace : Trace) : Dedup → Prop where
  | normal {slot : HashedValue} {pending : Bool} {last : Int} :
      Beat trace slot last → Beats trace (.normal slot pending last)
  | inFail {slot : HashedValue} {pending : Bool} {last since : Int} :
      Beat trace slot last → Beats trace (.inFail slot pending last since)
  | failReported : trace.AfterReport → Beats trace .failReported

variable {trace : Trace} {slot v : HashedValue} {pending : Bool} {last : Int} {d : Dedup}

/-- After a good sample was emitted as it came. -/
theorem Beats.start (trace : Trace) (hv : v.isFailure = false) (before : List HashedValue) :
    Beats (trace ++ [(v, before ++ [v])]) (.start v) := by
  refine .normal ⟨hv, ?_, ?_⟩
  · rw [Trace.emitted_concat, ← List.append_assoc]
    exact newestGood_concat_good _ hv
  · rw [Trace.direct_concat_good trace hv before]
    exact List.getLast?_concat

/-- A sample that emits nothing. -/
theorem Beat.silent (hb : Beat trace slot last) (v : HashedValue) :
    Beat (trace ++ [(v, [])]) slot last := by
  refine ⟨hb.good, ?_, ?_⟩
  · rw [Trace.emitted_concat, List.append_nil]
    exact hb.newest
  · rw [Trace.direct_concat_silent]
    exact hb.direct

/-- The normal rule. -/
theorem Beat.good_step (hb : Beat trace slot last) (hv : v.isFailure = false) (pending : Bool) :
    Beats (trace ++ [(v, (Dedup.good slot pending last v).saved)])
      (Dedup.good slot pending last v).next := by
  by_cases heq : (slot.val == v.val) = true
  · by_cases hold : v.timestamp - last > STABLE_DELTA
    · rw [good_heartbeat heq hold]
      exact .start trace hv []
    · rw [good_duplicate heq hold]
      have hsilent := hb.silent v
      exact .normal ⟨hsilent.good, hsilent.newest, hsilent.direct⟩
  · rw [good_change heq]
    exact .start trace hv (before slot pending)

/-- **One sample** keeps the invariant. -/
theorem Beats.step (hb : Beats trace d) (v : HashedValue) :
    Beats (trace ++ [(v, (d.feed v).2)]) (d.feed v).1 := by
  show Beats (trace ++ [(v, (d.step v).saved)]) (d.step v).next
  cases hv : v.isFailure with
  | false =>
      cases hb with
      | normal hb =>
          rw [step_normal hv]
          exact hb.good_step hv _
      | inFail hb =>
          rw [step_noise hv]
          exact hb.good_step hv _
      | failReported _ =>
          rw [step_returns hv]
          exact .start trace hv []
  | true =>
      cases hb with
      | normal hb =>
          rw [step_begins hv]
          exact .inFail (hb.silent v)
      | failReported hr =>
          rw [step_lasts hv]
          exact .failReported (hr.next hv [])
      | @inFail slot pending last since hb =>
          by_cases hlate : v.timestamp - since > FAILURE_DELTA
          · rw [step_reports hv hlate]
            exact .failReported (.now trace hv (Dedup.before slot pending))
          · rw [step_waits hv hlate]
            exact .inFail (hb.silent v)

/-- A sample that is emitted as it came is on record. -/
theorem fresh_self (trace : Trace) (hv : v.isFailure = false) (before : List HashedValue) :
    ∃ r ∈ trace.emitted ++ (before ++ [v]), r.isFailure = false ∧
      r.timestamp ≥ v.timestamp - STABLE_DELTA ∧ Binary64.Same r.val v.val := by
  refine ⟨v, by simp, hv, ?_, .refl _⟩
  show v.timestamp - 300 ≤ v.timestamp
  omega

/-- The normal rule is disciplined. -/
theorem Beat.good_disciplined (hb : Beat trace slot last) (hv : v.isFailure = false)
    (pending : Bool) : Disciplined trace v (Dedup.good slot pending last v).saved := by
  by_cases heq : (slot.val == v.val) = true
  · by_cases hold : v.timestamp - last > STABLE_DELTA
    · rw [good_heartbeat heq hold]
      refine ⟨fresh_self trace hv [], fun r _ _ _ => .inl ⟨⟨slot.val, last⟩, ?_, ?_⟩⟩
      · exact Trace.lastDirect_eq hb.direct heq
      · show last + STABLE_DELTA < v.timestamp
        omega
    · -- nothing is emitted, and the newest good record is still young
      rw [good_duplicate heq hold]
      refine ⟨⟨⟨slot.val, last⟩, ?_, hb.good, ?_, .of_beq heq⟩, fun r _ _ hne => absurd rfl hne⟩
      · exact List.mem_append_left _ (newestGood_mem hb.newest)
      · show v.timestamp - STABLE_DELTA ≤ last
        omega
  · rw [good_change heq]
    refine ⟨fresh_self trace hv (before slot pending), ?_⟩
    intro r hr hval
    obtain rfl := Option.some.inj (hb.newest.symm.trans hr)
    exact absurd hval heq

/-- **One good sample** is disciplined. -/
theorem Beats.disciplined (hb : Beats trace d) (hv : v.isFailure = false) :
    Disciplined trace v (d.feed v).2 := by
  show Disciplined trace v (d.step v).saved
  cases hb with
  | normal hb =>
      rw [step_normal hv]
      exact hb.good_disciplined hv _
  | inFail hb =>
      rw [step_noise hv]
      exact hb.good_disciplined hv _
  | failReported hr =>
      rw [step_returns hv]
      exact ⟨fresh_self trace hv [], fun _ _ _ _ => .inr hr⟩

/-- The first sample is emitted as it comes. -/
def traceOf (first : HashedValue) (rest : List HashedValue) (emitted : List (List HashedValue)) :
    Trace := (first, [first]) :: rest.zip emitted

/-- **A run** keeps the invariant. -/
theorem beats_run {first : HashedValue} (hfirst : first.isFailure = false)
    (rest : List HashedValue) :
    Beats (traceOf first rest (run (each feed) (.start first) rest).2)
      (run (each feed) (.start first) rest).1 := by
  induction rest using List.reverseRecOn with
  | nil => exact Beats.start [] hfirst []
  | append_singleton rest v ih =>
      have hzip : (rest ++ [v]).zip ((run (each feed) (.start first) rest).2 ++
            [((run (each feed) (.start first) rest).1.feed v).2]) =
          rest.zip (run (each feed) (.start first) rest).2 ++
            [(v, ((run (each feed) (.start first) rest).1.feed v).2)] :=
        List.zip_append (length_run_each feed (.start first) rest).symm
      rw [run_concat]
      show Beats ((first, [first]) :: (rest ++ [v]).zip (_ ++ [_])) _
      rw [hzip]
      exact ih.step v

end Dedup

/-- After the samples `first :: rest`, the ring takes the sample `v` in a disciplined way. -/
def KeepsTheBeat (N : Nat) (first : HashedValue) (rest : List HashedValue) (v : HashedValue) :
    Prop :=
  ∃ h₀ h emitted h' out, ValueHasher.new N first.val first.timestamp = some h₀ ∧
    runM (eachM ValueHasher.feed) h₀ rest = some (h, emitted) ∧ h.feed v = some (h', out) ∧
    Disciplined (Dedup.traceOf first rest emitted) v out

/-- **Heartbeat discipline** at every good sample. The order of the timestamps plays no part. -/
theorem heartbeat_discipline (N : Nat) (hN : 2 ≤ N) (first : HashedValue)
    (hfirst : first.isFailure = false) (rest : List HashedValue) (v : HashedValue)
    (hv : v.isFailure = false) : KeepsTheBeat N first rest v := by
  obtain ⟨h₀, h, log, hnew, hrun, hrep⟩ := runM_eachM_feed hN first rest
  obtain ⟨h', hfeed, -⟩ := feed_represents hrep v
  exact ⟨h₀, h, _, h', _, hnew, hrun, hfeed, (Dedup.beats_run hfirst rest).disciplined hv⟩

/-- A steady value after a noise, 301 s after it was saved. -/
theorem heartbeat_discipline_due :
    KeepsTheBeat 2 ⟨Binary64.zero false, 1000⟩
      [⟨Binary64.zero true, 1200⟩, ⟨Binary64.MIN, 1250⟩, ⟨Binary64.zero false, 1300⟩]
      ⟨Binary64.zero false, 1301⟩ :=
  heartbeat_discipline 2 (by decide) _ (by decide) _ _ (by decide)

end ModbusLogger.Hasher
