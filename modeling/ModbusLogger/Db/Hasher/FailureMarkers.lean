import ModbusLogger.Db.Hasher.FailureRuns
import ModbusLogger.Db.Hasher.HashMaster
import Mathlib.Data.List.Chain

/-!
# Failure markers in what is saved

Once the last good sample is known, an outage is marked once: a failure is saved from `inFail`
only, and what was saved before it is good. A value that is lost from the start breaks this. Its
first sample is saved as it comes, a failure like any other, and the ring begins in the normal
state; so the next failure begins an outage of its own, which is marked again if it lasts.
-/

namespace ModbusLogger.Hasher

open Reader Transducer

/-- No failure record comes right after another. -/
def MarkedOnce (saved : List HashedValue) : Prop :=
  saved.IsChain fun a b => ¬(a.isFailure = true ∧ b.isFailure = true)

/-- The samples begin with failures of which one is more than 120 s past `since`. -/
def LostBeyond (since : Int) (samples : List HashedValue) : Prop :=
  ∃ failures w after, samples = failures ++ [w] ++ after ∧
    (∀ f ∈ failures ++ [w], f.isFailure = true) ∧ late since w = true

/-- The samples begin with two failures, and a later failure of the same outage is more than 120 s
past the second one. -/
def LostFromTheStart (samples : List HashedValue) : Prop :=
  ∃ first start more, samples = first :: start :: more ∧ first.isFailure = true ∧
    start.isFailure = true ∧ LostBeyond start.timestamp more

section Lost

variable {v : HashedValue} {since : Int} {more : List HashedValue}

theorem lostBeyond_cons_good (hv : v.isFailure = false) : ¬LostBeyond since (v :: more) := by
  rintro ⟨failures, w, after, heq, hfail, -⟩
  have hmem : v ∈ failures ++ [w] := by
    cases failures <;> simp at heq <;> simp [heq.1]
  rw [hfail v hmem] at hv
  cases hv

theorem lostBeyond_cons_late (hv : v.isFailure = true) (hlate : late since v = true) :
    LostBeyond since (v :: more) :=
  ⟨[], v, more, rfl, List.forall_mem_singleton.mpr hv, hlate⟩

theorem lostBeyond_cons_early (hv : v.isFailure = true) (hearly : late since v = false) :
    LostBeyond since (v :: more) ↔ LostBeyond since more := by
  constructor
  · rintro ⟨failures, w, after, heq, hfail, hw⟩
    cases failures with
    | nil =>
        obtain ⟨rfl, -⟩ : v = w ∧ more = after := by simpa using heq
        rw [hearly] at hw
        cases hw
    | cons f failures =>
        obtain ⟨rfl, rfl⟩ : v = f ∧ more = failures ++ [w] ++ after := by simpa using heq
        exact ⟨failures, w, after, rfl, (List.forall_mem_cons.mp hfail).2, hw⟩
  · rintro ⟨failures, w, after, rfl, hfail, hw⟩
    exact ⟨v :: failures, w, after, rfl, List.forall_mem_cons.mpr ⟨hv, hfail⟩, hw⟩

end Lost

/-- What is saved last is no failure. -/
def EndsWell (saved : List HashedValue) : Prop := ∀ r ∈ saved.getLast?, r.isFailure = false

section Markers

variable {saved : List HashedValue} {slot v : HashedValue}

theorem EndsWell.concat (hv : v.isFailure = false) : EndsWell (saved ++ [v]) := by
  intro r hr
  rw [List.getLast?_concat] at hr
  obtain rfl := Option.some.inj hr
  exact hv

theorem MarkedOnce.concat (hm : MarkedOnce saved) (h : EndsWell saved ∨ v.isFailure = false) :
    MarkedOnce (saved ++ [v]) := by
  refine List.IsChain.append hm (List.isChain_singleton v) ?_
  intro r hr w hw hboth
  obtain rfl := Option.some.inj hw
  rcases h with hends | hv
  · exact absurd (hboth.1.symm.trans (hends r hr)) Bool.noConfusion
  · exact absurd (hboth.2.symm.trans hv) Bool.noConfusion

theorem MarkedOnce.before (hm : MarkedOnce saved) (hslot : slot.isFailure = false)
    (pending : Bool) : MarkedOnce (saved ++ Dedup.before slot pending) := by
  cases pending with
  | false => rwa [Dedup.before, if_neg Bool.false_ne_true, List.append_nil]
  | true => exact hm.concat (.inr hslot)

theorem EndsWell.before (he : EndsWell saved) (hslot : slot.isFailure = false) (pending : Bool) :
    EndsWell (saved ++ Dedup.before slot pending) := by
  cases pending with
  | false => rwa [Dedup.before, if_neg Bool.false_ne_true, List.append_nil]
  | true => exact .concat hslot

theorem not_markedOnce (before : List HashedValue) {after : List HashedValue}
    (hslot : slot.isFailure = true) (hv : v.isFailure = true) :
    ¬MarkedOnce (before ++ slot :: v :: after) := by
  intro hm
  have hpair := List.isChain_append.mp hm
  exact (List.isChain_cons_cons.mp hpair.2.1).1 ⟨hslot, hv⟩

end Markers

/-! ## After a good sample -/

namespace Dedup

/-- What is known of the saved records once there was a good sample. -/
structure Settled (saved : List HashedValue) (d : Dedup) : Prop where
  good : d.Good
  once : MarkedOnce saved
  endsWell : d ≠ .failReported → EndsWell saved

variable {saved : List HashedValue} {d : Dedup} {slot v : HashedValue} {pending : Bool}

/-- After the good sample `v` was saved as it came. -/
theorem Settled.start (hm : MarkedOnce saved) (hv : v.isFailure = false) :
    Settled (saved ++ [v]) (.start v) :=
  ⟨hv, hm.concat (.inr hv), fun _ => .concat hv⟩

/-- The normal rule. -/
theorem Settled.good_step (hm : MarkedOnce saved) (he : EndsWell saved)
    (hslot : slot.isFailure = false) (hv : v.isFailure = false) (pending : Bool) (last : Int) :
    Settled (saved ++ (Dedup.good slot pending last v).saved)
      (Dedup.good slot pending last v).next := by
  by_cases heq : (slot.val == v.val) = true
  · by_cases hold : v.timestamp - last > STABLE_DELTA
    · rw [good_heartbeat heq hold]
      exact .start hm hv
    · rw [good_duplicate heq hold, List.append_nil]
      exact ⟨hslot, hm, fun _ => he⟩
  · rw [good_change heq, ← List.append_assoc]
    exact .start (hm.before hslot pending) hv

theorem Settled.step (hs : Settled saved d) (v : HashedValue) :
    Settled (saved ++ (d.feed v).2) (d.feed v).1 := by
  obtain ⟨hgood, honce, hends⟩ := hs
  show Settled (saved ++ (d.step v).saved) (d.step v).next
  cases hv : v.isFailure with
  | false =>
      cases d with
      | normal slot pending last =>
          rw [step_normal hv]
          exact .good_step honce (hends (by simp)) hgood hv pending last
      | inFail slot pending last since =>
          rw [step_noise hv]
          exact .good_step honce (hends (by simp)) hgood hv pending last
      | failReported =>
          rw [step_returns hv]
          exact .start honce hv
  | true =>
      cases d with
      | normal slot pending last =>
          rw [step_begins hv, List.append_nil]
          exact ⟨hgood, honce, fun _ => hends (by simp)⟩
      | failReported =>
          rw [step_lasts hv, List.append_nil]
          exact ⟨hgood, honce, hends⟩
      | inFail slot pending last since =>
          by_cases hlate : v.timestamp - since > FAILURE_DELTA
          · -- the marker comes after the last good record
            rw [step_reports hv hlate, ← List.append_assoc]
            have hlast := (hends (by simp)).before hgood pending
            exact ⟨trivial, (MarkedOnce.before honce hgood pending).concat (.inl hlast),
              fun hne => absurd rfl hne⟩
          · rw [step_waits hv hlate, List.append_nil]
            exact ⟨hgood, honce, fun _ => hends (by simp)⟩

theorem Settled.run (hs : Settled saved d) (vs : List HashedValue) :
    MarkedOnce (saved ++ (Transducer.run feed d vs).2) := by
  induction vs generalizing saved d with
  | nil =>
      rw [run_nil, List.append_nil]
      exact hs.once
  | cons v vs ih =>
      rw [run_cons, ← List.append_assoc]
      exact ih (hs.step v)

/-! ## Before the first good sample -/

/-- A failure and a good sample are no repetition. -/
theorem good_after_failure (hslot : slot.isFailure = true) (hv : v.isFailure = false) (last : Int) :
    Dedup.good slot false last v = ⟨start v, [.push v], [v]⟩ := by
  have hne : ¬(slot.val == v.val) = true := by
    intro heq
    have hval : (v.val == Binary64.MIN) = true := (Binary64.Same.of_beq heq).beq hslot
    rw [HashedValue.isFailure, hval] at hv
    cases hv
  rw [good_change hne]
  rfl

/-- The value is lost from the start, and was saved as lost. From the second failure on, the first
late one is a second marker, and a good sample ends the danger. -/
theorem markedOnce_lost {first : HashedValue} (hfirst : first.isFailure = true) (last since : Int)
    (more : List HashedValue) :
    MarkedOnce (first :: (Transducer.run feed (.inFail first false last since) more).2) ↔
      ¬LostBeyond since more := by
  induction more with
  | nil =>
      refine iff_of_true (List.isChain_singleton first) ?_
      rintro ⟨failures, w, after, hnil, -⟩
      simp at hnil
  | cons v more ih =>
      rw [run_cons]
      cases hv : v.isFailure with
      | false =>
          have hstep : (Dedup.inFail first false last since).feed v = (start v, [v]) := by
            rw [feed, step_noise hv, good_after_failure hfirst hv]
          rw [hstep]
          refine iff_of_true ?_ (lostBeyond_cons_good hv)
          exact Settled.run (.start (List.isChain_singleton first) hv) more
      | true =>
          cases hlate : late since v with
          | true =>
              have hlong : v.timestamp - since > FAILURE_DELTA := of_decide_eq_true hlate
              have hstep : (Dedup.inFail first false last since).feed v = (.failReported, [v]) := by
                rw [feed, step_reports hv hlong]
                rfl
              rw [hstep]
              refine iff_of_false (not_markedOnce [] hfirst hv) ?_
              exact not_not_intro (lostBeyond_cons_late hv hlate)
          | false =>
              have hshort : ¬v.timestamp - since > FAILURE_DELTA := of_decide_eq_false hlate
              have hstep : (Dedup.inFail first false last since).feed v =
                  (.inFail first false last since, []) := by
                rw [feed, step_waits hv hshort]
              rw [hstep, List.nil_append, ih, lostBeyond_cons_early hv hlate]

end Dedup

/-- All samples of a value, from the first one on. -/
theorem markedOnce_savedOf_iff (samples : List HashedValue) :
    MarkedOnce (Dedup.savedOf samples) ↔ ¬LostFromTheStart samples := by
  cases samples with
  | nil => exact iff_of_true List.isChain_nil (by simp [LostFromTheStart])
  | cons first rest =>
      have hone : MarkedOnce [first] := List.isChain_singleton first
      cases hfirst : first.isFailure with
      | false =>
          have hstart := @Dedup.Settled.start [] first List.isChain_nil hfirst
          exact iff_of_true (hstart.run rest) (by simp [LostFromTheStart, hfirst])
      | true =>
          cases rest with
          | nil => exact iff_of_true hone (by simp [LostFromTheStart])
          | cons v more =>
              rw [Dedup.savedOf, run_cons]
              cases hv : v.isFailure with
              | false =>
                  have hstep : (Dedup.start first).feed v = (.start v, [v]) := by
                    rw [Dedup.feed, Dedup.start, Dedup.step_normal hv,
                      Dedup.good_after_failure hfirst hv]
                  rw [hstep]
                  exact iff_of_true (Dedup.Settled.run (.start hone hv) more)
                    (by simp [LostFromTheStart, hv])
              | true =>
                  -- the first failure of the ring, and the second of the value
                  have hstep : (Dedup.start first).feed v =
                      (.inFail first false first.timestamp v.timestamp, []) := by
                    rw [Dedup.feed, Dedup.start, Dedup.step_begins hv]
                  rw [hstep, List.nil_append, Dedup.markedOnce_lost hfirst]
                  simp [LostFromTheStart, hfirst, hv]

/-! ## The measure master -/

/-- Over the events, nothing panics, and the records of `id` have no two markers in a row unless the
value was lost from the start. -/
def MarksOnce (capacity : Nat) (events : List DeviceEvent) (id : Int) : Prop :=
  ∃ map saved, runM (writeMeasure capacity) (fun _ => none) events = some (map, saved) ∧
    (MarkedOnce (ofKey id saved) ↔ ¬LostFromTheStart (samplesOf id events))

/-- **Failure markers are not repeated**, but for a value that is lost from the start. -/
theorem marked_once_iff (capacity : Nat) (hcap : 2 ≤ capacity) (events : List DeviceEvent)
    (id : Int) : MarksOnce capacity events id := by
  obtain ⟨map, saved, hrun, hsplit⟩ := writeMeasure_split hcap events
  refine ⟨map, saved, hrun, ?_⟩
  rw [(hsplit id).1]
  exact markedOnce_savedOf_iff _

/-- A device that was off at the start for a short time, and is lost for long later. -/
theorem marked_once_iff_short :
    MarksOnce 2
      [⟨.failed, 1, [⟨Binary64.MIN, true, 7, "U", 1000⟩]⟩,
        ⟨.failed, 1, [⟨Binary64.MIN, true, 7, "U", 1060⟩]⟩,
        ⟨.full, 1, [⟨Binary64.ofInt 5, true, 7, "U", 1120⟩]⟩,
        ⟨.failed, 1, [⟨Binary64.MIN, true, 7, "U", 1180⟩]⟩,
        ⟨.failed, 1, [⟨Binary64.MIN, true, 7, "U", 1310⟩]⟩] 7 :=
  marked_once_iff 2 (by decide) _ 7

/-- A device that is off when the logger starts is marked as lost twice. -/
theorem marked_twice_from_the_start :
    ¬∀ map saved, runM (writeMeasure MAX_PONT_IN_WEEK) (fun _ => none)
        [⟨.failed, 1, [⟨Binary64.MIN, true, 7, "U", 1000⟩]⟩,
          ⟨.failed, 1, [⟨Binary64.MIN, true, 7, "U", 1060⟩]⟩,
          ⟨.failed, 1, [⟨Binary64.MIN, true, 7, "U", 1200⟩]⟩] = some (map, saved) →
      MarkedOnce (ofKey 7 saved) := by
  intro hall
  obtain ⟨map, saved, hrun, hsplit⟩ := writeMeasure_split
    (show 2 ≤ MAX_PONT_IN_WEEK by decide)
    [⟨.failed, 1, [⟨Binary64.MIN, true, 7, "U", 1000⟩]⟩,
      ⟨.failed, 1, [⟨Binary64.MIN, true, 7, "U", 1060⟩]⟩,
      ⟨.failed, 1, [⟨Binary64.MIN, true, 7, "U", 1200⟩]⟩]
  have hsaved : ofKey 7 saved = [] ++ ⟨Binary64.MIN, 1000⟩ :: ⟨Binary64.MIN, 1200⟩ :: [] := by
    rw [(hsplit 7).1]
    decide +kernel
  have honce := hall map saved hrun
  rw [hsaved] at honce
  exact not_markedOnce [] (by decide) (by decide) honce

end ModbusLogger.Hasher
