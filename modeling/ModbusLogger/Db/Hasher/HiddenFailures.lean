import ModbusLogger.Db.Hasher.FailureRuns
import ModbusLogger.Db.Hasher.Lossless
import ModbusLogger.Db.Hasher.RangeQuery
import Mathlib.Data.List.DropRight

/-!
# What range queries show of failures

The first failure of an outage is written into the ring at once, although it is saved only when the
outage has lasted. A good sample takes it back (`recover`), so noise is gone from the ring. Until
then the tentative failure is the newest slot of the live window, and `get_hashed` serves it like
any other.

`Marked` is the invariant: every failure of the log is saved, but for the tentative one.
-/

namespace ModbusLogger.Hasher

open CyclicWindow Transducer

/-! ## Outages of the samples -/

/-- The failures since the last good sample. -/
def outage (samples : List HashedValue) : List HashedValue := samples.rtakeWhile (·.isFailure)

/-- The samples end with an outage that `start` began and that has not lasted long enough for a
report. -/
def Unreported (samples : List HashedValue) (start : HashedValue) : Prop :=
  (outage samples).head? = some start ∧ ∀ w ∈ outage samples, late start.timestamp w = false

/-- The samples end with an outage that has lasted long enough. -/
def Reported (samples : List HashedValue) : Prop :=
  ∃ start, (outage samples).head? = some start ∧ ∃ w ∈ outage samples, late start.timestamp w = true

section Outage

variable {samples : List HashedValue} {v : HashedValue}

theorem outage_concat_good (samples : List HashedValue) (hv : v.isFailure = false) :
    outage (samples ++ [v]) = [] :=
  List.rtakeWhile_concat_neg _ _ _ (by simp [hv])

theorem outage_concat_failure (samples : List HashedValue) (hv : v.isFailure = true) :
    outage (samples ++ [v]) = outage samples ++ [v] :=
  List.rtakeWhile_concat_pos _ _ _ hv

theorem late_self (v : HashedValue) : late v.timestamp v = false := by simp [late, FAILURE_DELTA]

theorem Unreported.first (hcalm : outage samples = []) (hv : v.isFailure = true) :
    Unreported (samples ++ [v]) v := by
  rw [Unreported, outage_concat_failure samples hv, hcalm, List.nil_append]
  refine ⟨rfl, ?_⟩
  rw [List.forall_mem_singleton]
  exact late_self v

theorem Unreported.next {start : HashedValue} (hu : Unreported samples start)
    (hv : v.isFailure = true) (hearly : late start.timestamp v = false) :
    Unreported (samples ++ [v]) start := by
  obtain ⟨hstart, hall⟩ := hu
  rw [Unreported, outage_concat_failure samples hv]
  refine ⟨?_, ?_⟩
  · rw [List.head?_append, hstart]
    rfl
  · rw [forall_mem_concat]
    exact ⟨hall, hearly⟩

theorem Unreported.lasts {start : HashedValue} (hu : Unreported samples start)
    (hv : v.isFailure = true) (hlate : late start.timestamp v = true) : Reported (samples ++ [v]) := by
  rw [Reported, outage_concat_failure samples hv]
  refine ⟨start, ?_, v, List.mem_concat_self, hlate⟩
  rw [List.head?_append, hu.1]
  rfl

theorem Reported.next (hr : Reported samples) (hv : v.isFailure = true) :
    Reported (samples ++ [v]) := by
  obtain ⟨start, hstart, w, hw, hlate⟩ := hr
  rw [Reported, outage_concat_failure samples hv]
  refine ⟨start, ?_, w, List.mem_append_left _ hw, hlate⟩
  rw [List.head?_append, hstart]
  rfl

theorem Reported.not_unreported (hr : Reported samples) (start : HashedValue) :
    ¬Unreported samples start := by
  obtain ⟨start', hstart, w, hw, hlate⟩ := hr
  intro hu
  obtain rfl : start' = start := Option.some.inj (hstart.symm.trans hu.1)
  rw [hu.2 w hw] at hlate
  exact absurd hlate Bool.false_ne_true

end Outage

/-! ## The failures of the log -/

/-- Every failure among `records` is saved. -/
def SavedFailures (saved records : List HashedValue) : Prop :=
  ∀ r ∈ records, r.isFailure = true → r ∈ saved

/-- The failures of the log are saved, but for one that waits for its report. -/
inductive Marked (samples saved : List HashedValue) : History → Prop where
  | normal {slot : HashedValue} {pending : Bool} {last : Int} {older : List HashedValue} :
      outage samples = [] → slot.isFailure = false → SavedFailures saved older →
      Marked samples saved ⟨.normal slot pending last, older ++ [slot]⟩
  | inFail {slot start : HashedValue} {pending : Bool} {last : Int} {older : List HashedValue} :
      Unreported samples start → start.isFailure = true → slot.isFailure = false →
      SavedFailures saved older → (∀ q ∈ saved, q.timestamp < start.timestamp) →
      Marked samples saved ⟨.inFail slot pending last start.timestamp, older ++ [slot, start]⟩
  | failReported {log : List HashedValue} :
      Reported samples → SavedFailures saved log →
      Marked samples saved ⟨.failReported, log⟩

section Step

variable {samples saved older : List HashedValue} {slot v : HashedValue} {pending : Bool}
  {N : Nat}

theorem SavedFailures.mono (hs : SavedFailures saved older) (out : List HashedValue) :
    SavedFailures (saved ++ out) older :=
  fun r hr hfail => List.mem_append_left _ (hs r hr hfail)

theorem SavedFailures.concat_good (hs : SavedFailures saved older) (hv : v.isFailure = false) :
    SavedFailures saved (older ++ [v]) := by
  rw [SavedFailures, forall_mem_concat]
  refine ⟨hs, fun hfail => ?_⟩
  rw [hv] at hfail
  exact absurd hfail Bool.false_ne_true

theorem SavedFailures.drop (hs : SavedFailures saved older) (k : Nat) :
    SavedFailures saved (older.drop k) :=
  fun r hr => hs r (List.mem_of_mem_drop hr)

/-- The state after the good sample `v` was pushed and saved. -/
theorem SavedFailures.start (hs : SavedFailures saved older) (hN : 2 ≤ N) (hv : v.isFailure = false)
    (out : List HashedValue) :
    Marked (samples ++ [v]) (saved ++ out) ⟨.start v, push N older v⟩ := by
  have hcalm := outage_concat_good samples hv
  rcases List.eq_nil_or_concat' older with rfl | ⟨init, last, rfl⟩
  · have hone : push N [] v = [] ++ [v] := push_of_lt v (by rw [List.length_nil]; omega)
    rw [hone]
    exact .normal hcalm hv fun r hr => absurd hr List.not_mem_nil
  · obtain ⟨k, hk⟩ := push_concat hN init last v
    have hkept : SavedFailures saved (init.drop k ++ [last]) := by
      rw [SavedFailures, forall_mem_concat] at hs ⊢
      exact ⟨SavedFailures.drop hs.1 k, hs.2⟩
    rw [hk, show init.drop k ++ [last, v] = init.drop k ++ [last] ++ [v] by simp]
    exact .normal hcalm hv (hkept.mono out)

/-- The normal rule. -/
theorem SavedFailures.good_step (hs : SavedFailures saved older) (hslot : slot.isFailure = false)
    (hN : 2 ≤ N) (hv : v.isFailure = false) (samples : List HashedValue) (pending : Bool)
    (last : Int) :
    Marked (samples ++ [v]) (saved ++ (Dedup.good slot pending last v).saved)
      ⟨(Dedup.good slot pending last v).next,
        (Dedup.good slot pending last v).ops.foldl (LogOp.apply N) (older ++ [slot])⟩ := by
  have hlog := hs.concat_good hslot
  by_cases heq : (slot.val == v.val) = true
  · by_cases hold : v.timestamp - last > STABLE_DELTA
    · rw [Dedup.good_heartbeat heq hold]
      exact hlog.start hN hv [v]
    · rw [Dedup.good_duplicate heq hold, List.append_nil]
      show Marked _ _ ⟨_, LogOp.apply N (older ++ [slot]) (.refresh v.timestamp)⟩
      rw [refresh_eq v.timestamp List.getLast?_concat, List.dropLast_concat]
      exact .normal (outage_concat_good samples hv) hslot hs
  · rw [Dedup.good_change heq]
    exact hlog.start hN hv (Dedup.before slot pending ++ [v])

/-- **One sample**, newer than all that is saved. -/
theorem Marked.step {a : History} (hm : Marked samples saved a) (hN : 2 ≤ N)
    (hlater : ∀ q ∈ saved, q.timestamp < v.timestamp) :
    Marked (samples ++ [v]) (saved ++ (a.add N v).2) (a.add N v).1 := by
  cases hm with
  | @normal slot pending last older hcalm hslot hs =>
      cases hv : v.isFailure with
      | false =>
          rw [History.add, Dedup.step_normal hv]
          exact hs.good_step hslot hN hv samples pending last
      | true =>
          -- the failure takes a slot before it is saved
          obtain ⟨k, hk⟩ := push_concat hN older slot v
          have hnext : (History.add N ⟨.normal slot pending last, older ++ [slot]⟩ v) =
              (⟨.inFail slot pending last v.timestamp, older.drop k ++ [slot, v]⟩, []) := by
            simp [History.add, Dedup.step_begins hv, LogOp.apply, hk]
          rw [hnext, List.append_nil]
          exact .inFail (.first hcalm hv) hv hslot (hs.drop k) hlater
  | @inFail slot start pending last older hu hstart hslot hs hbelow =>
      have hconcat : older ++ [slot, start] = older ++ [slot] ++ [start] := by simp
      cases hv : v.isFailure with
      | false =>
          have hgood := hs.good_step hslot hN hv samples pending last
          rw [History.add, Dedup.step_noise hv, hconcat]
          dsimp only
          rw [List.foldl_cons, LogOp.apply, List.dropLast_concat]
          exact hgood
      | true =>
          cases hlate : late start.timestamp v with
          | true =>
              have hlong : v.timestamp - start.timestamp > FAILURE_DELTA := of_decide_eq_true hlate
              have hnow : ({ start with timestamp := v.timestamp } : HashedValue) = v := by
                rw [Binary64.beq_MIN.mp hstart, ← Binary64.beq_MIN.mp hv]
              have hlast : (older ++ [slot, start]).getLast? = some start := by simp
              have hrefresh := refresh_eq (N := N) v.timestamp hlast
              rw [hnow, hconcat, List.dropLast_concat] at hrefresh
              have hnext : (History.add N
                  ⟨.inFail slot pending last start.timestamp, older ++ [slot, start]⟩ v) =
                  (⟨.failReported, older ++ [slot] ++ [v]⟩, Dedup.before slot pending ++ [v]) := by
                rw [History.add, Dedup.step_reports hv hlong, hconcat, ← hrefresh]
                rfl
              rw [hnext]
              refine .failReported (hu.lasts hv hlate) ?_
              rw [SavedFailures, forall_mem_concat]
              refine ⟨(hs.concat_good hslot).mono _, fun _ => ?_⟩
              rw [← List.append_assoc]
              exact List.mem_concat_self
          | false =>
              have hshort : ¬v.timestamp - start.timestamp > FAILURE_DELTA :=
                of_decide_eq_false hlate
              have hnext : (History.add N
                  ⟨.inFail slot pending last start.timestamp, older ++ [slot, start]⟩ v) =
                  (⟨.inFail slot pending last start.timestamp, older ++ [slot, start]⟩, []) := by
                rw [History.add, Dedup.step_waits hv hshort]
                rfl
              rw [hnext, List.append_nil]
              exact .inFail (hu.next hv hlate) hstart hslot hs hbelow
  | @failReported log hr hs =>
      cases hv : v.isFailure with
      | true =>
          rw [History.add, Dedup.step_lasts hv, List.append_nil]
          exact .failReported (hr.next hv) hs
      | false =>
          rw [History.add, Dedup.step_returns hv]
          exact hs.start hN hv [v]

end Step

/-- **A run** from a good sample. -/
theorem marked_run {N : Nat} (hN : 2 ≤ N) {first : HashedValue} (hfirst : first.isFailure = false)
    (rest : List HashedValue)
    (hmono : (first :: rest).Pairwise fun a b => a.timestamp < b.timestamp) :
    Marked (first :: rest) (run (History.add N) (.start first) rest).2
      (run (History.add N) (.start first) rest).1 := by
  induction rest using List.reverseRecOn with
  | nil =>
      show Marked [first] [] ⟨.start first, [] ++ [first]⟩
      exact .normal (outage_concat_good [] hfirst) hfirst fun r hr => absurd hr List.not_mem_nil
  | append_singleton rest v ih =>
      rw [← List.cons_append, pairwise_concat] at hmono
      obtain ⟨hmono, hnewer⟩ := hmono
      obtain ⟨hkept, -⟩ := track_run hfirst rest hmono
      rw [run_concat, ← List.cons_append]
      refine (ih hmono).step hN ?_
      -- what is saved has the time of some sample
      intro q hq
      rw [(History.run_dedup N (.start first) rest).2] at hq
      obtain ⟨s, hs, hrec⟩ := hkept.fed q (List.mem_cons_of_mem _ hq)
      rw [hrec.1]
      exact hnewer s hs

/-! ## Noise -/

/-- A short outage between the samples `before`, which do not end with a failure, and the good
sample `v`. -/
structure Noise (before noise : List HashedValue) (v : HashedValue) : Prop where
  failing : ∀ w ∈ noise, w.isFailure = true
  short : ∀ start ∈ noise.head?, ∀ w ∈ noise, late start.timestamp w = false
  starts : ∀ u ∈ before.getLast?, u.isFailure = false
  ends : v.isFailure = false

/-- The same history, but for the oldest records of the log. -/
structure Behind (a' a : History) : Prop where
  dedup : a'.dedup = a.dedup
  log : a'.log <:+ a.log

section Noise

variable {N : Nat} {a a' : History} {log log' : List HashedValue}

theorem LogOp.apply_suffix (N : Nat) (h : log' <:+ log) (op : LogOp) :
    op.apply N log' <:+ op.apply N log := by
  cases op with
  | push v => exact push_suffix N h v
  | refresh timestamp =>
      obtain ⟨lost, rfl⟩ := h
      rcases List.eq_nil_or_concat' log' with rfl | ⟨older, last, rfl⟩
      · exact List.nil_suffix
      · refine ⟨lost, ?_⟩
        rw [apply, apply, ← List.append_assoc, List.modifyLast_concat, List.modifyLast_concat,
          List.append_assoc]
  | recover =>
      obtain ⟨lost, rfl⟩ := h
      rcases List.eq_nil_or_concat' log' with rfl | ⟨older, last, rfl⟩
      · exact List.nil_suffix
      · refine ⟨lost, ?_⟩
        rw [apply, apply, ← List.append_assoc, List.dropLast_concat, List.dropLast_concat]

theorem foldl_apply_suffix (N : Nat) (ops : List LogOp) (h : log' <:+ log) :
    ops.foldl (LogOp.apply N) log' <:+ ops.foldl (LogOp.apply N) log := by
  induction ops generalizing log' log with
  | nil => exact h
  | cons op ops ih => exact ih (op.apply_suffix N h)

theorem Behind.add (hb : Behind a' a) (v : HashedValue) : Behind (a'.add N v).1 (a.add N v).1 := by
  obtain ⟨hdedup, hlog⟩ := hb
  refine ⟨?_, ?_⟩
  · rw [History.add_dedup, History.add_dedup, hdedup]
  · show (a'.dedup.step v).ops.foldl _ _ <:+ (a.dedup.step v).ops.foldl _ _
    rw [hdedup]
    exact foldl_apply_suffix N _ hlog

theorem Behind.run (hb : Behind a' a) (vs : List HashedValue) :
    Behind (Transducer.run (History.add N) a' vs).1 (Transducer.run (History.add N) a vs).1 := by
  induction vs generalizing a' a with
  | nil => exact hb
  | cons v vs ih => exact ih (hb.add v)

theorem Behind.saved (hb : Behind a' a) (vs : List HashedValue) :
    (Transducer.run (History.add N) a' vs).2 = (Transducer.run (History.add N) a vs).2 := by
  rw [(History.run_dedup N a' vs).2, (History.run_dedup N a vs).2, hb.dedup]

/-- An outage in progress does nothing while it is short. -/
theorem run_short {slot : HashedValue} {pending : Bool} {last since : Int}
    {failures : List HashedValue} (hfail : ∀ w ∈ failures, w.isFailure = true)
    (hshort : ∀ w ∈ failures, late since w = false) :
    run (History.add N) ⟨.inFail slot pending last since, log⟩ failures =
      (⟨.inFail slot pending last since, log⟩, []) := by
  induction failures with
  | nil => rfl
  | cons w failures ih =>
      obtain ⟨hw, hfail⟩ := List.forall_mem_cons.mp hfail
      obtain ⟨hearly, hshort⟩ := List.forall_mem_cons.mp hshort
      have hnot : ¬w.timestamp - since > FAILURE_DELTA := of_decide_eq_false hearly
      have hstep : History.add N ⟨.inFail slot pending last since, log⟩ w =
          (⟨.inFail slot pending last since, log⟩, []) := by
        rw [History.add, Dedup.step_waits hw hnot]
        rfl
      rw [run_cons, hstep, ih hfail hshort, List.append_nil]

/-- Noise costs at most the oldest record. -/
theorem run_noise {v : HashedValue} {before noise : List HashedValue} (hn : Noise before noise v)
    (slot : HashedValue) (pending : Bool) (last : Int) (log : List HashedValue) :
    (run (History.add N) ⟨.normal slot pending last, log⟩ (noise ++ [v])).2 =
        (History.add N ⟨.normal slot pending last, log⟩ v).2 ∧
      Behind (run (History.add N) ⟨.normal slot pending last, log⟩ (noise ++ [v])).1
        (History.add N ⟨.normal slot pending last, log⟩ v).1 := by
  obtain ⟨hfail, hshort, -, hv⟩ := hn
  cases noise with
  | nil => exact ⟨by rw [List.nil_append, run_cons, run_nil, List.append_nil], rfl, List.suffix_refl _⟩
  | cons start failures =>
      obtain ⟨hstart, hfail⟩ := List.forall_mem_cons.mp hfail
      have hshort' := (List.forall_mem_cons.mp (hshort start rfl)).2
      have hfirst : History.add N ⟨.normal slot pending last, log⟩ start =
          (⟨.inFail slot pending last start.timestamp, push N log start⟩, []) := by
        rw [History.add, Dedup.step_begins hstart]
        rfl
      obtain ⟨k, -, hk⟩ := push_eq_drop N log start
      have hback : (push N log start).dropLast <:+ log := by
        rw [hk, List.dropLast_drop_eq_drop_dropLast, List.dropLast_concat]
        exact List.drop_suffix k log
      rw [List.cons_append, run_cons, hfirst, run_concat, run_short hfail hshort']
      rw [History.add, History.add, Dedup.step_noise hv, Dedup.step_normal hv]
      refine ⟨rfl, rfl, ?_⟩
      show ((Dedup.good slot pending last v).ops).foldl _ ((push N log start).dropLast) <:+
        ((Dedup.good slot pending last v).ops).foldl _ log
      exact foldl_apply_suffix N _ hback

/-- The same in the middle of a run. -/
theorem run_noise_between {slot v : HashedValue} {pending : Bool} {last : Int}
    {before noise : List HashedValue} (hn : Noise before noise v)
    (hbefore : (run (History.add N) a before).1 = ⟨.normal slot pending last, log⟩)
    (after : List HashedValue) :
    (run (History.add N) a (before ++ noise ++ v :: after)).2 =
        (run (History.add N) a (before ++ v :: after)).2 ∧
      Behind (run (History.add N) a (before ++ noise ++ v :: after)).1
        (run (History.add N) a (before ++ v :: after)).1 := by
  have hsplit : before ++ noise ++ v :: after = before ++ (noise ++ [v] ++ after) := by simp
  obtain ⟨hsaved, hbehind⟩ := run_noise (N := N) hn slot pending last log
  rw [hsplit, run_append, run_append _ _ before, hbefore, run_append, run_cons, hsaved]
  exact ⟨by rw [hbehind.saved after], hbehind.run after⟩

end Noise

/-! ## What is served -/

/-- The query asks for the time of `v`, and not for anything older than the live window. A record of
time 0 is never served. -/
structure Asked (h : ValueHasher) (v : HashedValue) (fromTs toTs : Int) : Prop where
  remembered : ∀ oldest ∈ h.liveWindow.head?, oldest.timestamp ≤ fromTs
  inRange : fromTs ≤ v.timestamp ∧ v.timestamp < toTs
  stamped : v.timestamp ≠ 0

/-- A failure is served only if it was emitted. -/
def ServesEmitted (h : ValueHasher) (saved : List HashedValue) (fromTs toTs : Int) : Prop :=
  ∃ answer, h.getHashed fromTs toTs = some answer ∧ ∀ found ∈ answer, SavedFailures saved found

/-- Without the noise, the same would have been saved, and the ring would hold what it holds, and
perhaps older records. -/
def LeavesNoTrace (N : Nat) (first : HashedValue) (rest : List HashedValue) (h : ValueHasher)
    (saved : List HashedValue) : Prop :=
  ∀ before noise v after, rest = before ++ noise ++ v :: after → Noise before noise v →
    ∃ h₀ h', ValueHasher.new N first.val first.timestamp = some h₀ ∧
      runM ValueHasher.feed h₀ (before ++ v :: after) = some (h', saved) ∧
      h.liveWindow <:+ h'.liveWindow

/-- Unreported failures stay invisible. -/
structure StaysHidden (N : Nat) (first : HashedValue) (rest : List HashedValue) (h : ValueHasher)
    (saved : List HashedValue) (fromTs toTs : Int) : Prop where
  emitted : ServesEmitted h saved fromTs toTs
  noTrace : LeavesNoTrace N first rest h saved

section Served

variable {N : Nat} {h : ValueHasher} {log samples saved : List HashedValue} {fromTs toTs : Int}

theorem RingOf.servesEmitted_iff (hr : RingOf N h log)
    (hsorted : log.Pairwise fun a b => a.timestamp ≤ b.timestamp) :
    ServesEmitted h saved fromTs toTs ↔ (Tells h.SingleSlot log fromTs toTs →
      ∀ r ∈ log, fromTs ≤ r.timestamp ∧ r.timestamp < toTs → r.timestamp ≠ 0 →
        r.isFailure = true → r ∈ saved) := by
  obtain ⟨answer, hget, hfound, hsilent⟩ := hr.getHashed_spec hsorted fromTs toTs
  have hserves : ServesEmitted h saved fromTs toTs ↔
      ∀ found ∈ answer, SavedFailures saved found := by
    constructor
    · rintro ⟨answer', hget', hall⟩
      obtain rfl : answer = answer' := Option.some.inj (hget.symm.trans hget')
      exact hall
    · exact fun hall => ⟨answer, hget, hall⟩
  rw [hserves]
  by_cases htells : Tells h.SingleSlot log fromTs toTs
  · rw [hfound htells]
    simp [htells, SavedFailures, inRange_iff]
    grind
  · rw [hsilent htells]
    simp [htells]

/-- The log of an invariant history, and a query. -/
theorem Marked.servesEmitted_iff {a : History} (hm : Marked samples saved a) (hr : RingOf N h a.log)
    (hsorted : a.log.Pairwise fun a b => a.timestamp ≤ b.timestamp) :
    ServesEmitted h saved fromTs toTs ↔
      ∀ start, Unreported samples start → ¬Asked h start fromTs toTs := by
  rw [hr.servesEmitted_iff hsorted]
  cases hm with
  | @normal slot pending last older hcalm hslot hs =>
      refine iff_of_true (fun _ r hmem _ _ hfail => hs.concat_good hslot r hmem hfail) ?_
      intro start hu
      rw [Unreported, hcalm] at hu
      exact absurd hu.1 (by simp)
  | @failReported log hrep hs =>
      refine iff_of_true (fun _ r hmem _ _ hfail => hs r hmem hfail) ?_
      exact fun start hu => absurd hu (hrep.not_unreported start)
  | @inFail slot start pending last older hu hstart hslot hs hbelow =>
      have hwindow : h.liveWindow = older ++ [slot, start] := hr.liveWindow_eq
      have hmem : start ∈ older ++ [slot, start] := by simp
      have hmany : ¬h.SingleSlot := by
        rintro ⟨hone, -⟩
        rw [hwindow] at hone
        simp at hone
      constructor
      · intro hserved start' hu' hasked
        -- the tentative failure is asked for, and nothing older than it is saved under its time
        obtain rfl : start = start' := Option.some.inj (hu.1.symm.trans hu'.1)
        obtain ⟨hold, hrange, hzero⟩ := hasked
        rw [hwindow] at hold
        have htells : Tells h.SingleSlot (older ++ [slot, start]) fromTs toTs :=
          ⟨lt_of_le_of_lt hrange.1 hrange.2, hmany, hold, start, hmem, hrange⟩
        exact absurd (hbelow start (hserved htells start hmem hrange hzero hstart)) (lt_irrefl _)
      · intro hnot htells r hr' hrange hzero hfail
        have hconcat : older ++ [slot, start] = older ++ [slot] ++ [start] := by simp
        rw [hconcat] at hr'
        rcases List.mem_append.mp hr' with hr' | hr'
        · exact hs.concat_good hslot r hr' hfail
        · obtain rfl : r = start := List.mem_singleton.mp hr'
          refine absurd ⟨?_, hrange, hzero⟩ (hnot r hu)
          rw [hwindow]
          exact htells.2.2.1

/-- Noise leaves no trace, whatever comes after it. -/
theorem leaves_no_trace (hN : 2 ≤ N) {first : HashedValue} (hfirst : first.isFailure = false)
    {rest : List HashedValue}
    (hmono : (first :: rest).Pairwise fun a b => a.timestamp < b.timestamp)
    (hrep : Represents N h (run (History.add N) (.start first) rest).1) :
    LeavesNoTrace N first rest h (run (History.add N) (.start first) rest).2 := by
  rintro before noise v after rfl hn
  obtain ⟨h₀, h', hnew, hrun, hrep'⟩ := run_represents hN first (before ++ v :: after)
  have hprefix : (first :: before).Pairwise fun a b => a.timestamp < b.timestamp :=
    hmono.sublist (by simp)
  have hm := marked_run hN hfirst before hprefix
  have hcalm : outage (first :: before) = [] := by
    rcases List.eq_nil_or_concat' before with rfl | ⟨init, u, rfl⟩
    · exact outage_concat_good [] hfirst
    · rw [← List.cons_append]
      exact outage_concat_good _ (hn.starts u (by simp))
  generalize hbefore : (run (History.add N) (.start first) before).1 = a at hm
  cases hm with
  | normal _ _ _ =>
      obtain ⟨hsaved, hbehind⟩ := run_noise_between hn hbefore after
      refine ⟨h₀, h', hnew, by rw [hrun, hsaved], ?_⟩
      rw [hrep.ring.liveWindow_eq, hrep'.ring.liveWindow_eq]
      exact hbehind.log
  | inFail hu _ _ _ _ =>
      rw [Unreported, hcalm] at hu
      exact absurd hu.1 (by simp)
  | failReported hr _ =>
      rw [Reported, hcalm] at hr
      obtain ⟨start, hstart, -⟩ := hr
      exact absurd hstart (by simp)

end Served

/-- After the samples `first :: rest`, failures stay invisible to the query unless it asks for the
start of an outage that waits for its report. -/
def HidesUnlessAsked (N : Nat) (first : HashedValue) (rest : List HashedValue)
    (fromTs toTs : Int) : Prop :=
  ∃ h₀ h saved, ValueHasher.new N first.val first.timestamp = some h₀ ∧
    runM ValueHasher.feed h₀ rest = some (h, saved) ∧
    (StaysHidden N first rest h saved fromTs toTs ↔
      ∀ start, Unreported (first :: rest) start → ¬Asked h start fromTs toTs)

/-- **What charts see of unreported failures.** -/
theorem unreported_hidden_iff (N : Nat) (hN : 2 ≤ N) (first : HashedValue)
    (hfirst : first.isFailure = false) (rest : List HashedValue)
    (hmono : (first :: rest).Pairwise fun a b => a.timestamp < b.timestamp) (fromTs toTs : Int) :
    HidesUnlessAsked N first rest fromTs toTs := by
  obtain ⟨h₀, h, hnew, hrun, hrep⟩ := run_represents hN first rest
  have hweak : (first :: rest).Pairwise fun a b => a.timestamp ≤ b.timestamp :=
    hmono.imp fun hlt => le_of_lt hlt
  obtain ⟨hi, ho⟩ := History.run_ordered (N := N) hweak
  have hserves : ServesEmitted h _ fromTs toTs ↔ _ :=
    (marked_run hN hfirst rest hmono).servesEmitted_iff hrep.ring ho.sorted
  refine ⟨h₀, h, _, hnew, hrun, ?_⟩
  rw [← hserves]
  exact ⟨fun hh => hh.emitted, fun hs => ⟨hs, leaves_no_trace hN hfirst hmono hrep⟩⟩

/-- A noise, and then a failure that a query asks for while it waits. -/
theorem unreported_hidden_iff_waiting :
    HidesUnlessAsked 3 ⟨Binary64.ofInt 1, 1000⟩
      [⟨Binary64.MIN, 1010⟩, ⟨Binary64.ofInt 2, 1020⟩, ⟨Binary64.MIN, 1030⟩] 1025 2000 :=
  unreported_hidden_iff 3 (by decide) _ (by decide +kernel) _ (by decide) 1025 2000

/-- A failure of 50 s ago is served, and nothing has been emitted. -/
theorem unreported_failure_served :
    ¬∃ h₀ h saved, ValueHasher.new 2 (Binary64.ofInt 1) 1000 = some h₀ ∧
      runM ValueHasher.feed h₀ [⟨Binary64.MIN, 1050⟩] = some (h, saved) ∧
      StaysHidden 2 ⟨Binary64.ofInt 1, 1000⟩ [⟨Binary64.MIN, 1050⟩] h saved 1000 2000 := by
  rintro ⟨h₀, h, saved, hnew, hrun, hhidden⟩
  have hserved : ∀ h₀ ∈ ValueHasher.new 2 (Binary64.ofInt 1) 1000,
      ∀ r ∈ runM ValueHasher.feed h₀ [⟨Binary64.MIN, 1050⟩], r.2 = [] ∧
        r.1.getHashed 1000 2000 =
          some (some [⟨Binary64.ofInt 1, 1000⟩, ⟨Binary64.MIN, 1050⟩]) := by
    decide +kernel
  obtain ⟨hnone, hget⟩ := hserved h₀ hnew (h, saved) hrun
  obtain ⟨answer, hanswer, hall⟩ := hhidden.emitted
  obtain rfl := Option.some.inj (hget.symm.trans hanswer)
  have hmem := hall _ rfl ⟨Binary64.MIN, 1050⟩ (by simp) (by decide)
  rw [show saved = [] from hnone] at hmem
  exact absurd hmem List.not_mem_nil

end ModbusLogger.Hasher
