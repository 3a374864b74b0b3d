import ModbusLogger.Db.Hasher.HashUnit
import ModbusLogger.Lib.CyclicWindow
import ModbusLogger.Lib.Transducer

/-!
# What the ring of one value is for

`Dedup` is deduplication without the ring: the last good sample, whether it moved on since it was
saved, and the failure in progress. A step says which records to save and what to do to the log of
recent samples; the log itself is a plain list that never exceeds the capacity.

`HashUnit` is proved to behave like this machine in `Refinement`, so every statement about what is
saved, and most of what is said about range queries, is proved here, without cursors.
-/

namespace ModbusLogger.Hasher

/-- What is known of the latest samples.

* `normal`: `slot` is the last good sample; `pending` when its timestamp has not been saved.
* `inFail`: failures since `since`, not yet reported; the first good sample cancels them.
* `failReported`: the outage has been saved. -/
inductive Dedup where
  | normal (slot : HashedValue) (pending : Bool) (lastEmittedTs : Int)
  | inFail (slot : HashedValue) (pending : Bool) (lastEmittedTs : Int) (since : Int)
  | failReported
  deriving DecidableEq, Repr

/-- What a sample does to the log. -/
inductive LogOp where
  | push (v : HashedValue)
  | refresh (timestamp : Int)
  | recover
  deriving DecidableEq, Repr

/-- `push` appends and drops the oldest record past the capacity, `refresh` moves the timestamp of
the last record, `recover` removes the last record. -/
def LogOp.apply (capacity : Nat) (log : List HashedValue) : LogOp → List HashedValue
  | .push v => CyclicWindow.push capacity log v
  | .refresh timestamp => log.modifyLast fun v => { v with timestamp }
  | .recover => log.dropLast

/-- One step of `Dedup`: the next state, the operations on the log, and the records to save in the
order in which they are saved. -/
structure Move where
  next : Dedup
  ops : List LogOp
  saved : List HashedValue

namespace Dedup

/-- The state after the first sample of a value, which is saved as it comes. -/
def start (v : HashedValue) : Dedup := .normal v false v.timestamp

/-- The record that precedes an emission: the last good sample, if it has not been saved. -/
def before (slot : HashedValue) (pending : Bool) : List HashedValue :=
  if pending then [slot] else []

/-- The normal rule, for a good sample `v` after the good sample `slot`. -/
def good (slot : HashedValue) (pending : Bool) (lastEmittedTs : Int) (v : HashedValue) : Move :=
  if slot.val == v.val then
    if v.timestamp - lastEmittedTs > STABLE_DELTA then ⟨start v, [.push v], [v]⟩
    else
      ⟨.normal { slot with timestamp := v.timestamp } true lastEmittedTs,
        [.refresh v.timestamp], []⟩
  else ⟨start v, [.push v], before slot pending ++ [v]⟩

def step (d : Dedup) (v : HashedValue) : Move :=
  match d with
  | .normal slot pending last =>
    if v.isFailure then ⟨.inFail slot pending last v.timestamp, [.push v], []⟩
    else good slot pending last v
  | .inFail slot pending last since =>
    if v.isFailure then
      if v.timestamp - since > FAILURE_DELTA then
        ⟨.failReported, [.refresh v.timestamp], before slot pending ++ [v]⟩
      else ⟨.inFail slot pending last since, [], []⟩
    else
      let move := good slot pending last v
      { move with ops := .recover :: move.ops }
  | .failReported =>
    if v.isFailure then ⟨.failReported, [], []⟩ else ⟨start v, [.push v], [v]⟩

section Good

variable {slot v : HashedValue} {pending : Bool} {lastEmittedTs : Int}

theorem good_heartbeat (heq : (slot.val == v.val) = true)
    (hold : v.timestamp - lastEmittedTs > STABLE_DELTA) :
    good slot pending lastEmittedTs v = ⟨start v, [.push v], [v]⟩ := by
  rw [good, if_pos heq, if_pos hold]

theorem good_duplicate (heq : (slot.val == v.val) = true)
    (hnew : ¬v.timestamp - lastEmittedTs > STABLE_DELTA) :
    good slot pending lastEmittedTs v =
      ⟨.normal { slot with timestamp := v.timestamp } true lastEmittedTs,
        [.refresh v.timestamp], []⟩ := by
  rw [good, if_pos heq, if_neg hnew]

theorem good_change (hne : ¬(slot.val == v.val) = true) :
    good slot pending lastEmittedTs v = ⟨start v, [.push v], before slot pending ++ [v]⟩ := by
  rw [good, if_neg hne]

end Good

/-! ### What a sample does in each state -/

section Step

variable {slot v : HashedValue} {pending : Bool} {lastEmittedTs since : Int}

theorem step_normal (hv : v.isFailure = false) :
    (normal slot pending lastEmittedTs).step v = good slot pending lastEmittedTs v := by
  simp [step, hv]

/-- The first failure takes a slot of the log. -/
theorem step_begins (hv : v.isFailure = true) :
    (normal slot pending lastEmittedTs).step v =
      ⟨.inFail slot pending lastEmittedTs v.timestamp, [.push v], []⟩ := by
  simp [step, hv]

/-- The failures were noise. -/
theorem step_noise (hv : v.isFailure = false) :
    (inFail slot pending lastEmittedTs since).step v =
      { good slot pending lastEmittedTs v with
        ops := .recover :: (good slot pending lastEmittedTs v).ops } := by
  simp [step, hv]

theorem step_reports (hv : v.isFailure = true) (hlong : v.timestamp - since > FAILURE_DELTA) :
    (inFail slot pending lastEmittedTs since).step v =
      ⟨.failReported, [.refresh v.timestamp], before slot pending ++ [v]⟩ := by
  simp [step, hv, hlong]

theorem step_waits (hv : v.isFailure = true) (hshort : ¬v.timestamp - since > FAILURE_DELTA) :
    (inFail slot pending lastEmittedTs since).step v =
      ⟨.inFail slot pending lastEmittedTs since, [], []⟩ := by
  simp [step, hv, hshort]

theorem step_lasts (hv : v.isFailure = true) :
    failReported.step v = ⟨.failReported, [], []⟩ := by
  simp [step, hv]

theorem step_returns (hv : v.isFailure = false) :
    failReported.step v = ⟨start v, [.push v], [v]⟩ := by
  simp [step, hv]

end Step

/-- Deduplication as a machine that emits the records to save. -/
def feed (d : Dedup) (v : HashedValue) : Dedup × List HashedValue :=
  ((d.step v).next, (d.step v).saved)

end Dedup

/-- Deduplication together with the log of recent samples. -/
structure History where
  dedup : Dedup
  log : List HashedValue
  deriving DecidableEq, Repr

namespace History

def start (v : HashedValue) : History := ⟨.start v, [v]⟩

def add (capacity : Nat) (a : History) (v : HashedValue) : History × List HashedValue :=
  let move := a.dedup.step v
  (⟨move.next, move.ops.foldl (LogOp.apply capacity) a.log⟩, move.saved)

@[simp] theorem add_dedup (capacity : Nat) (a : History) (v : HashedValue) :
    (a.add capacity v).1.dedup = (a.dedup.feed v).1 := rfl

@[simp] theorem add_saved (capacity : Nat) (a : History) (v : HashedValue) :
    (a.add capacity v).2 = (a.dedup.feed v).2 := rfl

/-- What is saved does not depend on the log. -/
theorem run_dedup (capacity : Nat) (a : History) (vs : List HashedValue) :
    (Transducer.run (add capacity) a vs).1.dedup = (Transducer.run Dedup.feed a.dedup vs).1 ∧
      (Transducer.run (add capacity) a vs).2 = (Transducer.run Dedup.feed a.dedup vs).2 := by
  induction vs generalizing a with
  | nil => exact ⟨rfl, rfl⟩
  | cons v vs ih =>
      rw [Transducer.run_cons, Transducer.run_cons]
      obtain ⟨hdedup, hsaved⟩ := ih (a.add capacity v).1
      exact ⟨hdedup, congrArg ((a.dedup.feed v).2 ++ ·) hsaved⟩

end History

end ModbusLogger.Hasher
