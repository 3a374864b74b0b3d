import ModbusLogger.Lib.Binary64
import Mathlib.Data.List.ReduceOption

/-!
# The ring of one value (`db/hasher/hash_unit.rs`)

`ValueHasher` decides which samples of one logging value go to the database and keeps the recent
ones in a ring for range queries. Samples with value `f64::MIN` are failures.

A method of the source that can panic returns an `Option`, and `none` is the panic: an index out of
the vector, or a `usize` subtraction that would underflow. Timestamps are whole seconds since the
epoch, so their `i64` differences do not overflow and are plain integers here.
-/

namespace ModbusLogger.Hasher

/-- A stored or saved point of one value. -/
structure HashedValue where
  val : Binary64
  timestamp : Int
  deriving DecidableEq, Inhabited, Repr

/-- A failure is marked by the value `f64::MIN`. -/
def HashedValue.isFailure (v : HashedValue) : Bool := v.val == Binary64.MIN

/-- What `add` hands to the caller: the record to save now, and the one to save before it. -/
abbrev Emission := Option HashedValue × Option HashedValue

/-- The records of an emission in the order in which they are saved. -/
def Emission.records (e : Emission) : List HashedValue := [e.2, e.1].reduceOption

def STABLE_DELTA : Int := 300
def FAILURE_DELTA : Int := 120

inductive HashState where
  | normal
  | inFail
  | failReported
  deriving DecidableEq, Repr

structure ValueHasher where
  hashedValues : List HashedValue
  capacity : Nat
  current : Nat
  stableDelta : Int
  failureDelta : Int
  lastEmittedTs : Int
  head : Nat
  tail : Nat
  ringFinished : Bool
  isResolvingDuplicate : Bool
  state : HashState
  deriving DecidableEq, Repr

/-- `usize` subtraction of a checked build. -/
def checkedSub (a b : Nat) : Option Nat := if b ≤ a then some (a - b) else none

namespace ValueHasher

def new (capacity : Nat) (val : Binary64) (timestamp : Int) : Option ValueHasher :=
  let hashedValues := List.replicate capacity (default : HashedValue)
  if 0 < hashedValues.length then
    some
      { hashedValues := hashedValues.set 0 { val, timestamp }
        current := 0
        capacity
        stableDelta := STABLE_DELTA
        failureDelta := FAILURE_DELTA
        lastEmittedTs := timestamp
        head := 0
        tail := 0
        ringFinished := false
        isResolvingDuplicate := false
        state := .normal }
  else none

/-- `self.hashed_values[self.head]` -/
def slot (h : ValueHasher) : Option HashedValue := h.hashedValues[h.head]?

/-- `self.hashed_values[self.head] = v` -/
def setSlot (h : ValueHasher) (v : HashedValue) : Option ValueHasher :=
  if h.head < h.hashedValues.length then
    some { h with hashedValues := h.hashedValues.set h.head v }
  else none

/-- Counts the positions and notes when the ring is full for the first time. -/
def advance (h : ValueHasher) : ValueHasher :=
  if h.ringFinished then h
  else
    let h := { h with current := h.current + 1 }
    if h.current = h.capacity then { h with ringFinished := true } else h

def goAhead (h : ValueHasher) : ValueHasher :=
  let h := { h with head := (h.head + 1) % h.capacity }
  if h.ringFinished then { h with tail := (h.capacity + h.head + 1) % h.capacity } else h

/-- The tail stays where it is: the slot left behind holds noise. -/
def rollBack (h : ValueHasher) : ValueHasher :=
  if h.ringFinished then
    { h with head := if h.head = 0 then h.capacity - 1 else h.head - 1 }
  else
    { h with head := if h.head ≠ 0 then h.head - 1 else 0 }

def void : Emission := (none, none)

def currentVal (h : ValueHasher) : Option Emission := do
  let now ← h.slot
  return (some now, none)

def currentAndPreviousVal (h : ValueHasher) : Option Emission := do
  if h.head = 0 ∧ ¬h.ringFinished then
    return void
  let prev ← if h.head = 0 ∧ h.ringFinished then checkedSub h.capacity 1 else checkedSub h.head 1
  let now ← h.slot
  let before ← h.hashedValues[prev]?
  return (some now, some before)

def addNormal (h : ValueHasher) (val : Binary64) (timestamp : Int) :
    Option (ValueHasher × Emission) := do
  let last ← h.slot
  if last.val == val then
    -- nothing changed
    if timestamp - h.lastEmittedTs > h.stableDelta then
      let h ← h.advance.goAhead.setSlot { val, timestamp }
      let h := { h with lastEmittedTs := timestamp, isResolvingDuplicate := false }
      return (h, ← h.currentVal)
    else
      -- the slot moves on in time, and is saved when the value changes
      let h := { h with isResolvingDuplicate := true }
      let h ← h.setSlot { last with timestamp }
      return (h, void)
  else
    let h ← h.advance.goAhead.setSlot { val, timestamp }
    let h := { h with lastEmittedTs := timestamp }
    if h.isResolvingDuplicate then
      let h := { h with isResolvingDuplicate := false }
      return (h, ← h.currentAndPreviousVal)
    else
      return (h, ← h.currentVal)

def addAfterNoice (h : ValueHasher) (val : Binary64) (timestamp : Int) :
    Option (ValueHasher × Emission) := do
  let h := { h with state := .normal }
  -- undoes the `advance` of the failure
  let current ← if h.ringFinished then some h.current else checkedSub h.current 1
  let h := { h with current }
  h.rollBack.addNormal val timestamp

def cleanFailReport (h : ValueHasher) (val : Binary64) (timestamp : Int) :
    Option (ValueHasher × Emission) := do
  let h := { h with state := .normal, isResolvingDuplicate := false }
  let h ← h.advance.goAhead.setSlot { val, timestamp }
  let h := { h with lastEmittedTs := timestamp }
  return (h, ← h.currentVal)

def addFail (h : ValueHasher) (val : Binary64) (timestamp : Int) :
    Option (ValueHasher × Emission) := do
  if h.state = .failReported then
    return (h, void)
  -- the first failure takes a slot, whose time is the start of the outage
  let h ← if h.state ≠ .inFail then
      (h.advance.goAhead.setSlot { val, timestamp }).map fun h => { h with state := .inFail }
    else some h
  let last ← h.slot
  if timestamp - last.timestamp > h.failureDelta ∧ h.state ≠ .failReported then
    let h ← h.setSlot { last with timestamp }
    let h := { h with state := .failReported }
    if h.isResolvingDuplicate then
      let h := { h with isResolvingDuplicate := false }
      return (h, ← h.currentAndPreviousVal)
    else
      return (h, ← h.currentVal)
  return (h, void)

def add (h : ValueHasher) (val : Binary64) (timestamp : Int) :
    Option (ValueHasher × Emission) :=
  if val == Binary64.MIN then h.addFail val timestamp
  else
    match h.state with
    | .normal => h.addNormal val timestamp
    | .inFail => h.addAfterNoice val timestamp
    | .failReported => h.cleanFailReport val timestamp

/-- `add` as a machine that emits the records to save. -/
def feed (h : ValueHasher) (v : HashedValue) : Option (ValueHasher × List HashedValue) :=
  (h.add v.val v.timestamp).map fun r => (r.1, Emission.records r.2)

/-! ## Range queries -/

/-- The loop of `lower_bound_ring`, between the offsets `left` and `right` of the ring. -/
def lowerBoundLoop (arr : List HashedValue) (oldestIdx : Nat) (target : Int) (left right : Nat) :
    Option Nat :=
  if left < right then
    let mid := left + (right - left) / 2
    match arr[(oldestIdx + mid) % arr.length]? with
    | none => none
    | some slot =>
      if slot.timestamp < target then lowerBoundLoop arr oldestIdx target (mid + 1) right
      else lowerBoundLoop arr oldestIdx target left mid
  else some left
termination_by right - left
decreasing_by all_goals omega

def lowerBoundRing (arr : List HashedValue) (size oldestIdx : Nat) (target : Int) : Option Nat :=
  lowerBoundLoop arr oldestIdx target 0 size

/-- The inner option is the answer of the source, which is `None` when the ring cannot tell. -/
def getHashed (h : ValueHasher) (fromTs toTs : Int) : Option (Option (List HashedValue)) := do
  if fromTs ≥ toTs ∨ (h.head = h.tail ∧ ¬h.ringFinished) then
    return none
  let oldest ← h.hashedValues[h.tail]?
  if fromTs < oldest.timestamp then
    return none
  let oldestIdx := h.tail
  let len := (h.head + h.capacity - oldestIdx) % h.capacity + 1
  let start ← lowerBoundRing h.hashedValues len oldestIdx fromTs
  let stop ← lowerBoundRing h.hashedValues len oldestIdx toTs
  if start = stop then
    return none
  let count ← checkedSub stop start
  let found ← (List.range' start count).mapM fun i =>
    h.hashedValues[(oldestIdx + i) % h.capacity]?
  -- slots that were never written have time 0
  return some (found.filter fun hv => hv.timestamp != 0)

end ValueHasher

end ModbusLogger.Hasher
