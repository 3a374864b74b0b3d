import ModbusLogger.Db.Hasher.Refinement
import ModbusLogger.Lib.FixedWidth
import ModbusLogger.Reader.Structs

/-!
# The measure master (`db/hasher/hash_master.rs`)

One ring for each logging value. A `DeviceEvent` is split into its measures, each goes to the ring of
its value, and what the ring emits is handed to `save_value`. The capacity is a parameter; the
source runs with `MAX_PONT_IN_WEEK`.
-/

namespace ModbusLogger.Hasher

open Reader FixedWidth Transducer

def MAX_PONT_IN_WEEK : Nat := 131072

/-- `hashed_map`; the key is an `i32`. -/
abbrev HashedMap := Int → Option ValueHasher

/-- The entry of one value: its first sample makes the ring and is saved as it comes. -/
def writeValue (capacity : Nat) (entry : Option ValueHasher) (v : HashedValue) :
    Option (Option ValueHasher × List HashedValue) :=
  match entry with
  | some hasher => (hasher.feed v).map fun r => (some r.1, r.2)
  | none => (ValueHasher.new capacity v.val v.timestamp).map fun h => (some h, [v])

/-- The key and the sample of a measure that is logged. -/
def sample (value : ModbusMeasure) : Option (Int × HashedValue) :=
  if value.isLogging then some (asI32 value.valueId, ⟨value.measureValue, value.measureTime⟩)
  else none

/-- One turn of the loop of `write_measure`. -/
def writeOne (capacity : Nat) (map : HashedMap) (value : ModbusMeasure) :
    Option (HashedMap × List (Int × HashedValue)) :=
  match sample value with
  | none => some (map, [])
  | some s => keyed (writeValue capacity) map s

/-- The new map and the calls of `save_value` in order. -/
def writeMeasure (capacity : Nat) (map : HashedMap) (ev : DeviceEvent) :
    Option (HashedMap × List (Int × HashedValue)) :=
  runM (writeOne capacity) map ev.measures

structure MeasureResponse where
  id : Int
  values : List HashedValue
  fromTs : Int
  toTs : Int
  deriving DecidableEq, Repr

/-- `hash_map.get_mut(val_id)` and `hasher.get_hashed(from, to)` -/
def fromRing (map : HashedMap) (id fromTs toTs : Int) : Option (Option (List HashedValue)) :=
  match map id with
  | some hasher => hasher.getHashed fromTs toTs
  | none => some none

/-- The ring answers if it can, the database otherwise; a database error ends the request. -/
def readMeasure (map : HashedMap) (getMeasures : Int → Int → Int → Except String (List HashedValue))
    (fromTs toTs : Int) : List Int → Option (Except String (List MeasureResponse))
  | [] => some (.ok [])
  | id :: ids => do
    let answer ← fromRing map id fromTs toTs
    match answer.elim (getMeasures id fromTs toTs) .ok with
    | .error e => return .error e
    | .ok values =>
      let results ← readMeasure map getMeasures fromTs toTs ids
      return results.map (⟨id, values, fromTs, toTs⟩ :: ·)

/-- The rows that the query of `get_measures` selects, in the order of the table. -/
def selectMeasures (rows : List (Int × HashedValue)) (id fromTs toTs : Int) : List HashedValue :=
  (ofKey id rows).filter fun v => decide (fromTs ≤ v.timestamp) && decide (v.timestamp ≤ toTs)

/-! ## One value at a time -/

/-- The samples of the value `id`, in the order in which they are written. -/
def samplesOf (id : Int) (events : List DeviceEvent) : List HashedValue :=
  ofKey id (events.flatMap fun ev => ev.measures.filterMap sample)

/-- What deduplication saves of a list of samples, the first of them as it comes. -/
def Dedup.savedOf : List HashedValue → List HashedValue
  | [] => []
  | first :: rest => first :: (run Dedup.feed (.start first) rest).2

section Split

variable {capacity : Nat}

theorem runM_writeOne (map : HashedMap) (measures : List ModbusMeasure) :
    runM (writeOne capacity) map measures =
      runM (keyed (writeValue capacity)) map (measures.filterMap sample) := by
  induction measures generalizing map with
  | nil => rfl
  | cons value measures ih =>
      rw [runM_cons, writeOne]
      cases hs : sample value with
      | none =>
          rw [List.filterMap_cons_none hs, Option.bind_some, ← ih]
          simp
      | some s =>
          rw [List.filterMap_cons_some hs, runM_cons]
          simp only [ih]

/-- A sequence of events is the sequence of the samples in them. -/
theorem runM_writeMeasure (map : HashedMap) (events : List DeviceEvent) :
    runM (writeMeasure capacity) map events =
      runM (keyed (writeValue capacity)) map
        (events.flatMap fun ev => ev.measures.filterMap sample) := by
  induction events generalizing map with
  | nil => rfl
  | cons ev events ih =>
      rw [runM_cons, List.flatMap_cons, runM_append, writeMeasure, runM_writeOne]
      simp only [ih]

/-- The samples of one value, from no ring at all. -/
theorem runM_writeValue (hcap : 2 ≤ capacity) (first : HashedValue) (rest : List HashedValue) :
    ∃ h, runM (writeValue capacity) none (first :: rest) =
        some (some h, Dedup.savedOf (first :: rest)) ∧
      Represents capacity h (run (History.add capacity) (.start first) rest).1 := by
  obtain ⟨h₀, h, hnew, hrun, hrep⟩ := run_represents hcap first rest
  have hlift : ∀ (vs : List HashedValue) (h₀ : ValueHasher),
      runM (writeValue capacity) (some h₀) vs =
        (runM ValueHasher.feed h₀ vs).map fun r => (some r.1, r.2) := by
    intro vs
    induction vs with
    | nil => exact fun _ => rfl
    | cons v vs ih =>
        intro h₀
        rw [runM_cons, runM_cons]
        cases hfeed : h₀.feed v with
        | none => simp [writeValue, hfeed]
        | some r =>
            simp only [writeValue, hfeed, Option.map_some, Option.bind_some, ih]
            cases runM ValueHasher.feed r.1 vs <;> rfl
  refine ⟨h, ?_, hrep⟩
  rw [runM_cons, writeValue, hnew, Option.map_some, Option.bind_some, hlift, hrun]
  rw [(History.run_dedup capacity (.start first) rest).2]
  rfl

/-- **Values are independent.** Over any events, nothing panics and each value is treated as if it
were alone. -/
theorem writeMeasure_split (hcap : 2 ≤ capacity) (events : List DeviceEvent) :
    ∃ map saved, runM (writeMeasure capacity) (fun _ => none) events = some (map, saved) ∧
      ∀ id, ofKey id saved = Dedup.savedOf (samplesOf id events) ∧
        ∀ first rest, samplesOf id events = first :: rest → ∃ h, map id = some h ∧
          Represents capacity h (run (History.add capacity) (.start first) rest).1 := by
  -- no value alone makes the run panic
  have hall : ∀ id, ∃ r, runM (writeValue capacity) none (samplesOf id events) = some r := by
    intro id
    cases hs : samplesOf id events with
    | nil => exact ⟨_, rfl⟩
    | cons first rest =>
        obtain ⟨h, hrun, -⟩ := runM_writeValue hcap first rest
        exact ⟨_, hrun⟩
  obtain ⟨map, saved, hrun, hsplit⟩ := runM_keyed (m := fun _ => none) hall
  refine ⟨map, saved, by rw [runM_writeMeasure, hrun], fun id => ?_⟩
  have hid : runM (writeValue capacity) none (samplesOf id events) =
    some (map id, ofKey id saved) := hsplit id
  cases hs : samplesOf id events with
  | nil =>
      rw [hs, runM_nil] at hid
      obtain ⟨-, hsaved⟩ := Prod.mk.inj (Option.some.inj hid)
      exact ⟨hsaved.symm, by intro _ _ h; cases h⟩
  | cons first rest =>
      obtain ⟨h, hrun', hrep⟩ := runM_writeValue hcap first rest
      rw [hs, hrun'] at hid
      obtain ⟨hmap, hsaved⟩ := Prod.mk.inj (Option.some.inj hid)
      refine ⟨hsaved.symm, ?_⟩
      intro first' rest' heq
      obtain ⟨rfl, rfl⟩ := List.cons.inj heq
      exact ⟨h, hmap.symm, hrep⟩

end Split

end ModbusLogger.Hasher
