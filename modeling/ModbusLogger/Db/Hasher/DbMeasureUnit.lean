import ModbusLogger.Db.Hasher.HashMaster
import Mathlib.Data.List.Sort

/-!
# The measure master and its database (`db/hasher/db_measure_unit.rs`, `hash_master.rs`)

A record that is handed to `save_value` waits in a buffer until more than twenty of them, of all
values, are written to the table `measures` at once. A range that the ring of a value cannot answer is
read from the table alone. How the database behaves is a parameter.
-/

namespace ModbusLogger.Hasher

open Reader Transducer

/-! ## The unit -/

structure ForFlush where
  id : Int
  value : HashedValue
  deriving DecidableEq, Repr

/-- The row that a record becomes. -/
def ForFlush.row (f : ForFlush) : Int × HashedValue := (f.id, f.value)

/-- How a flush ends: confirmed, refused, or cut off after the rows were written. -/
inductive FlushOutcome where
  | committed
  | failed
  | unconfirmed
  deriving DecidableEq, Repr

/-- The outcomes of the flushes, in order. -/
structure Storage where
  flush : Nat → FlushOutcome

/-- `measures` is the table; `flushes` counts the flushes so far. -/
structure DbMeasureUnit where
  buff : List ForFlush
  measures : List (Int × HashedValue)
  flushes : Nat
  deriving DecidableEq, Repr

namespace DbMeasureUnit

/-- Nothing is buffered at the start; the table is what earlier runs left. -/
def new (measures : List (Int × HashedValue)) : DbMeasureUnit := ⟨[], measures, 0⟩

/-- Only a confirmed flush clears the buffer. -/
def flush (storage : Storage) (u : DbMeasureUnit) : DbMeasureUnit × Except Unit Unit :=
  if u.buff.isEmpty then (u, .ok ())
  else
    let flushed := { u with flushes := u.flushes + 1 }
    let written := { flushed with measures := u.measures ++ u.buff.map ForFlush.row }
    match storage.flush u.flushes with
    | .committed => ({ written with buff := [] }, .ok ())
    | .failed => (flushed, .error ())
    | .unconfirmed => (written, .error ())

def saveValue (storage : Storage) (u : DbMeasureUnit) (valId : Int) (val : HashedValue) :
    DbMeasureUnit × Except Unit Unit :=
  let u := { u with buff := u.buff ++ [⟨valId, val⟩] }
  if u.buff.length > 20 then u.flush storage else (u, .ok ())

/-- `ORDER BY measure_time` -/
def earlier (a b : HashedValue) : Bool := decide (a.timestamp ≤ b.timestamp)

/-- The rows of a value in a range, both ends included, or the error of the query. -/
def getMeasures (u : DbMeasureUnit) (error : Option String) (valId fromTs toTs : Int) :
    Except String (List HashedValue) :=
  match error with
  | some e => .error e
  | none => .ok ((selectMeasures u.measures valId fromTs toTs).mergeSort earlier)

end DbMeasureUnit

/-! ## The master -/

structure MeasureMaster where
  hashedMap : HashedMap
  dbUnit : DbMeasureUnit

/-- `errors` are the queries of this request that fail. -/
structure MeasureRequest where
  fromTs : Int
  toTs : Int
  valuesId : List Int
  errors : Int → Option String

/-- The messages that the master acts on; it logs the others. -/
inductive MeasureMsg where
  | event (ev : DeviceEvent)
  | request (req : MeasureRequest)

namespace MeasureMaster

def new (measures : List (Int × HashedValue)) : MeasureMaster := ⟨fun _ => none, .new measures⟩

/-- Errors of `save_value` are logged. -/
def save (storage : Storage) (unit : DbMeasureUnit) (saved : List (Int × HashedValue)) :
    DbMeasureUnit :=
  saved.foldl (fun unit record => (unit.saveValue storage record.1 record.2).1) unit

def readMeasure (m : MeasureMaster) (req : MeasureRequest) :
    Option (Except String (List MeasureResponse)) :=
  Hasher.readMeasure m.hashedMap (fun id => m.dbUnit.getMeasures (req.errors id) id) req.fromTs
    req.toTs req.valuesId

/-- One turn of the loop, with the records that it hands to `save_value`. -/
def turn (capacity : Nat) (storage : Storage) (m : MeasureMaster) :
    MeasureMsg → Option (MeasureMaster × List (Int × HashedValue))
  | .event ev => (writeMeasure capacity m.hashedMap ev).map fun r =>
    (⟨r.1, save storage m.dbUnit r.2⟩, r.2)
  | .request req => (m.readMeasure req).map fun _ => (m, [])

/-- `measure_master`, with all records that were handed to `save_value`. -/
def run (capacity : Nat) (storage : Storage) (measures : List (Int × HashedValue))
    (msgs : List MeasureMsg) : Option (MeasureMaster × List (Int × HashedValue)) :=
  runM (turn capacity storage) (new measures) msgs

end MeasureMaster

/-! ## Where a record can be -/

/-- The records that were handed over are in the buffer or in the table, and no others are in the
buffer. -/
structure Accounted (handed : List (Int × HashedValue)) (u : DbMeasureUnit) : Prop where
  kept : ∀ r ∈ handed, r ∈ u.measures ∨ r ∈ u.buff.map ForFlush.row
  buffered : ∀ r ∈ u.buff.map ForFlush.row, r ∈ handed

namespace Accounted

variable {handed : List (Int × HashedValue)} {u : DbMeasureUnit} {storage : Storage}

theorem flush (h : Accounted handed u) : Accounted handed (u.flush storage).1 := by
  unfold DbMeasureUnit.flush
  have hwritten : ∀ r ∈ handed, r ∈ u.measures ++ u.buff.map ForFlush.row :=
    fun r hr => List.mem_append.mpr (h.kept r hr)
  split
  · exact h
  · dsimp only
    split
    · exact ⟨fun r hr => .inl (hwritten r hr), fun r hr => absurd hr List.not_mem_nil⟩
    · exact ⟨h.kept, h.buffered⟩
    · exact ⟨fun r hr => .inl (hwritten r hr), h.buffered⟩

theorem saveValue (h : Accounted handed u) (record : Int × HashedValue) :
    Accounted (handed ++ [record]) (u.saveValue storage record.1 record.2).1 := by
  have hpushed : Accounted (handed ++ [record])
      { u with buff := u.buff ++ [⟨record.1, record.2⟩] } := by
    have hrows : (u.buff ++ [(⟨record.1, record.2⟩ : ForFlush)]).map ForFlush.row =
        u.buff.map ForFlush.row ++ [record] := by
      rw [List.map_append]
      rfl
    refine ⟨?_, ?_⟩
    · rw [forall_mem_concat, hrows]
      refine ⟨fun r hr => ?_, .inr (List.mem_append_right _ (List.mem_singleton_self _))⟩
      exact (h.kept r hr).imp_right (List.mem_append_left _)
    · rw [hrows, forall_mem_concat]
      refine ⟨fun r hr => List.mem_append_left _ (h.buffered r hr), ?_⟩
      exact List.mem_append_right _ (List.mem_singleton_self _)
  unfold DbMeasureUnit.saveValue
  dsimp only
  split
  · exact hpushed.flush
  · exact hpushed

theorem save (h : Accounted handed u) (saved : List (Int × HashedValue)) :
    Accounted (handed ++ saved) (MeasureMaster.save storage u saved) := by
  induction saved generalizing handed u with
  | nil =>
      rw [List.append_nil]
      exact h
  | cons record saved ih =>
      rw [← List.singleton_append, ← List.append_assoc]
      exact ih (h.saveValue record)

end Accounted

/-- No record is lost between the buffer and the table, however flushes end. -/
theorem run_accounted {capacity : Nat} {storage : Storage} {measures : List (Int × HashedValue)}
    {msgs : List MeasureMsg} {m : MeasureMaster} {handed : List (Int × HashedValue)}
    (h : MeasureMaster.run capacity storage measures msgs = some (m, handed)) :
    Accounted handed m.dbUnit := by
  have hstart : Accounted [] (MeasureMaster.new measures).dbUnit :=
    ⟨fun r hr => absurd hr List.not_mem_nil, fun r hr => absurd hr List.not_mem_nil⟩
  refine runM_invariant _ (I := fun m handed => Accounted handed m.dbUnit) ?_ hstart h
  intro m handed msg m' saved hm hturn
  cases msg with
  | event ev =>
      obtain ⟨r, -, heq⟩ := Option.map_eq_some_iff.mp hturn
      obtain ⟨rfl, rfl⟩ := Prod.mk.inj heq
      exact hm.save r.2
  | request req =>
      obtain ⟨r, -, heq⟩ := Option.map_eq_some_iff.mp hturn
      obtain ⟨rfl, rfl⟩ := Prod.mk.inj heq
      rw [List.append_nil]
      exact hm

/-! ## Answers from the table -/

section Answers

variable {getMeasures : Int → Int → Int → Except String (List HashedValue)} {map : HashedMap}
  {fromTs toTs : Int}

/-- A response is for one of the values, and if the ring of that value has no answer, it is what the
query gave. -/
theorem readMeasure_response {ids : List Int} {responses : List MeasureResponse}
    (h : readMeasure map getMeasures fromTs toTs ids = some (.ok responses))
    {response : MeasureResponse} (hmem : response ∈ responses)
    (hring : fromRing map response.id fromTs toTs = some none) :
    getMeasures response.id fromTs toTs = .ok response.values := by
  induction ids generalizing responses with
  | nil =>
      obtain rfl := Except.ok.inj (Option.some.inj h)
      exact absurd hmem List.not_mem_nil
  | cons id ids ih =>
      rw [readMeasure] at h
      obtain ⟨answer, hanswer, h⟩ := Option.bind_eq_some_iff.mp h
      split at h
      · cases h
      · next values hvalues =>
        obtain ⟨results, hresults, h⟩ := Option.bind_eq_some_iff.mp h
        cases results with
        | error e => cases h
        | ok rest =>
            obtain rfl := Except.ok.inj (Option.some.inj h)
            rcases List.mem_cons.mp hmem with rfl | hmem
            · obtain rfl : answer = none := Option.some.inj (hanswer.symm.trans hring)
              exact hvalues
            · exact ih hresults hmem

end Answers

theorem mem_selectMeasures {rows : List (Int × HashedValue)} {id fromTs toTs : Int}
    {v : HashedValue} :
    v ∈ selectMeasures rows id fromTs toTs ↔
      (id, v) ∈ rows ∧ fromTs ≤ v.timestamp ∧ v.timestamp ≤ toTs := by
  have hkey : v ∈ ofKey id rows ↔ (id, v) ∈ rows := by
    simp only [ofKey, List.mem_filterMap, Option.ite_none_right_eq_some, Option.some.injEq]
    constructor
    · rintro ⟨⟨key, w⟩, hr, rfl, rfl⟩
      exact hr
    · exact fun hr => ⟨(id, v), hr, rfl, rfl⟩
  rw [selectMeasures, List.mem_filter, hkey, Bool.and_eq_true, decide_eq_true_eq,
    decide_eq_true_eq]

/-- The answer has every record of the value in the range, in the order of time. -/
structure CompleteAnswer (handed : List (Int × HashedValue)) (req : MeasureRequest)
    (response : MeasureResponse) : Prop where
  complete : ∀ v, (response.id, v) ∈ handed → req.fromTs ≤ v.timestamp → v.timestamp ≤ req.toTs →
    v ∈ response.values
  ordered : response.values.Pairwise fun a b => a.timestamp ≤ b.timestamp

/-- No record of the value in the range waits in the buffer, unless the table already has it. -/
def NoneWaiting (u : DbMeasureUnit) (req : MeasureRequest) (id : Int) : Prop :=
  ∀ v, ⟨id, v⟩ ∈ u.buff → req.fromTs ≤ v.timestamp → v.timestamp ≤ req.toTs → (id, v) ∈ u.measures

/-- **Answers from the database.** After any messages, an answer that the ring cannot give has every
record of its value that was handed over, exactly if none of those it asks for waits in the buffer. -/
theorem database_answer_complete (capacity : Nat) (storage : Storage)
    (measures : List (Int × HashedValue)) (msgs : List MeasureMsg) (m : MeasureMaster)
    (handed : List (Int × HashedValue))
    (hrun : MeasureMaster.run capacity storage measures msgs = some (m, handed))
    (req : MeasureRequest) (responses : List MeasureResponse)
    (hread : m.readMeasure req = some (.ok responses)) (response : MeasureResponse)
    (hmem : response ∈ responses)
    (hring : fromRing m.hashedMap response.id req.fromTs req.toTs = some none) :
    CompleteAnswer handed req response ↔ NoneWaiting m.dbUnit req response.id := by
  have haccounted := run_accounted hrun
  have hquery := readMeasure_response hread hmem hring
  have hvalues : response.values =
      (selectMeasures m.dbUnit.measures response.id req.fromTs req.toTs).mergeSort
        DbMeasureUnit.earlier := by
    unfold DbMeasureUnit.getMeasures at hquery
    split at hquery
    · cases hquery
    · exact (Except.ok.inj hquery).symm
  have hanswer : ∀ v, v ∈ response.values ↔ (response.id, v) ∈ m.dbUnit.measures ∧
      req.fromTs ≤ v.timestamp ∧ v.timestamp ≤ req.toTs := by
    intro v
    rw [hvalues, List.mem_mergeSort, mem_selectMeasures]
  constructor
  · intro h v hwaits hlo hhi
    have hhanded := haccounted.buffered _ (List.mem_map_of_mem (f := ForFlush.row) hwaits)
    exact ((hanswer v).mp (h.complete v hhanded hlo hhi)).1
  · intro h
    refine ⟨?_, ?_⟩
    · intro v hhanded hlo hhi
      apply (hanswer v).mpr
      refine ⟨?_, hlo, hhi⟩
      rcases haccounted.kept _ hhanded with hrow | hrow
      · exact hrow
      · obtain ⟨⟨id, w⟩, hwaits, heq⟩ := List.mem_map.mp hrow
        obtain ⟨rfl, rfl⟩ := Prod.mk.inj heq
        exact h w hwaits hlo hhi
    · rw [hvalues]
      have hsorted : ((selectMeasures m.dbUnit.measures response.id req.fromTs req.toTs).mergeSort
          DbMeasureUnit.earlier).Pairwise fun a b => DbMeasureUnit.earlier a b = true := by
        apply List.pairwise_mergeSort
        · intro a b c hab hbc
          simp only [DbMeasureUnit.earlier, decide_eq_true_eq] at *
          omega
        · intro a b
          simp only [DbMeasureUnit.earlier, Bool.or_eq_true, decide_eq_true_eq]
          omega
      exact hsorted.imp fun hle => of_decide_eq_true hle

/-- Every flush is confirmed. -/
def confirming : Storage := ⟨fun _ => .committed⟩

/-- One sample of the value 7. -/
def firstSample : MeasureMsg :=
  .event ⟨.full, 1, [⟨Binary64.zero false, true, 7, "T", 1000⟩]⟩

/-- The record waits, and the ring of one record answers nothing. -/
theorem firstSample_run (fromTs toTs : Int) :
    ∃ m, MeasureMaster.run 3 confirming [] [firstSample] =
        some (m, [(7, ⟨Binary64.zero false, 1000⟩)]) ∧
      m.dbUnit = ⟨[⟨7, ⟨Binary64.zero false, 1000⟩⟩], [], 0⟩ ∧
      fromRing m.hashedMap 7 fromTs toTs = some none ∧
      m.readMeasure ⟨fromTs, toTs, [7], fun _ => none⟩ =
        some (.ok [⟨7, [], fromTs, toTs⟩]) := by
  have hring : ∀ h : ValueHasher, h.head = h.tail → h.ringFinished = false →
      h.getHashed fromTs toTs = some none := by
    intro h hhead hring
    simp [ValueHasher.getHashed, hhead, hring]
  have hread : ∀ m : MeasureMaster, m.dbUnit = ⟨[⟨7, ⟨Binary64.zero false, 1000⟩⟩], [], 0⟩ →
      fromRing m.hashedMap 7 fromTs toTs = some none →
      m.readMeasure ⟨fromTs, toTs, [7], fun _ => none⟩ = some (.ok [⟨7, [], fromTs, toTs⟩]) := by
    intro m hunit hring
    simp [MeasureMaster.readMeasure, Hasher.readMeasure, hring, hunit, DbMeasureUnit.getMeasures,
      selectMeasures, ofKey, Except.map]
  exact ⟨_, rfl, rfl, hring _ rfl rfl, hread _ rfl (hring _ rfl rfl)⟩

/-- A range behind the record that waits. -/
theorem database_answer_complete_behind :
    CompleteAnswer [(7, ⟨Binary64.zero false, 1000⟩)] ⟨2000, 3000, [7], fun _ => none⟩
        ⟨7, [], 2000, 3000⟩ ↔
      NoneWaiting ⟨[⟨7, ⟨Binary64.zero false, 1000⟩⟩], [], 0⟩ ⟨2000, 3000, [7], fun _ => none⟩ 7 := by
  obtain ⟨m, hrun, hunit, hring, hread⟩ := firstSample_run 2000 3000
  rw [← hunit]
  exact database_answer_complete 3 confirming [] [firstSample] m _ hrun _ _ hread _
    (List.mem_singleton_self _) hring

/-- The only record of a value is asked for while it waits: the answer is empty. -/
theorem database_answer_misses_waiting :
    ∃ m handed response,
      MeasureMaster.run 3 confirming [] [firstSample] = some (m, handed) ∧
      m.readMeasure ⟨0, 2000, [7], fun _ => none⟩ = some (.ok [response]) ∧
      fromRing m.hashedMap response.id 0 2000 = some none ∧
      ¬CompleteAnswer handed ⟨0, 2000, [7], fun _ => none⟩ response := by
  obtain ⟨m, hrun, -, hring, hread⟩ := firstSample_run 0 2000
  refine ⟨m, _, _, hrun, hread, hring, ?_⟩
  intro h
  have hmissed := h.complete ⟨Binary64.zero false, 1000⟩ (List.mem_singleton_self _) (by decide)
    (by decide)
  exact absurd hmissed List.not_mem_nil

end ModbusLogger.Hasher
