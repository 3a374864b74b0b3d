import ModbusLogger.Db.Hasher.DbMeasureUnit
import ModbusLogger.Db.Statements

/-!
# How a flush ends (`db/hasher/db_measure_unit.rs`)

A flush opens a transaction, inserts the whole buffer with one statement and commits. Each of the
three may fail, and the timeout of `save_value` may drop the flush while it waits for one of them. A
transaction without a confirmed commit leaves the table as it was.
-/

namespace ModbusLogger.Hasher

open Db Program

variable {J : Type}

/-! ## The statements -/

/-- The row that a record becomes, beside its key. -/
def ForFlush.measureRow (f : ForFlush) : MeasureRow := ⟨f.id, f.value.val, f.value.timestamp⟩

/-- `INSERT INTO measures`, all rows or none: measures refer to their values. -/
def insertMeasures (t : Tables J) (rows : List MeasureRow) : Option (Tables J) :=
  if rows.all fun row => t.valueUnits.contains row.valueId then
    some { t with measures := rows.foldl Table.insert t.measures }
  else none

theorem insertMeasures_isSome {t : Tables J} {rows : List MeasureRow} :
    (∃ t', insertMeasures t rows = some t') ↔
      ∀ row ∈ rows, t.valueUnits.contains row.valueId = true := by
  rw [← List.all_eq_true]
  constructor
  · rintro ⟨t', h⟩
    exact (Option.ite_none_right_eq_some.mp h).1
  · exact fun hall => ⟨_, if_pos hall⟩

inductive FlushCall where
  | begin
  | execute (rows : List MeasureRow)
  | commit
  deriving DecidableEq, Repr

abbrev FlushCall.Answer (_ : FlushCall) : Type := Except Unit Unit

/-- The tables, and what the open transaction has made of them. -/
structure Session (J : Type) where
  tables : Tables J
  transaction : Option (Tables J)

/-- `accepted` is how the database ends a call that violates no key. -/
def performFlush (c : FlushCall) (accepted : Bool) (s : Session J) : Session J × c.Answer :=
  if accepted then
    match c, s.transaction with
    | .begin, _ => ({ s with transaction := some s.tables }, .ok ())
    | .execute rows, some t =>
      match insertMeasures t rows with
      | some t' => ({ s with transaction := some t' }, .ok ())
      | none => (s, .error ())
    | .commit, some t => (⟨t, none⟩, .ok ())
    | _, none => (s, .error ())
  else (s, .error ())

/-- One await, with `map_err(…)?`. -/
def awaitFlush (c : FlushCall) : Program FlushCall FlushCall.Answer Unit Unit := do
  let answer : Except Unit Unit ← issue c
  match answer with
  | .ok () => return ()
  | .error () => fail ()

/-- `flush`, up to the end of the transaction. -/
def flushCalls (buff : List ForFlush) : Program FlushCall FlushCall.Answer Unit Unit := do
  if buff.isEmpty then return ()
  else
    awaitFlush .begin
    awaitFlush (.execute (buff.map ForFlush.measureRow))
    awaitFlush .commit
    return ()

/-! ## The unit -/

/-- The buffer of the unit, and the tables that it writes to. -/
structure MeasureStore (J : Type) where
  tables : Tables J
  buff : List ForFlush

namespace MeasureStore

/-- `flush` under the timeout. The buffer is cleared when all is done. -/
def flush (s : MeasureStore J) (fates : List Bool) : MeasureStore J × Except Unit Unit :=
  match (flushCalls s.buff).runFor performFlush fates ⟨s.tables, none⟩ with
  | (session, some (.ok ())) => (⟨session.tables, []⟩, .ok ())
  | (session, _) => ({ s with tables := session.tables }, .error ())

def saveValue (s : MeasureStore J) (valId : Int) (val : HashedValue) (fates : List Bool) :
    MeasureStore J × Except Unit Unit :=
  let s := { s with buff := s.buff ++ [⟨valId, val⟩] }
  if s.buff.length > 20 then s.flush fates else (s, .ok ())

end MeasureStore

/-! ## What a flush does -/

/-- A call that is not answered with success changes nothing. -/
theorem performFlush_error {c : FlushCall} {accepted : Bool} {s : Session J}
    (h : (performFlush c accepted s).2 = .error ()) : (performFlush c accepted s).1 = s := by
  unfold performFlush at h ⊢
  split at h
  · next haccepted =>
      rw [if_pos haccepted]
      split at h
      · cases h
      · split at h
        · cases h
        · rfl
      · cases h
      · rfl
  · next haccepted => rw [if_neg haccepted]

/-- An await goes on, or the flush ends there and leaves the session as it is. -/
theorem runFor_await {c : FlushCall} {f : Unit → Program FlushCall FlushCall.Answer Unit Unit}
    (fates : List Bool) (s : Session J) :
    (∃ accepted rest, (performFlush c accepted s).2 = .ok () ∧
      (awaitFlush c >>= f).runFor performFlush fates s =
        (f ()).runFor performFlush rest (performFlush c accepted s).1) ∨
    ∃ result, (awaitFlush c >>= f).runFor performFlush fates s = (s, result) ∧
      result ≠ some (.ok ()) := by
  simp only [awaitFlush, issue_bind, call_bind]
  cases fates with
  | nil => exact .inr ⟨none, rfl, by simp⟩
  | cons accepted rest =>
      rw [runFor_call]
      cases hanswer : (performFlush c accepted s).2 with
      | ok => exact .inl ⟨accepted, rest, hanswer, rfl⟩
      | error =>
          rw [performFlush_error hanswer]
          exact .inr ⟨some (.error ()), runFor_done, by simp⟩

theorem performFlush_begin {t : Tables J} {accepted : Bool}
    (h : (performFlush .begin accepted ⟨t, none⟩).2 = .ok ()) :
    (performFlush .begin accepted ⟨t, none⟩).1 = ⟨t, some t⟩ := by
  cases accepted with
  | true => rfl
  | false => cases h

theorem performFlush_execute {t : Tables J} {rows : List MeasureRow} {accepted : Bool}
    (h : (performFlush (.execute rows) accepted ⟨t, some t⟩).2 = .ok ()) :
    ∃ t', insertMeasures t rows = some t' ∧
      (performFlush (.execute rows) accepted ⟨t, some t⟩).1 = ⟨t, some t'⟩ := by
  cases accepted with
  | true =>
      cases hinsert : insertMeasures t rows with
      | none => simp [performFlush, hinsert] at h
      | some t' => exact ⟨t', rfl, by simp [performFlush, hinsert]⟩
  | false => cases h

theorem performFlush_commit {t t' : Tables J} {accepted : Bool}
    (h : (performFlush .commit accepted ⟨t, some t'⟩).2 = .ok ()) :
    (performFlush .commit accepted ⟨t, some t'⟩).1 = ⟨t', none⟩ := by
  cases accepted with
  | true => rfl
  | false => cases h

/-- The transaction is carried out as a whole, or the tables stay as they are. -/
theorem runFor_flushCalls (t : Tables J) (buff : List ForFlush) (fates : List Bool) :
    (∃ session, (flushCalls buff).runFor performFlush fates ⟨t, none⟩ = (session, some (.ok ())) ∧
      insertMeasures t (buff.map ForFlush.measureRow) = some session.tables) ∨
    ∃ session result, (flushCalls buff).runFor performFlush fates ⟨t, none⟩ = (session, result) ∧
      result ≠ some (.ok ()) ∧ session.tables = t := by
  unfold flushCalls
  split
  · next hempty =>
      obtain rfl := List.isEmpty_iff.mp hempty
      exact .inl ⟨_, runFor_done, rfl⟩
  · rcases runFor_await fates _ with ⟨_, rest, hbegin, hrun⟩ | ⟨result, hrun, hfail⟩
    · rw [hrun, performFlush_begin hbegin]
      rcases runFor_await rest _ with ⟨_, rest, hexecute, hrun⟩ | ⟨result, hrun, hfail⟩
      · obtain ⟨t', hinsert, hexecuted⟩ := performFlush_execute hexecute
        rw [hrun, hexecuted]
        rcases runFor_await rest _ with ⟨_, rest, hcommit, hrun⟩ | ⟨result, hrun, hfail⟩
        · rw [hrun, performFlush_commit hcommit]
          exact .inl ⟨_, runFor_done, hinsert⟩
        · exact .inr ⟨_, result, hrun, hfail, rfl⟩
      · exact .inr ⟨_, result, hrun, hfail, rfl⟩
    · exact .inr ⟨_, result, hrun, hfail, rfl⟩

namespace MeasureStore

/-- The record is in the buffer. -/
def push (s : MeasureStore J) (record : ForFlush) : MeasureStore J :=
  { s with buff := s.buff ++ [record] }

theorem flush_cases (s : MeasureStore J) (fates : List Bool) :
    (∃ t, s.flush fates = (⟨t, []⟩, .ok ()) ∧
      insertMeasures s.tables (s.buff.map ForFlush.measureRow) = some t) ∨
    s.flush fates = (s, .error ()) := by
  unfold flush
  rcases runFor_flushCalls s.tables s.buff fates with
    ⟨session, hrun, hinsert⟩ | ⟨session, result, hrun, hfail, htables⟩
  · exact .inl ⟨session.tables, by rw [hrun], hinsert⟩
  · rw [hrun]
    split
    · next heq => exact absurd (Prod.mk.inj heq).2 hfail
    · next heq =>
        obtain ⟨rfl, -⟩ := Prod.mk.inj heq
        rw [htables]
        exact .inr rfl

/-- The record waits, or the whole buffer is written, or the flush fails and changes nothing. -/
theorem saveValue_cases (s : MeasureStore J) (valId : Int) (val : HashedValue) (fates : List Bool) :
    (s.buff.length < 20 ∧ s.saveValue valId val fates = (s.push ⟨valId, val⟩, .ok ())) ∨
    (20 ≤ s.buff.length ∧ ∃ t, s.saveValue valId val fates = (⟨t, []⟩, .ok ()) ∧
      insertMeasures s.tables ((s.push ⟨valId, val⟩).buff.map ForFlush.measureRow) = some t) ∨
    20 ≤ s.buff.length ∧ s.saveValue valId val fates = (s.push ⟨valId, val⟩, .error ()) := by
  have hsave : s.saveValue valId val fates =
      if (s.push ⟨valId, val⟩).buff.length > 20 then (s.push ⟨valId, val⟩).flush fates
      else (s.push ⟨valId, val⟩, .ok ()) := rfl
  have hlength : (s.push ⟨valId, val⟩).buff.length = s.buff.length + 1 := List.length_append
  rw [hsave, hlength]
  split
  · have hfull : 20 ≤ s.buff.length := by omega
    rcases (s.push ⟨valId, val⟩).flush_cases fates with hflushed | hfailed
    · exact .inr (.inl ⟨hfull, hflushed⟩)
    · exact .inr (.inr ⟨hfull, hfailed⟩)
  · next hroom => exact .inl ⟨by omega, rfl⟩

end MeasureStore

/-! ## All records, in order -/

/-- A call of `save_value`, with the ends of the awaits of its flush. -/
structure Save where
  valId : Int
  val : HashedValue
  fates : List Bool
  deriving DecidableEq, Repr

def Save.record (save : Save) : ForFlush := ⟨save.valId, save.val⟩

namespace MeasureStore

def save (s : MeasureStore J) (save : Save) : MeasureStore J :=
  (s.saveValue save.valId save.val save.fates).1

/-- The unit and the tables after some calls. -/
def run (t : Tables J) (saves : List Save) : MeasureStore J := saves.foldl save ⟨t, []⟩

/-- The rows that were inserted, and then the buffer. -/
def Holds (t : Tables J) (records : List ForFlush) (s : MeasureStore J) : Prop :=
  ∃ inserted : List ForFlush, inserted ++ s.buff = records ∧
    s.tables = { t with
      measures := (inserted.map ForFlush.measureRow).foldl Table.insert t.measures }

theorem Holds.save {t : Tables J} {records : List ForFlush} {s : MeasureStore J}
    (h : s.Holds t records) (save : Save) : (s.save save).Holds t (records ++ [save.record]) := by
  obtain ⟨inserted, rfl, htables⟩ := h
  have hpushed : (s.push save.record).Holds t (inserted ++ s.buff ++ [save.record]) :=
    ⟨inserted, (List.append_assoc _ _ _).symm, htables⟩
  rcases s.saveValue_cases save.valId save.val save.fates with
    ⟨-, hsave⟩ | ⟨-, t', hsave, hinsert⟩ | ⟨-, hsave⟩
  · rw [MeasureStore.save, hsave]
    exact hpushed
  · rw [MeasureStore.save, hsave]
    obtain ⟨-, heq⟩ := Option.ite_none_right_eq_some.mp hinsert
    obtain rfl := Option.some.inj heq
    refine ⟨inserted ++ s.buff ++ [save.record], List.append_nil _, ?_⟩
    simp [push, htables, Save.record, List.foldl_append]
  · rw [MeasureStore.save, hsave]
    exact hpushed

theorem run_holds (t : Tables J) (saves : List Save) :
    (run t saves).Holds t (saves.map Save.record) := by
  induction saves using List.reverseRecOn with
  | nil => exact ⟨[], rfl, rfl⟩
  | append_singleton saves save ih =>
      rw [run, List.foldl_append, List.map_append]
      exact ih.save save

/-- However the flushes end, the rows that were inserted and then the buffer are the records that were
handed over, in order, and a flush that fails leaves all but the new record as it was. -/
theorem flush_failures_keep_records (t : Tables J) (saves : List Save) :
    (run t saves).Holds t (saves.map Save.record) ∧
      ∀ valId val fates, ((run t saves).saveValue valId val fates).2 = .error () →
        ((run t saves).saveValue valId val fates).1 = (run t saves).push ⟨valId, val⟩ := by
  refine ⟨run_holds t saves, fun valId val fates hfail => ?_⟩
  rcases (run t saves).saveValue_cases valId val fates with
    ⟨-, hsave⟩ | ⟨-, t', hsave, -⟩ | ⟨-, hsave⟩
  · rw [hsave]
  · rw [hsave] at hfail
    cases hfail
  · rw [hsave]

end MeasureStore

end ModbusLogger.Hasher
