import ModbusLogger.Db.Hasher.Flush
import ModbusLogger.Db.Worker.DeviceTable
import ModbusLogger.Db.Worker.References
import ModbusLogger.Lib.Execution

/-!
# The buffer beside the database worker

While measures wait in the buffer, the commands go on, and a value may be deleted. The flush inserts
the whole buffer with one statement, so one record of a value that is gone keeps all others from the
table. The result is when this happens.
-/

namespace ModbusLogger.Hasher

open Db Program Execution

variable {J : Type}

/-! ## The two on one database -/

/-- The tasks of the database worker with the tables, and the buffer of the unit. The last field is
all that was handed to `save_value`; no function depends on it. -/
structure Recorder (J : Type) where
  pool : Pool (Tables J) (Db.Call J) Db.Call.Answer String
  buff : List ForFlush
  handed : List ForFlush

/-- A call of `save_value` is one step: until its transaction ends, the rows of the values that it
refers to are locked. -/
inductive RecorderStep (J : Type) where
  | worker (s : DbStep J)
  | save (s : Save)

/-- The database takes part in each flush. -/
def RecorderStep.Accepted : RecorderStep J → Prop
  | .worker _ => True
  | .save s => s.fates = [true, true, true]

namespace Recorder

def tables (r : Recorder J) : Tables J := r.pool.world

def store (r : Recorder J) : MeasureStore J := ⟨r.tables, r.buff⟩

def start (t : Tables J) : Recorder J := ⟨⟨t, []⟩, [], []⟩

def step (lib : Libraries J) (r : Recorder J) : RecorderStep J → Recorder J
  | .worker s => { r with pool := Pool.step (Command.task lib) perform r.pool s }
  | .save s =>
    { pool := { r.pool with world := (r.store.save s).tables }
      buff := (r.store.save s).buff
      handed := r.handed ++ [s.record] }

end Recorder

/-! ## Records that were written -/

/-- The row of a record is in the table as long as its value exists. -/
def Stored (t : Tables J) (row : MeasureRow) : Prop :=
  row.valueId < t.valueUnits.next ∧
    (t.valueUnits.contains row.valueId = true → ∃ key, t.measures.Has key row)

theorem Stored.perform {t : Tables J} {row : MeasureRow} (h : Stored t row) {c : Db.Call J}
    (hc : c.Formed) (fate : Fate) : Stored (perform c fate t).1 row := by
  obtain ⟨hnext, hrow⟩ := h
  rcases perform_cases c fate t with hsame | ⟨w, rfl, hexec⟩ | ⟨ws, rfl, hexec⟩
  · rw [hsame]
    exact ⟨hnext, hrow⟩
  · have hnoReturn := Write.exec_noReturn hexec
    refine ⟨hnext.trans_le hnoReturn.next, fun hcontains => ?_⟩
    obtain ⟨key, hkey⟩ := hrow (hnoReturn.old _ hnext hcontains)
    refine ⟨key, ?_⟩
    rcases Write.exec_measures hexec with hmeasures | ⟨valueId, rfl, -⟩
    · rwa [hmeasures]
    · cases hc with
      | write hw => exact absurd trivial hw
  · have hnoReturn := execAll_noReturn hexec
    obtain ⟨hremoves, hpairs⟩ := hc.pairs
    refine ⟨hnext.trans_le hnoReturn.next, fun hcontains => ?_⟩
    obtain ⟨key, hkey⟩ := hrow (hnoReturn.old _ hnext hcontains)
    refine ⟨key, execAll_measures (fun hmem => ?_) hexec hkey⟩
    rw [execAll_deleted hremoves (hpairs _ hmem) hexec] at hcontains
    cases hcontains

/-- The rows of an insertion are in the table. -/
theorem insertMeasures_stored {t t' : Tables J} {rows : List MeasureRow}
    (h : insertMeasures t rows = some t') :
    (∀ row, Stored t row → Stored t' row) ∧ ∀ row ∈ rows, Stored t' row := by
  obtain ⟨hall, heq⟩ := Option.ite_none_right_eq_some.mp h
  obtain rfl := Option.some.inj heq
  constructor
  · rintro row ⟨hnext, hrow⟩
    exact ⟨hnext, fun hcontains => Table.exists_has_foldl_insert.mpr (.inl (hrow hcontains))⟩
  · intro row hrow
    exact ⟨Table.lt_next_of_contains (List.all_eq_true.mp hall row hrow),
      fun _ => Table.exists_has_foldl_insert.mpr (.inr hrow)⟩

namespace Recorder

variable {lib : Libraries J} {r : Recorder J}

/-- The buffer is the end of what was handed over, and all before it was written. -/
structure Recorded (r : Recorder J) : Prop where
  formed : r.pool.Every Call.Formed
  older : ∃ older, r.handed = older ++ r.buff ∧ ∀ f ∈ older, Stored r.tables f.measureRow

theorem recorded_start (t : Tables J) : (start t).Recorded where
  formed _ h := absurd h List.not_mem_nil
  older := ⟨[], rfl, fun _ h => absurd h List.not_mem_nil⟩

theorem Recorded.step (h : r.Recorded) (a : RecorderStep J) : (r.step lib a).Recorded := by
  obtain ⟨hformed, older, hhanded, hstored⟩ := h
  cases a with
  | worker s =>
      refine ⟨hformed.step (Command.task_formed lib) s, older, hhanded, fun f hf => ?_⟩
      show Stored (Pool.step (Command.task lib) perform r.pool s).world _
      rw [Pool.step_world]
      split
      · next c fate hissued => exact (hstored f hf).perform (hformed.issued hissued) fate
      · exact hstored f hf
  | save s =>
      refine ⟨hformed, ?_⟩
      have hpushed : r.handed ++ [s.record] = older ++ (r.store.push s.record).buff := by
        rw [hhanded, List.append_assoc]
        rfl
      rcases r.store.saveValue_cases s.valId s.val s.fates with
        ⟨-, hsave⟩ | ⟨-, t, hsave, hinsert⟩ | ⟨-, hsave⟩
      · refine ⟨older, ?_, ?_⟩ <;> simp only [Recorder.step, MeasureStore.save, hsave]
        · exact hpushed
        · exact hstored
      · obtain ⟨hkept, hwritten⟩ := insertMeasures_stored hinsert
        refine ⟨r.handed ++ [s.record], ?_, ?_⟩ <;> simp only [Recorder.step, MeasureStore.save, hsave]
        · exact (List.append_nil _).symm
        · intro f hf
          rw [hpushed] at hf
          rcases List.mem_append.mp hf with hold | hnew
          · exact hkept _ (hstored f hold)
          · exact hwritten _ (List.mem_map_of_mem hnew)
      · refine ⟨older, ?_, ?_⟩ <;> simp only [Recorder.step, MeasureStore.save, hsave]
        · exact hpushed
        · exact hstored

theorem run_recorded (lib : Libraries J) (t : Tables J) (steps : List (RecorderStep J)) :
    (after (step lib) (start t) steps).Recorded := by
  induction steps using List.reverseRecOn with
  | nil => exact recorded_start t
  | append_singleton steps a ih =>
      rw [after_concat]
      exact ih.step a

/-! ## When the buffer stays short -/

/-- At most 20 records wait, and all others are in the table as long as their values exist. -/
structure Bounded (r : Recorder J) : Prop where
  short : r.buff.length ≤ 20
  older : ∀ older, r.handed = older ++ r.buff → ∀ f ∈ older,
    r.tables.valueUnits.contains f.id = true → ∃ key, r.tables.measures.Has key f.measureRow

/-- A flush finds the values of all records of the buffer. -/
def FindsValues (r : Recorder J) : RecorderStep J → Prop
  | .worker _ => True
  | .save s => r.buff.length = 20 →
    ∀ f ∈ r.buff ++ [s.record], r.tables.valueUnits.contains f.id = true

theorem Recorded.bounded_iff (h : r.Recorded) : r.Bounded ↔ r.buff.length ≤ 20 := by
  constructor
  · exact Bounded.short
  · intro hshort
    refine ⟨hshort, fun older hhanded f hf hcontains => ?_⟩
    obtain ⟨older', hhanded', hstored⟩ := h.older
    obtain rfl : older = older' := List.append_cancel_right (hhanded.symm.trans hhanded')
    exact (hstored f hf).2 hcontains

/-- With the database at hand, only a value that is gone keeps a flush from success. -/
theorem flush_accepted (s : MeasureStore J) : (s.flush [true, true, true]).1 =
    match insertMeasures s.tables (s.buff.map ForFlush.measureRow) with
    | some t => ⟨t, []⟩
    | none => s := by
  cases hempty : s.buff.isEmpty with
  | true =>
      obtain ⟨tables, buff⟩ := s
      obtain rfl : buff = [] := List.isEmpty_iff.mp hempty
      rfl
  | false =>
      cases hinsert : insertMeasures s.tables (s.buff.map ForFlush.measureRow) with
      | none =>
          simp [MeasureStore.flush, flushCalls, awaitFlush, performFlush, hempty, hinsert]
      | some t => simp [MeasureStore.flush, flushCalls, awaitFlush, performFlush, hempty, hinsert]

/-- A call of `save_value` keeps the buffer short exactly if it finds the values. -/
theorem step_short_iff (a : RecorderStep J) (ha : a.Accepted) (h : r.buff.length ≤ 20) :
    (r.step lib a).buff.length ≤ 20 ↔ r.FindsValues a := by
  cases a with
  | worker s => exact iff_of_true h trivial
  | save s =>
      obtain ⟨valId, val, fates⟩ := s
      obtain rfl : fates = [true, true, true] := ha
      have hlength : (r.store.push ⟨valId, val⟩).buff.length = r.buff.length + 1 := List.length_append
      have hsave : (r.step lib (.save ⟨valId, val, [true, true, true]⟩)).buff =
          (if (r.store.push ⟨valId, val⟩).buff.length > 20 then
            (r.store.push ⟨valId, val⟩).flush [true, true, true]
          else (r.store.push ⟨valId, val⟩, .ok ())).1.buff := rfl
      rw [hsave, hlength]
      split
      · have hfull : r.buff.length = 20 := by omega
        have hfinds : r.FindsValues (.save ⟨valId, val, [true, true, true]⟩) ↔
            ∃ t, insertMeasures (r.store.push ⟨valId, val⟩).tables
              ((r.store.push ⟨valId, val⟩).buff.map ForFlush.measureRow) = some t := by
          rw [insertMeasures_isSome]
          simp only [List.forall_mem_map, FindsValues, hfull, true_imp_iff]
          rfl
        rw [flush_accepted, hfinds]
        cases insertMeasures (r.store.push ⟨valId, val⟩).tables
            ((r.store.push ⟨valId, val⟩).buff.map ForFlush.measureRow) with
        | none => simp [hlength, hfull]
        | some t => simp
      · next hroom => exact iff_of_true (hlength.le.trans (by omega)) fun hfull => by omega

/-- In a run of the commands beside the unit, with a database that takes part in every flush, the buffer
is short after every step exactly if every flush finds the values of all its records. -/
theorem buffer_bounded_iff (lib : Libraries J) (t : Tables J) (steps : List (RecorderStep J))
    (hsteps : ∀ a ∈ steps, a.Accepted) :
    Always (step lib) (start t) Bounded steps ↔ Meets (step lib) (start t) FindsValues steps := by
  rw [← always_iff_meets_of (I := fun r => r.buff.length ≤ 20) hsteps (by simp [start])
    fun r a => step_short_iff a]
  constructor
  · intro h pre post hpre
    exact (h pre post hpre).short
  · intro h pre post hpre
    exact (run_recorded lib t pre).bounded_iff.mpr (h pre post hpre)

/-- A device with the values 1 and 2, both logged. -/
def twoValues : Tables Unit where
  nodes := Table.empty.insert ⟨"10.0.0.5", some 502, some ""⟩
  devices := Table.empty.insert ⟨some 1, some "meter", 5, 1000, 500, 3, true, true, some "", false, none⟩
  valueUnits := (Table.empty.insert ⟨1, some "flow", "f", none, 1, (), true⟩).insert
    ⟨1, some "level", "l", none, 1, (), true⟩
  measures := .empty

def saved (id : Int) (time : Int) : RecorderStep Unit :=
  .save ⟨id, ⟨Binary64.ofInt 1, time⟩, [true, true, true]⟩

/-- A record of the value 1 waits when the value is deleted, and then 20 records of the value 2 come. -/
def lateRecord : List (RecorderStep Unit) :=
  saved 1 1000 :: .worker (.start (.valueDelete ⟨1⟩)) :: .worker (.advance 0 .success) ::
    .worker (.advance 0 .success) :: (List.range 20).map fun (i : Nat) => saved 2 (2000 + i)

theorem buffer_not_bounded : ¬Always (step noSettings) (start twoValues) Bounded lateRecord := by
  intro h
  have hshort := (h lateRecord [] (by simp)).short
  exact absurd hshort (by decide +kernel)

theorem buffer_bounded_iff_late : Always (step noSettings) (start twoValues) Bounded lateRecord ↔
    Meets (step noSettings) (start twoValues) FindsValues lateRecord :=
  buffer_bounded_iff noSettings twoValues lateRecord fun a ha => by
    simp only [lateRecord, List.mem_cons, List.mem_map] at ha
    rcases ha with rfl | rfl | rfl | rfl | ⟨i, -, rfl⟩ <;> trivial

end Recorder

end ModbusLogger.Hasher
