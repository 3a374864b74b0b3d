import ModbusLogger.Db.Hasher.Recording
import ModbusLogger.Db.Worker.NodeDeletion
import ModbusLogger.Db.Worker.ValueSettings

/-!
# Which runs leave all nodes deletable

A device of a node has to log a value, or to be live and without stored measures. The lemmas say which
steps can end that and for which devices, and the result is exact: nothing else does.
-/

namespace ModbusLogger.Db

variable {J : Type} {t t' : Tables J} {deviceId : Int}

/-! ## Devices -/

/-- As long as the device has a node, it can lose it. -/
def Tables.ReadyAt (t : Tables J) (deviceId : Int) : Prop :=
  ∀ row nodeId, t.devices.Has deviceId row → row.parentNodeId = some nodeId → t.Ready deviceId row

theorem all_deletable_iff (h : Referential t) :
    (∀ nodeId, t.nodes.contains nodeId = true → t.Deletable nodeId) ↔ ∀ id, t.ReadyAt id := by
  constructor
  · intro hall id row nodeId hrow hparent
    have hnode := h.nodes id row hrow nodeId hparent
    exact (deletable_iff hnode).mp (hall nodeId hnode) id row hrow hparent
  · intro hready nodeId hnode
    exact (deletable_iff hnode).mpr fun id row hrow hparent => hready id row nodeId hrow hparent

theorem readyAt_empty : (Tables.empty : Tables J).ReadyAt deviceId :=
  fun _ _ h => absurd h Table.not_has_empty

/-- What keeps a device ready: it has the marks of before if it has a node, it logs if it did, and
none of its values has got measures. -/
theorem Tables.ReadyAt.of_kept (h : t.ReadyAt deviceId)
    (hdevice : ∀ row' nodeId, t'.devices.Has deviceId row' → row'.parentNodeId = some nodeId →
      ∃ row, t.devices.Has deviceId row ∧ row.parentNodeId = some nodeId ∧
        row'.deleted = row.deleted)
    (hlogs : t.Logs deviceId → t'.Logs deviceId)
    (hmeasured : ∀ id value, t'.valueUnits.Has id value → value.parentDeviceId = deviceId →
      t'.Measured id → ∃ old, t.valueUnits.Has id old ∧ old.parentDeviceId = deviceId ∧
        t.Measured id) :
    t'.ReadyAt deviceId := by
  intro row' nodeId hrow' hparent
  obtain ⟨row, hrow, hparent, hdeleted⟩ := hdevice row' nodeId hrow' hparent
  rcases h row nodeId hrow hparent with hlogging | ⟨hlive, hunmeasured⟩
  · exact .inl (hlogs hlogging)
  · refine .inr ⟨hdeleted.trans hlive, fun id value hvalue hon hhas => ?_⟩
    obtain ⟨old, hold, hon, hhas⟩ := hmeasured id value hvalue hon hhas
    exact hunmeasured id old hold hon hhas

/-! ## Statements -/

/-- The write may end that the device can lose its node. -/
def Write.Disturbs (t : Tables J) (deviceId : Int) : Write J → Prop
  | updateDevice device => device.id = deviceId
  | updateValue value => ∃ old, t.valueUnits.Has value.id old ∧
      (old.parentDeviceId = deviceId ∨ (value.set old).parentDeviceId = deviceId)
  | deleteValue id => ∃ old, t.valueUnits.Has id old ∧ old.parentDeviceId = deviceId
  | _ => False

theorem Write.exec_readyAt {w : Write J} (h : Referential t) (hexec : w.exec t = some t')
    (hw : ¬w.Disturbs t deviceId) (hform : ¬w.Removes ∨ w.Clears) (hready : t.ReadyAt deviceId) :
    t'.ReadyAt deviceId := by
  cases w with
  | insertNode | updateNode =>
      cases hexec
      exact hready
  | insertDevice device description =>
      obtain ⟨-, heq⟩ := Option.ite_none_right_eq_some.mp hexec
      cases heq
      intro row nodeId hrow hparent
      rcases Table.has_insert.mp hrow with hold | ⟨rfl, rfl⟩
      · exact hready row nodeId hold hparent
      -- no value is on a new device
      · refine .inr ⟨rfl, fun id value hvalue hon => ?_⟩
        have hdevice := Table.lt_next_of_contains (h.devices id value hvalue)
        exact absurd (hon ▸ hdevice) (Int.lt_irrefl _)
  | updateDevice device =>
      obtain ⟨-, heq⟩ := Option.ite_none_right_eq_some.mp hexec
      cases heq
      apply hready.of_kept
      · intro row' nodeId hrow' hparent
        obtain ⟨row, hrow, rfl⟩ := Table.has_modify.mp hrow'
        rw [if_neg (by simpa using fun heq => hw heq.symm)] at hparent ⊢
        exact ⟨row, hrow, hparent, rfl⟩
      · exact id
      · exact fun id value hvalue hon hhas => ⟨value, hvalue, hon, hhas⟩
  | insertValue value =>
      obtain ⟨-, heq⟩ := Option.ite_none_right_eq_some.mp hexec
      cases heq
      apply hready.of_kept
      · exact fun row nodeId hrow hparent => ⟨row, hrow, hparent, rfl⟩
      · rintro ⟨id, old, hold, hlogs⟩
        exact ⟨id, old, Table.has_insert.mpr (.inl hold), hlogs⟩
      · rintro id row hrow hon ⟨key, measure, hmeasure, rfl⟩
        rcases Table.has_insert.mp hrow with hold | ⟨hnew, -⟩
        · exact ⟨row, hold, hon, key, measure, hmeasure, rfl⟩
        · have hvalue := Table.lt_next_of_contains (h.values key measure hmeasure)
          exact absurd (hnew ▸ hvalue) (Int.lt_irrefl _)
  | updateValue value =>
      simp only [Write.exec] at hexec
      split at hexec
      · next old hget =>
          obtain ⟨-, heq⟩ := Option.ite_none_right_eq_some.mp hexec
          cases heq
          have hold := Table.get?_eq_some.mp hget
          apply hready.of_kept
          · exact fun row nodeId hrow hparent => ⟨row, hrow, hparent, rfl⟩
          · rintro ⟨id, row, hrow, hon, hlogs⟩
            refine ⟨id, row, Table.has_modify.mpr ⟨row, hrow, ?_⟩, hon, hlogs⟩
            rw [if_neg]
            rw [decide_eq_true_eq]
            rintro rfl
            exact hw ⟨row, hrow, .inl hon⟩
          · intro id row hrow hon hhas
            obtain ⟨before, hbefore, rfl⟩ := Table.has_modify.mp hrow
            split at hon
            · next hid =>
                obtain rfl := of_decide_eq_true hid
                exact absurd ⟨before, hbefore, .inr hon⟩ hw
            · exact ⟨before, hbefore, hon, hhas⟩
      · cases hexec
        exact hready
  | deleteMeasures valueId =>
      cases hexec
      apply hready.of_kept
      · exact fun row nodeId hrow hparent => ⟨row, hrow, hparent, rfl⟩
      · exact id
      · rintro id value hvalue hon ⟨key, measure, hmeasure, hof⟩
        exact ⟨value, hvalue, hon, key, measure, (Table.has_delete.mp hmeasure).1, hof⟩
  | deleteValue valueId =>
      obtain ⟨-, rfl⟩ := deleteValues_eq hexec
      apply hready.of_kept
      · exact fun row nodeId hrow hparent => ⟨row, hrow, hparent, rfl⟩
      · rintro ⟨id, row, hrow, hon, hlogs⟩
        refine ⟨id, row, Table.has_delete.mpr ⟨hrow, ?_⟩, hon, hlogs⟩
        rw [decide_eq_false_iff_not]
        rintro rfl
        exact hw ⟨row, hrow, hon⟩
      · intro id value hvalue hon hhas
        exact ⟨value, (Table.has_delete.mp hvalue).1, hon, hhas⟩
  | deleteDevice id =>
      obtain ⟨-, rfl⟩ := deleteDevices_eq hexec
      apply hready.of_kept
      · exact fun row nodeId hrow hparent => ⟨row, (Table.has_delete.mp hrow).1, hparent, rfl⟩
      · exact fun hlogs => hlogs
      · exact fun id value hvalue hon hhas => ⟨value, hvalue, hon, hhas⟩
  | markDevicesDeleted | deleteNodeValues | deleteNodeDevices | deleteNode =>
      rcases hform with hform | hform
      · exact absurd trivial hform
      · exact hform.elim

/-! ## Calls -/

/-- Devices and values that go, with or without measures. -/
theorem execAll_readyAt {ws : List (Write J)} (h : Referential t) (hclears : ∀ w ∈ ws, w.Clears)
    (hws : ∀ w ∈ ws, ¬w.Disturbs t deviceId) (hexec : execAll t ws = .ok t')
    (hready : t.ReadyAt deviceId) : t'.ReadyAt deviceId := by
  refine (execAll_keeps (I := fun a => Referential a ∧ (∀ w ∈ ws, ¬w.Disturbs a deviceId) ∧
    a.ReadyAt deviceId) ?_ ⟨h, hws, hready⟩ hexec).2.2
  rintro w hmem a b ⟨href, hquiet, hready⟩ hw
  have hclear := hclears w hmem
  refine ⟨Write.exec_referential href hw, fun w' hmem' hdisturbs => ?_,
    Write.exec_readyAt href hw (hquiet w hmem) (.inr hclear) hready⟩
  -- a value that is there after the statement was there before
  have hclear' := hclears w' hmem'
  apply hquiet w' hmem'
  cases w' with
  | deleteValue id =>
      obtain ⟨old, hold, hon⟩ := hdisturbs
      refine ⟨old, ?_, hon⟩
      rcases Write.exec_valueUnits hw with
        hsame | ⟨value, rfl, -⟩ | ⟨value, rfl, -⟩ | ⟨p, hdelete⟩
      · rwa [hsame] at hold
      · exact hclear.elim
      · exact hclear.elim
      · rw [hdelete] at hold
        exact (Table.has_delete.mp hold).1
  | deleteMeasures | deleteDevice => exact hdisturbs.elim
  | _ => exact hclear'.elim

theorem withoutNode_readyAt {ts nodeId : Int} (hready : t.ReadyAt deviceId) :
    (t.withoutNode ts nodeId).ReadyAt deviceId := by
  have hspec : WithoutNode ts nodeId t (t.withoutNode ts nodeId) := withoutNode_spec
  apply hready.of_kept
  · intro row' parent hrow' hparent
    obtain ⟨row, hrow, ⟨-, rfl⟩ | ⟨-, -, rfl⟩ | ⟨-, -, -, rfl⟩⟩ := (hspec.devices _ row').mp hrow'
    · exact ⟨row', hrow, hparent, rfl⟩
    · cases hparent
    · cases hparent
  · rintro ⟨id, value, hvalue, rfl, hlogs⟩
    refine ⟨id, value, (hspec.values id value).mpr ⟨hvalue, ?_⟩, rfl, hlogs⟩
    rintro ⟨row, -, -, -, hsilent⟩
    exact hsilent ⟨id, value, hvalue, rfl, hlogs⟩
  · intro id value hvalue hon hhas
    exact ⟨value, ((hspec.values id value).mp hvalue).1, hon, hhas⟩

def Call.Disturbs (t : Tables J) (deviceId : Int) : Call J → Prop
  | write w => w.Disturbs t deviceId
  | transaction ws => ∃ w ∈ ws, w.Disturbs t deviceId
  | _ => False

theorem perform_readyAt (h : Referential t) {c : Call J} (hc : c.Formed) (fate : Fate)
    (hcall : ¬c.Disturbs t deviceId) (hready : t.ReadyAt deviceId) :
    (perform c fate t).1.ReadyAt deviceId := by
  rcases perform_cases c fate t with hsame | ⟨w, rfl, hexec⟩ | ⟨ws, rfl, hexec⟩
  · rwa [hsame]
  · cases hc with
    | write hw => exact Write.exec_readyAt h hexec hcall (.inl hw) hready
  · have hws : ∀ w ∈ ws, ¬w.Disturbs t deviceId := fun w hw hdisturbs => hcall ⟨w, hw, hdisturbs⟩
    cases hc with
    | deleteNode ts nodeId =>
        rw [(execAll_deleteNode_ok.mp hexec).2]
        exact withoutNode_readyAt hready
    | deleteValue id => exact execAll_readyAt h (deleteValueStatements_clears id) hws hexec hready
    | deleteDevice ids id =>
        exact execAll_readyAt h (deleteDeviceStatements_clears ids id) hws hexec hready

end ModbusLogger.Db

namespace ModbusLogger.Hasher

open Db Execution

variable {J : Type}

/-! ## Flushes -/

theorem insertMeasures_referential {t t' : Tables J} {rows : List MeasureRow} (h : Referential t)
    (hinsert : insertMeasures t rows = some t') : Referential t' := by
  obtain ⟨hall, heq⟩ := Option.ite_none_right_eq_some.mp hinsert
  obtain rfl := Option.some.inj heq
  refine ⟨h.nodes, h.devices, fun key row hrow => ?_⟩
  rcases Table.exists_has_foldl_insert.mp ⟨key, hrow⟩ with ⟨old, hold⟩ | hnew
  · exact h.values old row hold
  · exact List.all_eq_true.mp hall row hnew

theorem insertMeasures_readyAt {t t' : Tables J} {rows : List MeasureRow} {deviceId : Int}
    (hinsert : insertMeasures t rows = some t')
    (hrows : ∀ row ∈ rows, ∀ value, t.valueUnits.Has row.valueId value →
      value.parentDeviceId ≠ deviceId) (hready : t.ReadyAt deviceId) : t'.ReadyAt deviceId := by
  obtain ⟨-, heq⟩ := Option.ite_none_right_eq_some.mp hinsert
  obtain rfl := Option.some.inj heq
  apply hready.of_kept
  · exact fun row nodeId hrow hparent => ⟨row, hrow, hparent, rfl⟩
  · exact id
  · rintro id value hvalue hon ⟨key, row, hrow, rfl⟩
    rcases Table.exists_has_foldl_insert.mp ⟨key, hrow⟩ with ⟨old, hold⟩ | hnew
    · exact ⟨value, hvalue, hon, old, row, hold, rfl⟩
    · exact absurd hon (hrows row hnew value hvalue)

namespace Recorder

variable {lib : Libraries J} {r : Recorder J}

/-! ## Runs -/

/-- The step may end that a device can lose its node: it updates the device, updates or deletes a value
of it, or writes measures of one. -/
def Disturbs (r : Recorder J) (deviceId : Int) : RecorderStep J → Prop
  | .worker s => ∃ c fate, r.pool.issued s = some (c, fate) ∧ c.Disturbs r.tables deviceId
  | .save s => ∃ f ∈ r.buff ++ [s.record], ∃ value, r.tables.valueUnits.Has f.id value ∧
      value.parentDeviceId = deviceId

/-- What a step may end, it does not end. -/
def KeepsReady (lib : Libraries J) (r : Recorder J) (a : RecorderStep J) : Prop :=
  ∀ deviceId, r.Disturbs deviceId a → (r.step lib a).tables.ReadyAt deviceId

structure Sound (r : Recorder J) : Prop where
  formed : r.pool.Every Call.Formed
  referential : Referential r.tables

theorem sound_start : (start (Tables.empty : Tables J)).Sound where
  formed _ h := absurd h List.not_mem_nil
  referential := referential_empty

theorem Sound.step (h : r.Sound) (a : RecorderStep J) : (r.step lib a).Sound := by
  obtain ⟨hformed, hreferential⟩ := h
  cases a with
  | worker s =>
      refine ⟨hformed.step (Command.task_formed lib) s, ?_⟩
      show Referential (Pool.step (Command.task lib) perform r.pool s).world
      rw [Pool.step_world]
      split
      · exact perform_referential hreferential _ _
      · exact hreferential
  | save s =>
      refine ⟨hformed, ?_⟩
      show Referential (r.store.saveValue s.valId s.val s.fates).1.tables
      rcases r.store.saveValue_cases s.valId s.val s.fates with
        ⟨-, hsave⟩ | ⟨-, t, hsave, hinsert⟩ | ⟨-, hsave⟩
      · rw [hsave]
        exact hreferential
      · rw [hsave]
        exact insertMeasures_referential hreferential hinsert
      · rw [hsave]
        exact hreferential

theorem step_readyAt (h : r.Sound) {a : RecorderStep J} {deviceId : Int}
    (ha : ¬r.Disturbs deviceId a) (hready : r.tables.ReadyAt deviceId) :
    (r.step lib a).tables.ReadyAt deviceId := by
  cases a with
  | worker s =>
      show (Pool.step (Command.task lib) perform r.pool s).world.ReadyAt deviceId
      rw [Pool.step_world]
      split
      · next c fate hissued =>
          exact perform_readyAt h.referential (h.formed.issued hissued) fate
            (fun hdisturbs => ha ⟨c, fate, hissued, hdisturbs⟩) hready
      · exact hready
  | save s =>
      show (r.store.saveValue s.valId s.val s.fates).1.tables.ReadyAt deviceId
      rcases r.store.saveValue_cases s.valId s.val s.fates with
        ⟨-, hsave⟩ | ⟨-, t, hsave, hinsert⟩ | ⟨-, hsave⟩
      · rw [hsave]
        exact hready
      · rw [hsave]
        refine insertMeasures_readyAt hinsert (fun row hrow value hvalue hon => ?_) hready
        obtain ⟨f, hf, rfl⟩ := List.mem_map.mp hrow
        exact ha ⟨f, hf, value, hvalue, hon⟩
      · rw [hsave]
        exact hready

/-- In a run from the empty database, every node can be deleted after every step exactly if each step
leaves the devices ready that it may disturb. -/
theorem all_nodes_deletable_iff (lib : Libraries J) (steps : List (RecorderStep J)) :
    Always (step lib) (start Tables.empty)
        (fun r => ∀ nodeId, r.tables.nodes.contains nodeId = true → r.tables.Deletable nodeId) steps ↔
      Meets (step lib) (start Tables.empty) (KeepsReady lib) steps := by
  have hsound (pre : List (RecorderStep J)) : (after (step lib) (start Tables.empty) pre).Sound := by
    induction pre using List.reverseRecOn with
    | nil => exact sound_start
    | append_singleton pre a ih =>
        rw [after_concat]
        exact ih.step a
  rw [← always_iff_meets (I := fun r => r.Sound ∧ ∀ id, r.tables.ReadyAt id)
    ⟨sound_start, fun id => readyAt_empty⟩]
  · constructor
    · intro h pre post hpre
      exact ⟨hsound pre, (all_deletable_iff (hsound pre).referential).mp (h pre post hpre)⟩
    · intro h pre post hpre
      exact (all_deletable_iff (hsound pre).referential).mpr (h pre post hpre).2
  · rintro r a ⟨hr, hready⟩
    constructor
    · exact fun hafter id _ => hafter.2 id
    · intro hkeeps
      refine ⟨hr.step a, fun id => ?_⟩
      by_cases hdisturbs : r.Disturbs id a
      · exact hkeeps id hdisturbs
      · exact step_readyAt hr hdisturbs (hready id)

/-- A command that runs alone, as the task with the given place. -/
def alone (command : Command Bool) (task calls : Nat) : List (RecorderStep Bool) :=
  .worker (.start command) :: List.replicate calls (.worker (.advance task .success))

def savedAt (time : Nat) : RecorderStep Bool :=
  .save ⟨1, ⟨Binary64.ofInt 1, time⟩, [true, true, true]⟩

/-- The only value of a device is logged until a flush has written measures of it, and then no more. -/
def loggingEnds : List (RecorderStep Bool) :=
  alone (.nodeCreate ⟨"10.0.0.5", none, none⟩) 0 4 ++ alone (.deviceCreate newDevice) 1 5 ++
    alone (.valueCreate ⟨1, "flow", "f", none, 1, true, true⟩) 2 4 ++
    (List.range 21).map savedAt ++
    alone (.valueUpdate ⟨1, none, none, none, none, none, none, some false⟩) 3 5

theorem node_not_deletable : ¬Always (step twoKinds) (start Tables.empty)
    (fun r => ∀ nodeId, r.tables.nodes.contains nodeId = true → r.tables.Deletable nodeId)
    loggingEnds := by
  intro h
  have hdeletable := h loggingEnds [] (List.append_nil _).symm 1 (by decide +kernel)
  obtain ⟨t', hrun, -⟩ := hdeletable 0
  have hcommits := (runFor_deleteNode (by decide +kernel)).mp hrun
  have hrefused : (execAll (after (step twoKinds) (start Tables.empty) loggingEnds).tables
      (deleteNodeStatements 0 1)).isOk = false := by decide +kernel
  rw [hcommits] at hrefused
  cases hrefused

end Recorder

end ModbusLogger.Hasher
