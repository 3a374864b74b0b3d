import ModbusLogger.Db.Worker.References

/-!
# What a deletion of a node leaves (`delete_node`)

Devices with a logging value are marked and lose their node. The rest of the devices goes with its
values, and the key of `measures` decides if it can. The marks depend on what is logged now, and the
key on what was logged before.
-/

namespace ModbusLogger.Db

open Program

variable {J : Type} {t t' : Tables J} {ts nodeId deviceId : Int}

namespace Tables

/-- A value of the device is logged. -/
def Logs (t : Tables J) (deviceId : Int) : Prop :=
  ∃ id value, t.valueUnits.Has id value ∧ value.parentDeviceId = deviceId ∧ value.isLogging = true

def Measured (t : Tables J) (valueId : Int) : Prop :=
  ∃ key row, t.measures.Has key row ∧ row.valueId = valueId

/-- The device is one of those that go with the node. -/
def GoesWith (t : Tables J) (nodeId deviceId : Int) : Prop :=
  ∃ row, t.devices.Has deviceId row ∧ row.parentNodeId = some nodeId ∧ row.deleted = false ∧
    ¬t.Logs deviceId

end Tables

/-! ## The marks -/

theorem logs_iff_first? : (t.valueUnits.first? fun _ value =>
    value.parentDeviceId = deviceId ∧ value.isLogging).isSome = true ↔ t.Logs deviceId := by
  constructor
  · intro h
    obtain ⟨r, hr⟩ := Option.isSome_iff_exists.mp h
    obtain ⟨hrow, hselected⟩ := Table.first?_has hr
    exact ⟨r.1, r.2, hrow, of_decide_eq_true hselected⟩
  · rintro ⟨id, value, hvalue, hselected⟩
    rw [Option.isSome_iff_ne_none]
    intro hnone
    have hnot := of_decide_eq_false (Table.first?_eq_none.mp hnone id value hvalue)
    exact hnot hselected

/-- The tables after the first statement. -/
def Tables.marked (t : Tables J) (ts nodeId : Int) : Tables J :=
  { t with
    devices := t.devices.modify
      (fun key row => row.parentNodeId = some nodeId ∧
        (t.valueUnits.first? fun _ value => value.parentDeviceId = key ∧ value.isLogging).isSome)
      fun row => { row with deleted := true, deletedAt := some ts } }

theorem has_marked {row : DeviceRow} : (t.marked ts nodeId).devices.Has deviceId row ↔
    ∃ old, t.devices.Has deviceId old ∧
      (old.parentNodeId = some nodeId ∧ t.Logs deviceId ∧
          row = { old with deleted := true, deletedAt := some ts } ∨
        ¬(old.parentNodeId = some nodeId ∧ t.Logs deviceId) ∧ row = old) := by
  show (t.devices.modify _ _).Has deviceId row ↔ _
  rw [Table.has_modify]
  refine exists_congr fun old => and_congr_right fun _ => ?_
  have hselected : decide (old.parentNodeId = some nodeId ∧ (t.valueUnits.first? fun _ value =>
      value.parentDeviceId = deviceId ∧ value.isLogging).isSome) = true ↔
      old.parentNodeId = some nodeId ∧ t.Logs deviceId := by
    rw [decide_eq_true_eq, logs_iff_first?]
  split
  · next h =>
      rw [hselected] at h
      simp [h]
  · next h =>
      rw [hselected] at h
      constructor
      · exact fun hrow => .inr ⟨h, hrow⟩
      · rintro (⟨hparent, hlogs, -⟩ | ⟨-, hrow⟩)
        · exact absurd ⟨hparent, hlogs⟩ h
        · exact hrow

/-- What is left of the node without a mark. -/
theorem goesWith_iff_marked : t.GoesWith nodeId deviceId ↔ ∃ row,
    (t.marked ts nodeId).devices.Has deviceId row ∧ row.parentNodeId = some nodeId ∧
      row.deleted = false := by
  constructor
  · rintro ⟨row, hrow, hparent, hlive, hlogs⟩
    exact ⟨row, has_marked.mpr ⟨row, hrow, .inr ⟨fun h => hlogs h.2, rfl⟩⟩, hparent, hlive⟩
  · rintro ⟨row, hrow, hparent, hlive⟩
    obtain ⟨old, hold, ⟨-, -, rfl⟩ | ⟨hnot, rfl⟩⟩ := has_marked.mp hrow
    · cases hlive
    · exact ⟨row, hold, hparent, hlive, fun hlogs => hnot ⟨hparent, hlogs⟩⟩

theorem valueOfNode_marked {value : ValueRow J} :
    (t.marked ts nodeId).valueOfNode nodeId value = true ↔
      t.GoesWith nodeId value.parentDeviceId := by
  rw [goesWith_iff_marked]
  unfold Tables.valueOfNode
  split
  · next device hget =>
      have hdevice := Table.get?_eq_some.mp hget
      rw [decide_eq_true_eq]
      constructor
      · exact fun h => ⟨device, hdevice, h⟩
      · rintro ⟨row, hrow, h⟩
        rwa [hdevice.unique hrow]
  · next hget =>
      simp only [Bool.false_eq_true, false_iff]
      rintro ⟨row, hrow, -⟩
      exact Table.get?_eq_none.mp hget row hrow

/-! ## The transaction -/

/-- The tables without the node, as far as `delete_node` goes. -/
structure WithoutNode (ts nodeId : Int) (t t' : Tables J) : Prop where
  nodes : ∀ id row, t'.nodes.Has id row ↔ t.nodes.Has id row ∧ id ≠ nodeId
  devices : ∀ id row', t'.devices.Has id row' ↔ ∃ row, t.devices.Has id row ∧
    (row.parentNodeId ≠ some nodeId ∧ row' = row ∨
      row.parentNodeId = some nodeId ∧ t.Logs id ∧
        row' = { row with parentNodeId := none, deleted := true, deletedAt := some ts } ∨
      row.parentNodeId = some nodeId ∧ ¬t.Logs id ∧ row.deleted = true ∧
        row' = { row with parentNodeId := none })
  values : ∀ id row, t'.valueUnits.Has id row ↔
    t.valueUnits.Has id row ∧ ¬t.GoesWith nodeId row.parentDeviceId
  measures : t'.measures = t.measures

/-- The tables after all statements. -/
def Tables.withoutNode (t : Tables J) (ts nodeId : Int) : Tables J where
  nodes := t.nodes.delete fun key _ => key = nodeId
  devices := ((t.marked ts nodeId).devices.delete fun _ row =>
    row.parentNodeId = some nodeId ∧ row.deleted = false).modify
      (fun _ row => row.parentNodeId = some nodeId) fun row => { row with parentNodeId := none }
  valueUnits := t.valueUnits.delete fun _ row => (t.marked ts nodeId).valueOfNode nodeId row
  measures := t.measures

theorem withoutNode_spec : WithoutNode ts nodeId t (t.withoutNode ts nodeId) where
  nodes id row := by
    show (t.nodes.delete _).Has id row ↔ _
    rw [Table.has_delete, decide_eq_false_iff_not]
  measures := rfl
  values id row := by
    show (t.valueUnits.delete _).Has id row ↔ _
    rw [Table.has_delete, Bool.eq_false_iff, ne_eq, valueOfNode_marked]
  devices id row' := by
    show (((t.marked ts nodeId).devices.delete _).modify _ _).Has id row' ↔ _
    simp only [Table.has_modify, Table.has_delete, has_marked, decide_eq_false_iff_not,
      decide_eq_true_eq]
    constructor
    · rintro ⟨marked, ⟨⟨row, hrow, hmarked⟩, hstays⟩, rfl⟩
      refine ⟨row, hrow, ?_⟩
      rcases hmarked with ⟨hparent, hlogs, rfl⟩ | ⟨hnot, rfl⟩
      · exact .inr (.inl ⟨hparent, hlogs, if_pos hparent⟩)
      · by_cases hparent : marked.parentNodeId = some nodeId
        · refine .inr (.inr ⟨hparent, fun hlogs => hnot ⟨hparent, hlogs⟩, ?_, if_pos hparent⟩)
          rw [← Bool.not_eq_false]
          exact fun hlive => hstays ⟨hparent, hlive⟩
        · exact .inl ⟨hparent, if_neg hparent⟩
    · rintro ⟨row, hrow, ⟨hparent, rfl⟩ | ⟨hparent, hlogs, rfl⟩ | ⟨hparent, hlogs, hdeleted, rfl⟩⟩
      · exact ⟨row', ⟨⟨row', hrow, .inr ⟨fun h => hparent h.1, rfl⟩⟩, fun h => hparent h.1⟩,
          (if_neg hparent).symm⟩
      · exact ⟨_, ⟨⟨row, hrow, .inl ⟨hparent, hlogs, rfl⟩⟩, by simp⟩, (if_pos hparent).symm⟩
      · exact ⟨row, ⟨⟨row, hrow, .inr ⟨fun h => hlogs h.2, rfl⟩⟩, by simp [hdeleted]⟩,
          (if_pos hparent).symm⟩

theorem execAll_some {w : Write J} {ws : List (Write J)} (h : w.exec t = some t') :
    execAll t (w :: ws) = execAll t' ws := by
  rw [execAll, h]

theorem execAll_none {w : Write J} {ws : List (Write J)} (h : w.exec t = none) :
    execAll t (w :: ws) = .error w := by
  rw [execAll, h]

/-- Only the deletion of the values can be refused. -/
theorem execAll_deleteNode : execAll t (deleteNodeStatements ts nodeId) =
    if (t.marked ts nodeId).allowsValueDelete fun _ row =>
        (t.marked ts nodeId).valueOfNode nodeId row then
      .ok (t.withoutNode ts nodeId)
    else .error (.deleteNodeValues nodeId) := by
  have hdevices : ({ t.marked ts nodeId with valueUnits := (t.withoutNode ts nodeId).valueUnits } :
      Tables J).allowsDeviceDelete
        (fun _ row => row.parentNodeId = some nodeId ∧ row.deleted = false) = true := by
    rw [allowsDeviceDelete_iff]
    intro id value hvalue row hrow
    rw [decide_eq_false_iff_not]
    intro hgoes
    exact ((withoutNode_spec.values id value).mp hvalue).2 (goesWith_iff_marked.mpr ⟨row, hrow, hgoes⟩)
  rw [deleteNodeStatements, execAll_some (show _ = some (t.marked ts nodeId) from rfl)]
  split
  · next hallows =>
      have hvalues : (Write.deleteNodeValues nodeId).exec (t.marked ts nodeId) =
          some { t.marked ts nodeId with valueUnits := (t.withoutNode ts nodeId).valueUnits } :=
        if_pos hallows
      have hrest : (Write.deleteNodeDevices nodeId).exec
          { t.marked ts nodeId with valueUnits := (t.withoutNode ts nodeId).valueUnits } = some _ :=
        if_pos hdevices
      rw [execAll_some hvalues, execAll_some hrest]
      rfl
  · next hrefused =>
      have hvalues : (Write.deleteNodeValues nodeId).exec (t.marked ts nodeId) = none :=
        if_neg hrefused
      exact execAll_none hvalues

theorem execAll_deleteNode_ok : execAll t (deleteNodeStatements ts nodeId) = .ok t' ↔
    (∀ id row, t.valueUnits.Has id row → t.GoesWith nodeId row.parentDeviceId → ¬t.Measured id) ∧
      t' = t.withoutNode ts nodeId := by
  have hallows : ((t.marked ts nodeId).allowsValueDelete fun _ row =>
      (t.marked ts nodeId).valueOfNode nodeId row) = true ↔ ∀ id row, t.valueUnits.Has id row →
        t.GoesWith nodeId row.parentDeviceId → ¬t.Measured id := by
    simp only [allowsValueDelete_iff, Bool.eq_false_iff, ne_eq, valueOfNode_marked]
    constructor
    · rintro h id row hrow hgoes ⟨key, measure, hmeasure, rfl⟩
      exact h key measure hmeasure row hrow hgoes
    · intro h key measure hmeasure row hrow hgoes
      exact h measure.valueId row hrow hgoes ⟨key, measure, hmeasure, rfl⟩
  rw [execAll_deleteNode, ← hallows]
  split
  · next h => simp [h, eq_comm]
  · next h => simp [h]

/-! ## What a deletion is for -/

/-- The node is gone with its devices without a logging value. Its other devices are kept as deleted with
all that they have, and the rest is as it was. -/
structure NodeDeleted (ts nodeId : Int) (t t' : Tables J) : Prop where
  node : t'.nodes.contains nodeId = false
  gone : ∀ id row, t.devices.Has id row → row.parentNodeId = some nodeId → ¬t.Logs id →
    t'.devices.contains id = false ∧
      ∀ valueId value, t'.valueUnits.Has valueId value → value.parentDeviceId ≠ id
  kept : ∀ id row, t.devices.Has id row → row.parentNodeId = some nodeId → t.Logs id →
    t'.devices.Has id { row with parentNodeId := none, deleted := true, deletedAt := some ts } ∧
      ∀ valueId value, value.parentDeviceId = id →
        (t'.valueUnits.Has valueId value ↔ t.valueUnits.Has valueId value)
  otherNodes : ∀ id row, id ≠ nodeId → (t'.nodes.Has id row ↔ t.nodes.Has id row)
  otherDevices : ∀ id row, t.devices.Has id row → row.parentNodeId ≠ some nodeId →
    t'.devices.Has id row ∧ ∀ valueId value, value.parentDeviceId = id →
      (t'.valueUnits.Has valueId value ↔ t.valueUnits.Has valueId value)
  noneNew : ∀ id, t'.devices.contains id = true → t.devices.contains id = true
  measures : t'.measures = t.measures

/-- Without another failure of the database, the deletion of the node ends well. -/
def Tables.Deletable (t : Tables J) (nodeId : Int) : Prop :=
  ∀ ts, ∃ t', (deleteNode ts ⟨nodeId⟩).runFor perform [.success, .success, .success] t =
    (t', some (.ok ())) ∧ NodeDeleted ts nodeId t t'

/-- The device can lose its node: it has a logging value, or it can go with all its values. -/
def Tables.Ready (t : Tables J) (deviceId : Int) (row : DeviceRow) : Prop :=
  t.Logs deviceId ∨ row.deleted = false ∧
    ∀ id value, t.valueUnits.Has id value → value.parentDeviceId = deviceId → ¬t.Measured id

theorem runFor_deleteNode (hnode : t.nodes.contains nodeId = true) :
    (deleteNode ts ⟨nodeId⟩).runFor perform [.success, .success, .success] t = (t', some (.ok ())) ↔
      execAll t (deleteNodeStatements ts nodeId) = .ok t' := by
  obtain ⟨node, hget⟩ := Option.isSome_iff_exists.mp hnode
  have hread : Read.exec t (.nodeById nodeId) = some (some (node.read nodeId)) := by
    show some ((t.nodes.get? nodeId).map _) = _
    rw [hget]
    rfl
  simp only [deleteNode, getNodeById, query, transaction, issue_bind, call_bind, pure_eq, done_bind]
  simp only [runFor_call, perform, hread]
  show runFor perform (call (.transaction (deleteNodeStatements ts nodeId)) _) _ t = _ ↔ _
  cases hexec : execAll t (deleteNodeStatements ts nodeId) with
  | ok t'' =>
      have hcommit : perform (.transaction (deleteNodeStatements ts nodeId)) .success t =
          (t'', .ok ()) := by
        rw [perform, hexec]
        rfl
      rw [runFor_call, hcommit]
      show (t'', some (Except.ok ())) = _ ↔ _
      simp
  | error w =>
      have hcommit : perform (.transaction (deleteNodeStatements ts nodeId)) .success t =
          (t, .error (.statement w ⟨"", ""⟩)) := by
        rw [perform, hexec]
        rfl
      rw [runFor_call, hcommit]
      show (t, some (Except.error _)) = _ ↔ _
      simp

theorem withoutNode_nodeDeleted (hlive : ∀ id row, t.devices.Has id row →
    row.parentNodeId = some nodeId → ¬t.Logs id → row.deleted = false) :
    NodeDeleted ts nodeId t (t.withoutNode ts nodeId) := by
  have hspec : WithoutNode ts nodeId t (t.withoutNode ts nodeId) := withoutNode_spec
  have hvalues (id : Int) (hstays : ¬t.GoesWith nodeId id) (valueId : Int) (value : ValueRow J)
      (hdevice : value.parentDeviceId = id) :
      (t.withoutNode ts nodeId).valueUnits.Has valueId value ↔ t.valueUnits.Has valueId value := by
    rw [hspec.values]
    exact and_iff_left (hdevice ▸ hstays)
  refine ⟨?_, fun id row hrow hparent hlogs => ⟨?_, ?_⟩, fun id row hrow hparent hlogs => ⟨?_, ?_⟩,
    fun id row hother => ?_, fun id row hrow hparent => ⟨?_, ?_⟩, fun id hcontains => ?_,
    hspec.measures⟩
  · rw [Bool.eq_false_iff]
    intro hcontains
    obtain ⟨row, hrow⟩ := Table.contains_iff.mp hcontains
    exact ((hspec.nodes _ row).mp hrow).2 rfl
  · rw [Bool.eq_false_iff]
    intro hcontains
    obtain ⟨row', hrow'⟩ := Table.contains_iff.mp hcontains
    obtain ⟨old, hold, hcase⟩ := (hspec.devices id row').mp hrow'
    obtain rfl := hold.unique hrow
    rcases hcase with ⟨hother, -⟩ | ⟨-, hlogs', -⟩ | ⟨-, -, hdeleted, -⟩
    · exact hother hparent
    · exact hlogs hlogs'
    · rw [hlive id old hrow hparent hlogs] at hdeleted
      cases hdeleted
  · intro valueId value hvalue hdevice
    exact ((hspec.values valueId value).mp hvalue).2
      (hdevice ▸ ⟨row, hrow, hparent, hlive id row hrow hparent hlogs, hlogs⟩)
  · exact (hspec.devices id _).mpr ⟨row, hrow, .inr (.inl ⟨hparent, hlogs, rfl⟩)⟩
  · exact hvalues id fun hgoes => hgoes.elim fun _ hgoes => hgoes.2.2.2 hlogs
  · exact (hspec.nodes id row).trans (and_iff_left hother)
  · exact (hspec.devices id row).mpr ⟨row, hrow, .inl ⟨hparent, rfl⟩⟩
  · apply hvalues id
    rintro ⟨row', hrow', hparent', -⟩
    obtain rfl := hrow.unique hrow'
    exact hparent hparent'
  · obtain ⟨row', hrow'⟩ := Table.contains_iff.mp hcontains
    obtain ⟨row, hrow, -⟩ := (hspec.devices id row').mp hrow'
    exact hrow.contains

/-- The deletion of a node ends well exactly if it can lose each of its devices. -/
theorem deletable_iff (hnode : t.nodes.contains nodeId = true) :
    t.Deletable nodeId ↔ ∀ id row, t.devices.Has id row → row.parentNodeId = some nodeId →
      t.Ready id row := by
  constructor
  · intro hdeletable id row hrow hparent
    obtain ⟨t', hrun, hdeleted⟩ := hdeletable 0
    obtain ⟨hunmeasured, rfl⟩ := execAll_deleteNode_ok.mp ((runFor_deleteNode hnode).mp hrun)
    by_cases hlogs : t.Logs id
    · exact .inl hlogs
    · have hlive : row.deleted = false := by
        rw [← Bool.not_eq_true]
        intro hmarked
        have hstays : (t.withoutNode 0 nodeId).devices.Has id { row with parentNodeId := none } :=
          (withoutNode_spec.devices id _).mpr ⟨row, hrow, .inr (.inr ⟨hparent, hlogs, hmarked, rfl⟩)⟩
        have hgone := (hdeleted.gone id row hrow hparent hlogs).1
        rw [hstays.contains] at hgone
        cases hgone
      refine .inr ⟨hlive, fun valueId value hvalue hdevice => ?_⟩
      exact hunmeasured valueId value hvalue (hdevice ▸ ⟨row, hrow, hparent, hlive, hlogs⟩)
  · intro hready ts
    have hunmeasured : ∀ id row, t.valueUnits.Has id row → t.GoesWith nodeId row.parentDeviceId →
        ¬t.Measured id := by
      rintro id value hvalue ⟨row, hrow, hparent, -, hlogs⟩
      exact ((hready _ row hrow hparent).resolve_left hlogs).2 id value hvalue rfl
    refine ⟨t.withoutNode ts nodeId,
      (runFor_deleteNode hnode).mpr (execAll_deleteNode_ok.mpr ⟨hunmeasured, rfl⟩),
      withoutNode_nodeDeleted fun id row hrow hparent hlogs => ?_⟩
    exact ((hready id row hrow hparent).resolve_left hlogs).1

end ModbusLogger.Db
