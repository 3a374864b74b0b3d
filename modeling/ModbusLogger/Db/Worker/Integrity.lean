import ModbusLogger.Db.Hasher.DeviceHistory
import ModbusLogger.Db.Worker.ValueTags

/-!
# What the rows of the main tables satisfy

The keys of `init_database`, and what the commands add to them: a node has an IPv4 address and a port, a
device that is not deleted has a node, its columns have no negative numbers, and a value has a name.
Each statement keeps that, and the statements of a deletion of a node do together: the last of them
takes the node of a device away, and none is left by then that is not deleted.
-/

namespace ModbusLogger.Db

open Program

variable {J : Type}

/-! ## Rows -/

def NodeRow.Valid (row : NodeRow) : Prop := parseIpv4 row.ip = .ok () ∧ row.port.isSome

/-- The bounds of `update_device`. -/
def DeviceRow.InRange (row : DeviceRow) : Prop :=
  (0 ≤ row.address ∧ row.address ≤ 255) ∧ 0 ≤ row.timeForRecall ∧ 0 ≤ row.timeout ∧
    0 ≤ row.retryCount

structure Tables.Sound (t : Tables J) : Prop where
  referential : Referential t
  nodes : ∀ id row, t.nodes.Has id row → row.Valid
  devices : ∀ id row, t.devices.Has id row → row.InRange
  parents : ∀ id row, LiveDevice t.devices id row → row.parentNodeId.isSome
  names : ∀ id row, t.valueUnits.Has id row → row.valueName.isSome
  types : ∀ id row, t.valueUnits.Has id row → row.decodingType ∈ decodingTypes
  tags : ∀ id row id' row', t.valueUnits.Has id row → t.valueUnits.Has id' row' →
    row.valueTag = row'.valueTag → id = id'

/-! ## Queries -/

theorem decodeFirst_isSome {R α : Type} {decode : Int → R → Option α} {r : Option (Int × R)}
    (h : ∀ id row, r = some (id, row) → (decode id row).isSome) :
    (decodeFirst decode r).isSome := by
  unfold decodeFirst
  split
  · rw [Option.isSome_map]
    exact h _ _ rfl
  · rfl

theorem decodeAll_isSome {R α : Type} {decode : Int → R → Option α} {rows : List (Int × R)}
    (h : ∀ r ∈ rows, (decode r.1 r.2).isSome) : (decodeAll decode rows).isSome := by
  unfold decodeAll
  induction rows with
  | nil => rfl
  | cons r rows ih =>
      obtain ⟨a, ha⟩ := Option.isSome_iff_exists.mp (h r List.mem_cons_self)
      obtain ⟨as, has⟩ := Option.isSome_iff_exists.mp (ih fun r' hr' => h r' (List.mem_cons_of_mem r hr'))
      rw [List.mapM_cons, ha, has]
      rfl

variable {lib : Libraries J} {t t' : Tables J}

theorem Tables.Sound.read?_device (h : t.Sound) {id : Int} {row : DeviceRow}
    (hrow : LiveDevice t.devices id row) : (row.read? id).isSome := by
  rw [DeviceRow.read?, Option.isSome_map]
  exact h.parents id row hrow

theorem Tables.Sound.read?_value (h : t.Sound) {id : Int} {row : ValueRow J}
    (hrow : t.valueUnits.Has id row) : (row.read? id).isSome := by
  rw [ValueRow.read?, Option.isSome_map]
  exact h.names id row hrow

/-- **Queries.** None of them finds a `NULL` that it cannot decode. -/
theorem Tables.Sound.exec_isSome (h : t.Sound) (r : Read) : (r.exec t).isSome := by
  have hdevice {p : Int → DeviceRow → Bool} (hp : ∀ id row, p id row = true → row.deleted = false)
      (id : Int) (row : DeviceRow) (hfirst : t.devices.first? p = some (id, row)) :
      (row.read? id).isSome := by
    obtain ⟨hhas, hrow⟩ := Table.first?_has hfirst
    exact h.read?_device ⟨hhas, hp id row hrow⟩
  cases r with
  | nodes | nodeById | nodeByIp | nodeOfDevice | deviceIdById | valueTypeById => rfl
  | deviceById id => exact decodeFirst_isSome (hdevice fun key row hrow => (by simpa using hrow : _ ∧ _).2)
  | deviceByAddress address parentNodeId =>
      refine decodeFirst_isSome (hdevice fun key row hrow => ?_)
      simp only [DeviceRow.matchesAddress, decide_eq_true_eq] at hrow
      exact hrow.2.2.2
  | devicesByNode parentId =>
      refine decodeAll_isSome fun r hr => ?_
      obtain ⟨hhas, hrow⟩ := Table.mem_select.mp hr
      exact h.read?_device ⟨hhas, (by simpa using hrow : _ ∧ _).2⟩
  | valueById id =>
      exact decodeFirst_isSome fun key row hfirst => h.read?_value (Table.first?_has hfirst).1
  | valuesByDevice id =>
      exact decodeAll_isSome fun r hr => h.read?_value (Table.mem_select.mp hr).1

/-! ## Statements -/

/-- What a statement needs beside `Checked`: a new address has been parsed, and nodes are deleted in
their transaction. -/
def Write.Addressed : Write J → Prop
  | insertNode ip _ _ => parseIpv4 ip = .ok ()
  | updateNode _ ip _ _ => ∀ new ∈ ip, parseIpv4 new = .ok ()
  | deleteNode _ => False
  | _ => True

theorem DeviceUpdate.set_inRange {device : DeviceUpdate} {row : DeviceRow}
    (hcheck : checkDeviceUpdate device = .ok ()) (hrow : row.InRange) : (device.set row).InRange := by
  obtain ⟨haddress, hrecall, htimeout, hretry⟩ := checkDeviceUpdate_ok hcheck
  obtain ⟨hrowAddress, hrowRecall, hrowTimeout, hrowRetry⟩ := hrow
  have hcolumn {column : Option Int} {old : Int} {p : Int → Prop} (hsent : ∀ x ∈ column, p x)
      (hold : p old) : p (column.getD old) := by
    cases column with
    | none => exact hold
    | some x => exact hsent x rfl
  exact ⟨hcolumn haddress hrowAddress, hcolumn hrecall hrowRecall, hcolumn htimeout hrowTimeout,
    hcolumn hretry hrowRetry⟩

theorem exec_nodes_valid {w : Write J} (hw : w.Addressed)
    (h : ∀ id row, t.nodes.Has id row → row.Valid) (hexec : w.exec t = some t') :
    ∀ id row, t'.nodes.Has id row → row.Valid := by
  cases w with
  | insertNode ip port description =>
      cases hexec
      intro id row hrow
      rcases Table.has_insert.mp hrow with hold | ⟨-, rfl⟩
      · exact h id row hold
      · exact ⟨hw, rfl⟩
  | updateNode nodeId ip port description =>
      cases hexec
      intro id row hrow
      obtain ⟨old, hold, rfl⟩ := Table.has_modify.mp hrow
      obtain ⟨hip, hport⟩ := h id old hold
      split
      · refine ⟨?_, ?_⟩
        · cases ip with
          | none => exact hip
          | some new => exact hw new rfl
        · cases port with
          | none => exact hport
          | some new => rfl
      · exact ⟨hip, hport⟩
  | insertDevice | updateDevice | insertValue =>
      obtain ⟨-, heq⟩ := Option.ite_none_right_eq_some.mp hexec
      cases heq
      exact h
  | updateValue value =>
      simp only [Write.exec] at hexec
      split at hexec
      · obtain ⟨-, heq⟩ := Option.ite_none_right_eq_some.mp hexec
        cases heq
        exact h
      · cases hexec
        exact h
  | deleteMeasures | markDevicesDeleted =>
      cases hexec
      exact h
  | deleteValue | deleteNodeValues =>
      obtain ⟨-, rfl⟩ := deleteValues_eq hexec
      exact h
  | deleteDevice | deleteNodeDevices =>
      obtain ⟨-, rfl⟩ := deleteDevices_eq hexec
      exact h
  | deleteNode => exact hw.elim

/-- Where a row of `devices` comes from. -/
inductive DeviceOrigin (t : Tables J) (id : Int) : Write J → DeviceRow → Prop where
  | kept {w : Write J} {row : DeviceRow} (hrow : t.devices.Has id row) : DeviceOrigin t id w row
  | inserted (device : DeviceCreate) (description : String) :
      DeviceOrigin t id (.insertDevice device description) (device.row description)
  | updated (device : DeviceUpdate) {row : DeviceRow} (hrow : t.devices.Has id row) :
      DeviceOrigin t id (.updateDevice device) (device.set row)
  | marked (ts nodeId : Int) {row : DeviceRow} (hrow : t.devices.Has id row) :
      DeviceOrigin t id (.markDevicesDeleted ts nodeId)
        { row with deleted := true, deletedAt := some ts }

theorem deviceOrigin {w : Write J} (hw : w.Addressed) (hexec : w.exec t = some t') {id : Int}
    {row : DeviceRow} (hrow : t'.devices.Has id row) : DeviceOrigin t id w row := by
  cases w with
  | insertNode | updateNode | deleteMeasures =>
      cases hexec
      exact .kept hrow
  | insertDevice device description =>
      obtain ⟨-, heq⟩ := Option.ite_none_right_eq_some.mp hexec
      cases heq
      rcases Table.has_insert.mp hrow with hold | ⟨-, rfl⟩
      · exact .kept hold
      · exact .inserted device description
  | updateDevice device =>
      obtain ⟨-, heq⟩ := Option.ite_none_right_eq_some.mp hexec
      cases heq
      obtain ⟨old, hold, rfl⟩ := Table.has_modify.mp hrow
      split
      · exact .updated device hold
      · exact .kept hold
  | insertValue =>
      obtain ⟨-, heq⟩ := Option.ite_none_right_eq_some.mp hexec
      cases heq
      exact .kept hrow
  | updateValue value =>
      simp only [Write.exec] at hexec
      split at hexec
      · obtain ⟨-, heq⟩ := Option.ite_none_right_eq_some.mp hexec
        cases heq
        exact .kept hrow
      · cases hexec
        exact .kept hrow
  | markDevicesDeleted ts nodeId =>
      cases hexec
      obtain ⟨old, hold, rfl⟩ := Table.has_modify.mp hrow
      split
      · exact .marked ts nodeId hold
      · exact .kept hold
  | deleteValue | deleteNodeValues =>
      obtain ⟨-, rfl⟩ := deleteValues_eq hexec
      exact .kept hrow
  | deleteDevice | deleteNodeDevices =>
      obtain ⟨-, rfl⟩ := deleteDevices_eq hexec
      exact .kept (Table.has_delete.mp hrow).1
  | deleteNode => exact hw.elim

theorem DeviceOrigin.inRange {w : Write J} {id : Int} {row : DeviceRow}
    (h : DeviceOrigin t id w row) (hcheck : w.Checked lib)
    (hold : ∀ id row, t.devices.Has id row → row.InRange) : row.InRange := by
  cases h with
  | kept hrow => exact hold id row hrow
  | inserted device description =>
      obtain ⟨haddress, hrecall, htimeout, hretry⟩ := checkDeviceCreate_ok hcheck
      exact ⟨haddress, hrecall.le, htimeout.le, hretry.le⟩
  | updated device hrow => exact device.set_inRange hcheck (hold id _ hrow)
  | @marked ts nodeId old hrow => exact hold id old hrow

theorem DeviceOrigin.parent {w : Write J} {id : Int} {row : DeviceRow}
    (h : DeviceOrigin t id w row) (hlive : row.deleted = false)
    (hold : ∀ id row, LiveDevice t.devices id row → row.parentNodeId.isSome) :
    row.parentNodeId.isSome := by
  cases h with
  | kept hrow => exact hold id row ⟨hrow, hlive⟩
  | inserted device description => rfl
  | updated device hrow =>
      have hparent := hold id _ ⟨hrow, hlive⟩
      show (device.parentNodeId <|> _).isSome
      cases device.parentNodeId with
      | none => exact hparent
      | some nodeId => rfl
  | marked ts nodeId hrow => cases hlive

/-- Names, types and tags of values. -/
theorem ValuesAfter.sound {w : Write J} {values : Table (ValueRow J)} (h : ValuesAfter t w values)
    (hsound : t.Sound) : (∀ id row, values.Has id row → row.valueName.isSome) ∧
      (∀ id row, values.Has id row → row.decodingType ∈ decodingTypes) ∧
      ∀ id row id' row', values.Has id row → values.Has id' row' → row.valueTag = row'.valueTag →
        id = id' := by
  obtain ⟨-, -, -, -, hnames, htypes, htags⟩ := hsound
  cases h with
  | kept => exact ⟨hnames, htypes, htags⟩
  | deleted hw p =>
      have hold {id : Int} {row : ValueRow J} (hrow : (t.valueUnits.delete p).Has id row) :
          t.valueUnits.Has id row := (Table.has_delete.mp hrow).1
      exact ⟨fun id row hrow => hnames id row (hold hrow), fun id row hrow => htypes id row (hold hrow),
        fun id row id' row' hrow hrow' => htags id row id' row' (hold hrow) (hold hrow')⟩
  | inserted value hallows =>
      refine ⟨fun id row hrow => ?_, fun id row hrow => ?_, fun id row id' row' hrow hrow' htag => ?_⟩
      · rcases Table.has_insert.mp hrow with hold | ⟨-, rfl⟩
        · exact hnames id row hold
        · rfl
      · rcases Table.has_insert.mp hrow with hold | ⟨-, rfl⟩
        · exact htypes id row hold
        · exact allowsValue_type hallows
      · rcases Table.has_insert.mp hrow with hold | ⟨rfl, rfl⟩
        · rcases Table.has_insert.mp hrow' with hold' | ⟨-, rfl⟩
          · exact htags id row id' row' hold hold' htag
          · cases allowsValue_unique hallows hold htag
        · rcases Table.has_insert.mp hrow' with hold' | ⟨rfl, -⟩
          · cases allowsValue_unique hallows hold' htag.symm
          · rfl
  | @updated value stored hstored hallows =>
      have hnew {id : Int} {row : ValueRow J}
          (hrow : (t.valueUnits.modify (fun key _ => key = value.id) value.set).Has id row) :
          id = value.id ∧ row = value.set stored ∨ t.valueUnits.Has id row := by
        obtain ⟨old, hold, rfl⟩ := Table.has_modify.mp hrow
        split
        · next hid =>
            obtain rfl : id = value.id := by simpa using hid
            obtain rfl := hold.unique hstored
            exact .inl ⟨rfl, rfl⟩
        · exact .inr hold
      refine ⟨fun id row hrow => ?_, fun id row hrow => ?_, fun id row id' row' hrow hrow' htag => ?_⟩
      · rcases hnew hrow with ⟨-, rfl⟩ | hold
        · have hname := hnames _ _ hstored
          show (value.valueName <|> _).isSome
          cases value.valueName with
          | none => exact hname
          | some name => rfl
        · exact hnames id row hold
      · rcases hnew hrow with ⟨-, rfl⟩ | hold
        · exact allowsValue_type hallows
        · exact htypes id row hold
      · rcases hnew hrow with ⟨rfl, rfl⟩ | hold
        · rcases hnew hrow' with ⟨rfl, -⟩ | hold'
          · rfl
          · exact (Option.some.inj (allowsValue_unique hallows hold' htag.symm)).symm
        · rcases hnew hrow' with ⟨rfl, rfl⟩ | hold'
          · exact Option.some.inj (allowsValue_unique hallows hold htag)
          · exact htags id row id' row' hold hold' htag

theorem Write.exec_sound {w : Write J} (hcheck : w.Checked lib) (hw : w.Addressed) (h : t.Sound)
    (hexec : w.exec t = some t') : t'.Sound := by
  obtain ⟨hnames, htypes, htags⟩ := (Write.valuesAfter hexec).sound h
  exact {
    referential := Write.exec_referential h.referential hexec
    nodes := exec_nodes_valid hw h.nodes hexec
    devices := fun id row hrow => (deviceOrigin hw hexec hrow).inRange hcheck h.devices
    parents := fun id row hrow => (deviceOrigin hw hexec hrow.1).parent hrow.2 h.parents
    names := hnames
    types := htypes
    tags := htags }

/-! ## Transactions -/

/-- A node goes, with its devices. -/
theorem deleteNode_sound {ts nodeId : Int} (h : t.Sound)
    (hexec : execAll t (deleteNodeStatements ts nodeId) = .ok t') : t'.Sound := by
  have hreferential := execAll_referential h.referential hexec
  obtain ⟨-, rfl⟩ := execAll_deleteNode_ok.mp hexec
  have hspec : WithoutNode ts nodeId t (t.withoutNode ts nodeId) := withoutNode_spec
  have hvalues {id : Int} {row : ValueRow J} (hrow : (t.withoutNode ts nodeId).valueUnits.Has id row) :
      t.valueUnits.Has id row := ((hspec.values id row).mp hrow).1
  refine ⟨hreferential, ?_, ?_, ?_, ?_, ?_, ?_⟩
  · exact fun id row hrow => h.nodes id row ((hspec.nodes id row).mp hrow).1
  · intro id row' hrow'
    obtain ⟨row, hrow, ⟨-, rfl⟩ | ⟨-, -, rfl⟩ | ⟨-, -, -, rfl⟩⟩ := (hspec.devices id row').mp hrow'
    · exact h.devices id row' hrow
    · exact h.devices id row hrow
    · exact h.devices id row hrow
  · rintro id row' ⟨hrow', hlive⟩
    obtain ⟨row, hrow, ⟨-, rfl⟩ | ⟨-, -, rfl⟩ | ⟨-, -, hdeleted, rfl⟩⟩ :=
      (hspec.devices id row').mp hrow'
    · exact h.parents id row' ⟨hrow, hlive⟩
    · cases hlive
    · rw [show _ = true from hdeleted] at hlive
      cases hlive
  · exact fun id row hrow => h.names id row (hvalues hrow)
  · exact fun id row hrow => h.types id row (hvalues hrow)
  · exact fun id row id' row' hrow hrow' => h.tags id row id' row' (hvalues hrow) (hvalues hrow')

theorem Write.Clears.addressed {w : Write J} (h : w.Clears) : w.Addressed := by
  cases w with
  | deleteMeasures | deleteValue | deleteDevice => exact trivial
  | _ => exact h.elim

theorem execAll_sound (lib : Libraries J) {ws : List (Write J)} (hws : ∀ w ∈ ws, w.Clears) (h : t.Sound)
    (hexec : execAll t ws = .ok t') : t'.Sound :=
  execAll_keeps (fun w hmem _ _ ha hw =>
    Write.exec_sound (show w.Checked lib from (hws w hmem).removes.checked) (hws w hmem).addressed ha hw)
    h hexec

/-! ## Calls -/

/-- What the commands issue. -/
structure Call.Proper (lib : Libraries J) (c : Call J) : Prop where
  formed : c.Formed
  checked : c.Checked lib
  addressed : ∀ w, c = .write w → w.Addressed

theorem perform_sound {c : Call J} (hc : c.Proper lib) (fate : Fate) (h : t.Sound) :
    (perform c fate t).1.Sound := by
  rcases perform_cases c fate t with hsame | ⟨w, rfl, hexec⟩ | ⟨ws, rfl, hexec⟩
  · rwa [hsame]
  · exact Write.exec_sound hc.checked (hc.addressed w rfl) h hexec
  · cases hc.formed with
    | deleteNode ts nodeId => exact deleteNode_sound h hexec
    | deleteValue id => exact execAll_sound lib (deleteValueStatements_clears id) h hexec
    | deleteDevice ids deviceId =>
        exact execAll_sound lib (deleteDeviceStatements_clears ids deviceId) h hexec

theorem Command.task_addressed (lib : Libraries J) (command : Command J) :
    (command.task lib).Every (fun c => ∀ w, c = .write w → w.Addressed) fun _ => True := by
  have hread (r : Read) (w : Write J) (h : Call.read r = .write w) : w.Addressed := by cases h
  have hsend (event : ConfigEvent) (w : Write J) (h : Call.send event = .write w) : w.Addressed := by
    cases h
  have hcommit (ws : List (Write J)) (w : Write J) (h : Call.transaction ws = .write w) :
      w.Addressed := by cases h
  cases command with
  | nodeCreate node =>
      cases hparse : parseIpv4 node.ip with
      | error e =>
          show Every _ _ (createNode node)
          rw [createNode, hparse]
          exact trivial
      | ok u =>
          refine createNode_every node (hread ·) (fun node => hsend _) ?_
          rintro w ⟨⟩
          exact hparse
  | nodeUpdate node =>
      by_cases hparse : ∀ ip ∈ node.ip, parseIpv4 ip = .ok ()
      · refine updateNode_every node (hread ·) (fun node => hsend _) ?_
        rintro w ⟨⟩
        exact hparse
      · -- the address is refused before the write
        simp only [not_forall] at hparse
        obtain ⟨ip, hip, hparse⟩ := hparse
        show Every _ _ (updateNode node)
        unfold updateNode
        simp only [query, issue_bind]
        refine ⟨hread _, fun stored => ?_⟩
        rw [every_bind, every_orFail]
        intro stored _
        split
        · exact trivial
        · rw [every_bind, checkNodeIp, show node.ip = some ip from hip]
          dsimp only
          rw [every_bind, every_orFail]
          exact fun _ hok => absurd hok hparse
  | nodeDelete ts node => exact deleteNode_every ts node (hread ·) (fun _ => hsend _) (hcommit _)
  | deviceCreate device =>
      refine createDevice_every device (hread ·) (fun _ => hsend _) fun _ => ?_
      rintro w ⟨⟩
      exact trivial
  | deviceUpdate device =>
      refine updateDevice_every device (hread ·) (fun _ => hsend _) fun _ => ?_
      rintro w ⟨⟩
      exact trivial
  | deviceDelete device =>
      exact deleteDevice_every device (hread ·) (fun _ => hsend _) fun _ => hcommit _
  | valueCreate value =>
      refine createValue_every value (hread ·) (fun _ => hsend _) fun _ => ?_
      rintro w ⟨⟩
      exact trivial
  | valueUpdate value =>
      refine valueUpdate_every value (hread ·) (fun _ => hsend _) fun _ => ?_
      rintro w ⟨⟩
      exact trivial
  | valueDelete value => exact deleteValue_every value (hread ·) (fun _ => hsend _) (hcommit _)

theorem Command.task_proper (lib : Libraries J) (command : Command J) :
    (command.task lib).Every (Call.Proper lib) fun _ => True := by
  have h := ((task_formed lib command).and (task_checked lib command)).and
    (task_addressed lib command)
  exact h.imp (fun c hc => ⟨hc.1.1, hc.1.2, hc.2⟩) fun _ _ => trivial

end ModbusLogger.Db
