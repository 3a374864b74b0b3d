import ModbusLogger.Db.Worker.DeviceWorker

/-!
# The database worker (`db/worker/db_master.rs`)

Every command runs as a task of its own, and a task may be dropped at any of its calls
(`run_db_with_timeout`). The result is what all tasks have in common: what they write has passed the
checks of their command.
-/

namespace ModbusLogger.Db

open Program

variable {J : Type}

/-- The commands on nodes, devices and values. A deletion of a node reads the clock. -/
inductive Command (J : Type) where
  | nodeCreate (node : NodeCreate)
  | nodeUpdate (node : NodeUpdate)
  | nodeDelete (ts : Int) (node : NodeDelete)
  | deviceCreate (device : DeviceCreate)
  | deviceUpdate (device : DeviceUpdate)
  | deviceDelete (device : DeviceDelete)
  | valueCreate (value : ValueCreate J)
  | valueUpdate (value : ValueUpdate J)
  | valueDelete (value : ValueDelete)

/-- `command_node`, `command_device` and `command_value` -/
def Command.task (lib : Libraries J) : Command J → Task J Unit
  | nodeCreate node => createNode node
  | nodeUpdate node => updateNode node
  | nodeDelete ts node => deleteNode ts node
  | deviceCreate device => createDevice lib device
  | deviceUpdate device => updateDevice device
  | deviceDelete device => deleteDevice device
  | valueCreate value => createValue lib value
  | valueUpdate value => Db.valueUpdate lib value
  | valueDelete value => deleteValue value

abbrev DbStep (J : Type) := Pool.Step (Command J) Fate

/-- The tables and the tasks after commands, calls of tasks and drops, in the order in which they
happen. -/
def runDb (lib : Libraries J) (t : Tables J) (steps : List (DbStep J)) :
    Pool (Tables J) (Call J) Call.Answer String :=
  Pool.run (Command.task lib) perform t steps

/-! ## What is written has been checked -/

/-- A new row has passed the checks of its command, and so have the columns that an update sends. -/
def Write.Checked (lib : Libraries J) : Write J → Prop
  | insertDevice device _ => checkDeviceCreate device = .ok ()
  | updateDevice device => checkDeviceUpdate device = .ok ()
  | insertValue value => lib.checkJson value.decodingType value.settings = .ok ()
  | updateValue value => ∀ decodingType ∈ value.decodingType, ∀ settings ∈ value.settings,
      lib.checkJson decodingType settings = .ok ()
  | _ => True

/-- A transaction inserts nothing, and it updates what it marks only. -/
def Write.Removes : Write J → Prop
  | insertNode .. | updateNode .. | insertDevice .. | updateDevice .. | insertValue ..
  | updateValue .. => False
  | _ => True

/-- The statements that delete a device or a value. -/
def Write.Clears : Write J → Prop
  | deleteMeasures _ | deleteValue _ | deleteDevice _ => True
  | _ => False

/-- What a write does to the values. An update of a value that is not there does nothing. -/
inductive ValuesAfter (t : Tables J) : Write J → Table (ValueRow J) → Prop where
  | kept {w : Write J} (hinsert : ∀ value, w ≠ .insertValue value)
      (habsent : ∀ value, w = .updateValue value → ∀ row, ¬t.valueUnits.Has value.id row) :
      ValuesAfter t w t.valueUnits
  | inserted (value : ValueCreate J) (hallows : t.allowsValue none value.row = true) :
      ValuesAfter t (.insertValue value) (t.valueUnits.insert value.row)
  | updated (value : ValueUpdate J) {row : ValueRow J} (hrow : t.valueUnits.Has value.id row)
      (hallows : t.allowsValue (some value.id) (value.set row) = true) :
      ValuesAfter t (.updateValue value)
        (t.valueUnits.modify (fun key _ => key = value.id) value.set)
  | deleted {w : Write J} (hw : w.Removes) (p : Int → ValueRow J → Bool) :
      ValuesAfter t w (t.valueUnits.delete p)

theorem Write.valuesAfter {w : Write J} {t t' : Tables J} (h : w.exec t = some t') :
    ValuesAfter t w t'.valueUnits := by
  cases w with
  | insertNode | updateNode | deleteMeasures | markDevicesDeleted | deleteNode =>
      cases h
      exact .kept (by simp) (by simp)
  | insertDevice | updateDevice =>
      obtain ⟨-, heq⟩ := Option.ite_none_right_eq_some.mp h
      cases heq
      exact .kept (by simp) (by simp)
  | insertValue value =>
      obtain ⟨hallows, heq⟩ := Option.ite_none_right_eq_some.mp h
      cases heq
      exact .inserted value hallows
  | updateValue value =>
      simp only [Write.exec] at h
      split at h
      · next row hget =>
          obtain ⟨hallows, heq⟩ := Option.ite_none_right_eq_some.mp h
          cases heq
          exact .updated value (Table.get?_eq_some.mp hget) hallows
      · next hnone =>
          cases h
          refine .kept (by simp) ?_
          rintro _ ⟨⟩ row
          exact Table.get?_eq_none.mp hnone row
  | deleteValue | deleteNodeValues =>
      obtain ⟨-, rfl⟩ := deleteValues_eq h
      dsimp only
      refine .deleted ?_ _
      exact trivial
  | deleteDevice | deleteNodeDevices =>
      obtain ⟨-, rfl⟩ := deleteDevices_eq h
      exact .kept (by simp) (by simp)

def Call.Checked (lib : Libraries J) : Call J → Prop
  | read _ | send _ => True
  | write w => w.Checked lib
  | transaction ws => ∀ w ∈ ws, w.Removes

/-! ## The calls of the commands

A command may issue any query, whatever the answers are. What else it issues is a hypothesis of its
lemma. -/

section Calls

variable {lib : Libraries J} {P : Call J → Prop}

/-! ### Notifications and checks write nothing -/

theorem notify_every {eventType : ConfigEventType} {node : NodeRead}
    (hsend : P (.send ⟨eventType, node⟩)) :
    (notify eventType node : Task J Unit).Every P fun _ => True :=
  ⟨hsend, fun _ => trivial⟩

theorem notifyNode_every {eventType : ConfigEventType} (hsend : ∀ node, P (.send ⟨eventType, node⟩))
    (node : Except Unit (Option NodeRead)) :
    (notifyNode eventType node : Task J Unit).Every P fun _ => True := by
  unfold notifyNode
  split
  · exact notify_every (hsend _)
  · exact trivial

theorem checkNodeIp_every (node : NodeUpdate)
    (hread : ∀ r, P (.read r)) :
    (checkNodeIp node : Task J Unit).Every P fun _ => True := by
  unfold checkNodeIp
  split
  · simp only [getByIp, query, every_bind, every_orFail]
    intro _ _
    refine ⟨hread _, fun answer nodeInDb _ => ?_⟩
    split
    · split <;> exact trivial
    · exact trivial
  · exact trivial

theorem checkParent_every (device : DeviceUpdate)
    (hread : ∀ r, P (.read r)) :
    (checkParent device : Task J Unit).Every P fun _ => True := by
  unfold checkParent
  split
  · split
    · exact trivial
    · refine ⟨hread _, fun node => ?_⟩
      show Every _ _ (orFail node _ >>= _)
      rw [every_bind, every_orFail]
      intro node _
      split <;> exact trivial
  · exact trivial

theorem checkAddress_every (device : DeviceUpdate)
    (hread : ∀ r, P (.read r)) :
    (checkAddress device : Task J Unit).Every P fun _ => True := by
  unfold checkAddress
  split
  · refine ⟨hread _, fun deviceRead => ?_⟩
    show Every _ _ (orFail deviceRead _ >>= _)
    rw [every_bind, every_orFail]
    intro deviceRead _
    split <;> exact trivial
  · exact trivial

theorem notifyDeviceUpdate_every (device : DeviceUpdate) (oldDevice : DeviceRead)
    (hread : ∀ r, P (.read r)) (hsend : ∀ node, P (.send ⟨.update, node⟩)) :
    (notifyDeviceUpdate device oldDevice : Task J Unit).Every P fun _ => True := by
  have hnew : (notifyNewNode device : Task J Int).Every P fun _ => True := by
    simp only [notifyNewNode, getDeviceById, query, issue_bind, call_bind, pure_eq, done_bind]
    refine ⟨hread _, fun answer => ?_⟩
    dsimp only
    split
    · simp only [getNodeById, query, issue_bind, call_bind, pure_eq, done_bind]
      refine ⟨hread _, fun answer => ?_⟩
      dsimp only
      split
      · exact notify_every (hsend _)
      · exact trivial
    · exact trivial
  unfold notifyDeviceUpdate
  rw [every_bind]
  apply hnew.imp (fun _ h => h)
  intro newNode _
  split
  · exact ⟨hread _, fun answer => notifyNode_every hsend _⟩
  · exact trivial

theorem notifyValueUpdate_every (value : ValueUpdate J) (valueOld : ValueRead J)
    (hread : ∀ r, P (.read r)) (hsend : ∀ node, P (.send ⟨.update, node⟩)) :
    (notifyValueUpdate value valueOld).Every P fun _ => True := by
  have hold : (notifyOldDevice valueOld).Every P fun _ => True := by
    simp only [notifyOldDevice, getNodeDirectlyByDeviceId, query, issue_bind, call_bind, pure_eq,
      done_bind]
    refine ⟨hread _, fun answer => ?_⟩
    dsimp only
    split
    · exact notify_every (hsend _)
    · exact trivial
  unfold notifyValueUpdate
  rw [every_bind]
  apply hold.imp (fun _ h => h)
  intro newNodeId _
  split
  · simp only [getNodeDirectlyByDeviceId, query, issue_bind, call_bind, pure_eq, done_bind]
    refine ⟨hread _, fun answer => ?_⟩
    dsimp only
    split
    · split
      · exact notify_every (hsend _)
      · exact trivial
    · exact trivial
  · exact trivial

/-! ### The commands -/

theorem createNode_every (node : NodeCreate)
    (hread : ∀ r, P (.read r)) (hsend : ∀ node, P (.send ⟨.create, node⟩))
    (hwrite : P (.write (.insertNode node.ip (node.port.getD 502) (node.description.getD "")))) :
    (createNode node : Task J Unit).Every P fun _ => True := by
  unfold createNode
  rw [every_bind, every_orFail]
  intro _ _
  simp only [getByIp, execute, query, issue_bind, call_bind, pure_eq, done_bind]
  refine ⟨hread _, fun answer => ?_⟩
  rw [every_bind, every_orFail]
  intro nodeInDb _
  split
  · exact trivial
  · refine ⟨hwrite, fun written => ?_⟩
    rw [every_bind, every_orFail]
    intro _ _
    exact ⟨hread _, fun answer => notifyNode_every hsend _⟩

theorem updateNode_every (node : NodeUpdate)
    (hread : ∀ r, P (.read r)) (hsend : ∀ node, P (.send ⟨.update, node⟩))
    (hwrite : P (.write (.updateNode node.id node.ip node.port (some (node.description.getD ""))))) :
    (updateNode node : Task J Unit).Every P fun _ => True := by
  unfold updateNode
  simp only [getNodeById, execute, query, issue_bind, call_bind, pure_eq, done_bind]
  refine ⟨hread _, fun stored => ?_⟩
  rw [every_bind, every_orFail]
  intro stored _
  split
  · exact trivial
  · rw [every_bind]
    apply (checkNodeIp_every node hread).imp (fun _ h => h)
    intro _ _
    refine ⟨hwrite, fun written => ?_⟩
    rw [every_bind, every_orFail]
    intro _ _
    exact ⟨hread _, fun answer => notifyNode_every hsend _⟩

theorem deleteNode_every (ts : Int) (node : NodeDelete)
    (hread : ∀ r, P (.read r)) (hsend : ∀ node, P (.send ⟨.delete, node⟩))
    (hcommit : P (.transaction [.markDevicesDeleted ts node.id, .deleteNodeValues node.id,
      .deleteNodeDevices node.id, .deleteNode node.id])) :
    (deleteNode ts node : Task J Unit).Every P fun _ => True := by
  unfold deleteNode
  simp only [getNodeById, transaction, query, issue_bind, call_bind, pure_eq, done_bind]
  refine ⟨hread _, fun answer => ?_⟩
  rw [every_bind, every_orFail]
  intro deletedNode _
  refine ⟨hcommit, fun committed => ?_⟩
  rw [every_bind, every_orFail]
  intro _ _
  split
  · exact notify_every (hsend _)
  · exact trivial

theorem createDevice_every (device : DeviceCreate)
    (hread : ∀ r, P (.read r)) (hsend : ∀ node, P (.send ⟨.update, node⟩))
    (hwrite : checkDeviceCreate device = .ok () →
      P (.write (.insertDevice device (device.description.getD "")))) :
    (createDevice lib device).Every P fun _ => True := by
  unfold createDevice
  rw [every_bind, every_orFail]
  intro _ hdevice
  simp only [getNodeById, execute, query, issue_bind, call_bind, pure_eq, done_bind]
  refine ⟨hread _, fun nodeRead => ?_⟩
  rw [every_bind, every_orFail]
  intro nodeRead _
  split
  · exact trivial
  · refine ⟨hread _, fun deviceRead => ?_⟩
    rw [every_bind, every_orFail]
    intro deviceRead _
    split
    · exact trivial
    · refine ⟨hwrite hdevice, fun written => ?_⟩
      rw [every_bind, every_orFail]
      intro _ _
      exact ⟨hread _, fun answer => notifyNode_every hsend _⟩

theorem updateDevice_every (device : DeviceUpdate)
    (hread : ∀ r, P (.read r)) (hsend : ∀ node, P (.send ⟨.update, node⟩))
    (hwrite : checkDeviceUpdate device = .ok () → P (.write (.updateDevice device))) :
    (updateDevice device : Task J Unit).Every P fun _ => True := by
  unfold updateDevice
  rw [every_bind, every_orFail]
  intro _ hdevice
  rw [every_bind]
  apply (checkParent_every device hread).imp (fun _ h => h)
  intro _ _
  rw [every_bind]
  apply (checkAddress_every device hread).imp (fun _ h => h)
  intro _ _
  simp only [getDeviceById, execute, query, issue_bind, call_bind, pure_eq, done_bind]
  refine ⟨hread _, fun answer => ?_⟩
  dsimp only
  split
  · refine ⟨hwrite hdevice, fun written => ?_⟩
    rw [every_bind, every_orFail]
    intro _ _
    exact notifyDeviceUpdate_every device _ hread hsend
  · exact trivial

theorem deleteDevice_every (device : DeviceDelete)
    (hread : ∀ r, P (.read r)) (hsend : ∀ node, P (.send ⟨.update, node⟩))
    (hcommit : ∀ ids : List Int,
      P (.transaction (ids.flatMap deleteValueStatements ++ [.deleteDevice device.id]))) :
    (deleteDevice device : Task J Unit).Every P fun _ => True := by
  unfold deleteDevice
  simp only [getDeviceById, getValueByDeviceId, getNodeById, transaction, query, issue_bind,
    call_bind, pure_eq, done_bind]
  refine ⟨hread _, fun answer => ?_⟩
  dsimp only
  split
  · refine ⟨hread _, fun devicesValues => ?_⟩
    rw [every_bind, every_orFail]
    intro devicesValues _
    refine ⟨?_, fun committed => ?_⟩
    · have hids := hcommit (devicesValues.map ValueRead.id)
      rwa [List.flatMap_map] at hids
    · rw [every_bind, every_orFail]
      intro _ _
      exact ⟨hread _, fun answer => notifyNode_every hsend _⟩
  · exact trivial

theorem createValue_every (value : ValueCreate J)
    (hread : ∀ r, P (.read r)) (hsend : ∀ node, P (.send ⟨.update, node⟩))
    (hwrite : lib.checkJson value.decodingType value.settings = .ok () →
      P (.write (.insertValue value))) :
    (createValue lib value).Every P fun _ => True := by
  unfold createValue
  rw [every_bind, every_orFail]
  intro _ hvalue
  simp only [getNodeDirectlyByDeviceId, execute, query, issue_bind, call_bind, pure_eq, done_bind]
  refine ⟨hread _, fun dev => ?_⟩
  rw [every_bind, every_orFail]
  intro dev _
  split
  · exact trivial
  · refine ⟨hwrite hvalue, fun written => ?_⟩
    rw [every_bind, every_orFail]
    intro _ _
    refine ⟨hread _, fun answer => ?_⟩
    dsimp only
    split
    · exact notify_every (hsend _)
    · exact trivial

/-- With both columns sent, the settings are checked for the type that is sent. -/
theorem checkValueUpdate_every (value : ValueUpdate J) (val : ReadVal)
    (hread : ∀ r, P (.read r)) :
    (checkValueUpdate lib value val).Every P fun _ =>
      (Write.updateValue value).Checked lib := by
  have hparent (h : (Write.updateValue value).Checked lib) :
      (checkValueParent value).Every P fun _ =>
        (Write.updateValue value).Checked lib := by
    unfold checkValueParent
    split
    · simp only [query, issue_bind]
      refine ⟨hread _, fun dev => ?_⟩
      rw [every_bind, every_orFail]
      intro dev _
      split
      · exact trivial
      · exact h
    · exact h
  unfold checkValueUpdate
  split
  · next setting hsetting =>
      rw [every_bind, every_orFail]
      intro _ hcheck
      apply hparent
      intro decodingType htype settings hsettings
      obtain rfl := Option.some.inj (hsetting.symm.trans hsettings)
      rw [Option.mem_def.mp htype] at hcheck
      exact hcheck
  · next hsetting =>
      apply hparent
      intro decodingType _ settings hsettings
      exact absurd hsettings (hsetting settings)

theorem valueUpdate_every (value : ValueUpdate J)
    (hread : ∀ r, P (.read r)) (hsend : ∀ node, P (.send ⟨.update, node⟩))
    (hwrite : (Write.updateValue value).Checked lib → P (.write (.updateValue value))) :
    (valueUpdate lib value).Every P fun _ => True := by
  unfold valueUpdate
  simp only [getValueById, execute, query, issue_bind, call_bind, pure_eq, done_bind]
  refine ⟨hread _, fun answer => ?_⟩
  dsimp only
  split
  · refine ⟨hread _, fun val => ?_⟩
    rw [every_bind, every_orFail]
    intro val _
    split
    · exact trivial
    · rw [every_bind]
      apply (checkValueUpdate_every value _ hread).imp (fun _ h => h)
      intro _ hvalue
      refine ⟨hwrite hvalue, fun written => ?_⟩
      rw [every_bind, every_orFail]
      intro _ _
      exact notifyValueUpdate_every value _ hread hsend
  · exact trivial

theorem deleteValue_every (value : ValueDelete)
    (hread : ∀ r, P (.read r)) (hsend : ∀ node, P (.send ⟨.update, node⟩))
    (hcommit : P (.transaction (deleteValueStatements value.id))) :
    (deleteValue value : Task J Unit).Every P fun _ => True := by
  unfold deleteValue
  simp only [getValueById, getNodeDirectlyByDeviceId, transaction, query, issue_bind, call_bind,
    pure_eq, done_bind]
  refine ⟨hread _, fun answer => ?_⟩
  dsimp only
  split
  · refine ⟨hcommit, fun committed => ?_⟩
    rw [every_bind, every_orFail]
    intro _ _
    refine ⟨hread _, fun answer => ?_⟩
    dsimp only
    split
    · exact notify_every (hsend _)
    · exact trivial
  · exact trivial

end Calls

theorem Write.Clears.removes {w : Write J} (h : w.Clears) : w.Removes := by
  cases w with
  | deleteMeasures | deleteValue | deleteDevice => exact trivial
  | _ => exact h.elim

theorem deleteValueStatements_clears (id : Int) :
    ∀ w ∈ (deleteValueStatements id : List (Write J)), w.Clears := by
  intro w hw
  rcases List.mem_pair.mp hw with rfl | rfl <;> exact trivial

theorem deleteDeviceStatements_clears (ids : List Int) (deviceId : Int) :
    ∀ w ∈ (ids.flatMap deleteValueStatements ++ [.deleteDevice deviceId] : List (Write J)),
      w.Clears := by
  intro w hw
  rcases List.mem_append.mp hw with hvalue | hdevice
  · obtain ⟨id, -, hw⟩ := List.mem_flatMap.mp hvalue
    exact deleteValueStatements_clears id w hw
  · obtain rfl := List.mem_singleton.mp hdevice
    exact trivial

/-- Whatever the answers are, a task writes what its command checks. -/
theorem Command.task_checked (lib : Libraries J) (command : Command J) :
    (command.task lib).Every (Call.Checked lib) fun _ => True := by
  have hread (r : Read) : Call.Checked lib (.read r) := trivial
  have hsend (event : ConfigEvent) : Call.Checked lib (.send event) := trivial
  have hcommit (ws : List (Write J)) (hws : ∀ w ∈ ws, w.Clears) :
      Call.Checked lib (.transaction ws) := fun w hw => (hws w hw).removes
  cases command with
  | nodeCreate node => exact createNode_every node hread (fun _ => hsend _) trivial
  | nodeUpdate node => exact updateNode_every node hread (fun _ => hsend _) trivial
  | nodeDelete ts node =>
      apply deleteNode_every ts node hread (fun _ => hsend _)
      simp [Call.Checked, Write.Removes]
  | deviceCreate device => exact createDevice_every device hread (fun _ => hsend _) id
  | deviceUpdate device => exact updateDevice_every device hread (fun _ => hsend _) id
  | deviceDelete device =>
      exact deleteDevice_every device hread (fun _ => hsend _) fun ids =>
        hcommit _ (deleteDeviceStatements_clears ids device.id)
  | valueCreate value => exact createValue_every value hread (fun _ => hsend _) id
  | valueUpdate value => exact valueUpdate_every value hread (fun _ => hsend _) id
  | valueDelete value =>
      exact deleteValue_every value hread (fun _ => hsend _)
        (hcommit _ (deleteValueStatements_clears value.id))

variable {lib : Libraries J}

/-! ## Properties of the tables -/

/-- A write that takes effect finds `G`. -/
def Call.Meets (G : Tables J → Write J → Prop) (fate : Fate) (t : Tables J) : Call J → Prop
  | write w => fate.applied = true → (w.exec t).isSome = true → G t w
  | _ => True

theorem Write.Removes.checked {w : Write J} (h : w.Removes) : w.Checked lib := by
  cases w with
  | insertDevice | updateDevice | insertValue | updateValue => exact h.elim
  | _ => exact trivial

section Invariant

variable {I : Tables J → Prop} {G : Tables J → Write J → Prop} {t t' : Tables J}
  (hwrite : ∀ (w : Write J) (t t' : Tables J), w.Checked lib → I t → w.exec t = some t' →
    (I t' ↔ G t w))
  (hremoves : ∀ (w : Write J) (t : Tables J), w.Removes → G t w)
include hwrite hremoves

theorem execAll_invariant {ws : List (Write J)} (hws : ∀ w ∈ ws, w.Removes) (h : I t)
    (hexec : execAll t ws = .ok t') : I t' := by
  refine execAll_keeps (fun w hmem a b ha hw => ?_) h hexec
  have hw' := hws w hmem
  exact (hwrite w a b hw'.checked ha hw).mpr (hremoves w a hw')

theorem perform_invariant {c : Call J} (fate : Fate) (hcheck : c.Checked lib) (h : I t) :
    I (perform c fate t).1 ↔ c.Meets G fate t := by
  cases c with
  | read r =>
      refine iff_of_true ?_ trivial
      unfold perform
      dsimp only
      split <;> exact h
  | send event => exact iff_of_true h trivial
  | transaction ws =>
      refine iff_of_true ?_ trivial
      unfold perform
      dsimp only
      split
      · next t' hexec =>
          dsimp only
          split
          · exact execAll_invariant hwrite hremoves hcheck h hexec
          · exact h
      · exact h
  | write w =>
      unfold perform Call.Meets
      dsimp only
      split
      · next t' hexec =>
          cases happlied : fate.applied with
          | true => simpa [hexec] using hwrite w t t' hcheck h hexec
          | false => simpa using h
      · next hexec => simpa [hexec] using h

/-- If a checked write keeps a property exactly under `G`, then a run keeps it exactly if its writes
meet `G`. -/
theorem runDb_invariant_iff (h : I t) (steps : List (DbStep J)) :
    (∀ pre post, steps = pre ++ post → I (runDb lib t pre).world) ↔
      ∀ pre s post, steps = pre ++ s :: post → ∀ c fate,
        (runDb lib t pre).issued s = some (c, fate) → c.Meets G fate (runDb lib t pre).world := by
  unfold runDb
  apply Pool.invariant_iff (P := Call.Checked lib) (I := I) (G := fun c fate t => c.Meets G fate t)
  · exact Command.task_checked lib
  · exact fun c fate t hcheck h => perform_invariant hwrite hremoves fate hcheck h
  · exact h

end Invariant

end ModbusLogger.Db
