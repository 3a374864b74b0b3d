import ModbusLogger.Db.Schemas
import ModbusLogger.Lib.Program

/-!
# SQL statements

The statements of the workers with what they do to the tables, and how a task issues them. A statement
takes effect as a whole, a transaction when it commits. Keys are enforced: a write that they refuse
has no effect. `NULL` is never equal to anything, and `COALESCE` keeps a column whose parameter is
`NULL`. A query of one row takes the first one, in the order of the primary key.
-/

namespace ModbusLogger.Db

variable {J : Type}

/-! ## Queries -/

inductive Read where
  | nodes
  | nodeById (id : Int)
  | nodeByIp (ip : String)
  | nodeOfDevice (deviceId : Int)
  | deviceById (id : Int)
  | deviceIdById (id : Int)
  | devicesByNode (parentId : Int)
  | deviceByAddress (address parentNodeId : Option Int)
  | valueById (id : Int)
  | valueTypeById (id : Int)
  | valuesByDevice (id : Int)
  deriving DecidableEq, Repr

/-- What a query returns. -/
abbrev Read.Rows (J : Type) : Read → Type
  | nodes => List NodeRead
  | nodeById _ | nodeByIp _ | nodeOfDevice _ => Option NodeRead
  | deviceById _ | deviceByAddress _ _ => Option DeviceRead
  | deviceIdById _ => Option Int
  | devicesByNode _ => List DeviceRead
  | valueById _ => Option (ValueRead J)
  | valueTypeById _ => Option ReadVal
  | valuesByDevice _ => List (ValueRead J)

/-- `WHERE address = COALESCE(?, address) AND parent_node_id = COALESCE(?, parent_node_id) AND
deleted = 0` -/
def DeviceRow.matchesAddress (row : DeviceRow) (address parentNodeId : Option Int) : Bool :=
  row.address = address.getD row.address ∧ row.parentNodeId.isSome ∧
    row.parentNodeId = (parentNodeId <|> row.parentNodeId) ∧ row.deleted = false

/-- The first of the rows, decoded. `none` is an error. -/
def decodeFirst {R α : Type} (decode : Int → R → Option α) (r : Option (Int × R)) :
    Option (Option α) :=
  match r with
  | some (id, row) => (decode id row).map some
  | none => some none

def decodeAll {R α : Type} (decode : Int → R → Option α) (rows : List (Int × R)) :
    Option (List α) :=
  rows.mapM fun r => decode r.1 r.2

def Read.exec (t : Tables J) : (r : Read) → Option (r.Rows J)
  | nodes => some ((t.nodes.select fun _ _ => true).map fun r => r.2.read r.1)
  | nodeById id => some ((t.nodes.get? id).map (NodeRow.read id))
  | nodeByIp ip => some ((t.nodes.first? fun _ row => row.ip = ip).map fun r => r.2.read r.1)
  | nodeOfDevice deviceId => some do
    let device ← t.devices.get? deviceId
    let nodeId ← device.parentNodeId
    let node ← t.nodes.get? nodeId
    return node.read nodeId
  | deviceById id =>
    decodeFirst DeviceRow.read? (t.devices.first? fun key row => key = id ∧ row.deleted = false)
  | deviceIdById id =>
    some ((t.devices.first? fun key row => key = id ∧ row.deleted = false).map Prod.fst)
  | devicesByNode parentId => decodeAll DeviceRow.read?
    (t.devices.select fun _ row => row.parentNodeId = some parentId ∧ row.deleted = false)
  | deviceByAddress address parentNodeId => decodeFirst DeviceRow.read?
    (t.devices.first? fun _ row => row.matchesAddress address parentNodeId)
  | valueById id => decodeFirst ValueRow.read? (t.valueUnits.first? fun key _ => key = id)
  | valueTypeById id => some ((t.valueUnits.get? id).map fun row =>
      ⟨id, row.decodingType, row.isLogging⟩)
  | valuesByDevice id => decodeAll ValueRow.read?
    (t.valueUnits.select fun _ row => row.parentDeviceId = id)

/-! ## Writes -/

inductive Write (J : Type) where
  | insertNode (ip : String) (port : Int) (description : String)
  | updateNode (id : Int) (ip : Option String) (port : Option Int) (description : Option String)
  | insertDevice (device : DeviceCreate) (description : String)
  | updateDevice (device : DeviceUpdate)
  | insertValue (value : ValueCreate J)
  | updateValue (value : ValueUpdate J)
  | deleteMeasures (valueId : Int)
  | deleteValue (id : Int)
  | deleteDevice (id : Int)
  | markDevicesDeleted (ts : Int) (nodeId : Int)
  | deleteNodeValues (nodeId : Int)
  | deleteNodeDevices (nodeId : Int)
  | deleteNode (id : Int)

/-- The row of an `INSERT INTO devices`. -/
def DeviceCreate.row (device : DeviceCreate) (description : String) : DeviceRow where
  parentNodeId := some device.parentNodeId
  deviceName := some device.deviceName
  address := device.address
  timeForRecall := device.timeForRecall
  timeout := device.timeout
  retryCount := device.retryCount
  isActive := device.isActive
  readByGroup := device.readByGroup
  description := some description
  deleted := false
  deletedAt := none

/-- The `SET` of `UPDATE devices`. -/
def DeviceUpdate.set (device : DeviceUpdate) (row : DeviceRow) : DeviceRow where
  parentNodeId := device.parentNodeId <|> row.parentNodeId
  deviceName := device.deviceName <|> row.deviceName
  address := device.address.getD row.address
  timeForRecall := device.timeForRecall.getD row.timeForRecall
  timeout := device.timeout.getD row.timeout
  retryCount := device.retryCount.getD row.retryCount
  isActive := device.isActive.getD row.isActive
  readByGroup := device.readByGroup.getD row.readByGroup
  description := device.description <|> row.description
  deleted := row.deleted
  deletedAt := row.deletedAt

def ValueCreate.row (value : ValueCreate J) : ValueRow J where
  parentDeviceId := value.parentDeviceId
  valueName := some value.valueName
  valueTag := value.valueTag
  description := value.description
  decodingType := value.decodingType
  settings := value.settings
  isLogging := value.isLogging

/-- The `SET` of `UPDATE value_units`. -/
def ValueUpdate.set (value : ValueUpdate J) (row : ValueRow J) : ValueRow J where
  parentDeviceId := value.parentDeviceId.getD row.parentDeviceId
  valueName := value.valueName <|> row.valueName
  valueTag := value.valueTag.getD row.valueTag
  description := value.description <|> row.description
  decodingType := value.decodingType.getD row.decodingType
  settings := value.settings.getD row.settings
  isLogging := value.isLogging.getD row.isLogging

namespace Tables

/-- The foreign keys and the unique tag of a row of `value_units`, which the row `self` has if it is
in the table already. -/
def allowsValue (t : Tables J) (self : Option Int) (row : ValueRow J) : Bool :=
  t.devices.contains row.parentDeviceId ∧ row.decodingType ∈ decodingTypes ∧
    (t.valueUnits.first? fun key other => some key ≠ self ∧ other.valueTag = row.valueTag).isNone

/-- Values refer to their devices. -/
def allowsDeviceDelete (t : Tables J) (p : Int → DeviceRow → Bool) : Bool :=
  (t.valueUnits.rows.find? fun r =>
    (t.devices.first? fun key row => key = r.2.parentDeviceId ∧ p key row).isSome).isNone

/-- Measures refer to their values. -/
def allowsValueDelete (t : Tables J) (p : Int → ValueRow J → Bool) : Bool :=
  (t.measures.rows.find? fun r =>
    (t.valueUnits.first? fun key row => key = r.2.valueId ∧ p key row).isSome).isNone

def deleteDevices (t : Tables J) (p : Int → DeviceRow → Bool) : Option (Tables J) :=
  if t.allowsDeviceDelete p then some { t with devices := t.devices.delete p } else none

def deleteValues (t : Tables J) (p : Int → ValueRow J → Bool) : Option (Tables J) :=
  if t.allowsValueDelete p then some { t with valueUnits := t.valueUnits.delete p } else none

/-- Whether a value belongs to a device of the node that is not deleted. -/
def valueOfNode (t : Tables J) (nodeId : Int) (row : ValueRow J) : Bool :=
  match t.devices.get? row.parentDeviceId with
  | some device => device.parentNodeId = some nodeId ∧ device.deleted = false
  | none => false

end Tables

open Tables in
/-- `none` is a key that is violated. -/
def Write.exec (t : Tables J) : Write J → Option (Tables J)
  | insertNode ip port description =>
    some { t with nodes := t.nodes.insert ⟨ip, some port, some description⟩ }
  | updateNode id ip port description => some { t with
      nodes := t.nodes.modify (fun key _ => key = id) fun row =>
        ⟨ip.getD row.ip, port <|> row.port, description <|> row.description⟩ }
  | insertDevice device description =>
    if t.nodes.contains device.parentNodeId then
      some { t with devices := t.devices.insert (device.row description) }
    else none
  | updateDevice device =>
    -- a row that keeps its node is not checked again
    if (device.parentNodeId.all t.nodes.contains) ∨ ¬t.devices.contains device.id then
      some { t with devices := t.devices.modify (fun key _ => key = device.id) device.set }
    else none
  | insertValue value =>
    if t.allowsValue none value.row then
      some { t with valueUnits := t.valueUnits.insert value.row }
    else none
  | updateValue value =>
    match t.valueUnits.get? value.id with
    | some row =>
      if t.allowsValue (some value.id) (value.set row) then
        some { t with valueUnits := t.valueUnits.modify (fun key _ => key = value.id) value.set }
      else none
    | none => some t
  | deleteMeasures valueId =>
    some { t with measures := t.measures.delete fun _ row => row.valueId = valueId }
  | deleteValue id => t.deleteValues fun key _ => key = id
  | deleteDevice id => t.deleteDevices fun key _ => key = id
  | markDevicesDeleted ts nodeId => some { t with
      devices := t.devices.modify
        (fun key row => row.parentNodeId = some nodeId ∧
          (t.valueUnits.first? fun _ value => value.parentDeviceId = key ∧ value.isLogging).isSome)
        fun row => { row with deleted := true, deletedAt := some ts } }
  | deleteNodeValues nodeId => t.deleteValues fun _ row => t.valueOfNode nodeId row
  | deleteNodeDevices nodeId =>
    t.deleteDevices fun _ row => row.parentNodeId = some nodeId ∧ row.deleted = false
  | deleteNode id => some { t with
      nodes := t.nodes.delete fun key _ => key = id
      devices := t.devices.modify
        -- ON DELETE SET NULL
        (fun _ row => row.parentNodeId = some id) fun row => { row with parentNodeId := none } }

theorem deleteDevices_eq {t t' : Tables J} {p : Int → DeviceRow → Bool}
    (h : t.deleteDevices p = some t') :
    t.allowsDeviceDelete p = true ∧ t' = { t with devices := t.devices.delete p } := by
  obtain ⟨hallows, heq⟩ := Option.ite_none_right_eq_some.mp h
  exact ⟨hallows, (Option.some.inj heq).symm⟩

theorem deleteValues_eq {t t' : Tables J} {p : Int → ValueRow J → Bool}
    (h : t.deleteValues p = some t') :
    t.allowsValueDelete p = true ∧ t' = { t with valueUnits := t.valueUnits.delete p } := by
  obtain ⟨hallows, heq⟩ := Option.ite_none_right_eq_some.mp h
  exact ⟨hallows, (Option.some.inj heq).symm⟩

/-- The statements of a transaction, or the one that is refused. -/
def execAll (t : Tables J) : List (Write J) → Except (Write J) (Tables J)
  | [] => .ok t
  | w :: ws =>
    match w.exec t with
    | some t' => execAll t' ws
    | none => .error w

/-- The first statement takes effect, and then the others. -/
theorem execAll_cons {t t' : Tables J} {w : Write J} {ws : List (Write J)} :
    execAll t (w :: ws) = .ok t' ↔ ∃ next, w.exec t = some next ∧ execAll next ws = .ok t' := by
  rw [execAll]
  cases hw : w.exec t with
  | none => simp
  | some next => simp

/-- **Transactions.** What every statement keeps is kept. -/
theorem execAll_keeps {I : Tables J → Prop} {ws : List (Write J)} {t t' : Tables J}
    (hstep : ∀ w ∈ ws, ∀ a b, I a → w.exec a = some b → I b) (h : I t)
    (hexec : execAll t ws = .ok t') : I t' := by
  induction ws generalizing t with
  | nil =>
      cases hexec
      exact h
  | cons w ws ih =>
      obtain ⟨next, hw, hexec⟩ := execAll_cons.mp hexec
      have hnext := hstep w List.mem_cons_self t next h hw
      exact ih (fun w' hw' => hstep w' (List.mem_cons_of_mem w hw')) hnext hexec

/-! ## Calls -/

inductive ConfigEventType where
  | create
  | update
  | delete
  deriving DecidableEq, Repr

structure ConfigEvent where
  eventType : ConfigEventType
  data : NodeRead
  deriving DecidableEq, Repr

/-- An error of the database with its two texts. -/
structure SqlError where
  display : String
  debug : String
  deriving DecidableEq, Repr

/-- Where a transaction breaks. -/
inductive TxError (J : Type) where
  | begin (e : SqlError)
  | statement (w : Write J) (e : SqlError)
  | commit (e : SqlError)

/-- What a task waits for: the database, or a free slot on the way to the reader. -/
inductive Call (J : Type) where
  | read (r : Read)
  | write (w : Write J)
  | transaction (ws : List (Write J))
  | send (event : ConfigEvent)

abbrev Call.Answer : Call J → Type
  | read r => Except SqlError (r.Rows J)
  | write _ => Except SqlError Unit
  | transaction _ => Except (TxError J) Unit
  | send _ => Bool

/-- How a call ends. A call that is not applied has no effect, and one that is not confirmed is
answered with the error, in a transaction at the stage that the fate names. -/
structure Fate where
  applied : Bool
  confirmed : Bool
  error : SqlError
  stage : Nat
  deriving DecidableEq, Repr

def Fate.succeeds (fate : Fate) : Bool := fate.applied && fate.confirmed

/-- A call that succeeds. -/
def Fate.success : Fate := ⟨true, true, ⟨"", ""⟩, 0⟩

def Fate.txError (fate : Fate) (ws : List (Write J)) : TxError J :=
  match fate.stage with
  | 0 => .begin fate.error
  | i + 1 =>
    match ws[i]? with
    | some w => .statement w fate.error
    | none => .commit fate.error

def perform : (c : Call J) → Fate → Tables J → Tables J × c.Answer
  | .read r, fate, t =>
    match r.exec t with
    | some rows => (t, if fate.succeeds then .ok rows else .error fate.error)
    | none => (t, .error fate.error)
  | .write w, fate, t =>
    match w.exec t with
    | some t' => (if fate.applied then t' else t,
        if fate.succeeds then .ok () else .error fate.error)
    | none => (t, .error fate.error)
  | .transaction ws, fate, t =>
    match execAll t ws with
    | .ok t' => (if fate.applied then t' else t,
        if fate.succeeds then .ok () else .error (fate.txError ws))
    | .error w => (t, .error (.statement w fate.error))
  | .send _, fate, t => (t, fate.succeeds)

/-- A task that may end with the text of an error. -/
abbrev Task (J : Type) : Type → Type := Program (Call J) Call.Answer String

open Program

/-- `map_err(…)?` -/
def orFail {ε α : Type} (result : Except ε α) (msg : ε → String) : Task J α :=
  match result with
  | .ok a => return a
  | .error e => fail (msg e)

/-- A check that was passed. -/
theorem ite_error_eq_ok {ε α : Type} {p : Prop} [Decidable p] {e : ε} {r : Except ε α} {a : α} :
    (if p then .error e else r) = .ok a ↔ ¬p ∧ r = .ok a := by
  split
  · next hp => simp [hp]
  · next hp => simp [hp]

@[simp] theorem every_orFail {ε α : Type} {P : Call J → Prop} {Q : α → Prop}
    {result : Except ε α} {msg : ε → String} :
    (orFail result msg : Task J α).Every P Q ↔ ∀ a, result = .ok a → Q a := by
  cases result with
  | ok a => simp [orFail]
  | error e => simp [orFail]

def query (r : Read) : Task J (Except SqlError (r.Rows J)) := issue (Call.read r)

def execute (w : Write J) : Task J (Except SqlError Unit) := issue (Call.write w)

def transaction (ws : List (Write J)) : Task J (Except (TxError J) Unit) := issue (Call.transaction ws)

/-- A failure is logged only. -/
def notify (eventType : ConfigEventType) (node : NodeRead) : Task J Unit := do
  let _ : Bool ← issue (Call.send ⟨eventType, node⟩)

end ModbusLogger.Db
