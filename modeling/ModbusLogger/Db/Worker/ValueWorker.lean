import ModbusLogger.Db.Statements
import ModbusLogger.Reader.Plugins

/-!
# Value commands (`db/worker/value_worker.rs`)

What is logged is left out.
-/

namespace ModbusLogger.Db

open Program Reader

variable {J : Type}

/-- What the program uses of libraries: `serde_json`, with the text of its errors, `{:?}` for a
command, and how many messages a broadcast keeps for a receiver. -/
structure Libraries (J : Type) where
  settings : Settings J
  serdeError : J → String
  debug : DeviceCreate → String
  /-- Of `broadcast::channel(100)`. `tokio` rounds it up to 128. -/
  backlog : Nat

def Libraries.checkJson (lib : Libraries J) (id : Int) (jsonData : J) : Except String Unit :=
  Reader.checkJson lib.settings lib.serdeError id jsonData

/-! ## Queries -/

def getValueById (id : Int) : Task J (Except Unit (Option (ValueRead J))) := do
  let value : Except SqlError (Option (ValueRead J)) ← query (.valueById id)
  return value.mapError fun _ => ()

def getValueByDeviceId (id : Int) : Task J (Except Unit (List (ValueRead J))) := do
  let values : Except SqlError (List (ValueRead J)) ← query (.valuesByDevice id)
  return values.mapError fun _ => ()

def getNodeDirectlyByDeviceId (deviceId : Int) : Task J (Except String NodeRead) := do
  let node : Except SqlError (Option NodeRead) ← query (.nodeOfDevice deviceId)
  return match node with
    | .ok (some node) => .ok node
    | .ok none => .error s!"Не знайдено активної ноди для девайсу з id: {deviceId}"
    | .error e => .error s!"Помилка SQL-запиту ноди для девайсу {deviceId}: {e.display}"

/-! ## Commands -/

/-- `delete_value_with_transaction` -/
def deleteValueStatements (id : Int) : List (Write J) := [.deleteMeasures id, .deleteValue id]

/-- Its error, in a transaction with more statements. -/
def deleteValueError (w : Write J) (e : SqlError) : String :=
  match w with
  | .deleteMeasures id => s!"Помилка видалення збережених вимірів id: {id} \n{e.display}"
  | .deleteValue id => s!"Помилка видалення значення id: {id} \n{e.display}"
  | _ => ""

def deleteValue (value : ValueDelete) : Task J Unit := do
  match ← getValueById value.id with
  | .ok (some deletedValueOld) =>
    let committed ← transaction (deleteValueStatements value.id)
    orFail committed fun
      | .begin e => s!"Помилка створення батчу при видаленні значення \n{e.display}"
      | .statement w e => deleteValueError w e
      | .commit e =>
        s!"Помилка коміту транзакції при видаленні значення id: {value.id} \n{e.display}"
    if let .ok node ← getNodeDirectlyByDeviceId deletedValueOld.parentDeviceId then
      notify .update node
  | _ => fail "Помилка читання значення при видаленні"

def createValue (lib : Libraries J) (value : ValueCreate J) : Task J Unit := do
  orFail (lib.checkJson value.decodingType value.settings) id
  let dev : Except SqlError (Option Int) ← query (.deviceIdById value.parentDeviceId)
  let dev ← orFail dev fun e =>
    s!"Помилка читання з бази даних при перевірці пристрою: \n{e.display}"
  if dev.isNone then
    fail s!"Відсутній пристрій (device) з таким id: {value.parentDeviceId}"
  else
    let written ← execute (.insertValue value)
    orFail written fun e => s!"Помилка запису в базу даних:\n{e.display}"
    if let .ok node ← getNodeDirectlyByDeviceId value.parentDeviceId then
      notify .update node

/-- A new device has to exist. -/
def checkValueParent (value : ValueUpdate J) : Task J Unit := do
  if let some parentId := value.parentDeviceId then
    let dev : Except SqlError (Option Int) ← query (.deviceIdById parentId)
    let dev ← orFail dev fun e =>
      s!"Помилка читання з бази даних при валідації пристрою: \n{e.display}"
    if dev.isNone then
      fail s!"Вказаний пристрій не існує або видалений: \n{parentId}"

/-- The checks before the write. New settings are checked for the new type, or else for the type that
was read. -/
def checkValueUpdate (lib : Libraries J) (value : ValueUpdate J) (val : ReadVal) : Task J Unit := do
  if let some setting := value.settings then
    let decodingType := value.decodingType.getD val.decodingType
    orFail (lib.checkJson decodingType setting) id
  checkValueParent value

/-- The node of the device that the value had is told. The result is its id, or 0. -/
def notifyOldDevice (valueOld : ValueRead J) : Task J Int := do
  match ← getNodeDirectlyByDeviceId valueOld.parentDeviceId with
  | .ok node =>
    notify .update node
    return node.id
  | .error _ => return 0

/-- And then the one of the device that the update names. -/
def notifyValueUpdate (value : ValueUpdate J) (valueOld : ValueRead J) : Task J Unit := do
  let newNodeId ← notifyOldDevice valueOld
  if let some devId := value.parentDeviceId then
    if let .ok node ← getNodeDirectlyByDeviceId devId then
      if newNodeId ≠ node.id then
        notify .update node

def valueUpdate (lib : Libraries J) (value : ValueUpdate J) : Task J Unit := do
  match ← getValueById value.id with
  | .ok (some valueOld) =>
    let val : Except SqlError (Option ReadVal) ← query (.valueTypeById value.id)
    match (← orFail val fun e => s!"Помилка читання з бази даних: \n{e.display}") with
    | none => fail s!"Запис (Value) не знайдено, id: {value.id}"
    | some val =>
      checkValueUpdate lib value val
      let written ← execute (.updateValue value)
      orFail written fun e => s!"Помилка оновлення бази даних (value_units): \n{e.display}"
      notifyValueUpdate value valueOld
  | _ => fail "Помилка читання значення при видаленні"

end ModbusLogger.Db
