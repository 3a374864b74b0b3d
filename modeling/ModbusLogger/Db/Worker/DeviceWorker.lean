import ModbusLogger.Db.Worker.NodeWorker
import ModbusLogger.Db.Worker.ValueWorker

/-!
# Device commands (`db/worker/device_worker.rs`)

What is logged is left out.
-/

namespace ModbusLogger.Db

open Program

variable {J : Type}

/-! ## Queries -/

def getDeviceById (id : Int) : Task J (Except Unit (Option DeviceRead)) := do
  let device : Except SqlError (Option DeviceRead) ← query (.deviceById id)
  return device.mapError fun _ => ()

def getDeviceByNodeId (parentId : Int) : Task J (Except Unit (List DeviceRead)) := do
  let devices : Except SqlError (List DeviceRead) ← query (.devicesByNode parentId)
  return devices.mapError fun _ => ()

/-! ## Commands -/

def deleteDevice (device : DeviceDelete) : Task J Unit := do
  match ← getDeviceById device.id with
  | .ok (some deletedDevice) =>
    let devicesValues : Except Unit (List (ValueRead J)) ← getValueByDeviceId device.id
    let devicesValues ← orFail devicesValues fun _ =>
      s!"Помилка видалення пристрою id: {device.id}\n Помилка читання значень пристрою"
    let committed ← transaction
      ((devicesValues.flatMap fun value => deleteValueStatements value.id) ++
        [.deleteDevice device.id])
    orFail committed fun
      | .begin e => s!"Помилка створення батчу при видаленні пристрою \n{e.display}"
      | .statement (.deleteDevice id) e => s!"Помилка видалення пристрою id: {id}\n{e.display}"
      | .statement w e =>
        s!"Помилка видалення пристрою id: {device.id}\n Помилка видалення значень пристрою: \n{deleteValueError w e}"
      | .commit e =>
        s!"Помилка видалення пристрою id: {device.id}\nПомилка коміту транзакції: \n{e.display}"
    notifyNode .update (← getNodeById deletedDevice.parentNodeId)
  | _ => fail s!"Помилка читання пристрою перед видаленням:{device.id}"

/-- The bounds of a new device. -/
def checkDeviceCreate (device : DeviceCreate) : Except String Unit :=
  if device.address < 0 ∨ device.address > 255 then .error "Не вірна адреса пристрою"
  else if device.timeForRecall ≤ 0 then
    .error "Час опитування не може бути від'ємним або нулем"
  else if device.retryCount ≤ 0 then
    .error "Кількість повторів не може бути від'ємною або нулем"
  else if device.timeout ≤ 0 then
    .error "Час таймауту (timeout) не може бути від'ємним або нулем"
  else if device.parentNodeId ≤ 0 then .error "id Батьківської ноди не може бути від'ємним"
  else .ok ()

theorem checkDeviceCreate_ok {device : DeviceCreate} (h : checkDeviceCreate device = .ok ()) :
    (0 ≤ device.address ∧ device.address ≤ 255) ∧ 0 < device.timeForRecall ∧
      0 < device.timeout ∧ 0 < device.retryCount := by
  simp only [checkDeviceCreate, ite_error_eq_ok] at h
  omega

def createDevice (lib : Libraries J) (device : DeviceCreate) : Task J Unit := do
  orFail (checkDeviceCreate device) id
  let nodeRead : Except SqlError (Option NodeRead) ← query (.nodeById device.parentNodeId)
  let nodeRead ← orFail nodeRead fun e => s!"Помилка отримання ноди від БД по id: {e.debug}"
  if nodeRead.isNone then
    fail s!"Помилка створення пристрою, відсутня батьківська нода: {lib.debug device}"
  else
    let deviceRead : Except SqlError (Option DeviceRead) ←
      query (.deviceByAddress (some device.address) (some device.parentNodeId))
    let deviceRead ← orFail deviceRead fun e =>
      s!"Помилка перевірки унікальності адреси: {e.display}"
    if deviceRead.isSome then fail "Ця нода уже має пристрій з такою адресою"
    else
      let description := device.description.getD ""
      let written ← execute (.insertDevice device description)
      orFail written fun e => s!"Помилка створення пристрою: {e.debug}"
      notifyNode .update (← getNodeById device.parentNodeId)

/-- The bounds of what an update changes. Zero passes for the times and the retries. -/
def checkDeviceUpdate (device : DeviceUpdate) : Except String Unit :=
  if device.address.any fun addr => ¬(0 ≤ addr ∧ addr ≤ 255) then
    .error "Не вірна адреса пристрою"
  else if device.timeForRecall.any (· < 0) then
    .error "Час опитування не може бути від'ємним"
  else if device.timeout.any (· < 0) then .error "Час таймауту не може бути від'ємним"
  else if device.retryCount.any (· < 0) then .error "Кількість повторів не може бути від'ємною"
  else .ok ()

theorem checkDeviceUpdate_ok {device : DeviceUpdate} (h : checkDeviceUpdate device = .ok ()) :
    (∀ addr ∈ device.address, 0 ≤ addr ∧ addr ≤ 255) ∧ (∀ recalled ∈ device.timeForRecall, 0 ≤ recalled) ∧
      (∀ timeout ∈ device.timeout, 0 ≤ timeout) ∧ ∀ retry ∈ device.retryCount, 0 ≤ retry := by
  simp only [checkDeviceUpdate, ite_error_eq_ok, Option.any_eq_true, not_exists, not_and,
    decide_eq_true_eq, not_lt] at h
  obtain ⟨haddress, hrecall, htimeout, hretry, -⟩ := h
  refine ⟨fun addr haddr => ?_, hrecall, htimeout, hretry⟩
  have := haddress addr haddr
  omega

/-- A new node has to exist. -/
def checkParent (device : DeviceUpdate) : Task J Unit := do
  if let some parentNodeId := device.parentNodeId then
    if parentNodeId ≤ 0 then fail "id Батьківської ноди не може бути від'ємним"
    else
      let node : Except SqlError (Option NodeRead) ← query (.nodeById parentNodeId)
      let node ← orFail node fun e => s!"Помилка бази даних при перевірці ноди: \n{e.display}"
      if node.isNone then fail "Ноди з таким id не існує"

/-- A new address or node must not be those of another device. -/
def checkAddress (device : DeviceUpdate) : Task J Unit := do
  if device.address.isSome ∨ device.parentNodeId.isSome then
    let deviceRead : Except SqlError (Option DeviceRead) ←
      query (.deviceByAddress device.address device.parentNodeId)
    let deviceRead ← orFail deviceRead fun e =>
      s!"Помилка перевірки унікальності адреси: {e.display}"
    if deviceRead.any fun deviceRead => deviceRead.id ≠ device.id then
      fail "Ця нода уже має пристрій з такою адресою"

/-- The node that the device has now is told. The result is its id, or 0. -/
def notifyNewNode (device : DeviceUpdate) : Task J Int := do
  match ← getDeviceById device.id with
  | .ok (some deviceUpdate) =>
    match ← getNodeById deviceUpdate.parentNodeId with
    | .ok (some node) =>
      notify .update node
      return node.id
    | _ => return 0
  | _ => return 0

/-- And then the one that it had. -/
def notifyDeviceUpdate (device : DeviceUpdate) (oldDevice : DeviceRead) : Task J Unit := do
  let newNode ← notifyNewNode device
  if newNode ≠ oldDevice.parentNodeId then
    notifyNode .update (← getNodeById oldDevice.parentNodeId)

def updateDevice (device : DeviceUpdate) : Task J Unit := do
  orFail (checkDeviceUpdate device) id
  checkParent device
  checkAddress device
  match ← getDeviceById device.id with
  | .ok (some oldDevice) =>
    let written ← execute (.updateDevice device)
    orFail written fun e => s!"Помилка оновлення пристрою:\n {e.display}"
    notifyDeviceUpdate device oldDevice
  | _ => fail s!"Помилка читання пристрою: {device.id}"

end ModbusLogger.Db
