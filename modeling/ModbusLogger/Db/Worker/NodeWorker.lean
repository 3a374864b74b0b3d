import ModbusLogger.Db.Statements

/-!
# Node commands (`db/worker/node_worker.rs`)

A panic of a task is an error. What is logged is left out.
-/

namespace ModbusLogger.Db

open Program

variable {J : Type}

/-! ## IPv4 addresses -/

/-- One to three digits without a leading zero, up to 255. -/
def isOctet (digits : List Char) : Bool :=
  digits ≠ [] ∧ digits.length ≤ 3 ∧ digits.all Char.isDigit ∧
    (digits.head? = some '0' → digits.length = 1) ∧
    digits.foldl (fun n c => 10 * n + (c.toNat - '0'.toNat)) 0 ≤ 255

/-- `ip.parse::<Ipv4Addr>()` -/
def parseIpv4 (ip : String) : Except String Unit :=
  let octets := ip.toList.splitOn '.'
  if octets.length = 4 ∧ octets.all isOctet then .ok () else .error "AddrParseError(Ipv4)"

/-! ## Queries -/

def getNodeById (id : Int) : Task J (Except Unit (Option NodeRead)) := do
  let node : Except SqlError (Option NodeRead) ← query (.nodeById id)
  return node.mapError fun _ => ()

def getByIp (ip : String) : Task J (Except Unit (Option NodeRead)) := do
  let node : Except SqlError (Option NodeRead) ← query (.nodeByIp ip)
  return node.mapError fun _ => ()

/-- `if let Ok(Some(node)) = …` -/
def notifyNode (eventType : ConfigEventType) (node : Except Unit (Option NodeRead)) : Task J Unit :=
  match node with
  | .ok (some node) => notify eventType node
  | _ => return ()

/-! ## Commands -/

/-- `ts` is the clock in seconds. -/
def deleteNode (ts : Int) (node : NodeDelete) : Task J Unit := do
  -- The node is read outside of the transaction, before its last statement.
  let deletedNode ← getNodeById node.id
  let deletedNode ← orFail deletedNode fun _ => s!"Помилка видалення ноди: {node.id}"
  let committed ← transaction
    [.markDevicesDeleted ts node.id, .deleteNodeValues node.id, .deleteNodeDevices node.id,
      .deleteNode node.id]
  orFail committed fun
    | .begin e | .statement _ e => s!"Помилка транзакції при видаленні ноди: {e.debug}"
    | .commit e => s!"Помилка коміту при видаленні ноди: {e.debug}"
  match deletedNode with
  | some deletedNode => notify .delete deletedNode
  | none => fail "called Option::unwrap() on a None value"

def createNode (node : NodeCreate) : Task J Unit := do
  orFail (parseIpv4 node.ip) fun e => s!"Помилка валідації ip адреси: {e}"
  let nodeInDb ← getByIp node.ip
  match (← orFail nodeInDb fun _ => "Помилка перевірки ip адреси в базі даних:") with
  | some nodeInDb => fail s!"Ip: {nodeInDb.ip} вже існує в базі даних, id: {nodeInDb.id}"
  | none =>
    let description := node.description.getD ""
    let written ← execute (.insertNode node.ip (node.port.getD 502) description)
    orFail written fun e => s!"Помилка валідації ip адреси: {e.debug}"
    notifyNode .create (← getByIp node.ip)

/-- A new ip must not be the one of another node. -/
def checkNodeIp (node : NodeUpdate) : Task J Unit := do
  if let some ip := node.ip then
    orFail (parseIpv4 ip) fun e => s!"Помилка валідації ip адреси: {e}"
    let nodeInDb ← getByIp ip
    let nodeInDb ← orFail nodeInDb fun _ => "Помилка перевірки ip адреси в базі даних:"
    if let some nodeInDb := nodeInDb then
      if nodeInDb.id ≠ node.id then
        fail s!"Нода з ip: {nodeInDb.ip} вже існує. id: {nodeInDb.id}"

def updateNode (node : NodeUpdate) : Task J Unit := do
  let stored : Except SqlError (Option NodeRead) ← query (.nodeById node.id)
  let stored ← orFail stored fun e => s!"Помилка знаходження ноди : {node.id}\n{e.display}"
  if stored.isNone then fail s!"Не знайдено ноду з таким id : {node.id}"
  else
    checkNodeIp node
    let description := node.description.getD ""
    let written ← execute (.updateNode node.id node.ip node.port (some description))
    orFail written fun e => s!"Помилка оновлення ноди, id: {node.id}\n{e.display}"
    notifyNode .update (← getNodeById node.id)

end ModbusLogger.Db
