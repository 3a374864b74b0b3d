import ModbusLogger.Api.Router.Auth
import ModbusLogger.Db.Worker.UserGroupQueries

/-!
# The routes of the restricted users (`user_group.rs`, `user_subgroups.rs`, `measures.rs`)

The routes on groups, subgroups and measures that stand outside the admin layer. The path
and the query are read already, up to the lists of ids that the handlers read themselves.
-/

namespace ModbusLogger.Api

open Db Hasher WebSockets Auth

variable {J : Type}

/-! ## Lists of ids -/

/-- `char::is_whitespace` -/
def isWhitespace (c : Char) : Bool :=
  (9 ≤ c.toNat ∧ c.toNat ≤ 13) ∨ (0x2000 ≤ c.toNat ∧ c.toNat ≤ 0x200A) ∨
    c.toNat ∈ [0x20, 0x85, 0xA0, 0x1680, 0x2028, 0x2029, 0x202F, 0x205F, 0x3000]

def trim (text : List Char) : List Char :=
  ((text.dropWhile isWhitespace).reverse.dropWhile isWhitespace).reverse

def parseDigits (text : List Char) : Option Nat :=
  if text ≠ [] ∧ text.all (·.isDigit) then
    some (text.foldl (fun n c => n * 10 + (c.toNat - '0'.toNat)) 0)
  else none

/-- `parse::<i32>()` -/
def parseI32 (text : List Char) : Option Int :=
  let n : Option Int :=
    match text with
    | '-' :: digits => (parseDigits digits).map fun n => -n
    | '+' :: digits => (parseDigits digits).map fun n => n
    | digits => (parseDigits digits).map fun n => n
  n.filter fun n => -(2 ^ 31) ≤ n ∧ n < 2 ^ 31

def parseIds (text : String) : Option (List Int) :=
  (text.toList.splitOn ',').mapM fun id => parseI32 (trim id)

/-! ## Requests and responses -/

structure MeasureQuery where
  valueIds : String
  startTime : Int
  endTime : Int
  deriving DecidableEq, Repr

inductive UserRequest where
  | getAllGroups
  | uiGetByGroupId (groupId : Int)
  | me
  | uiGetSubgroupsAssign (groupId : String)
  | getMeasures (params : MeasureQuery)
  deriving DecidableEq, Repr

inductive Body (J : Type) where
  | text (msg : String)
  | groups (groups : List UserGroupRead)
  | group (group : Option (UiUserGroupRead J))
  | assigns (assigns : List GetSubgroupAssign)
  | measures (measures : List MeasureResponse)

structure Response (J : Type) where
  status : Nat
  body : Body J

/-- What becomes of a request on its way: it cannot be sent, a query fails, the sender of the answer
is dropped, or the answer comes. -/
inductive Delivery where
  | unsent (e : String)
  | failed
  | lost (e : String)
  | answered
  deriving DecidableEq, Repr

/-- `check_send_message`, and the `match` on what `rx` brings. -/
def receive (delivery : Delivery) (failed : String) (lost : String → String) (body : Body J) :
    Response J :=
  match delivery with
  | .unsent e => ⟨500, .text s!"Помилка сервера: {e}"⟩
  | .failed => ⟨500, .text failed⟩
  | .lost e => ⟨500, .text (lost e)⟩
  | .answered => ⟨200, body⟩

/-- Of groups and subgroups. -/
def receiveGroups (delivery : Delivery) (body : Body J) : Response J :=
  receive delivery "Error from database" (fun _ => "Internal Server Error") body

/-! ## Handlers -/

def getUserGroups (s : Store J) (delivery : Delivery) (userId : Int) : Response J :=
  receiveGroups delivery (.groups (getGroupByUserId s.db userId))

def getAllGroups (s : Store J) (delivery : Delivery) : Response J :=
  receiveGroups delivery (.groups (Db.getAllGroups s.db))

def uiGetByGroupId (s : Store J) (order : HashOrder) (delivery : Delivery) (groupId : Int) :
    Response J :=
  receiveGroups delivery (.group (uiGetGroup order s.db groupId))

def me (s : Store J) (delivery : Delivery) (claims : Claims) : Response J :=
  if claims.roleId = 3 ∨ claims.roleId = 4 then getUserGroups s delivery claims.id
  else if claims.roleId = 2 ∨ claims.roleId = 1 then getAllGroups s delivery
  else ⟨403, .text ""⟩

def uiGetSubgroupsAssign (s : Store J) (order : HashOrder) (delivery : Delivery) (groupId : String) :
    Response J :=
  match parseIds groupId with
  | none => ⟨400, .text "Invalid ids"⟩
  | some ids => receiveGroups delivery (.assigns (Db.uiGetSubgroupsAssign order s.db ids))

def getMeasures (s : Store J) (delivery : Delivery) (params : MeasureQuery) : Response J :=
  match parseIds params.valueIds with
  | none => ⟨400, .text "Невірний формат value_ids"⟩
  | some ids =>
    let failed := "Помилка читання бази данних, детальніше в логах"
    let lost := fun e => s!"Помилка каналу: \n{e}"
    let req := ⟨params.startTime, params.endTime, ids, fun _ => none⟩
    match delivery, s.measureMaster.readMeasure req with
    | .answered, some (.ok measures) => receive .answered failed lost (.measures measures)
    | .answered, some (.error _) => receive .failed failed lost (.text "")
    -- the master panics
    | .answered, none => receive (.lost "channel closed") failed lost (.text "")
    | delivery, _ => receive delivery failed lost (.text "")

/-- The order is that of hash sets, and of rows without an `ORDER BY`. -/
def respond (claims : Claims) (order : HashOrder) (delivery : Delivery) (s : Store J) :
    UserRequest → Response J
  | .getAllGroups => getAllGroups s delivery
  | .uiGetByGroupId groupId => uiGetByGroupId s order delivery groupId
  | .me => me s delivery claims
  | .uiGetSubgroupsAssign groupId => uiGetSubgroupsAssign s order delivery groupId
  | .getMeasures params => getMeasures s delivery params

end ModbusLogger.Api
