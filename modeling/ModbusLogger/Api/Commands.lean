import ModbusLogger.Api.InitAxum
import ModbusLogger.Api.Router.UserGroup
import ModbusLogger.Db.Worker.WholeDatabase

/-!
# From requests to commands (`api/router`)

Each handler that changes something sends one command to the database worker, and so do the handlers of
sessions. The handlers check what they send before. With the requests that the routes let through, and
with the flushes of the measure master, these commands are all tasks that write to the database.
-/

namespace ModbusLogger.Api

open Db Auth Hasher FixedWidth

variable {J : Type}

/-! ## Handlers -/

namespace Handler

/-- What a handler takes from the path and from the body. -/
abbrev Input (J : Type) : Handler → Type
  | .node .createNode => NodeCreate
  | .node .updateNode => UInt32 × NodeUpdate
  | .node .deleteNode => UInt32
  | .device .createDevices => DeviceCreate
  | .device .updateDevice => UInt32 × DeviceUpdate
  | .device .deleteDevice => UInt32
  | .value .createValue => ValueCreate J
  | .value .updateValue => UInt32 × ValueUpdate J
  | .value .deleteValue => UInt32
  | .user .createUser => UserCreate
  | .user .updateUser => Int × UserUpdate
  | .user .deleteUser => Int
  | .group .createGroup => UserGroupCreate
  | .group .updateGroup => Int × UserGroupUpdate
  | .group .deleteGroup => Int
  | .subgroup .createSubGroup => UserSubGroupCreate
  | .subgroup .updateSubGroup => Int × UserSubGroupUpdate
  | .subgroup .deleteSubGroup => Int
  | .assign .createAssignGroup => AssignGroupsCommand
  | .assign .createAssignValues => AssignValuesCommand
  | .assign .cleanGroupAssignments => Int
  | .assign .cleanValuesAssignments => Int
  | .auth .login => UserLogin
  | .auth .logout => RefreshRequest
  | .auth .refreshToken => RefreshRequest
  | _ => Unit

/-- `id as i32` -/
def asId (id : UInt32) : Int := asI32 id.toNat

/-- `(0..=65535).contains(&port)` -/
def isPort (port : Int) : Bool := 0 ≤ port ∧ port ≤ 65535

/-- The checks of `create_devices`. -/
def refusesDevice (payload : DeviceCreate) : Bool :=
  payload.address < 0 ∨ payload.address > 255 ∨ payload.timeForRecall ≤ 0 ∨ payload.retryCount ≤ 0 ∨
    payload.timeout ≤ 0 ∨ payload.parentNodeId ≤ 0

/-- The checks of `update_device`. Here zero is allowed. -/
def refusesDeviceUpdate (payload : DeviceUpdate) : Bool :=
  payload.address.any (fun addr => ¬(0 ≤ addr ∧ addr ≤ 255)) ∨
    payload.timeForRecall.any (fun millis => millis < 0) ∨
    payload.timeout.any (fun millis => millis < 0) ∨
    payload.retryCount.any (fun count => count < 0)

/-- The command of a handler, or none if it refuses its input. `ts` is the clock of the worker. What a
handler asks the database before can only make it refuse, and the worker checks the address again. -/
def sends (ts : Int) : (h : Handler) → h.Input J → Option ((k : Family) × k.Command J)
  | .node .createNode, payload =>
    let port := payload.port.getD 502
    if isPort port then some ⟨.config, .nodeCreate { payload with port := some port }⟩ else none
  | .node .updateNode, (id, payload) =>
    if payload.port.all isPort then some ⟨.config, .nodeUpdate { payload with id := asId id }⟩ else none
  | .node .deleteNode, id => some ⟨.config, .nodeDelete ts ⟨asId id⟩⟩
  | .device .createDevices, payload =>
    if refusesDevice payload then none else some ⟨.config, .deviceCreate payload⟩
  | .device .updateDevice, (id, payload) =>
    if refusesDeviceUpdate payload then none
    else some ⟨.config, .deviceUpdate { payload with id := asId id }⟩
  | .device .deleteDevice, id => some ⟨.config, .deviceDelete ⟨asId id⟩⟩
  | .value .createValue, payload =>
    if (trim payload.valueTag.toList).isEmpty then none else some ⟨.config, .valueCreate payload⟩
  | .value .updateValue, (id, payload) => some ⟨.config, .valueUpdate { payload with id := asId id }⟩
  | .value .deleteValue, id => some ⟨.config, .valueDelete ⟨asId id⟩⟩
  | .user .createUser, payload => some ⟨.users, .userCreate payload⟩
  | .user .updateUser, (id, payload) => some ⟨.users, .userUpdate { payload with id := id }⟩
  | .user .deleteUser, id => some ⟨.users, .userDelete ⟨id⟩⟩
  | .group .createGroup, payload => some ⟨.groups, .groupCreate payload⟩
  -- the id of the path is not read
  | .group .updateGroup, (_, payload) => some ⟨.groups, .groupUpdate payload⟩
  | .group .deleteGroup, id => some ⟨.groups, .groupDelete ⟨id⟩⟩
  | .subgroup .createSubGroup, payload => some ⟨.groups, .subGroupCreate payload⟩
  | .subgroup .updateSubGroup, (_, payload) => some ⟨.groups, .subGroupUpdate payload⟩
  | .subgroup .deleteSubGroup, id => some ⟨.groups, .subGroupDelete ⟨id⟩⟩
  | .assign .createAssignGroup, payload => some ⟨.groups, .groups payload⟩
  | .assign .createAssignValues, payload => some ⟨.groups, .values payload⟩
  | .assign .cleanGroupAssignments, userId => some ⟨.groups, .groups ⟨userId, []⟩⟩
  | .assign .cleanValuesAssignments, subgroupId => some ⟨.groups, .values ⟨subgroupId, []⟩⟩
  | .auth .login, payload => some ⟨.users, .login payload⟩
  | .auth .logout, payload => some ⟨.users, .logout payload⟩
  | .auth .refreshToken, payload => some ⟨.users, .refreshToken payload⟩
  | _, _ => none

end Handler

/-! ## Runs -/

/-- A request that has got to its handler, and what `Jwt::decode` says at its time. -/
structure Arrival (J : Type) where
  jwt : Jwt
  request : HttpRequest
  handler : Handler
  claims : Option Claims
  ran : serve jwt request = .ran handler claims
  input : handler.Input J
  ts : Int

def Arrival.command (a : Arrival J) : Option ((k : Family) × k.Command J) := a.handler.sends a.ts a.input

inductive ServerStep (J : Type) where
  | arrive (a : Arrival J)
  | flush (rows : List MeasureRow)
  | advance (i : Nat) (fate : Families.Fates Family.Fate)
  | drop (i : Nat)

def ServerStep.database : ServerStep J → Option (DatabaseStep J)
  | arrive a => a.command.map .start
  | flush rows => some (.start ⟨.measures, rows⟩)
  | advance i fate => some (.advance i fate)
  | drop i => some (.drop i)

def databaseSteps (steps : List (ServerStep J)) : List (DatabaseStep J) :=
  steps.filterMap ServerStep.database

/-- The database and its tasks after requests, flushes and calls, in the order in which they happen. -/
def runServer (lib : Libraries J) (collation : Collation) (db : Database J)
    (steps : List (ServerStep J)) :
    Pool (Database J) (Families.Calls (Family.Call J)) (Families.Answers (Family.Answer J)) String :=
  runDatabase lib collation db (databaseSteps steps)

/-- The command that a step starts a task for. -/
def ServerStep.started : ServerStep J → Option ((k : Family) × k.Command J)
  | arrive a => a.command
  | flush rows => some ⟨.measures, rows⟩
  | advance _ _ | drop _ => none

theorem commands_databaseSteps (steps : List (ServerStep J)) :
    Pool.commands (databaseSteps steps) = steps.filterMap ServerStep.started := by
  unfold databaseSteps Pool.commands
  rw [List.filterMap_filterMap]
  congr 1
  funext s
  cases s with
  | arrive a =>
      show (a.command.map _).bind _ = a.command
      cases a.command <;> rfl
  | flush rows => rfl
  | advance i fate => rfl
  | drop i => rfl

/-- An administrator creates a node. -/
def createArrival : Arrival Unit where
  jwt := oneToken
  request := ⟨.post, ["nodes", "create"], ["Bearer eyJ0.eyJp.3f1a"], [], .error 400⟩
  handler := .node .createNode
  claims := some ⟨1, 1, 1900, 1000⟩
  ran := by decide +kernel
  input := ⟨"10.0.0.7", none, none⟩
  ts := 1000

end ModbusLogger.Api
