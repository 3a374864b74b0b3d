import ModbusLogger.Reader.ReadProcess

/-!
# The read master of a node (`reading_loop/read_master_struct.rs`)

A node has one connection and polls its devices over it, one at a time. The state has the fields of
the source, with the messages sent so far for the channel to the controller, and two fields more:
the next moment at which the world is asked, and the polls so far, on which no function depends.

A panic is `none`. Log messages are left out.
-/

namespace ModbusLogger.Reader

open FixedWidth

/-- The columns of a row of `nodes` that the reader uses. -/
structure NodeRead where
  id : Int
  ip : String
  port : Option Int
  deriving DecidableEq

/-- The connection, with the slave that the next request is for. -/
structure Context where
  slave : Nat
  deriving DecidableEq

inductive HeaderMismatchAction where
  | increaseCurrent
  | increasePrevious
  deriving DecidableEq

/-- One poll of the device `index`: the devices and the clock at the start, how its requests ended,
the clock at the end, and what was sent to the controller. -/
structure Poll where
  index : Nat
  devices : List ModbusDeviceUnit
  start : Int
  answers : List ModbusReadResult
  finish : Int
  event : Option DeviceEvent

structure ReadMaster where
  id : Int
  ip : String
  port : Int
  devices : List ModbusDeviceUnit
  ctx : Option Context
  currentDeviseIndex : Option Nat
  lastestDeviceIndex : Option Nat
  toController : List MainMsg
  ctxState : NodeEventType
  lastConnectingTime : Nat
  moment : Nat
  polls : List Poll

/-! ## Reading a device -/

/-- How the loop over the steps goes on after a step. -/
inductive Flow where
  | next
  | socketFail
  | headerMismatch (action : HeaderMismatchAction)
  deriving DecidableEq

/-- The variables of the loop over the steps. -/
structure Round where
  moment : Nat
  totalResult : List ModbusMeasure
  failedSteps : Nat
  answers : List ModbusReadResult
  flow : Flow

/-- One more answer. -/
def Round.record (round : Round) (result : ModbusReadResult) : Round :=
  { round with moment := round.moment + 1, answers := round.answers ++ [result] }

def Round.push (round : Round) (measures : List ModbusMeasure) : Round :=
  { round with totalResult := round.totalResult ++ measures }

def Round.fail (round : Round) (measures : List ModbusMeasure) : Round :=
  { round.push measures with failedSteps := round.failedSteps + 1 }

section Read

variable {J : Type*} (env : Environment J)

/-- The inner loop of `read`: requests a step until it is done. `left` is
`retry_count - curr_try - 1`, the number of tries after this one. -/
def tryStep (step : ReadStep) : Nat → Nat → Round → Option (ReadStep × Round)
  | left, currTry, round =>
    let result := env.request step round.moment
    let now := env.seconds round.moment
    let round := round.record result
    match result with
    | .ok readResult => (step.getValue readResult now).map fun values => (step, round.push values)
    | .error .timeout | .error .deviceProtocolError =>
      -- the source compares after the try, so there is one in any case
      match left with
      | 0 => some (step, round.fail (step.fail now))
      | left + 1 => tryStep step left (currTry + 1) round
    | .error .socketFail => some (step, { round with flow := .socketFail })
    | .error .removeStep => some (step.markBroken, round.fail (step.fail now))
    | .error .headerMisMatch =>
      let action := if currTry > 0 then .increaseCurrent else .increasePrevious
      some (step, { round with flow := .headerMismatch action })

/-- One turn of the loop over the steps. A broken step is skipped. -/
def pollStep (retryCount : Nat) (step : ReadStep) (round : Round) : Option (ReadStep × Round) :=
  if step.broken then some (step, { round with failedSteps := round.failedSteps + 1 })
  else tryStep env step (retryCount - 1) 0 round

/-- The loop over the steps of one register type; it ends when the flow is broken. -/
def pollSteps (retryCount : Nat) : List ReadStep → Round → Option (List ReadStep × Round)
  | [], round => some ([], round)
  | step :: steps, round =>
    match round.flow with
    | .next => do
      let (step, round) ← pollStep env retryCount step round
      let (steps, round) ← pollSteps retryCount steps round
      return (step :: steps, round)
    -- the loop was left; the steps that follow keep their state
    | _ => some (step :: steps, round)

/-- The loop over the steps of a device, in the order of its iterator. -/
def pollPool (retryCount : Nat) (pool : PollValueIterator) (round : Round) :
    Option (PollValueIterator × Round) := do
  let (coils, round) ← pollSteps env retryCount pool.coils round
  let (discrete, round) ← pollSteps env retryCount pool.discrete round
  let (holding, round) ← pollSteps env retryCount pool.holding round
  let (input, round) ← pollSteps env retryCount pool.input round
  return (⟨coils, discrete, holding, input⟩, round)

end Read

namespace ReadMaster

def new (config : NodeRead) : ReadMaster where
  id := config.id
  ip := config.ip
  port := config.port.getD 502
  devices := []
  ctx := none
  currentDeviseIndex := none
  lastestDeviceIndex := none
  toController := []
  ctxState := .unConnected
  lastConnectingTime := 0
  moment := 0
  polls := []

/-! ## The connection -/

def send (s : ReadMaster) (msg : MainMsg) : ReadMaster :=
  { s with toController := s.toController ++ [msg] }

def sendConnectingMsg (s : ReadMaster) (msg : NodeEventType) : ReadMaster :=
  { s with ctxState := msg }.send (.event (.nodeEvent ⟨s.id, s.ip, msg⟩))

/-- `tcp::connect` starts with the slave of the device at the other end. -/
def connected : Context := ⟨255⟩

variable {J : Type*} (env : Environment J)

/-- The next attempt is in a minute. -/
def disconnecting (s : ReadMaster) : ReadMaster :=
  let s := { s with
    lastConnectingTime := addU64 (env.getTime s.moment) 60000, moment := s.moment + 1 }
  { s.sendConnectingMsg .unConnected with ctx := none }

def createContext (s : ReadMaster) : ReadMaster × Bool :=
  let s := { s with ctx := none }.sendConnectingMsg .connecting
  if env.parses (s.ip ++ ":" ++ toString s.port) then
    if env.connects s.moment then
      ({ s with ctx := some connected, moment := s.moment + 1 }.sendConnectingMsg .connected, true)
    else ({ s with moment := s.moment + 1 }.disconnecting env, false)
  else (s, false)

/-- The device gets more time. -/
def moreTime (s : ReadMaster) : Option Nat → Option ReadMaster
  | some idx => s.devices[idx]?.map fun device =>
    { s with devices := s.devices.set idx device.increaseTimeout }
  | none => some s

/-- A new connection clears what is left in the buffers. -/
def increaseTimeout (s : ReadMaster) (idx : Option Nat) : Option ReadMaster :=
  (s.moreTime idx).map fun s =>
    let created := (s.disconnecting env).createContext env
    if created.2 then created.1 else created.1.disconnecting env

/-! ## The devices -/

/-- One turn of the loop of `when_next_device`. -/
def lagging (best : Nat × Nat) (entry : ModbusDeviceUnit × Nat) : Nat × Nat :=
  if entry.1.whenNext < best.1 ∧ entry.1.isActive then (entry.1.whenNext, entry.2) else best

def whenNextDevice (s : ReadMaster) : Option (ReadMaster × Nat) := do
  let first ← s.devices[0]?
  let (whenNext, idx) := s.devices.zipIdx.foldl lagging (first.whenNext, 0)
  let device ← s.devices[idx]?
  return ({ s with currentDeviseIndex := some idx }, if device.isActive then whenNext else 1000)

/-- Asks until the database answers. -/
def getDevises (s : ReadMaster) : ReadMaster × List DeviceRead :=
  let (failures, devices) := env.devices s.moment
  let requests := List.replicate (failures + 1) (MainMsg.request (.getDeviceByNode s.id))
  ({ s with toController := s.toController ++ requests, moment := s.moment + 1 }, devices)

/-- A device whose values cannot be read is left out. -/
def getDeviceFromDb (s : ReadMaster) (deviceConfig : DeviceRead) :
    Option (ReadMaster × Option ModbusDeviceUnit) := do
  let device ← ModbusDeviceUnit.new deviceConfig (env.millis s.moment)
  -- one moment for the clock, one for the answer of the database
  let s := { s with moment := s.moment + 2 }.send (.request (.getValueByDeviceId device.id))
  match env.values (s.moment - 1) with
  | some values => return (s, some (← device.setValues env.settings values))
  | none => return (s, none)

def createUnits (s : ReadMaster) : List DeviceRead → Option (ReadMaster × List ModbusDeviceUnit)
  | [] => some (s, [])
  | config :: configs => do
    let (s, device) ← s.getDeviceFromDb env config
    let (s, units) ← s.createUnits configs
    return (s, device.toList ++ units)

/-- Whether there are devices; their list is replaced as a whole. -/
def createDevices (s : ReadMaster) : Option (ReadMaster × Bool) :=
  let (s, configs) := { s with devices := [] }.getDevises env
  if configs.isEmpty then some (s, false)
  else do
    let (s, devices) ← s.createUnits env configs
    let (s, _) ← { s with devices }.whenNextDevice
    return (s, true)

/-! ## Polling -/

/-- The report on a poll whose loop over the steps went through. -/
def report (device : ModbusDeviceUnit) (round : Round) : DeviceEvent where
  event := if round.failedSteps = 0 then .full
    else if round.failedSteps = device.totalSteps then .failed else .somePart
  id := device.id
  measures := round.totalResult

/-- The record of a poll. The moment at its start stands for the clock there. -/
def record (s : ReadMaster) (idx : Nat) (device : ModbusDeviceUnit) (round : Round) : Poll where
  index := idx
  devices := s.devices
  start := env.clock s.moment
  answers := round.answers
  finish := env.clock round.moment
  event := match round.flow with
    | .next => some (report device round)
    | _ => none

/-- The end of `read` after a mismatched header. -/
def headerMismatched (s : ReadMaster) (action : HeaderMismatchAction) : Option ReadMaster :=
  let prev := s.lastestDeviceIndex
  let s := { s with lastestDeviceIndex := s.currentDeviseIndex }
  match action with
  | .increaseCurrent => s.increaseTimeout env s.currentDeviseIndex
  | .increasePrevious => s.increaseTimeout env prev

/-- The end of `read` after a loop that went through. -/
def finished (s : ReadMaster) (idx : Nat) (device : ModbusDeviceUnit) (event : DeviceEvent) :
    Option ReadMaster :=
  (device.finished (env.millis s.moment)).map fun device =>
    { s with
      lastestDeviceIndex := s.currentDeviseIndex
      devices := s.devices.set idx device
      moment := s.moment + 1 }.send (.event (.deviceEvent event))

/-- `read`, once the device is known to be active and the connection to be there. -/
def poll (s : ReadMaster) (idx : Nat) (device : ModbusDeviceUnit) : Option ReadMaster := do
  let (valuePool, round) ← pollPool env (asU64 device.retryCount) device.valuePool
    ⟨s.moment + 1, [], 0, [], .next⟩
  -- the steps are marked in place, also if the loop is left early
  let polled := { device with valuePool }
  let s := { s with
    ctx := some ⟨device.slave⟩
    devices := s.devices.set idx polled
    moment := round.moment
    polls := s.polls ++ [s.record env idx device round] }
  match round.flow with
  | .socketFail => return s.disconnecting env
  | .headerMismatch action => s.headerMismatched env action
  | .next => s.finished env idx polled (report device round)

def read (s : ReadMaster) : Option ReadMaster :=
  match s.currentDeviseIndex with
  | none => some s
  | some idx =>
    match s.devices[idx]? with
    | none => none
    | some device => if device.isActive ∧ s.ctx.isSome then s.poll env idx device else some s

/-- The first half of `tick`: there are no devices, or they are there. -/
def withDevices (s : ReadMaster) : Option (ReadMaster × Bool) :=
  if s.devices.isEmpty then s.createDevices env else some (s, true)

/-- There is no connection, or it is there. -/
def withContext (s : ReadMaster) : ReadMaster × Bool :=
  if s.ctx.isNone then s.createContext env else (s, true)

def tick (s : ReadMaster) : Option ReadMaster :=
  (s.withDevices env).bind fun found =>
    if found.2 then
      let created := found.1.withContext env
      if created.2 then created.1.read env else some created.1
    else some found.1

/-- How long to sleep, in milliseconds. -/
def whenNext (s : ReadMaster) : Option (ReadMaster × Nat) :=
  let ts := env.getTime s.moment
  let s := { s with moment := s.moment + 1 }
  if s.devices.isEmpty then some (s, 60000)
  else if s.ctx.isNone then some (s, s.lastConnectingTime - ts)
  -- the pause of a second for inactive devices is taken for a deadline, too
  else s.whenNextDevice.map fun r => (r.1, r.2 - ts)

/-- The devices are read again in any case. -/
def update (s : ReadMaster) (conf : NodeRead) : Option ReadMaster := do
  let s := if s.ip ≠ conf.ip ∨ s.port ≠ conf.port.getD 502 then
      ({ s with ip := conf.ip, port := conf.port.getD 502 }.createContext env).1
    else s
  let (s, _) ← s.createDevices env
  return s

end ReadMaster

end ModbusLogger.Reader
