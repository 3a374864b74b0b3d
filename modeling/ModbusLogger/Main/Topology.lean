import ModbusLogger.Db.Worker.DbMaster
import ModbusLogger.Lib.Execution
import ModbusLogger.Reader.Structs

/-!
# The actors and their channels (`main.rs`)

The controller, the database worker, the reader and the loops of the nodes, with the channels between
them. Every send and every receive is a step of its own, so all interleavings are runs. A channel
holds `capacity` messages, and a sender waits for a free slot: its step does nothing until there is
one. No channel of `main` is ever closed, because an actor that falls ends the run.

Only what the actors do to each other is here. What a loop reads from its devices is left out, and of
what is logged nothing is kept.
-/

namespace ModbusLogger.Main

open Db

variable {J : Type}

/-- Of each `mpsc::channel`. -/
def capacity : Nat := 100

/-! ## Messages (`messages`) -/

/-- What the reader asks the database. -/
inductive Query where
  | getAllNodes
  | getByIp (nodeIp : String)
  | getDeviceByNode (nodeId : Int)
  | getByDeviceId (deviceId : Int)
  deriving DecidableEq, Repr

inductive Reply (J : Type) where
  | nodes (nodes : List NodeRead)
  | node (node : Option NodeRead)
  | devices (devices : List DeviceRead)
  | values (values : List (ValueRead J))
  deriving DecidableEq

/-- `get_all_node`, `get_by_ip`, `get_device_by_node_id` and `get_value_by_device_id` -/
def Query.reply (t : Tables J) : Query → Option (Reply J)
  | getAllNodes => (Read.nodes.exec t).map .nodes
  | getByIp nodeIp => ((Read.nodeByIp nodeIp).exec t).map .node
  | getDeviceByNode nodeId => ((Read.devicesByNode nodeId).exec t).map .devices
  | getByDeviceId deviceId => ((Read.valuesByDevice deviceId).exec t).map .values

/-- A request of the reader names the oneshot that brings the answer. Requests of the API are
answered to the API, except that those for measures pass through one more channel. -/
inductive Request where
  | reader (query : Query) (requestChannel : Nat)
  | getMeasure
  | api
  deriving DecidableEq, Repr

/-- Commands on users, groups and tokens do not touch what is here. -/
inductive CommandType (J : Type) where
  | config (command : Command J)
  | account

inductive MainMsg (J : Type) where
  | event (event : Reader.Event)
  | request (request : Request)
  | command (cmd : CommandType J)

/-- What the handlers of the API send. -/
inductive ApiMsg (J : Type) where
  | command (cmd : CommandType J)
  | getMeasure
  | request

def ApiMsg.toMain : ApiMsg J → MainMsg J
  | command cmd => .command cmd
  | getMeasure => .request .getMeasure
  | request => .request .api

/-! ## Where the actors are -/

/-- `run_data_master` selects or waits in one of its sends. -/
inductive DataMaster (J : Type) where
  | select
  | sendToDb (msg : MainMsg J)
  /-- An event goes to the API after that. -/
  | sendEventToDb (event : Reader.Event)
  | sendApi (event : Reader.Event)
  | sendToReader (event : ConfigEvent)

/-- `run_db_master` receives or waits in its send to the measures. -/
inductive DbMaster (J : Type) where
  | receive
  | sendMeasure (msg : MainMsg J)

/-- `node_master`: `init_nodes`, then its loop with `create_new_node`. -/
inductive NodeMaster (J : Type) where
  | sendGetAll
  | awaitNodes (rx : Nat)
  | select
  | sleep (node : NodeRead) (tryCounter : Nat)
  | sendGetByIp (node : NodeRead) (tryCounter : Nat)
  | awaitNode (node : NodeRead) (tryCounter : Nat) (rx : Nat)
  | forward (msg : MainMsg J)
  | panicked

/-- Who called `create_devices`. -/
inductive Caller where
  | update
  | tick
  deriving DecidableEq, Repr

/-- `node_loop` with the methods of its `ReadMaster`. -/
inductive LoopState (J : Type) where
  | select
  /-- `create_context` and `read`, which send events. -/
  | tick
  /-- `create_context` of an update. -/
  | connect
  | sendGetDevice (caller : Caller)
  | awaitDevices (caller : Caller) (rx : Nat)
  | sendGetValue (caller : Caller) (units : List (DeviceRead × List (ValueRead J)))
      (device : DeviceRead) (rest : List DeviceRead)
  | awaitValues (caller : Caller) (units : List (DeviceRead × List (ValueRead J)))
      (device : DeviceRead) (rest : List DeviceRead) (rx : Nat)
  deriving DecidableEq

/-- A loop with the part of its `ReadMaster` that comes from the database. A device unit is kept as
the rows that it was built from. `fromController` is what the broadcast still has for the loop. -/
structure NodeLoop (J : Type) where
  id : Int
  ip : String
  port : Int
  devices : List (DeviceRead × List (ValueRead J))
  fromController : List ConfigEvent
  state : LoopState J
  deriving DecidableEq

/-- `ReadMaster::new` -/
def NodeLoop.new (conf : NodeRead) : NodeLoop J :=
  ⟨conf.id, conf.ip, conf.port.getD 502, [], [], .select⟩

/-- `requests` are the tasks of requests of the reader. `answers` are the oneshots that are done:
`none` is an error of the database, or a sender that was dropped. -/
structure Topology (J : Type) where
  tables : Tables J
  tasks : List (Task J Unit)
  requests : List (Query × Nat)
  answers : List (Nat × Option (Reply J))
  nextChannel : Nat
  toApi : List (MainMsg J)
  fromApi : List (MainMsg J)
  fromReader : List (MainMsg J)
  toReader : List ConfigEvent
  toDb : List (MainMsg J)
  fromDb : List ConfigEvent
  measures : List (MainMsg J)
  fromNode : List (MainMsg J)
  dataMaster : DataMaster J
  dbMaster : DbMaster J
  nodeMaster : NodeMaster J
  loops : List (NodeLoop J)

namespace Topology

/-- After a start over the tables `t`. -/
def start (t : Tables J) : Topology J where
  tables := t
  tasks := []
  requests := []
  answers := []
  nextChannel := 0
  toApi := []
  fromApi := []
  fromReader := []
  toReader := []
  toDb := []
  fromDb := []
  measures := []
  fromNode := []
  dataMaster := .select
  dbMaster := .receive
  nodeMaster := .sendGetAll
  loops := []

/-! ## The controller (`data_master/data_master_loop.rs`) -/

/-- `from_api.recv()` -/
def dataMasterFromApi (s : Topology J) : Topology J :=
  match s.dataMaster, s.fromApi with
  | .select, msg :: rest =>
    match msg with
    | .request _ | .command _ => { s with fromApi := rest, dataMaster := .sendToDb msg }
    -- the API sends no events
    | .event _ => { s with fromApi := rest }
  | _, _ => s

/-- `from_reader.recv()` -/
def dataMasterFromReader (s : Topology J) : Topology J :=
  match s.dataMaster, s.fromReader with
  | .select, msg :: rest =>
    match msg with
    | .request _ => { s with fromReader := rest, dataMaster := .sendToDb msg }
    | .event event => { s with fromReader := rest, dataMaster := .sendEventToDb event }
    | .command _ => { s with fromReader := rest }
  | _, _ => s

/-- `from_db.recv()` -/
def dataMasterFromDb (s : Topology J) : Topology J :=
  match s.dataMaster, s.fromDb with
  | .select, event :: rest => { s with fromDb := rest, dataMaster := .sendToReader event }
  | _, _ => s

/-- The send that the controller waits in. -/
def dataMasterSends (s : Topology J) : Topology J :=
  match s.dataMaster with
  | .select => s
  | .sendToDb msg =>
    if s.toDb.length < capacity then { s with toDb := s.toDb ++ [msg], dataMaster := .select } else s
  | .sendEventToDb event =>
    if s.toDb.length < capacity then
      { s with toDb := s.toDb ++ [.event event], dataMaster := .sendApi event }
    else s
  | .sendApi event =>
    if s.toApi.length < capacity then
      { s with toApi := s.toApi ++ [.event event], dataMaster := .select }
    else s
  | .sendToReader event =>
    if s.toReader.length < capacity then
      { s with toReader := s.toReader ++ [event], dataMaster := .select }
    else s

/-! ## The database (`db/worker/db_master.rs`) -/

/-- `rx.recv()` -/
def dbMasterReceives (lib : Libraries J) (s : Topology J) : Topology J :=
  match s.dbMaster, s.toDb with
  | .receive, msg :: rest =>
    match msg with
    | .command (.config command) =>
      { s with toDb := rest, tasks := s.tasks ++ [command.task lib] }
    | .command .account | .request .api => { s with toDb := rest }
    | .request (.reader query rx) =>
      { s with toDb := rest, requests := s.requests ++ [(query, rx)] }
    | .request .getMeasure | .event (.deviceEvent _) =>
      { s with toDb := rest, dbMaster := .sendMeasure msg }
    | .event (.nodeEvent _) => { s with toDb := rest }
  | _, _ => s

def dbMasterSends (s : Topology J) : Topology J :=
  match s.dbMaster with
  | .receive => s
  | .sendMeasure msg =>
    if s.measures.length < capacity then
      { s with measures := s.measures ++ [msg], dbMaster := .receive }
    else s

/-- The next call of a command. An event waits for a slot on the way to the controller. -/
def advance (s : Topology J) (i : Nat) (fate : Fate) : Topology J :=
  match s.tasks[i]? with
  | some (.call (.send event) next) =>
    if s.fromDb.length < capacity then
      { s with fromDb := s.fromDb ++ [event], tasks := s.tasks.set i (next true) }
    else s
  | some (.call c next) =>
    { s with
      tables := (perform c fate s.tables).1
      tasks := s.tasks.set i (next (perform c fate s.tables).2) }
  | _ => s

/-- `run_db_with_timeout` drops a command. -/
def dropTask (s : Topology J) (i : Nat) : Topology J :=
  { s with tasks := s.tasks.set i (.done (.ok ())) }

/-- The read of a request, and its answer. -/
def answer (s : Topology J) (i : Nat) (fate : Fate) : Topology J :=
  match s.requests[i]? with
  | some (query, rx) =>
    { s with
      requests := s.requests.eraseIdx i
      answers := s.answers ++ [(rx, if fate.succeeds then query.reply s.tables else none)] }
  | none => s

/-- `run_db_with_timeout` drops a request with its oneshot. -/
def dropRequest (s : Topology J) (i : Nat) : Topology J :=
  match s.requests[i]? with
  | some (_, rx) =>
    { s with requests := s.requests.eraseIdx i, answers := s.answers ++ [(rx, none)] }
  | none => s

/-! ## The reader (`reader/reader_loop/reading_loop/read_loop.rs`) -/

/-- `send_to_workers`: everyone who listens has one message more to receive. -/
def sendToWorkers (s : Topology J) (signal : ConfigEvent) : Topology J :=
  { s with loops := s.loops.map fun l => { l with fromController := l.fromController ++ [signal] } }

/-- `from_controller.recv()` -/
def nodeMasterFromController (s : Topology J) : Topology J :=
  match s.nodeMaster, s.toReader with
  | .select, msg :: rest =>
    match msg.eventType with
    | .create => { s with toReader := rest, nodeMaster := .sleep msg.data 0 }
    | .update | .delete => { s with toReader := rest }.sendToWorkers msg
  | _, _ => s

/-- `from_node_rx.recv()` -/
def nodeMasterFromNode (s : Topology J) : Topology J :=
  match s.nodeMaster, s.fromNode with
  | .select, msg :: rest =>
    match msg with
    | .event _ | .request _ => { s with fromNode := rest, nodeMaster := .forward msg }
    | .command _ => { s with fromNode := rest }
  | _, _ => s

/-- 50 ms are over. -/
def nodeMasterWakes (s : Topology J) : Topology J :=
  match s.nodeMaster with
  | .sleep node tryCounter => { s with nodeMaster := .sendGetByIp node tryCounter }
  | _ => s

/-- A request of the reader with a new oneshot. -/
def request (s : Topology J) (query : Query) : MainMsg J := .request (.reader query s.nextChannel)

/-- The send that `node_master` waits in. -/
def nodeMasterSends (s : Topology J) : Topology J :=
  if s.fromReader.length < capacity then
    match s.nodeMaster with
    | .sendGetAll =>
      { s with
        fromReader := s.fromReader ++ [s.request .getAllNodes]
        nextChannel := s.nextChannel + 1
        nodeMaster := .awaitNodes s.nextChannel }
    | .sendGetByIp node tryCounter =>
      { s with
        fromReader := s.fromReader ++ [s.request (.getByIp node.ip)]
        nextChannel := s.nextChannel + 1
        nodeMaster := .awaitNode node tryCounter s.nextChannel }
    | .forward msg => { s with fromReader := s.fromReader ++ [msg], nodeMaster := .select }
    | _ => s
  else s

/-- After a lookup without a node there is another one, up to five of them. -/
def retry (node : NodeRead) (tryCounter : Nat) : NodeMaster J :=
  if tryCounter + 1 = 5 then .select else .sleep node (tryCounter + 1)

/-- `rx.await` -/
def nodeMasterHears (s : Topology J) : Topology J :=
  match s.nodeMaster with
  | .awaitNodes rx =>
    match s.answers.lookup rx with
    | some (some (.nodes nodes)) =>
      { s with loops := s.loops ++ nodes.map .new, nodeMaster := .select }
    | some _ => { s with nodeMaster := .panicked }
    | none => s
  | .awaitNode node tryCounter rx =>
    match s.answers.lookup rx with
    | some (some (.node (some nodeRead))) =>
      { s with loops := s.loops ++ [.new nodeRead], nodeMaster := .select }
    | some _ => { s with nodeMaster := retry node tryCounter }
    | none => s
  | _ => s

end Topology

/-! ## The loops of the nodes (`read_master.rs`, `read_master_struct.rs`) -/

/-- What a loop does apart from its sends. -/
inductive LoopAction where
  | receive
  | elapsed
  | finish
  | panic
  | hear
  deriving DecidableEq, Repr

/-- The message that a loop receives; `none` is the error of a receiver that lags. All messages but
the last `backlog` ones are lost then. -/
def NodeLoop.recv? (backlog : Nat) (l : NodeLoop J) : Option (Option ConfigEvent × NodeLoop J) :=
  if backlog < l.fromController.length then
    let kept := l.fromController.drop (l.fromController.length - backlog)
    some (none, { l with fromController := kept })
  else
    match l.fromController with
    | [] => none
    | msg :: rest => some (some msg, { l with fromController := rest })

/-- `ReadMaster::update`: a new address is connected to before the devices are read. -/
def NodeLoop.update (l : NodeLoop J) (conf : NodeRead) : NodeLoop J :=
  if l.ip ≠ conf.ip ∨ l.port ≠ conf.port.getD 502 then
    { l with ip := conf.ip, port := conf.port.getD 502, state := .connect }
  else { l with devices := [], state := .sendGetDevice .update }

/-- What a message makes of a loop; `none` is its end. -/
def NodeLoop.handle (l : NodeLoop J) (msg : ConfigEvent) : Option (NodeLoop J) :=
  match msg.eventType with
  | .update => some (if msg.data.id = l.id then l.update msg.data else l)
  | .delete => if msg.data.id = l.id then none else some l
  | .create => some l

/-- `tick` reads the devices as long as there are none. -/
def NodeLoop.tick (l : NodeLoop J) : NodeLoop J :=
  if l.devices.isEmpty then { l with state := .sendGetDevice .tick } else { l with state := .tick }

/-- The end of `create_devices`. There are devices, so `when_next_device` looks at the first unit, and
the loop panics if there is none. -/
def NodeLoop.created (l : NodeLoop J) (caller : Caller) (units : List (DeviceRead × List (ValueRead J))) :
    Option (NodeLoop J) :=
  match units, caller with
  | [], _ => none
  | units, .update => some { l with devices := units, state := .select }
  | units, .tick => some { l with devices := units, state := .tick }

/-- The values of the next device. -/
def NodeLoop.next (l : NodeLoop J) (caller : Caller) (units : List (DeviceRead × List (ValueRead J))) :
    List DeviceRead → Option (NodeLoop J)
  | [] => l.created caller units
  | device :: rest => some { l with state := .sendGetValue caller units device rest }

/-- An answer to a request of the loop. -/
def NodeLoop.hear (l : NodeLoop J) (reply : Option (Reply J)) : Option (NodeLoop J) :=
  match l.state with
  | .awaitDevices caller _ =>
    match reply with
    | some (.devices []) => some { l with state := .select }
    | some (.devices devices) => l.next caller [] devices
    -- without end: the counter of `get_devises` is only logged
    | _ => some { l with state := .sendGetDevice caller }
  | .awaitValues caller units device rest _ =>
    match reply with
    | some (.values values) => l.next caller (units ++ [(device, values)]) rest
    | _ => l.next caller units rest
  | _ => some l

/-- The oneshot that a loop waits for. -/
def NodeLoop.rx? (l : NodeLoop J) : Option Nat :=
  match l.state with
  | .awaitDevices _ rx | .awaitValues _ _ _ _ rx => some rx
  | _ => none

/-- `none` if the loop has nothing to do, and otherwise what becomes of it. -/
def NodeLoop.turn (backlog : Nat) (l : NodeLoop J) (answers : List (Nat × Option (Reply J))) :
    LoopAction → Option (Option (NodeLoop J))
  | .receive =>
    match l.state, l.recv? backlog with
    | .select, some (some msg, l) => some (l.handle msg)
    | .select, some (none, l) => some (some l)
    | _, _ => none
  | .elapsed =>
    match l.state with
    | .select => some (some l.tick)
    | _ => none
  | .finish =>
    match l.state with
    | .tick => some (some { l with state := .select })
    | .connect => some (some { l with devices := [], state := .sendGetDevice .update })
    | _ => none
  | .panic =>
    match l.state with
    | .tick => some none
    | _ => none
  | .hear => (l.rx?.bind fun rx => answers.lookup rx).map l.hear

/-- What a loop asks next, and where it waits for the answer. -/
def NodeLoop.ask? (l : NodeLoop J) (rx : Nat) : Option (Query × NodeLoop J) :=
  match l.state with
  | .sendGetDevice caller =>
    some (.getDeviceByNode l.id, { l with state := .awaitDevices caller rx })
  | .sendGetValue caller units device rest =>
    some (.getByDeviceId device.id, { l with state := .awaitValues caller units device rest rx })
  | _ => none

/-- Whether the loop is where it sends events. -/
def NodeLoop.sendsEvents (l : NodeLoop J) : Bool :=
  match l.state with
  | .tick | .connect => true
  | _ => false

namespace Topology

/-- The loop `i` after its turn, or without it. -/
def setLoop (s : Topology J) (i : Nat) : Option (NodeLoop J) → Topology J
  | some l => { s with loops := s.loops.set i l }
  | none => { s with loops := s.loops.eraseIdx i }

def loopTurns (lib : Libraries J) (s : Topology J) (i : Nat) (act : LoopAction) : Topology J :=
  match s.loops[i]?.bind fun l => l.turn lib.backlog s.answers act with
  | some l => s.setLoop i l
  | none => s

def loopSendsEvent (s : Topology J) (i : Nat) (event : Reader.Event) : Topology J :=
  if (s.loops[i]?.any NodeLoop.sendsEvents) ∧ s.fromNode.length < capacity then
    { s with fromNode := s.fromNode ++ [.event event] }
  else s

def loopSendsRequest (s : Topology J) (i : Nat) : Topology J :=
  if s.fromNode.length < capacity then
    match s.loops[i]?.bind fun l => l.ask? s.nextChannel with
    | some (query, l) =>
      { s with
        fromNode := s.fromNode ++ [s.request query]
        nextChannel := s.nextChannel + 1
        loops := s.loops.set i l }
    | none => s
  else s

end Topology

/-! ## Runs -/

/-- Everything that may happen next. -/
inductive Action (J : Type) where
  | apiSends (msg : ApiMsg J)
  | apiReceives
  | dataMasterFromApi
  | dataMasterFromReader
  | dataMasterFromDb
  | dataMasterSends
  | dbMasterReceives
  | dbMasterSends
  | measuresReceive
  | advance (i : Nat) (fate : Fate)
  | dropTask (i : Nat)
  | answer (i : Nat) (fate : Fate)
  | dropRequest (i : Nat)
  | nodeMasterFromController
  | nodeMasterFromNode
  | nodeMasterWakes
  | nodeMasterSends
  | nodeMasterHears
  | loop (i : Nat) (act : LoopAction)
  | loopSendsEvent (i : Nat) (event : Reader.Event)
  | loopSendsRequest (i : Nat)

namespace Topology

def step (lib : Libraries J) (s : Topology J) : Action J → Topology J
  | .apiSends msg =>
    if s.fromApi.length < capacity then { s with fromApi := s.fromApi ++ [msg.toMain] } else s
  | .apiReceives => { s with toApi := s.toApi.tail }
  | .dataMasterFromApi => s.dataMasterFromApi
  | .dataMasterFromReader => s.dataMasterFromReader
  | .dataMasterFromDb => s.dataMasterFromDb
  | .dataMasterSends => s.dataMasterSends
  | .dbMasterReceives => s.dbMasterReceives lib
  | .dbMasterSends => s.dbMasterSends
  | .measuresReceive => { s with measures := s.measures.tail }
  | .advance i fate => s.advance i fate
  | .dropTask i => s.dropTask i
  | .answer i fate => s.answer i fate
  | .dropRequest i => s.dropRequest i
  | .nodeMasterFromController => s.nodeMasterFromController
  | .nodeMasterFromNode => s.nodeMasterFromNode
  | .nodeMasterWakes => s.nodeMasterWakes
  | .nodeMasterSends => s.nodeMasterSends
  | .nodeMasterHears => s.nodeMasterHears
  | .loop i act => s.loopTurns lib i act
  | .loopSendsEvent i event => s.loopSendsEvent i event
  | .loopSendsRequest i => s.loopSendsRequest i

/-- The state after some actions. -/
def run (lib : Libraries J) (t : Tables J) (actions : List (Action J)) : Topology J :=
  Execution.after (step lib) (start t) actions

/-! ## Parts of runs -/

/-- The reader loads the nodes. -/
def startUp : List (Action Unit) :=
  [.nodeMasterSends, .dataMasterFromReader, .dataMasterSends, .dbMasterReceives,
    .answer 0 .success, .nodeMasterHears]

/-- A command of the API reaches the database. -/
def handed (command : Command Unit) : List (Action Unit) :=
  [.apiSends (.command (.config command)), .dataMasterFromApi, .dataMasterSends, .dbMasterReceives]

def calls (i n : Nat) : List (Action Unit) := List.replicate n (.advance i .success)

end Topology

end ModbusLogger.Main
