import Mathlib.Algebra.Order.Group.Multiset
import ModbusLogger.Main.Topology

/-!
# What is on the way between the actors

`Net` forgets how far a message has come. Requests of the reader are on the way until a task answers
them, and config events until the reader takes them, in any order. Messages of the API are left out,
and so are events. Every step of the actors is a step of the net, so what all steps of the net keep
holds in every run.
-/

namespace ModbusLogger.Main

open Db

variable {J : Type}

/-! ## The net -/

structure Net (J : Type) where
  tables : Tables J
  tasks : List (Task J Unit)
  sent : Multiset (Query × Nat)
  requests : List (Query × Nat)
  answers : List (Nat × Option (Reply J))
  nextChannel : Nat
  events : Multiset ConfigEvent
  nodeMaster : NodeMaster J
  loops : List (NodeLoop J)

namespace Net

def setLoop (n : Net J) (i : Nat) : Option (NodeLoop J) → Net J
  | some l => { n with loops := n.loops.set i l }
  | none => { n with loops := n.loops.eraseIdx i }

/-- A request with a new oneshot. -/
def ask (n : Net J) (query : Query) : Net J :=
  { n with sent := (query, n.nextChannel) ::ₘ n.sent, nextChannel := n.nextChannel + 1 }

/-- What an action does to the net. An action that has to wait does nothing. -/
inductive Step (lib : Libraries J) (n : Net J) : Action J → Net J → Prop where
  | stutter (a : Action J) : Step lib n a n
  | spawn (command : Command J) :
      Step lib n .dbMasterReceives { n with tasks := n.tasks ++ [command.task lib] }
  | receive {query : Query} {rx : Nat} {sent : Multiset (Query × Nat)}
      (received : n.sent = (query, rx) ::ₘ sent) :
      Step lib n .dbMasterReceives { n with sent, requests := n.requests ++ [(query, rx)] }
  | call {i : Nat} {c : Call J} {next : c.Answer → Task J Unit} (fate : Fate)
      (task : n.tasks[i]? = some (.call c next)) (hc : ∀ event, c ≠ .send event) :
      Step lib n (.advance i fate) { n with
        tables := (perform c fate n.tables).1
        tasks := n.tasks.set i (next (perform c fate n.tables).2) }
  | send {i : Nat} {event : ConfigEvent} {next : Bool → Task J Unit} (fate : Fate)
      (task : n.tasks[i]? = some (.call (.send event) next)) :
      Step lib n (.advance i fate) { n with
        events := event ::ₘ n.events
        tasks := n.tasks.set i (next true) }
  | dropTask (i : Nat) :
      Step lib n (.dropTask i) { n with tasks := n.tasks.set i (.done (.ok ())) }
  | answer {i : Nat} {query : Query} {rx : Nat} (fate : Fate)
      (request : n.requests[i]? = some (query, rx)) :
      Step lib n (.answer i fate) { n with
        requests := n.requests.eraseIdx i
        answers := n.answers ++ [(rx, if fate.succeeds then query.reply n.tables else none)] }
  | dropRequest {i : Nat} {query : Query} {rx : Nat}
      (request : n.requests[i]? = some (query, rx)) :
      Step lib n (.dropRequest i) { n with
        requests := n.requests.eraseIdx i
        answers := n.answers ++ [(rx, none)] }
  | create {data : NodeRead} {events : Multiset ConfigEvent} (select : n.nodeMaster = .select)
      (taken : n.events = ⟨.create, data⟩ ::ₘ events) :
      Step lib n .nodeMasterFromController { n with events, nodeMaster := .sleep data 0 }
  | sendToWorkers {msg : ConfigEvent} {events : Multiset ConfigEvent}
      (select : n.nodeMaster = .select) (taken : n.events = msg ::ₘ events)
      (passed : msg.eventType ≠ .create) :
      Step lib n .nodeMasterFromController { n with
        events
        loops := n.loops.map fun l => { l with fromController := l.fromController ++ [msg] } }
  | wake {node : NodeRead} {tryCounter : Nat} (sleeps : n.nodeMaster = .sleep node tryCounter) :
      Step lib n .nodeMasterWakes { n with nodeMaster := .sendGetByIp node tryCounter }
  | askAll (asks : n.nodeMaster = .sendGetAll) :
      Step lib n .nodeMasterSends
        { n.ask .getAllNodes with nodeMaster := .awaitNodes n.nextChannel }
  | askByIp {node : NodeRead} {tryCounter : Nat}
      (asks : n.nodeMaster = .sendGetByIp node tryCounter) :
      Step lib n .nodeMasterSends
        { n.ask (.getByIp node.ip) with
          nodeMaster := .awaitNode node tryCounter n.nextChannel }
  | hearNodes {rx : Nat} {nodes : List NodeRead} (awaits : n.nodeMaster = .awaitNodes rx)
      (answered : n.answers.lookup rx = some (some (.nodes nodes))) :
      Step lib n .nodeMasterHears
        { n with loops := n.loops ++ nodes.map .new, nodeMaster := .select }
  | panic {rx : Nat} {reply : Option (Reply J)} (awaits : n.nodeMaster = .awaitNodes rx)
      (answered : n.answers.lookup rx = some reply) (failed : ∀ nodes, reply ≠ some (.nodes nodes)) :
      Step lib n .nodeMasterHears { n with nodeMaster := .panicked }
  | hearNode {node nodeRead : NodeRead} {tryCounter rx : Nat}
      (awaits : n.nodeMaster = .awaitNode node tryCounter rx)
      (answered : n.answers.lookup rx = some (some (.node (some nodeRead)))) :
      Step lib n .nodeMasterHears
        { n with loops := n.loops ++ [.new nodeRead], nodeMaster := .select }
  | retry {node : NodeRead} {tryCounter rx : Nat} {reply : Option (Reply J)}
      (awaits : n.nodeMaster = .awaitNode node tryCounter rx)
      (answered : n.answers.lookup rx = some reply)
      (failed : ∀ nodeRead, reply ≠ some (.node (some nodeRead))) :
      Step lib n .nodeMasterHears { n with nodeMaster := Topology.retry node tryCounter }
  | turn {i : Nat} {l : NodeLoop J} {l' : Option (NodeLoop J)} (act : LoopAction)
      (loop : n.loops[i]? = some l) (turns : l.turn lib.backlog n.answers act = some l') :
      Step lib n (.loop i act) (n.setLoop i l')
  | loopAsk {i : Nat} {l l' : NodeLoop J} {query : Query} (loop : n.loops[i]? = some l)
      (asks : l.ask? n.nextChannel = some (query, l')) :
      Step lib n (.loopSendsRequest i) { n.ask query with loops := n.loops.set i l' }

theorem Step.of_eq {lib : Libraries J} {n n' : Net J} (h : n' = n) (a : Action J) :
    Step lib n a n' := by
  rw [h]
  exact .stutter a

end Net

/-! ## Turns of a loop -/

namespace NodeLoop

/-- Everything that a turn can be. -/
inductive Turns (backlog : Nat) (l : NodeLoop J) (answers : List (Nat × Option (Reply J))) :
    LoopAction → Option (NodeLoop J) → Prop where
  | lag (select : l.state = .select) (lags : backlog < l.fromController.length) :
      Turns backlog l answers .receive (some { l with
        fromController := l.fromController.drop (l.fromController.length - backlog) })
  | foreign {msg : ConfigEvent} {rest : List ConfigEvent} (select : l.state = .select)
      (received : l.fromController = msg :: rest)
      (other : msg.data.id = l.id → msg.eventType = .create) :
      Turns backlog l answers .receive (some { l with fromController := rest })
  | update {data : NodeRead} {rest : List ConfigEvent} (select : l.state = .select)
      (received : l.fromController = ⟨.update, data⟩ :: rest) (own : data.id = l.id) :
      Turns backlog l answers .receive (some ({ l with fromController := rest }.update data))
  | delete {data : NodeRead} {rest : List ConfigEvent} (select : l.state = .select)
      (received : l.fromController = ⟨.delete, data⟩ :: rest) (own : data.id = l.id) :
      Turns backlog l answers .receive none
  | elapsed (select : l.state = .select) : Turns backlog l answers .elapsed (some l.tick)
  | ticked (state : l.state = .tick) :
      Turns backlog l answers .finish (some { l with state := .select })
  | connected (state : l.state = .connect) :
      Turns backlog l answers .finish (some { l with devices := [], state := .sendGetDevice .update })
  | panic (state : l.state = .tick) : Turns backlog l answers .panic none
  | hear {rx : Nat} {reply : Option (Reply J)} (awaits : l.rx? = some rx)
      (answered : answers.lookup rx = some reply) :
      Turns backlog l answers .hear (l.hear reply)

variable {backlog : Nat} {l : NodeLoop J} {answers : List (Nat × Option (Reply J))} {act : LoopAction}
  {l' : Option (NodeLoop J)}

theorem turns_receive (h : l.turn backlog answers .receive = some l') :
    l.Turns backlog answers .receive l' := by
  unfold turn recv? at h
  dsimp only at h
  split at h
  · next msg l₁ hselect hrecv =>
      split at hrecv
      · cases hrecv
      · split at hrecv
        · cases hrecv
        · next msg' rest hreceived =>
            cases hrecv
            cases h
            obtain ⟨eventType, data⟩ := msg
            by_cases hown : data.id = l.id
            · cases eventType with
              | create => exact .foreign hselect hreceived fun _ => rfl
              | update =>
                  simp only [handle, hown, if_true]
                  exact .update hselect hreceived hown
              | delete =>
                  simp only [handle, hown, if_true]
                  exact .delete hselect hreceived hown
            · have hhandle : handle { l with fromController := rest } ⟨eventType, data⟩ =
                  some { l with fromController := rest } := by
                cases eventType <;> simp [handle, hown]
              rw [hhandle]
              exact .foreign hselect hreceived fun h => absurd h hown
  · next l₁ hselect hrecv =>
      split at hrecv
      · next hlags =>
          cases hrecv
          cases h
          exact .lag hselect hlags
      · split at hrecv <;> cases hrecv
  · cases h

theorem turns_of_turn (h : l.turn backlog answers act = some l') : l.Turns backlog answers act l' := by
  cases act with
  | receive => exact turns_receive h
  | elapsed =>
      unfold turn at h
      dsimp only at h
      split at h
      · next hselect =>
          cases h
          exact .elapsed hselect
      · cases h
  | finish =>
      unfold turn at h
      dsimp only at h
      split at h
      · next hstate =>
          cases h
          exact .ticked hstate
      · next hstate =>
          cases h
          exact .connected hstate
      · cases h
  | panic =>
      unfold turn at h
      dsimp only at h
      split at h
      · next hstate =>
          cases h
          exact .panic hstate
      · cases h
  | hear =>
      obtain ⟨reply, hreply, rfl⟩ := Option.map_eq_some_iff.mp h
      obtain ⟨rx, hrx, hanswered⟩ := Option.bind_eq_some_iff.mp hreply
      exact .hear hrx hanswered

end NodeLoop

/-! ## The net of the actors -/

/-- A request of the reader. -/
def MainMsg.reader? : MainMsg J → Option (Query × Nat)
  | .request (.reader query rx) => some (query, rx)
  | _ => none

/-- The requests of the reader among some messages. -/
def requestsIn (msgs : List (MainMsg J)) : Multiset (Query × Nat) :=
  (msgs.filterMap MainMsg.reader? : List (Query × Nat))

@[simp] theorem requestsIn_nil : requestsIn ([] : List (MainMsg J)) = 0 := rfl

theorem requestsIn_append (msgs msgs' : List (MainMsg J)) :
    requestsIn (msgs ++ msgs') = requestsIn msgs + requestsIn msgs' := by
  simp [requestsIn]

theorem requestsIn_cons (msg : MainMsg J) (msgs : List (MainMsg J)) :
    requestsIn (msg :: msgs) = requestsIn [msg] + requestsIn msgs :=
  requestsIn_append [msg] msgs

@[simp] theorem requestsIn_event (event : Reader.Event) :
    requestsIn [(.event event : MainMsg J)] = 0 := rfl

@[simp] theorem requestsIn_command (cmd : CommandType J) : requestsIn [.command cmd] = 0 := rfl

@[simp] theorem requestsIn_getMeasure : requestsIn [(.request .getMeasure : MainMsg J)] = 0 := rfl

@[simp] theorem requestsIn_api : requestsIn [(.request .api : MainMsg J)] = 0 := rfl

@[simp] theorem requestsIn_reader (query : Query) (rx : Nat) :
    requestsIn [(.request (.reader query rx) : MainMsg J)] = {(query, rx)} := rfl

@[simp] theorem requestsIn_toMain (msg : ApiMsg J) : requestsIn [msg.toMain] = 0 := by
  cases msg <;> rfl

/-- What the controller holds. -/
def DataMaster.msgs : DataMaster J → List (MainMsg J)
  | .sendToDb msg => [msg]
  | _ => []

def DataMaster.configEvents : DataMaster J → Multiset ConfigEvent
  | .sendToReader event => {event}
  | _ => 0

/-- What `node_master` holds. -/
def NodeMaster.msgs : NodeMaster J → List (MainMsg J)
  | .forward msg => [msg]
  | _ => []

/-- Without the message that it forwards. -/
def NodeMaster.settled : NodeMaster J → NodeMaster J
  | .forward _ => .select
  | nodeMaster => nodeMaster

namespace Topology

def net (s : Topology J) : Net J where
  tables := s.tables
  tasks := s.tasks
  sent := requestsIn s.fromApi + requestsIn s.fromNode + requestsIn s.nodeMaster.msgs +
    requestsIn s.fromReader + requestsIn s.dataMaster.msgs + requestsIn s.toDb
  requests := s.requests
  answers := s.answers
  nextChannel := s.nextChannel
  events := (s.fromDb : Multiset ConfigEvent) + s.dataMaster.configEvents + s.toReader
  nodeMaster := s.nodeMaster.settled
  loops := s.loops

variable {s : Topology J} {lib : Libraries J}

/-! ### The controller -/

theorem dataMasterFromApi_net : s.dataMasterFromApi.net = s.net := by
  unfold dataMasterFromApi
  split
  · next msg rest hselect hfromApi =>
      have hsent : requestsIn s.fromApi = requestsIn [msg] + requestsIn rest := by
        rw [hfromApi, requestsIn_cons]
      split
      · simp only [net, hselect, hsent, DataMaster.msgs, DataMaster.configEvents, requestsIn_nil]
        congr 1
        abel
      · simp only [net, hselect, hsent, DataMaster.msgs, DataMaster.configEvents, requestsIn_nil,
          requestsIn_command, zero_add]
      · simp only [net, hselect, hsent, DataMaster.msgs, requestsIn_event, zero_add]
  · rfl

theorem dataMasterFromReader_net : s.dataMasterFromReader.net = s.net := by
  unfold dataMasterFromReader
  split
  · next msg rest hselect hfromReader =>
      have hsent : requestsIn s.fromReader = requestsIn [msg] + requestsIn rest := by
        rw [hfromReader, requestsIn_cons]
      split
      · simp only [net, hselect, hsent, DataMaster.msgs, DataMaster.configEvents, requestsIn_nil]
        congr 1
        abel
      · simp only [net, hselect, hsent, DataMaster.msgs, DataMaster.configEvents, requestsIn_event,
          zero_add]
      · simp only [net, hselect, hsent, DataMaster.msgs, requestsIn_command, zero_add]
  · rfl

theorem dataMasterFromDb_net : s.dataMasterFromDb.net = s.net := by
  unfold dataMasterFromDb
  split
  · next event rest hselect hfromDb =>
      simp only [net, hselect, hfromDb, DataMaster.msgs, DataMaster.configEvents,
        ← Multiset.cons_coe, ← Multiset.singleton_add]
      congr 1
      abel
  · rfl

theorem dataMasterSends_net : s.dataMasterSends.net = s.net := by
  unfold dataMasterSends
  split
  · rfl
  · next msg hsends =>
      split
      · simp only [net, hsends, DataMaster.msgs, DataMaster.configEvents, requestsIn_append,
          requestsIn_nil]
        congr 1
        abel
      · rfl
  · next event hsends =>
      split
      · simp only [net, hsends, DataMaster.msgs, DataMaster.configEvents, requestsIn_append,
          requestsIn_event, add_zero]
      · rfl
  · next event hsends =>
      split
      · simp only [net, hsends, DataMaster.msgs, DataMaster.configEvents]
      · rfl
  · next event hsends =>
      split
      · simp only [net, hsends, DataMaster.msgs, DataMaster.configEvents, ← Multiset.coe_add,
          Multiset.coe_singleton]
        congr 1
        abel
      · rfl

/-! ### The database -/

theorem dbMasterReceives_net :
    (s.net).Step lib .dbMasterReceives (s.dbMasterReceives lib).net := by
  unfold dbMasterReceives
  split
  · next msg rest _ htoDb =>
      have hsent : requestsIn s.toDb = requestsIn [msg] + requestsIn rest := by
        rw [htoDb, requestsIn_cons]
      have hquiet (hmsg : requestsIn [msg] = 0) (dbMaster : DbMaster J) :
          { s with toDb := rest, dbMaster }.net = s.net := by
        simp only [net, hsent, hmsg, zero_add]
      split
      · next command =>
          have hspawn : { s with toDb := rest, tasks := s.tasks ++ [command.task lib] }.net =
              { s.net with tasks := s.tasks ++ [command.task lib] } := by
            simp only [net, hsent, requestsIn_command, zero_add]
          rw [hspawn]
          exact .spawn command
      · exact .of_eq (hquiet rfl _) _
      · exact .of_eq (hquiet rfl _) _
      · next query rx =>
          apply Net.Step.receive
          simp only [net, hsent, requestsIn_reader, ← Multiset.singleton_add]
          abel
      · exact .of_eq (hquiet rfl _) _
      · exact .of_eq (hquiet rfl _) _
      · exact .of_eq (hquiet rfl _) _
  · exact .stutter _

theorem dbMasterSends_net : s.dbMasterSends.net = s.net := by
  unfold dbMasterSends
  split
  · rfl
  · split <;> rfl

theorem advance_net (i : Nat) (fate : Fate) :
    (s.net).Step lib (.advance i fate) (s.advance i fate).net := by
  unfold advance
  split
  · next event next htask =>
      split
      · have hsend : { s with fromDb := s.fromDb ++ [event], tasks := s.tasks.set i (next true) }.net =
            { s.net with events := event ::ₘ s.net.events, tasks := s.tasks.set i (next true) } := by
          simp only [net, ← Multiset.coe_add, Multiset.coe_singleton, ← Multiset.singleton_add]
          congr 1
          abel
        rw [hsend]
        exact .send fate htask
      · exact .stutter _
  · next c next hc htask =>
      apply Net.Step.call fate htask
      rintro event rfl
      exact hc event next rfl .rfl
  · exact .stutter _

theorem answer_net (i : Nat) (fate : Fate) :
    (s.net).Step lib (.answer i fate) (s.answer i fate).net := by
  unfold answer
  split
  · next query rx hrequest => exact .answer fate hrequest
  · exact .stutter _

theorem dropRequest_net (i : Nat) : (s.net).Step lib (.dropRequest i) (s.dropRequest i).net := by
  unfold dropRequest
  split
  · next query rx hrequest => exact .dropRequest hrequest
  · exact .stutter _

/-! ### The reader and the loops -/

theorem nodeMasterFromController_net :
    (s.net).Step lib .nodeMasterFromController s.nodeMasterFromController.net := by
  unfold nodeMasterFromController
  split
  · next msg rest hselect htoReader =>
      have hsettled : s.net.nodeMaster = .select := by
        show s.nodeMaster.settled = .select
        rw [hselect]
        rfl
      have hevents : s.net.events =
          msg ::ₘ ((s.fromDb : Multiset ConfigEvent) + s.dataMaster.configEvents + rest) := by
        simp only [net, htoReader, ← Multiset.cons_coe, ← Multiset.singleton_add]
        abel
      split
      · next hcreate =>
          have hnet : { s with toReader := rest, nodeMaster := .sleep msg.data 0 }.net =
              { s.net with
                events := (s.fromDb : Multiset ConfigEvent) + s.dataMaster.configEvents + rest
                nodeMaster := .sleep msg.data 0 } := by
            simp only [net, hselect, NodeMaster.msgs, NodeMaster.settled]
          rw [hnet]
          apply Net.Step.create hsettled
          rw [hevents, ← hcreate]
      · next hupdate =>
          apply Net.Step.sendToWorkers hsettled hevents
          rw [hupdate]
          exact nofun
      · next hdelete =>
          apply Net.Step.sendToWorkers hsettled hevents
          rw [hdelete]
          exact nofun
  · exact .stutter _

theorem nodeMasterFromNode_net : s.nodeMasterFromNode.net = s.net := by
  unfold nodeMasterFromNode
  split
  · next msg rest hselect hfromNode =>
      have hsent : requestsIn s.fromNode = requestsIn [msg] + requestsIn rest := by
        rw [hfromNode, requestsIn_cons]
      split
      · simp only [net, hselect, hsent, NodeMaster.msgs, NodeMaster.settled, requestsIn_event,
          requestsIn_nil, zero_add]
      · simp only [net, hselect, hsent, NodeMaster.msgs, NodeMaster.settled, requestsIn_nil]
        congr 1
        abel
      · simp only [net, hselect, hsent, requestsIn_command, zero_add]
  · rfl

theorem settled_eq {nodeMaster : NodeMaster J} (h : s.nodeMaster = nodeMaster) :
    s.net.nodeMaster = nodeMaster.settled := by
  rw [← h]
  rfl

/-- `node_master` goes on, and holds no message. -/
theorem net_nodeMaster (h : s.nodeMaster.msgs = []) (nodeMaster : NodeMaster J)
    (h' : nodeMaster.msgs = []) (loops : List (NodeLoop J)) :
    { s with nodeMaster, loops }.net = { s.net with nodeMaster := nodeMaster.settled, loops } := by
  simp only [net, h, h']

theorem nodeMasterWakes_net : (s.net).Step lib .nodeMasterWakes s.nodeMasterWakes.net := by
  unfold nodeMasterWakes
  split
  · next node tryCounter hsleeps =>
      rw [net_nodeMaster (by rw [hsleeps]; rfl) (.sendGetByIp node tryCounter) rfl]
      exact .wake (settled_eq hsleeps)
  · exact .stutter _

theorem nodeMasterSends_net : (s.net).Step lib .nodeMasterSends s.nodeMasterSends.net := by
  unfold nodeMasterSends
  have hasked {query : Query} {nodeMaster : NodeMaster J} (h : s.nodeMaster.msgs = [])
      (h' : nodeMaster.msgs = []) :
      { s with
        fromReader := s.fromReader ++ [s.request query]
        nextChannel := s.nextChannel + 1
        nodeMaster }.net = { s.net.ask query with nodeMaster := nodeMaster.settled } := by
    simp only [net, Net.ask, request, h, h', requestsIn_append, requestsIn_reader,
      ← Multiset.singleton_add]
    congr 1
    abel
  split
  · split
    · next hasks =>
        rw [hasked (by rw [hasks]; rfl) rfl]
        exact .askAll (settled_eq hasks)
    · next node tryCounter hasks =>
        rw [hasked (by rw [hasks]; rfl) rfl]
        exact .askByIp (settled_eq hasks)
    · next msg hforward =>
        have hnet : { s with fromReader := s.fromReader ++ [msg], nodeMaster := .select }.net =
            s.net := by
          simp only [net, hforward, NodeMaster.msgs, NodeMaster.settled, requestsIn_append,
            requestsIn_nil]
          congr 1
          abel
        exact .of_eq hnet _
    · exact .stutter _
  · exact .stutter _

theorem nodeMasterHears_net : (s.net).Step lib .nodeMasterHears s.nodeMasterHears.net := by
  unfold nodeMasterHears
  split
  · next rx hawaits =>
      have hmsgs : s.nodeMaster.msgs = [] := by rw [hawaits]; rfl
      split
      · next nodes hanswered =>
          rw [net_nodeMaster hmsgs .select rfl]
          exact .hearNodes (settled_eq hawaits) hanswered
      · next reply hfailed hanswered =>
          rw [net_nodeMaster hmsgs .panicked rfl]
          apply Net.Step.panic (settled_eq hawaits) hanswered
          rintro nodes rfl
          exact hfailed nodes rfl
      · exact .stutter _
  · next node tryCounter rx hawaits =>
      have hmsgs : s.nodeMaster.msgs = [] := by rw [hawaits]; rfl
      split
      · next nodeRead hanswered =>
          rw [net_nodeMaster hmsgs .select rfl]
          exact .hearNode (settled_eq hawaits) hanswered
      · next reply hfailed hanswered =>
          have hretry : (retry node tryCounter : NodeMaster J).msgs = [] ∧
              (retry node tryCounter : NodeMaster J).settled = retry node tryCounter := by
            unfold retry
            split <;> exact ⟨rfl, rfl⟩
          rw [net_nodeMaster hmsgs _ hretry.1, hretry.2]
          apply Net.Step.retry (settled_eq hawaits) hanswered
          rintro nodeRead rfl
          exact hfailed nodeRead rfl
      · exact .stutter _
  · exact .stutter _

theorem loopTurns_net (i : Nat) (act : LoopAction) :
    (s.net).Step lib (.loop i act) (s.loopTurns lib i act).net := by
  unfold loopTurns
  split
  · next l' hturns =>
      obtain ⟨l, hl, hturn⟩ := Option.bind_eq_some_iff.mp hturns
      have hnet : (s.setLoop i l').net = s.net.setLoop i l' := by cases l' <;> rfl
      rw [hnet]
      exact .turn act hl hturn
  · exact .stutter _

theorem loopSendsEvent_net (i : Nat) (event : Reader.Event) :
    (s.loopSendsEvent i event).net = s.net := by
  unfold loopSendsEvent
  split
  · simp only [net, requestsIn_append, requestsIn_event, add_zero]
  · rfl

theorem loopSendsRequest_net (i : Nat) :
    (s.net).Step lib (.loopSendsRequest i) (s.loopSendsRequest i).net := by
  unfold loopSendsRequest
  split
  · split
    · next query l' hasks =>
        obtain ⟨l, hl, hask⟩ := Option.bind_eq_some_iff.mp hasks
        have hnet : { s with
            fromNode := s.fromNode ++ [s.request query]
            nextChannel := s.nextChannel + 1
            loops := s.loops.set i l' }.net =
              { s.net.ask query with loops := s.loops.set i l' } := by
          simp only [net, Net.ask, request, requestsIn_append, requestsIn_reader,
            ← Multiset.singleton_add]
          congr 1
          abel
        rw [hnet]
        exact .loopAsk hl hask
    · exact .stutter _
  · exact .stutter _

/-! ### Runs -/

theorem step_net (lib : Libraries J) (s : Topology J) (a : Action J) :
    (s.net).Step lib a (step lib s a).net := by
  cases a with
  | apiSends msg =>
      have hnet : (step lib s (.apiSends msg)).net = s.net := by
        dsimp only [step]
        split
        · simp only [net, requestsIn_append, requestsIn_toMain, add_zero]
        · rfl
      exact .of_eq hnet _
  | apiReceives => exact .stutter _
  | dataMasterFromApi => exact .of_eq dataMasterFromApi_net _
  | dataMasterFromReader => exact .of_eq dataMasterFromReader_net _
  | dataMasterFromDb => exact .of_eq dataMasterFromDb_net _
  | dataMasterSends => exact .of_eq dataMasterSends_net _
  | dbMasterReceives => exact dbMasterReceives_net
  | dbMasterSends => exact .of_eq dbMasterSends_net _
  | measuresReceive => exact .stutter _
  | advance i fate => exact advance_net i fate
  | dropTask i => exact .dropTask i
  | answer i fate => exact answer_net i fate
  | dropRequest i => exact dropRequest_net i
  | nodeMasterFromController => exact nodeMasterFromController_net
  | nodeMasterFromNode => exact .of_eq nodeMasterFromNode_net _
  | nodeMasterWakes => exact nodeMasterWakes_net
  | nodeMasterSends => exact nodeMasterSends_net
  | nodeMasterHears => exact nodeMasterHears_net
  | loop i act => exact loopTurns_net i act
  | loopSendsEvent i event => exact .of_eq (loopSendsEvent_net i event) _
  | loopSendsRequest i => exact loopSendsRequest_net i

/-- What the steps of the net keep under `G` holds in all runs whose steps meet `G`. -/
theorem run_net_invariant {I : Net J → Prop} {G : Net J → Action J → Prop} {t : Tables J}
    (hstart : I (start t).net) (hstep : ∀ n a n', I n → G n a → Net.Step lib n a n' → I n')
    {actions : List (Action J)}
    (h : ∀ pre a post, actions = pre ++ a :: post → G (run lib t pre).net a) :
    I (run lib t actions).net := by
  have hmeets : Execution.Meets (step lib) (start t) (fun s a => G s.net a) actions := h
  apply hmeets.invariant (I := fun s => I s.net) hstart
  exact fun s a hI hG => hstep _ a _ hI hG (step_net lib s a)

end Topology

end ModbusLogger.Main
