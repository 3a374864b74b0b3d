import ModbusLogger.Api.WebSockets.Subscriptions
import ModbusLogger.Main.Delivery
import ModbusLogger.Reader.HotReload

/-!
# From the loops to the live sockets

The coordinator of the live sockets receives what the controller sends to the API. With the handlers
beside it, and with the actors behind the channel, what a client is told can be compared with what the
loops have sent.
-/

namespace ModbusLogger.Main

open Db Execution Replica WebSockets

variable {J : Type}

/-- The actors of `main`, with the coordinator and the handlers of the live sockets. -/
structure LiveTopology (J : Type) where
  topology : Topology J
  live : Live

inductive LiveAction (J : Type) where
  | actor (action : Action J)
  | connect
  | socket (i : Nat) (event : SocketEvent)
  | command (order : HashOrder)

def LiveAction.actor? : LiveAction J → Option (Action J)
  | .actor action => some action
  | .connect | .socket .. | .command _ => none

namespace LiveTopology

variable (parse : String → Option SubscribeRequest) (lib : Libraries J)

/-- `web_sock_coord` receives a message from the controller and does all that follows at once. -/
def receive (live : Live) (msg : MainMsg J) : Live := live.step parse (.fromReader msg.event?)

def step (s : LiveTopology J) : LiveAction J → LiveTopology J
  | .actor action =>
    let topology := s.topology.step lib action
    { topology, live := (left s.topology.toApi topology.toApi).foldl (receive parse) s.live }
  | .connect => { s with live := s.live.step parse .connect }
  | .socket i event => { s with live := s.live.step parse (.socket i event) }
  | .command order => { s with live := s.live.step parse (.command order) }

def start (t : Tables J) : LiveTopology J := ⟨.start t, .new⟩

def run (t : Tables J) (actions : List (LiveAction J)) : LiveTopology J :=
  after (step parse lib) (start t) actions

/-! ## The two halves -/

variable {parse} {lib} (t : Tables J) (actions : List (LiveAction J))

theorem run_concat (a : LiveAction J) :
    run parse lib t (actions ++ [a]) = (run parse lib t actions).step parse lib a :=
  after_concat _ _ _ _

theorem filterMap_actor {a : LiveAction J} (ha : a.actor? = none) :
    (actions ++ [a]).filterMap LiveAction.actor? = actions.filterMap LiveAction.actor? := by
  rw [List.filterMap_append, List.filterMap_cons_none ha, List.filterMap_nil, List.append_nil]

theorem run_topology :
    (run parse lib t actions).topology = Topology.run lib t (actions.filterMap LiveAction.actor?) := by
  induction actions using List.reverseRecOn with
  | nil => rfl
  | append_singleton actions a ih =>
      rw [run_concat]
      cases a with
      | actor action =>
          show (run parse lib t actions).topology.step lib action = _
          rw [ih, List.filterMap_append]
          exact (after_concat _ _ _ action).symm
      | connect | socket | command =>
          rw [filterMap_actor actions rfl]
          exact ih

theorem receive_run (steps : List LiveStep) (msgs : List (MainMsg J)) :
    msgs.foldl (receive parse) (Live.run parse steps) =
      Live.run parse (steps ++ msgs.map fun msg => .fromReader msg.event?) := by
  rw [Live.run_append, List.foldl_map]
  rfl

/-- The coordinator and its handlers run on the events that the API receives. -/
theorem run_live : ∃ steps, (run parse lib t actions).live = Live.run parse steps ∧
    steps.filterMap LiveStep.event? =
      Topology.shownEvents lib t (actions.filterMap LiveAction.actor?) := by
  induction actions using List.reverseRecOn with
  | nil => exact ⟨[], rfl, rfl⟩
  | append_singleton actions a ih =>
      obtain ⟨steps, hlive, hevents⟩ := ih
      rw [run_concat]
      have haside : ∀ step : LiveStep, step.event? = none →
          (run parse lib t actions).live.step parse step = Live.run parse (steps ++ [step]) ∧
            (steps ++ [step]).filterMap LiveStep.event? =
              Topology.shownEvents lib t (actions.filterMap LiveAction.actor?) := by
        intro step hstep
        refine ⟨?_, ?_⟩
        · rw [hlive, Live.run_append]
          rfl
        · rw [List.filterMap_append, List.filterMap_cons_none hstep, List.filterMap_nil,
            List.append_nil, hevents]
      cases a with
      | actor action =>
          refine ⟨steps ++ (left (run parse lib t actions).topology.toApi
            ((run parse lib t actions).topology.step lib action).toApi).map
              fun msg => .fromReader msg.event?, ?_, ?_⟩
          · rw [← receive_run, ← hlive]
            rfl
          · rw [List.filterMap_append, List.filterMap_append, hevents, List.filterMap_map,
              run_topology]
            exact (collect_concat _ _ _ _ action).symm
      | connect =>
          rw [filterMap_actor actions rfl]
          exact ⟨_, haside .connect rfl⟩
      | socket i event =>
          rw [filterMap_actor actions rfl]
          exact ⟨_, haside (.socket i event) rfl⟩
      | command order =>
          rw [filterMap_actor actions rfl]
          exact ⟨_, haside (.command order) rfl⟩

end LiveTopology

/-! ## What a client is told -/

/-- A handler is in its loop, and this is the entry that the coordinator has of it. -/
def Listens (s : Live) (socket : Socket) (u : CoordUnitWebSocketData) : Prop :=
  ∃ (i id : Nat) (c : WebSockCoord), s.sockets[i]? = some socket ∧ socket.state = .selecting id ∧
    s.coord = some c ∧ c.subscribers id = some u

/-- The view has the last states that the events tell of what was asked for. -/
structure Told {N : Type} (write : Binary64 → N) (req : SubscribeRequest)
    (events : List Reader.Event) (view : View N) : Prop where
  nodes : ∀ k, view.nodes k =
    if k ∈ req.nodes then latest (events.filterMap nodeState?) k else none
  devices : ∀ k, view.devices k =
    if k ∈ req.devices then latest (events.filterMap deviceState?) k else none
  tags : Presents Binary64.Same (fun k => k ∈ req.values) write (events.flatMap taggedValues) view.tags

theorem contains_ofList {K : Type} [DecidableEq K] [Hashable K] (keys : List K) :
    (Std.HashSet.ofList keys).contains = fun k => decide (k ∈ keys) := by
  funext k
  rw [Std.HashSet.contains_ofList, List.contains_eq_mem]

/-- **Live view.** In every run of all actors, sockets and clients: when a handler is in its loop and
the coordinator has an entry of it, then what the channel of the client accepted tells of exactly the
nodes, devices and tags that the client asked for last, and of each of them the last state in a
beginning of what the loops have sent, where at most 303 events are missing. Of two equal numbers it
may be the former. At most two messages are still on their way to the client. -/
theorem live_view_latest {N : Type} (parse : String → Option SubscribeRequest) (write : Binary64 → N)
    (lib : Libraries J) (t : Tables J) (actions : List (LiveAction J)) (socket : Socket)
    (u : CoordUnitWebSocketData) (h : Listens (LiveTopology.run parse lib t actions).live socket u) :
    ∃ text req past, socket.texts.getLast? = some text ∧ parse text = some req ∧
      Delivered 303 (Topology.sentEvents lib t (actions.filterMap LiveAction.actor?)) past ∧
      Told write req past (View.replay write u.sendChanel.accepted) ∧
      u.sendChanel.queue <:+ u.sendChanel.accepted ∧ u.sendChanel.queue.length ≤ 2 := by
  obtain ⟨i, id, c, hsocket, hstate, hc, hu⟩ := h
  obtain ⟨steps, hlive, hevents⟩ := @LiveTopology.run_live J parse lib t actions
  rw [hlive] at hsocket hc
  obtain ⟨text, req, htext, hreq, hasks⟩ :=
    (Live.tied_run parse steps).current (Live.kept_run parse steps) hsocket hstate hc hu
  obtain ⟨inputs, rfl, hinputs⟩ := Live.coord_run hc
  have hsettled : Settled write (WebSockCoord.run inputs) := WebSockCoord.settled_run inputs
  obtain ⟨⟨hshows, -⟩, hflushed⟩ := hsettled id u hu
  rw [CoordUnitWebSocketData.outlook_of_flushed write hflushed] at hshows
  have hstore := WebSockCoord.upToDate_run inputs
  rw [hinputs, hevents] at hstore
  obtain ⟨hqueued, hroom⟩ := WebSockCoord.sound_run inputs id u hu
  refine ⟨text, req, _, htext, hreq, Topology.shown_delivered lib t _, ?_, hqueued, hroom⟩
  refine ⟨fun k => ?_, fun k => ?_, ?_⟩
  · have hk := (hshows.nodes.presents hstore.nodes).eq k
    rw [hasks.nodes, contains_ofList] at hk
    simpa using hk
  · have hk := (hshows.devices.presents hstore.devises).eq k
    rw [hasks.devises, contains_ofList] at hk
    simpa using hk
  · have htags := hshows.tags.presents hstore.values
    rw [hasks.tags, contains_ofList] at htags
    exact htags

/-! ### A client that comes late -/

/-- The channel of a new client has room. -/
theorem subscribed_of_insert (c : WebSockCoord) (order : HashOrder) (id : Nat)
    (req : SubscribeRequest) :
    ((c.insert order id (.new req (.new true))).subscribers id).isSome = true := by
  have halive : (c.firstWrite order (.new req (.new true))).2 = true := by
    unfold WebSockCoord.firstWrite CoordUnitWebSocketData.flush
    dsimp only
    rw [CoordUnitWebSocketData.foldl_nodeEvents, CoordUnitWebSocketData.foldl_deviceEvents,
      CoordUnitWebSocketData.foldl_valueEvents]
    split
    · rfl
    · simp [CoordUnitWebSocketData.new, ClientChannel.new, ClientChannel.trySend]
  simp [WebSockCoord.insert, halive]

theorem LiveTopology.live_of_actors (parse : String → Option SubscribeRequest) (lib : Libraries J)
    (t : Tables J) (actions : List (Action J)) :
    ∃ c, (run parse lib t (actions.map .actor)).live = ⟨0, [], [], some c⟩ := by
  have hreceive : ∀ (msgs : List (MainMsg J)) (c : WebSockCoord), ∃ c',
      msgs.foldl (receive parse) ⟨0, [], [], some c⟩ = ⟨0, [], [], some c'⟩ := by
    intro msgs
    induction msgs with
    | nil => exact fun c => ⟨c, rfl⟩
    | cons msg msgs ih => exact fun c => ih _
  induction actions using List.reverseRecOn with
  | nil => exact ⟨_, rfl⟩
  | append_singleton actions action ih =>
      obtain ⟨c, hlive⟩ := ih
      rw [List.map_append, List.map_singleton, run_concat]
      unfold step
      dsimp only
      rw [hlive]
      exact hreceive _ c

/-- The parser knows one text. -/
def watchesNode (text : String) : Option SubscribeRequest :=
  if text = "\x7b\"values\":[],\"nodes\":[1],\"devices\":[]\x7d" then some ⟨[], [1], []⟩ else none

/-- A loop connects to its node, and the event comes to the API. -/
def connected : List (Action Unit) :=
  Topology.deviceCreated ++ [.loop 0 .elapsed, .loopSendsEvent 0 (.nodeEvent ⟨1, "10.0.0.5", .connected⟩),
    .nodeMasterFromNode, .nodeMasterSends, .dataMasterFromReader, .dataMasterSends,
    .dataMasterSends, .apiReceives]

/-- After that a client asks for the node. -/
def watching : List (LiveAction Unit) :=
  connected.map .actor ++
    [.connect, .socket 0 (.text "\x7b\"values\":[],\"nodes\":[1],\"devices\":[]\x7d"),
      .socket 0 .ready, .command asListed]

theorem listens_watching : ∃ socket u,
    Listens (LiveTopology.run watchesNode noSettings oneNode watching).live socket u := by
  obtain ⟨c, hlive⟩ := LiveTopology.live_of_actors watchesNode noSettings oneNode connected
  obtain ⟨u, hu⟩ := Option.isSome_iff_exists.mp
    (subscribed_of_insert c asListed 0 ⟨[], [1], []⟩)
  have hrun : (LiveTopology.run watchesNode noSettings oneNode watching).live =
      ⟨1, [⟨.selecting 0, ["\x7b\"values\":[],\"nodes\":[1],\"devices\":[]\x7d"], [0]⟩], [],
        some (c.insert asListed 0 (.new ⟨[], [1], []⟩ (.new true)))⟩ := by
    unfold watching LiveTopology.run after
    rw [List.foldl_append]
    unfold LiveTopology.run after at hlive
    simp [LiveTopology.step, hlive, Live.step, Socket.new, Socket.handle, Socket.newConfig,
      watchesNode, Live.onChannels, SocketState.receivers, Socket.sendMsg, Live.input, Live.isOpen,
      WebSockCoord.step]
  rw [hrun]
  exact ⟨_, u, 0, 0, _, rfl, rfl, rfl, hu⟩

theorem live_view_latest_watching : ∃ socket u,
    Listens (LiveTopology.run watchesNode noSettings oneNode watching).live socket u ∧
      ∃ text req past, socket.texts.getLast? = some text ∧ watchesNode text = some req ∧
        Delivered 303
          (Topology.sentEvents noSettings oneNode (watching.filterMap LiveAction.actor?)) past ∧
        Told id req past (View.replay id u.sendChanel.accepted) ∧
        u.sendChanel.queue <:+ u.sendChanel.accepted ∧ u.sendChanel.queue.length ≤ 2 := by
  obtain ⟨socket, u, hlistens⟩ := listens_watching
  exact ⟨socket, u, hlistens,
    live_view_latest watchesNode id noSettings oneNode watching socket u hlistens⟩

end ModbusLogger.Main
