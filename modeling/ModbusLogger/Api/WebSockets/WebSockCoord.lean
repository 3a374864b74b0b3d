import ModbusLogger.Api.WebSockets.LiveSocketUnit
import Std.Data.HashMap

/-!
# The coordinator of the live sockets (`api/web_sockets/web_sock_coord.rs`)

The coordinator keeps the latest state of every node, device and tag. A client gets the states that
it asked for when it subscribes, and after that their changes. The result is that nothing gets lost
between the two: what a client was told is what the coordinator knows.
-/

namespace ModbusLogger.WebSockets

open Reader

/-! ## The coordinator -/

/-- The order in which a hash map is gone through. -/
structure HashOrder where
  order : {α : Type} → List α → List α
  perm : {α : Type} → (l : List α) → (order l).Perm l

/-- The subscribers do not see each other, so the order in which they are gone through does not
show. -/
structure WebSockCoord where
  nodes : Std.HashMap Int NodeEventType
  devises : Std.HashMap Int DeviceEventType
  values : Std.HashMap String Binary64
  subscribers : Nat → Option CoordUnitWebSocketData

/-- Whether the stored state changed. -/
def checkChange {K V : Type} [BEq K] [Hashable K] [BEq V] (target : Std.HashMap K V) (key : K)
    (value : V) : Std.HashMap K V × Bool :=
  match target[key]? with
  | some old => if old == value then (target, false) else (target.insert key value, true)
  | none => (target.insert key value, true)

namespace WebSockCoord

def new : WebSockCoord := ⟨∅, ∅, ∅, fun _ => none⟩

/-- `for unit in subscribers.values_mut()` -/
def tell (c : WebSockCoord) (f : CoordUnitWebSocketData → CoordUnitWebSocketData) : WebSockCoord :=
  { c with subscribers := fun id => (c.subscribers id).map f }

/-- `subscribers.retain(|_, sub| sub.flush())` -/
def flushSubscribers (c : WebSockCoord) : WebSockCoord :=
  { c with subscribers := fun id => (c.subscribers id).bind fun u =>
      if u.flush.2 then some u.flush.1 else none }

def nodeEvent (c : WebSockCoord) (event : NodeEvent) : WebSockCoord :=
  let (nodes, changed) := checkChange c.nodes event.id event.event
  let c := { c with nodes }
  if changed then (c.tell fun u => u.nodeEvents event.id event.event).flushSubscribers else c

def deviceState (c : WebSockCoord) (event : DeviceEvent) : WebSockCoord :=
  let (devises, changed) := checkChange c.devises event.id event.event
  let c := { c with devises }
  if changed then c.tell fun u => u.deviceEvents event.id event.event else c

def measure (c : WebSockCoord) (value : ModbusMeasure) : WebSockCoord :=
  let (values, changed) := checkChange c.values value.tag value.measureValue
  let c := { c with values }
  if changed then c.tell fun u => u.valueEvents value.tag value.measureValue else c

def deviceEvent (c : WebSockCoord) (event : DeviceEvent) : WebSockCoord :=
  (event.measures.foldl measure (c.deviceState event)).flushSubscribers

/-- All that is known, and whether the subscriber is there to receive it. -/
def firstWrite (c : WebSockCoord) (order : HashOrder) (subscriber : CoordUnitWebSocketData) :
    CoordUnitWebSocketData × Bool :=
  let subscriber := (order.order c.nodes.toList).foldl (fun u e => u.nodeEvents e.1 e.2) subscriber
  let subscriber := (order.order c.devises.toList).foldl (fun u e => u.deviceEvents e.1 e.2) subscriber
  let subscriber := (order.order c.values.toList).foldl (fun u e => u.valueEvents e.1 e.2) subscriber
  subscriber.flush

def remove (c : WebSockCoord) (id : Nat) : WebSockCoord :=
  { c with subscribers := Function.update c.subscribers id none }

def insert (c : WebSockCoord) (order : HashOrder) (id : Nat) (unit : CoordUnitWebSocketData) :
    WebSockCoord :=
  let (unit, alive) := c.firstWrite order unit
  if alive then { c with subscribers := Function.update c.subscribers id (some unit) } else c

end WebSockCoord

/-- Messages of the controller, commands of the sockets, and what the clients do with their channels.
A command brings the sending half of a new channel, whose client may be gone already. -/
inductive Input where
  | event (event : Event)
  | other
  | new (id : Nat) (req : SubscribeRequest) (isOpen : Bool) (order : HashOrder)
  | change (oldId newId : Nat) (req : SubscribeRequest) (isOpen : Bool) (order : HashOrder)
  | delete (id : Nat)
  | receive (id : Nat)
  | hangUp (id : Nat)

namespace WebSockCoord

/-- Something happens to the channel of a client. -/
def onChannel (c : WebSockCoord) (id : Nat) (f : ClientChannel → ClientChannel) : WebSockCoord :=
  let unit := (c.subscribers id).map fun u => { u with sendChanel := f u.sendChanel }
  { c with subscribers := Function.update c.subscribers id unit }

/-- `web_sock_coord` and its surroundings. -/
def step (c : WebSockCoord) : Input → WebSockCoord
  | .event (.nodeEvent event) => c.nodeEvent event
  | .event (.deviceEvent event) => c.deviceEvent event
  | .other => c
  | .new id req isOpen order => c.insert order id (.new req (.new isOpen))
  | .change oldId newId req isOpen order =>
    (c.remove oldId).insert order newId (.new req (.new isOpen))
  | .delete id => c.remove id
  | .receive id => c.onChannel id ClientChannel.receive
  | .hangUp id => c.onChannel id ClientChannel.hangUp

def run (inputs : List Input) : WebSockCoord := inputs.foldl step new

end WebSockCoord

/-! ## What a unit knows -/

open Replica

variable {N : Type} (write : Binary64 → N)

namespace CoordUnitWebSocketData

/-- What the client sees once the pending changes are sent. -/
def outlook (u : CoordUnitWebSocketData) : View N :=
  (View.replay write u.sendChanel.accepted).read write u.payload.toMessage

theorem outlook_nodes (u : CoordUnitWebSocketData) :
    (u.outlook write).nodes = apply (View.replay write u.sendChanel.accepted).nodes
      (u.nodesChange.map fun c => (c.id, c.state)) := by
  simp [outlook, View.read, FlushPayload.toMessage, payload, skipIfEmpty_getD]

theorem outlook_devices (u : CoordUnitWebSocketData) :
    (u.outlook write).devices = apply (View.replay write u.sendChanel.accepted).devices
      (u.deviseChange.map fun c => (c.id, c.state)) := by
  simp [outlook, View.read, FlushPayload.toMessage, payload, skipIfEmpty_getD]

theorem outlook_tags (u : CoordUnitWebSocketData) :
    (u.outlook write).tags = apply (View.replay write u.sendChanel.accepted).tags
      (u.valueChange.map fun c => (c.tag, write c.value)) := by
  simp [outlook, View.read, FlushPayload.toMessage, payload, skipIfEmpty_getD, Function.comp_def]

/-- A unit without pending changes has told all. -/
theorem outlook_of_flushed {u : CoordUnitWebSocketData} (h : u.Flushed) :
    u.outlook write = View.replay write u.sendChanel.accepted := by
  obtain ⟨hnodes, hdevices, hvalues⟩ := h
  simp [outlook, View.read, FlushPayload.toMessage, payload, skipIfEmpty_getD, hnodes, hdevices,
    hvalues]

/-- What a unit that stays alive has done. -/
theorem flush_cases {u : CoordUnitWebSocketData} (h : u.flush.2 = true) :
    u.flush.1.Flushed ∧ u.flush.1.outlook write = u.outlook write ∧
      u.flush.1.tags = u.tags ∧ u.flush.1.devises = u.devises ∧ u.flush.1.nodes = u.nodes ∧
      u.flush.1.sendChanel.rejected = u.sendChanel.rejected := by
  unfold flush at h ⊢
  split at h
  · next hflushed => simp [hflushed]
  · next hpending =>
      rw [if_neg hpending]
      have hflushed (c : ClientChannel) : ({ u with
          sendChanel := c, nodesChange := [], deviseChange := [], valueChange := [] } :
          CoordUnitWebSocketData).Flushed := ⟨rfl, rfl, rfl⟩
      dsimp only at h ⊢
      unfold ClientChannel.trySend at h ⊢
      split at h
      · next hroom =>
          refine ⟨hflushed _, ?_, rfl, rfl, rfl, ?_⟩
          · rw [outlook_of_flushed write (hflushed _), if_pos hroom]
            exact View.replay_concat write _ _
          · rw [if_pos hroom]
      · exact absurd h Bool.false_ne_true

end CoordUnitWebSocketData

/-- The view shows what the coordinator knows of the subscribed keys. -/
structure Shows (c : WebSockCoord) (u : CoordUnitWebSocketData) (v : View N) : Prop where
  nodes : Mirrors u.nodes.contains id (fun k => c.nodes[k]?) v.nodes
  devices : Mirrors u.devises.contains id (fun k => c.devises[k]?) v.devices
  tags : Mirrors u.tags.contains write (fun k => c.values[k]?) v.tags

/-- What holds of a subscriber at any point of a step. -/
structure Follows (c : WebSockCoord) (u : CoordUnitWebSocketData) : Prop where
  shows : Shows write c u (u.outlook write)
  alive : u.sendChanel.rejected = false

/-- A unit that stays alive follows on. -/
theorem Follows.flush {c : WebSockCoord} {u : CoordUnitWebSocketData} (h : Follows write c u)
    (halive : u.flush.2 = true) : Follows write c u.flush.1 := by
  obtain ⟨-, houtlook, htags, hdevises, hnodes, hrejected⟩ :=
    CoordUnitWebSocketData.flush_cases write halive
  obtain ⟨⟨nodes, devices, tags⟩, alive⟩ := h
  rw [← houtlook] at nodes devices tags
  rw [← hnodes] at nodes
  rw [← hdevises] at devices
  rw [← htags] at tags
  exact ⟨⟨nodes, devices, tags⟩, hrejected.trans alive⟩

/-- The subscribers do not matter. -/
theorem Follows.congr {c c' : WebSockCoord} {u : CoordUnitWebSocketData} (h : Follows write c u)
    (hnodes : c'.nodes = c.nodes) (hdevises : c'.devises = c.devises)
    (hvalues : c'.values = c.values) : Follows write c' u := by
  obtain ⟨⟨nodes, devices, tags⟩, alive⟩ := h
  rw [← hnodes] at nodes
  rw [← hdevises] at devices
  rw [← hvalues] at tags
  exact ⟨⟨nodes, devices, tags⟩, alive⟩

/-! ## A change of the store -/

theorem checkChange_cases {K V : Type} [BEq K] [Hashable K] [BEq V] (target : Std.HashMap K V)
    (key : K) (value : V) :
    checkChange target key value = (target, false) ∨
      checkChange target key value = (target.insert key value, true) := by
  unfold checkChange
  split
  · split
    · exact .inl rfl
    · exact .inr rfl
  · exact .inr rfl

theorem stored_insert {K V : Type} [DecidableEq K] [Hashable K]
    (target : Std.HashMap K V) (key : K) (value : V) :
    (fun k => (target.insert key value)[k]?) =
      Function.update (fun k => target[k]?) key (some value) := by
  funext k
  rw [Std.HashMap.getElem?_insert, Function.update_apply]
  by_cases hk : key = k
  · simp [hk]
  · simp [hk, Ne.symm hk]

/-- An entry is stored, and passed on where it is subscribed. -/
theorem mirrors_insert {K V W : Type} [DecidableEq K] [Hashable K] {subscribed : K → Bool}
    {render : V → W} {target : Std.HashMap K V} {seen : K → Option W} {changes : List (K × W)}
    (h : Mirrors subscribed render (fun k => target[k]?) (apply seen changes)) (key : K) (value : V) :
    Mirrors subscribed render (fun k => (target.insert key value)[k]?)
      (apply seen (if subscribed key then changes ++ [(key, render value)] else changes)) := by
  rw [stored_insert]
  split
  · next hkey =>
      rw [apply_concat]
      exact h.passed hkey value
  · next hkey => exact h.ignored (Bool.eq_false_of_not_eq_true hkey) value

variable {c : WebSockCoord} {u : CoordUnitWebSocketData}

theorem Follows.nodeEvents (h : Follows write c u) (key : Int) (state : NodeEventType) :
    Follows write { c with nodes := c.nodes.insert key state } (u.nodeEvents key state) := by
  obtain ⟨⟨nodes, devices, tags⟩, alive⟩ := h
  rw [CoordUnitWebSocketData.outlook_nodes] at nodes
  have told := mirrors_insert nodes key state
  unfold CoordUnitWebSocketData.nodeEvents
  split
  · next hkey =>
      rw [if_pos hkey] at told
      refine ⟨⟨?_, devices, tags⟩, alive⟩
      rw [CoordUnitWebSocketData.outlook_nodes, List.map_append]
      exact told
  · next hkey =>
      rw [if_neg hkey] at told
      refine ⟨⟨?_, devices, tags⟩, alive⟩
      rw [CoordUnitWebSocketData.outlook_nodes]
      exact told

theorem Follows.deviceEvents (h : Follows write c u) (key : Int) (state : DeviceEventType) :
    Follows write { c with devises := c.devises.insert key state } (u.deviceEvents key state) := by
  obtain ⟨⟨nodes, devices, tags⟩, alive⟩ := h
  rw [CoordUnitWebSocketData.outlook_devices] at devices
  have told := mirrors_insert devices key state
  unfold CoordUnitWebSocketData.deviceEvents
  split
  · next hkey =>
      rw [if_pos hkey] at told
      refine ⟨⟨nodes, ?_, tags⟩, alive⟩
      rw [CoordUnitWebSocketData.outlook_devices, List.map_append]
      exact told
  · next hkey =>
      rw [if_neg hkey] at told
      refine ⟨⟨nodes, ?_, tags⟩, alive⟩
      rw [CoordUnitWebSocketData.outlook_devices]
      exact told

theorem Follows.valueEvents (h : Follows write c u) (key : String) (value : Binary64) :
    Follows write { c with values := c.values.insert key value } (u.valueEvents key value) := by
  obtain ⟨⟨nodes, devices, tags⟩, alive⟩ := h
  rw [CoordUnitWebSocketData.outlook_tags] at tags
  have told := mirrors_insert tags key value
  unfold CoordUnitWebSocketData.valueEvents
  split
  · next hkey =>
      rw [if_pos hkey] at told
      refine ⟨⟨nodes, devices, ?_⟩, alive⟩
      rw [CoordUnitWebSocketData.outlook_tags, List.map_append]
      exact told
  · next hkey =>
      rw [if_neg hkey] at told
      refine ⟨⟨nodes, devices, ?_⟩, alive⟩
      rw [CoordUnitWebSocketData.outlook_tags]
      exact told

/-! ## All subscribers -/

/-- Every subscriber follows. -/
def Tracked (c : WebSockCoord) : Prop := ∀ id u, c.subscribers id = some u → Follows write c u

/-- Between steps nothing waits to be sent. -/
def Settled (c : WebSockCoord) : Prop :=
  ∀ id u, c.subscribers id = some u → Follows write c u ∧ u.Flushed

variable {write}

theorem Settled.tracked (h : Settled write c) : Tracked write c := fun id u hu => (h id u hu).1

namespace WebSockCoord

theorem tracked_tell (h : Tracked write c) {f : CoordUnitWebSocketData → CoordUnitWebSocketData}
    {stored : WebSockCoord} (hsame : stored.subscribers = c.subscribers)
    (hf : ∀ u, Follows write c u → Follows write stored (f u)) :
    Tracked write (stored.tell f) := by
  intro id u hu
  obtain ⟨old, hold, rfl⟩ := Option.map_eq_some_iff.mp hu
  rw [hsame] at hold
  exact (hf old (h id old hold)).congr write rfl rfl rfl

theorem settled_flushSubscribers (h : Tracked write c) : Settled write c.flushSubscribers := by
  intro id u hu
  obtain ⟨old, hold, hflush⟩ := Option.bind_eq_some_iff.mp hu
  obtain ⟨halive, heq⟩ := Option.ite_none_right_eq_some.mp hflush
  obtain rfl := Option.some.inj heq
  exact ⟨((h id old hold).flush write halive).congr write rfl rfl rfl,
    (CoordUnitWebSocketData.flush_cases write halive).1⟩

theorem settled_nodeEvent (h : Settled write c) (event : NodeEvent) :
    Settled write (c.nodeEvent event) := by
  unfold nodeEvent
  obtain hsame | hnew := checkChange_cases c.nodes event.id event.event
  · rw [hsame]
    exact h
  · rw [hnew]
    apply settled_flushSubscribers
    exact tracked_tell h.tracked rfl fun u hu => hu.nodeEvents write event.id event.event

theorem tracked_deviceState (h : Tracked write c) (event : DeviceEvent) :
    Tracked write (c.deviceState event) := by
  unfold deviceState
  obtain hsame | hnew := checkChange_cases c.devises event.id event.event
  · rw [hsame]
    exact h
  · rw [hnew]
    exact tracked_tell h rfl fun u hu => hu.deviceEvents write event.id event.event

theorem tracked_measure (h : Tracked write c) (value : ModbusMeasure) :
    Tracked write (c.measure value) := by
  unfold measure
  obtain hsame | hnew := checkChange_cases c.values value.tag value.measureValue
  · rw [hsame]
    exact h
  · rw [hnew]
    exact tracked_tell h rfl fun u hu => hu.valueEvents write value.tag value.measureValue

theorem tracked_measures (h : Tracked write c) (values : List ModbusMeasure) :
    Tracked write (values.foldl measure c) := by
  induction values generalizing c with
  | nil => exact h
  | cons value values ih => exact ih (tracked_measure h value)

theorem settled_deviceEvent (h : Settled write c) (event : DeviceEvent) :
    Settled write (c.deviceEvent event) := by
  apply settled_flushSubscribers
  exact tracked_measures (tracked_deviceState h.tracked event) event.measures

end WebSockCoord

/-! ## A subscription -/

namespace CoordUnitWebSocketData

theorem foldl_nodeEvents (entries : List (Int × NodeEventType)) (u : CoordUnitWebSocketData) :
    entries.foldl (fun u e => u.nodeEvents e.1 e.2) u = { u with
      nodesChange := u.nodesChange ++
        (entries.filter fun e => u.nodes.contains e.1).map fun e => ⟨e.1, e.2⟩ } := by
  induction entries generalizing u with
  | nil => simp
  | cons e entries ih =>
      rw [List.foldl_cons, ih]
      by_cases hkey : u.nodes.contains e.1 = true
      · simp [nodeEvents, hkey]
      · simp [nodeEvents, hkey]

theorem foldl_deviceEvents (entries : List (Int × DeviceEventType)) (u : CoordUnitWebSocketData) :
    entries.foldl (fun u e => u.deviceEvents e.1 e.2) u = { u with
      deviseChange := u.deviseChange ++
        (entries.filter fun e => u.devises.contains e.1).map fun e => ⟨e.1, e.2⟩ } := by
  induction entries generalizing u with
  | nil => simp
  | cons e entries ih =>
      rw [List.foldl_cons, ih]
      by_cases hkey : u.devises.contains e.1 = true
      · simp [deviceEvents, hkey]
      · simp [deviceEvents, hkey]

theorem foldl_valueEvents (entries : List (String × Binary64)) (u : CoordUnitWebSocketData) :
    entries.foldl (fun u e => u.valueEvents e.1 e.2) u = { u with
      valueChange := u.valueChange ++
        (entries.filter fun e => u.tags.contains e.1).map fun e => ⟨e.1, e.2⟩ } := by
  induction entries generalizing u with
  | nil => simp
  | cons e entries ih =>
      rw [List.foldl_cons, ih]
      by_cases hkey : u.tags.contains e.1 = true
      · simp [valueEvents, hkey]
      · simp [valueEvents, hkey]

end CoordUnitWebSocketData

/-- All entries of a map, in any order. -/
theorem mirrors_toList {K V W : Type} [DecidableEq K] [Hashable K] (order : HashOrder)
    (subscribed : K → Bool) (render : V → W) (target : Std.HashMap K V) :
    Mirrors subscribed render (fun k => target[k]?) (apply (fun _ => none)
      (((order.order target.toList).filter fun e => subscribed e.1).map fun e =>
        (e.1, render e.2))) := by
  have hperm := order.perm target.toList
  apply Mirrors.snapshot
  · rw [(hperm.map Prod.fst).nodup_iff, List.nodup_iff_pairwise_ne, List.pairwise_map]
    exact Std.HashMap.distinct_keys_toList.imp fun hne heq => by simp [heq] at hne
  · intro k v
    rw [hperm.mem_iff, Std.HashMap.mem_toList_iff_getElem?_eq_some]

namespace WebSockCoord

/-- The unit that `firstWrite` flushes. -/
theorem follows_firstWrite (order : HashOrder) (req : SubscribeRequest) (isOpen : Bool)
    (halive : (c.firstWrite order (.new req (.new isOpen))).2 = true) :
    Follows write c (c.firstWrite order (.new req (.new isOpen))).1 ∧
      (c.firstWrite order (.new req (.new isOpen))).1.Flushed := by
  unfold firstWrite at halive ⊢
  refine ⟨Follows.flush write ?_ halive, (CoordUnitWebSocketData.flush_cases write halive).1⟩
  rw [CoordUnitWebSocketData.foldl_nodeEvents, CoordUnitWebSocketData.foldl_deviceEvents,
    CoordUnitWebSocketData.foldl_valueEvents]
  refine ⟨⟨?_, ?_, ?_⟩, rfl⟩
  · rw [CoordUnitWebSocketData.outlook_nodes]
    change Mirrors (Std.HashSet.ofList req.nodes).contains id _ (apply _ (([] ++ List.map _ _).map _))
    rw [List.nil_append, List.map_map]
    exact mirrors_toList order _ id c.nodes
  · rw [CoordUnitWebSocketData.outlook_devices]
    change Mirrors (Std.HashSet.ofList req.devices).contains id _ (apply _ (([] ++ List.map _ _).map _))
    rw [List.nil_append, List.map_map]
    exact mirrors_toList order _ id c.devises
  · rw [CoordUnitWebSocketData.outlook_tags]
    change Mirrors (Std.HashSet.ofList req.values).contains write _ (apply _ (([] ++ List.map _ _).map _))
    rw [List.nil_append, List.map_map]
    exact mirrors_toList order _ write c.values

theorem settled_remove (h : Settled write c) (id : Nat) : Settled write (c.remove id) := by
  intro id' u hu
  change Function.update c.subscribers id none id' = some u at hu
  by_cases hid : id' = id
  · subst hid
    rw [Function.update_self] at hu
    cases hu
  · rw [Function.update_of_ne hid] at hu
    obtain ⟨hfollows, hflushed⟩ := h id' u hu
    exact ⟨hfollows.congr write rfl rfl rfl, hflushed⟩

theorem settled_insert (h : Settled write c) (order : HashOrder) (id : Nat)
    (req : SubscribeRequest) (isOpen : Bool) :
    Settled write (c.insert order id (.new req (.new isOpen))) := by
  unfold insert
  dsimp only
  split
  · next halive =>
      intro id' u hu
      change Function.update c.subscribers id _ id' = some u at hu
      by_cases hid : id' = id
      · subst hid
        rw [Function.update_self] at hu
        obtain rfl := Option.some.inj hu
        have hfirst : Follows write c _ ∧ _ := follows_firstWrite order req isOpen halive
        obtain ⟨hfollows, hflushed⟩ := hfirst
        exact ⟨hfollows.congr write rfl rfl rfl, hflushed⟩
      · rw [Function.update_of_ne hid] at hu
        obtain ⟨hfollows, hflushed⟩ := h id' u hu
        exact ⟨hfollows.congr write rfl rfl rfl, hflushed⟩
  · exact h

/-- The client has its side of the channel only. -/
theorem settled_onChannel (h : Settled write c) (id : Nat) {f : ClientChannel → ClientChannel}
    (haccepted : ∀ channel, (f channel).accepted = channel.accepted)
    (hrejected : ∀ channel, (f channel).rejected = channel.rejected) :
    Settled write (c.onChannel id f) := by
  intro id' u hu
  change Function.update c.subscribers id _ id' = some u at hu
  by_cases hid : id' = id
  · subst hid
    rw [Function.update_self] at hu
    obtain ⟨old, hold, rfl⟩ := Option.map_eq_some_iff.mp hu
    obtain ⟨⟨⟨nodes, devices, tags⟩, alive⟩, hflushed⟩ := h id' old hold
    refine ⟨⟨⟨?_, ?_, ?_⟩, (hrejected _).trans alive⟩, hflushed⟩
    · rw [CoordUnitWebSocketData.outlook_nodes, haccepted]
      rw [CoordUnitWebSocketData.outlook_nodes] at nodes
      exact nodes
    · rw [CoordUnitWebSocketData.outlook_devices, haccepted]
      rw [CoordUnitWebSocketData.outlook_devices] at devices
      exact devices
    · rw [CoordUnitWebSocketData.outlook_tags, haccepted]
      rw [CoordUnitWebSocketData.outlook_tags] at tags
      exact tags
  · rw [Function.update_of_ne hid] at hu
    obtain ⟨hfollows, hflushed⟩ := h id' u hu
    exact ⟨hfollows.congr write rfl rfl rfl, hflushed⟩

theorem settled_step (h : Settled write c) (input : Input) : Settled write (c.step input) := by
  cases input with
  | event event =>
      cases event with
      | nodeEvent event => exact settled_nodeEvent h event
      | deviceEvent event => exact settled_deviceEvent h event
  | other => exact h
  | new id req isOpen order => exact settled_insert h order id req isOpen
  | change oldId newId req isOpen order =>
      exact settled_insert (settled_remove h oldId) order newId req isOpen
  | delete id => exact settled_remove h id
  | receive id => exact settled_onChannel h id (fun _ => rfl) fun _ => rfl
  | hangUp id => exact settled_onChannel h id (fun _ => rfl) fun _ => rfl

theorem settled_run (inputs : List Input) : Settled write (run inputs) := by
  induction inputs using List.reverseRecOn with
  | nil =>
      intro id u hu
      cases hu
  | append_singleton inputs input ih =>
      rw [run, List.foldl_append]
      exact settled_step ih input

end WebSockCoord

/-- A subscriber has been sent what it asked for: reading the messages that its channel accepted, with
any way to write a number, shows the states that the coordinator has of the subscribed keys, and no
others. A channel that rejected a message belongs to no subscriber. -/
theorem live_view_shows_state (write : Binary64 → N) (inputs : List Input) (id : Nat)
    (u : CoordUnitWebSocketData) (hu : (WebSockCoord.run inputs).subscribers id = some u) :
    u.Flushed ∧ Shows write (WebSockCoord.run inputs) u (View.replay write u.sendChanel.accepted) ∧
      u.sendChanel.rejected = false := by
  have hsettled : Settled write (WebSockCoord.run inputs) := WebSockCoord.settled_run inputs
  obtain ⟨⟨hshows, halive⟩, hflushed⟩ := hsettled id u hu
  rw [CoordUnitWebSocketData.outlook_of_flushed write hflushed] at hshows
  exact ⟨hflushed, hshows, halive⟩

def asListed : HashOrder := ⟨id, fun l => .refl l⟩

/-- A client that subscribes before anything is known. -/
def subscribedFirst : List Input :=
  [.new 7 ⟨[], [1, 2], []⟩ true asListed, .event (.nodeEvent ⟨1, "10.0.0.5", .connected⟩)]

theorem subscribedFirst_stays : ∃ u, (WebSockCoord.run subscribedFirst).subscribers 7 = some u := by
  simp [subscribedFirst, WebSockCoord.run, WebSockCoord.step, WebSockCoord.insert,
    WebSockCoord.firstWrite, WebSockCoord.nodeEvent, checkChange, WebSockCoord.new, asListed,
    WebSockCoord.flushSubscribers, WebSockCoord.tell, CoordUnitWebSocketData.flush,
    CoordUnitWebSocketData.Flushed, CoordUnitWebSocketData.new, CoordUnitWebSocketData.nodeEvents,
    ClientChannel.trySend, ClientChannel.new]

theorem live_view_shows_state_early : ∃ u, (WebSockCoord.run subscribedFirst).subscribers 7 = some u ∧
    u.Flushed ∧ Shows id (WebSockCoord.run subscribedFirst) u
      (View.replay id u.sendChanel.accepted) ∧ u.sendChanel.rejected = false := by
  obtain ⟨u, hu⟩ := subscribedFirst_stays
  exact ⟨u, hu, live_view_shows_state id subscribedFirst 7 u hu⟩

end ModbusLogger.WebSockets
