import ModbusLogger.Api.WebSockets.LiveSocket

/-!
# What the subscribers are told

The store of the coordinator is kept by the events, and it is up to date with them, except that a
number stays when an equal one comes: the two zeros are equal. The entry that a handler listens to is
the one that its client asked for last.
-/

namespace ModbusLogger.WebSockets

open Reader Replica

/-! ## The store and the events -/

/-- The state of a node that an event tells. -/
def nodeState? : Event → Option (Int × NodeEventType)
  | .nodeEvent event => some (event.id, event.event)
  | .deviceEvent _ => none

def deviceState? : Event → Option (Int × DeviceEventType)
  | .nodeEvent _ => none
  | .deviceEvent event => some (event.id, event.event)

def taggedValue (value : ModbusMeasure) : String × Binary64 := (value.tag, value.measureValue)

def taggedValues : Event → List (String × Binary64)
  | .nodeEvent _ => []
  | .deviceEvent event => event.measures.map taggedValue

/-- The store has what came last. -/
structure UpToDate (c : WebSockCoord) (events : List Event) : Prop where
  nodes : Tracks Eq (fun k => c.nodes[k]?) (events.filterMap nodeState?)
  devises : Tracks Eq (fun k => c.devises[k]?) (events.filterMap deviceState?)
  values : Tracks Binary64.Same (fun k => c.values[k]?) (events.flatMap taggedValues)

theorem checkChange_tracks {K V : Type} [DecidableEq K] [Hashable K] [BEq V] {R : V → V → Prop}
    (hrefl : ∀ v, R v v) (hbeq : ∀ v v', (v == v') = true → R v v') {target : Std.HashMap K V}
    {changes : List (K × V)} (h : Tracks R (fun k => target[k]?) changes) (key : K) (value : V) :
    Tracks R (fun k => (checkChange target key value).1[k]?) (changes ++ [(key, value)]) := by
  unfold checkChange
  split
  · next old hold =>
      split
      · next hsame => exact h.keep hold (hbeq old value hsame)
      · rw [stored_insert]
        exact h.insert key (hrefl value)
  · rw [stored_insert]
    exact h.insert key (hrefl value)

theorem checkChange_tracks_eq {K V : Type} [DecidableEq K] [Hashable K] [DecidableEq V]
    {target : Std.HashMap K V} {changes : List (K × V)}
    (h : Tracks Eq (fun k => target[k]?) changes) (key : K) (value : V) :
    Tracks Eq (fun k => (checkChange target key value).1[k]?) (changes ++ [(key, value)]) :=
  checkChange_tracks (fun _ => rfl) (fun _ _ => eq_of_beq) h key value

namespace WebSockCoord

variable {c : WebSockCoord}

theorem nodeEvent_store (c : WebSockCoord) (event : NodeEvent) :
    (c.nodeEvent event).nodes = (checkChange c.nodes event.id event.event).1 ∧
      (c.nodeEvent event).devises = c.devises ∧ (c.nodeEvent event).values = c.values := by
  unfold nodeEvent
  dsimp only
  split <;> exact ⟨rfl, rfl, rfl⟩

theorem deviceState_store (c : WebSockCoord) (event : DeviceEvent) :
    (c.deviceState event).nodes = c.nodes ∧
      (c.deviceState event).devises = (checkChange c.devises event.id event.event).1 ∧
        (c.deviceState event).values = c.values := by
  unfold deviceState
  dsimp only
  split <;> exact ⟨rfl, rfl, rfl⟩

theorem measure_store (c : WebSockCoord) (value : ModbusMeasure) :
    (c.measure value).nodes = c.nodes ∧ (c.measure value).devises = c.devises ∧
      (c.measure value).values = (checkChange c.values value.tag value.measureValue).1 := by
  unfold measure
  dsimp only
  split <;> exact ⟨rfl, rfl, rfl⟩

theorem insert_store (c : WebSockCoord) (order : HashOrder) (id : Nat)
    (unit : CoordUnitWebSocketData) :
    (c.insert order id unit).nodes = c.nodes ∧ (c.insert order id unit).devises = c.devises ∧
      (c.insert order id unit).values = c.values := by
  unfold insert
  dsimp only
  split <;> exact ⟨rfl, rfl, rfl⟩

theorem measures_store {values : List (String × Binary64)} (measures : List ModbusMeasure)
    (h : Tracks Binary64.Same (fun k => c.values[k]?) values) :
    (measures.foldl measure c).nodes = c.nodes ∧ (measures.foldl measure c).devises = c.devises ∧
      Tracks Binary64.Same (fun k => (measures.foldl measure c).values[k]?)
        (values ++ measures.map taggedValue) := by
  induction measures generalizing c values with
  | nil => exact ⟨rfl, rfl, by simpa using h⟩
  | cons value measures ih =>
      obtain ⟨hnodes, hdevises, hvalues⟩ := c.measure_store value
      have hvalue : Tracks Binary64.Same (fun k => (c.measure value).values[k]?)
          (values ++ [taggedValue value]) := by
        rw [hvalues]
        exact checkChange_tracks Binary64.Same.refl (fun _ _ => Binary64.Same.of_beq) h _ _
      obtain ⟨hnodes', hdevises', hrest⟩ := ih hvalue
      refine ⟨hnodes'.trans hnodes, hdevises'.trans hdevises, ?_⟩
      rw [List.append_assoc] at hrest
      exact hrest

end WebSockCoord

namespace UpToDate

variable {c c' : WebSockCoord} {events : List Event}

theorem congr (h : UpToDate c events) (hnodes : c'.nodes = c.nodes)
    (hdevises : c'.devises = c.devises) (hvalues : c'.values = c.values) : UpToDate c' events := by
  obtain ⟨nodes, devises, values⟩ := h
  rw [← hnodes] at nodes
  rw [← hdevises] at devises
  rw [← hvalues] at values
  exact ⟨nodes, devises, values⟩

theorem nodeEvent (h : UpToDate c events) (event : NodeEvent) :
    UpToDate (c.nodeEvent event) (events ++ [.nodeEvent event]) := by
  obtain ⟨hnodes, hdevises, hvalues⟩ := c.nodeEvent_store event
  refine ⟨?_, ?_, ?_⟩
  · rw [hnodes, List.filterMap_append]
    exact checkChange_tracks_eq h.nodes event.id event.event
  · rw [hdevises, List.filterMap_append]
    simpa [List.filterMap_cons, deviceState?] using h.devises
  · rw [hvalues, List.flatMap_append]
    simpa [taggedValues] using h.values

theorem deviceEvent (h : UpToDate c events) (event : DeviceEvent) :
    UpToDate (c.deviceEvent event) (events ++ [.deviceEvent event]) := by
  obtain ⟨hnodes, hdevises, hvalues⟩ := c.deviceState_store event
  have hbefore : Tracks Binary64.Same (fun k => (c.deviceState event).values[k]?)
      (events.flatMap taggedValues) := by
    rw [hvalues]
    exact h.values
  obtain ⟨hnodes', hdevises', hvalues'⟩ := WebSockCoord.measures_store event.measures hbefore
  refine ⟨?_, ?_, ?_⟩
  · show Tracks Eq (fun k => (event.measures.foldl _ (c.deviceState event)).nodes[k]?) _
    rw [hnodes', hnodes, List.filterMap_append]
    simpa [List.filterMap_cons, nodeState?] using h.nodes
  · show Tracks Eq (fun k => (event.measures.foldl _ (c.deviceState event)).devises[k]?) _
    rw [hdevises', hdevises, List.filterMap_append]
    exact checkChange_tracks_eq h.devises event.id event.event
  · show Tracks _ (fun k => (event.measures.foldl _ (c.deviceState event)).values[k]?) _
    rw [List.flatMap_append, List.flatMap_singleton]
    exact hvalues'

end UpToDate

def Input.event? : Input → Option Event
  | .event e => some e
  | .other | .new .. | .change .. | .delete _ | .receive _ | .hangUp _ => none

namespace WebSockCoord

variable {c : WebSockCoord}

theorem upToDate_step {events : List Event} (h : UpToDate c events) (input : Input) :
    UpToDate (c.step input) (events ++ input.event?.toList) := by
  cases input with
  | event event =>
      cases event with
      | nodeEvent event => exact h.nodeEvent event
      | deviceEvent event => exact h.deviceEvent event
  | new id req isOpen order =>
      obtain ⟨hnodes, hdevises, hvalues⟩ := c.insert_store order id (.new req (.new isOpen))
      rw [Input.event?, Option.toList_none, List.append_nil]
      exact h.congr hnodes hdevises hvalues
  | change oldId newId req isOpen order =>
      obtain ⟨hnodes, hdevises, hvalues⟩ :=
        (c.remove oldId).insert_store order newId (.new req (.new isOpen))
      rw [Input.event?, Option.toList_none, List.append_nil]
      exact h.congr hnodes hdevises hvalues
  | other | delete | receive | hangUp =>
      rw [Input.event?, Option.toList_none, List.append_nil]
      exact h.congr rfl rfl rfl

theorem upToDate_run (inputs : List Input) :
    UpToDate (run inputs) (inputs.filterMap Input.event?) := by
  induction inputs using List.reverseRecOn with
  | nil =>
      refine ⟨?_, ?_, ?_⟩
      · simpa [run, new] using tracks_nil
      · simpa [run, new] using tracks_nil
      · simpa [run, new] using tracks_nil
  | append_singleton inputs input ih =>
      have hstep := upToDate_step ih input
      rw [run, List.foldl_append, List.filterMap_append]
      show UpToDate ((run inputs).step input) _
      cases hevent : input.event? <;> simpa [hevent] using hstep

end WebSockCoord

/-! ## What no subscriber loses -/

/-- What all operations on a unit keep. -/
structure Stable (P : CoordUnitWebSocketData → Prop) : Prop where
  nodeEvents : ∀ u id state, P u → P (u.nodeEvents id state)
  deviceEvents : ∀ u id state, P u → P (u.deviceEvents id state)
  valueEvents : ∀ u tag value, P u → P (u.valueEvents tag value)
  flush : ∀ u, P u → P u.flush.1
  receive : ∀ u, P u → P { u with sendChanel := u.sendChanel.receive }
  hangUp : ∀ u, P u → P { u with sendChanel := u.sendChanel.hangUp }

theorem Stable.exists {ι : Type} {P : ι → CoordUnitWebSocketData → Prop} (h : ∀ i, Stable (P i))
    (A : ι → Prop) : Stable fun u => ∃ i, A i ∧ P i u where
  nodeEvents u id state := fun ⟨i, hi, hu⟩ => ⟨i, hi, (h i).nodeEvents u id state hu⟩
  deviceEvents u id state := fun ⟨i, hi, hu⟩ => ⟨i, hi, (h i).deviceEvents u id state hu⟩
  valueEvents u tag value := fun ⟨i, hi, hu⟩ => ⟨i, hi, (h i).valueEvents u tag value hu⟩
  flush u := fun ⟨i, hi, hu⟩ => ⟨i, hi, (h i).flush u hu⟩
  receive u := fun ⟨i, hi, hu⟩ => ⟨i, hi, (h i).receive u hu⟩
  hangUp u := fun ⟨i, hi, hu⟩ => ⟨i, hi, (h i).hangUp u hu⟩

/-- The id and the request that a command brings. -/
def Input.adds : Input → Option (Nat × SubscribeRequest)
  | .new id req _ _ => some (id, req)
  | .change _ newId req _ _ => some (newId, req)
  | _ => none

namespace WebSockCoord

/-- Of each subscriber with its id. -/
def Each (P : Nat → CoordUnitWebSocketData → Prop) (c : WebSockCoord) : Prop :=
  ∀ id u, c.subscribers id = some u → P id u

variable {c c' : WebSockCoord} {P : Nat → CoordUnitWebSocketData → Prop}

theorem Each.tell (h : c.Each P) {f : CoordUnitWebSocketData → CoordUnitWebSocketData}
    (hsame : c'.subscribers = c.subscribers) (hf : ∀ id u, P id u → P id (f u)) :
    (c'.tell f).Each P := by
  intro id u hu
  obtain ⟨old, hold, rfl⟩ := Option.map_eq_some_iff.mp hu
  rw [hsame] at hold
  exact hf id old (h id old hold)

theorem Each.update (h : c.Each P) {id : Nat} {unit : Option CoordUnitWebSocketData}
    (hunit : ∀ u, unit = some u → P id u) :
    ({ c with subscribers := Function.update c.subscribers id unit } : WebSockCoord).Each P := by
  intro id' u hu
  change Function.update c.subscribers id unit id' = some u at hu
  by_cases hid : id' = id
  · subst hid
    rw [Function.update_self] at hu
    exact hunit u hu
  · rw [Function.update_of_ne hid] at hu
    exact h id' u hu

section Operations

variable (hP : ∀ id, Stable (P id))
include hP

theorem Each.flushSubscribers (h : c.Each P) : c.flushSubscribers.Each P := by
  intro id u hu
  obtain ⟨old, hold, hflush⟩ := Option.bind_eq_some_iff.mp hu
  obtain ⟨-, heq⟩ := Option.ite_none_right_eq_some.mp hflush
  obtain rfl := Option.some.inj heq
  exact (hP id).flush old (h id old hold)

theorem Each.nodeEvent (h : c.Each P) (event : NodeEvent) : (c.nodeEvent event).Each P := by
  unfold WebSockCoord.nodeEvent
  dsimp only
  split
  · exact Each.flushSubscribers hP
      (Each.tell h rfl fun id u => (hP id).nodeEvents u event.id event.event)
  · exact h

theorem Each.deviceState (h : c.Each P) (event : DeviceEvent) : (c.deviceState event).Each P := by
  unfold WebSockCoord.deviceState
  dsimp only
  split
  · exact Each.tell h rfl fun id u => (hP id).deviceEvents u event.id event.event
  · exact h

theorem Each.measures (h : c.Each P) (measures : List ModbusMeasure) :
    (measures.foldl measure c).Each P := by
  induction measures generalizing c with
  | nil => exact h
  | cons value measures ih =>
      refine ih ?_
      unfold measure
      dsimp only
      split
      · exact Each.tell h rfl fun id u => (hP id).valueEvents u value.tag value.measureValue
      · exact h

theorem Each.insert (h : c.Each P) (order : HashOrder) {id : Nat} {unit : CoordUnitWebSocketData}
    (hunit : P id unit) : (c.insert order id unit).Each P := by
  unfold WebSockCoord.insert
  dsimp only
  split
  · refine h.update fun u hu => ?_
    obtain rfl := Option.some.inj hu
    have hnodes := List.foldlRecOn (motive := P id) (order.order c.nodes.toList) _ hunit
      fun u hu e _ => (hP id).nodeEvents u e.1 e.2 hu
    have hdevises := List.foldlRecOn (motive := P id) (order.order c.devises.toList) _ hnodes
      fun u hu e _ => (hP id).deviceEvents u e.1 e.2 hu
    have hvalues := List.foldlRecOn (motive := P id) (order.order c.values.toList) _ hdevises
      fun u hu e _ => (hP id).valueEvents u e.1 e.2 hu
    exact (hP id).flush _ hvalues
  · exact h

theorem Each.step (h : c.Each P) {input : Input}
    (hadds : ∀ id req, input.adds = some (id, req) → ∀ isOpen, P id (.new req (.new isOpen))) :
    (c.step input).Each P := by
  have hmap : ∀ (id : Nat) (f : CoordUnitWebSocketData → CoordUnitWebSocketData),
      (∀ u, P id u → P id (f u)) → ∀ u, (c.subscribers id).map f = some u → P id u := by
    intro id f hf u hu
    obtain ⟨old, hold, rfl⟩ := Option.map_eq_some_iff.mp hu
    exact hf old (h id old hold)
  cases input with
  | event event =>
      cases event with
      | nodeEvent event => exact Each.nodeEvent hP h event
      | deviceEvent event =>
          exact Each.flushSubscribers hP
            (Each.measures hP (Each.deviceState hP h event) event.measures)
  | other => exact h
  | new id req isOpen order => exact Each.insert hP h order (hadds id req rfl isOpen)
  | change oldId newId req isOpen order =>
      exact Each.insert hP (h.update fun u hu => by cases hu) order (hadds newId req rfl isOpen)
  | delete id => exact h.update fun u hu => by cases hu
  | receive id => exact h.update (hmap id _ (hP id).receive)
  | hangUp id => exact h.update (hmap id _ (hP id).hangUp)

theorem Each.steps (h : c.Each P) {inputs : List Input}
    (hadds : ∀ input ∈ inputs, ∀ id req, input.adds = some (id, req) →
      ∀ isOpen, P id (.new req (.new isOpen))) : (inputs.foldl WebSockCoord.step c).Each P := by
  induction inputs generalizing c with
  | nil => exact h
  | cons input inputs ih =>
      have hstep := Each.step hP h (hadds input List.mem_cons_self)
      exact ih hstep fun later hlater => hadds later (List.mem_cons_of_mem _ hlater)

end Operations

end WebSockCoord

/-! ### The channel of a client -/

/-- What was accepted last is in the queue. -/
structure ClientChannel.Sound (c : ClientChannel) : Prop where
  queued : c.queue <:+ c.accepted
  room : c.queue.length ≤ 2

theorem ClientChannel.Sound.trySend {c : ClientChannel} (h : c.Sound) (msg : Message) :
    (c.trySend msg).1.Sound := by
  unfold ClientChannel.trySend
  split
  · next hroom =>
      refine ⟨(List.suffix_append_inj_of_length_eq rfl).mpr ⟨h.queued, rfl⟩, ?_⟩
      rw [List.length_append]
      exact hroom.2
  · exact ⟨h.queued, h.room⟩

theorem ClientChannel.sound_new (isOpen : Bool) : (new isOpen).Sound :=
  ⟨List.suffix_refl [], Nat.zero_le 2⟩

theorem stable_sound : Stable fun u => u.sendChanel.Sound where
  nodeEvents u id state h := by
    unfold CoordUnitWebSocketData.nodeEvents
    split <;> exact h
  deviceEvents u id state h := by
    unfold CoordUnitWebSocketData.deviceEvents
    split <;> exact h
  valueEvents u tag value h := by
    unfold CoordUnitWebSocketData.valueEvents
    split <;> exact h
  flush u h := by
    unfold CoordUnitWebSocketData.flush
    split
    · exact h
    · exact h.trySend _
  receive u h := by
    refine ⟨(List.tail_suffix _).trans h.queued, ?_⟩
    show u.sendChanel.queue.tail.length ≤ 2
    rw [List.length_tail]
    exact (Nat.sub_le _ _).trans h.room
  hangUp u h := ⟨h.queued, h.room⟩

theorem WebSockCoord.sound_run (inputs : List Input) :
    (run inputs).Each fun _ u => u.sendChanel.Sound := by
  refine Each.steps (fun _ => stable_sound) (fun id u hu => by cases hu) ?_
  exact fun input _ id req _ isOpen => ClientChannel.sound_new isOpen

/-! ### The keys of a subscriber -/

/-- The unit has the keys of the request. -/
structure CoordUnitWebSocketData.AsksFor (u : CoordUnitWebSocketData) (req : SubscribeRequest) :
    Prop where
  nodes : u.nodes = .ofList req.nodes
  devises : u.devises = .ofList req.devices
  tags : u.tags = .ofList req.values

theorem stable_asksFor (req : SubscribeRequest) : Stable fun u => u.AsksFor req where
  nodeEvents u id state h := by
    unfold CoordUnitWebSocketData.nodeEvents
    split
    · exact ⟨h.nodes, h.devises, h.tags⟩
    · exact h
  deviceEvents u id state h := by
    unfold CoordUnitWebSocketData.deviceEvents
    split
    · exact ⟨h.nodes, h.devises, h.tags⟩
    · exact h
  valueEvents u tag value h := by
    unfold CoordUnitWebSocketData.valueEvents
    split
    · exact ⟨h.nodes, h.devises, h.tags⟩
    · exact h
  flush u h := by
    unfold CoordUnitWebSocketData.flush
    split
    · exact h
    · exact ⟨h.nodes, h.devises, h.tags⟩
  receive u h := ⟨h.nodes, h.devises, h.tags⟩
  hangUp u h := ⟨h.nodes, h.devises, h.tags⟩

/-! ## What the coordinator does in a run of the handlers -/

def LiveStep.event? : LiveStep → Option Event
  | .fromReader e => e
  | .connect | .socket .. | .command _ | .controllerGone => none

/-- The id and the request that a command brings. -/
def CoordUnitWebSocketCommand.adds : CoordUnitWebSocketCommand → Option (Nat × SubscribeRequest)
  | .new id unit => some (id, unit)
  | .change _ newId unit => some (newId, unit)
  | .delete _ => none

namespace Live

/-- What a handler does to the channels, as inputs. -/
def channelInputs (before after : SocketState) (event : SocketEvent) : List Input :=
  (match before, event with
    | .selecting currentId, .message _ => [.receive currentId]
    | _, _ => []) ++
  (before.receivers.filter (· ∉ after.receivers)).map .hangUp

variable (parse : String → Option SubscribeRequest)

/-- The inputs of the coordinator in a step. -/
def inputs (s : Live) : LiveStep → List Input
  | .connect | .controllerGone => []
  | .socket i event =>
    match s.sockets[i]? with
    | some socket =>
      channelInputs socket.state (socket.handle parse s.wsCounter s.coord.isSome event).1.state event
    | none => []
  | .command order => s.toWsCoord.head?.toList.map fun entry => s.input order entry.2
  | .fromReader event => [event.elim .other .event]

variable {parse} {s : Live}

theorem onChannels_eq (before after : SocketState) (event : SocketEvent) (c : WebSockCoord) :
    onChannels before after event c = (channelInputs before after event).foldl WebSockCoord.step c := by
  unfold onChannels channelInputs
  dsimp only
  rw [List.foldl_append, List.foldl_map]
  cases before <;> cases event <;> rfl

theorem step_coord {a : LiveStep} {c' : WebSockCoord} (hc' : (s.step parse a).coord = some c') :
    ∃ c, s.coord = some c ∧ c' = (s.inputs parse a).foldl WebSockCoord.step c := by
  cases a with
  | connect => exact ⟨c', hc', rfl⟩
  | socket i event =>
      cases hsocket : s.sockets[i]? with
      | none =>
          simp only [step, inputs, hsocket] at hc' ⊢
          exact ⟨c', hc', rfl⟩
      | some socket =>
          simp only [step, inputs, hsocket] at hc' ⊢
          obtain ⟨c, hc, rfl⟩ := Option.map_eq_some_iff.mp hc'
          exact ⟨c, hc, onChannels_eq _ _ _ c⟩
  | command order =>
      simp only [step, inputs] at hc' ⊢
      split at hc'
      · next c i command rest hc hqueue =>
          rw [hqueue]
          exact ⟨c, hc, (Option.some.inj hc').symm⟩
      · next hnone =>
          cases hqueue : s.toWsCoord with
          | nil => exact ⟨c', hc', rfl⟩
          | cons entry rest => exact absurd hqueue (hnone c' entry.1 entry.2 rest hc')
  | fromReader event =>
      obtain ⟨c, hc, rfl⟩ := Option.map_eq_some_iff.mp hc'
      exact ⟨c, hc, rfl⟩
  | controllerGone => cases hc'

theorem channelInputs_silent (before after : SocketState) (event : SocketEvent) :
    ∀ input ∈ channelInputs before after event, input.event? = none ∧ input.adds = none := by
  unfold channelInputs
  simp only [List.mem_append, List.mem_map]
  rintro input (hmem | ⟨id, -, rfl⟩)
  · split at hmem
    · rw [List.mem_singleton.mp hmem]
      exact ⟨rfl, rfl⟩
    · cases hmem
  · exact ⟨rfl, rfl⟩

theorem inputs_events (s : Live) (a : LiveStep) :
    (s.inputs parse a).filterMap Input.event? = a.event?.toList := by
  cases a with
  | connect | controllerGone => rfl
  | socket i event =>
      simp only [inputs]
      split
      · exact List.filterMap_eq_nil_iff.mpr fun input hinput =>
          (channelInputs_silent _ _ _ input hinput).1
      · rfl
  | command order =>
      simp only [inputs]
      cases s.toWsCoord with
      | nil => rfl
      | cons entry rest =>
          obtain ⟨i, command⟩ := entry
          cases command <;> rfl
  | fromReader event => cases event <;> rfl

/-- A unit is added by the command that is taken from the queue. -/
theorem inputs_adds {a : LiveStep} {input : Input} (hinput : input ∈ s.inputs parse a)
    {id : Nat} {req : SubscribeRequest} (hadds : input.adds = some (id, req)) :
    ∃ i command, (i, command) ∈ s.toWsCoord ∧ command.adds = some (id, req) := by
  cases a with
  | connect | controllerGone => cases hinput
  | socket i event =>
      simp only [inputs] at hinput
      split at hinput
      · rw [(channelInputs_silent _ _ _ input hinput).2] at hadds
        cases hadds
      · cases hinput
  | command order =>
      simp only [inputs] at hinput
      cases hqueue : s.toWsCoord with
      | nil =>
          rw [hqueue] at hinput
          cases hinput
      | cons entry rest =>
          obtain ⟨i, command⟩ := entry
          rw [hqueue] at hinput
          obtain rfl := List.mem_singleton.mp hinput
          refine ⟨i, command, List.mem_cons_self, ?_⟩
          cases command <;> exact hadds
  | fromReader event =>
      obtain rfl := List.mem_singleton.mp hinput
      cases event <;> cases hadds

/-- A coordinator that is there has done nothing but its inputs. -/
theorem coord_run {steps : List LiveStep} {c : WebSockCoord} (hc : (run parse steps).coord = some c) :
    ∃ inputs, c = WebSockCoord.run inputs ∧
      inputs.filterMap Input.event? = steps.filterMap LiveStep.event? := by
  induction steps using List.reverseRecOn generalizing c with
  | nil => exact ⟨[], (Option.some.inj hc).symm, rfl⟩
  | append_singleton steps a ih =>
      rw [run_append] at hc
      obtain ⟨old, hold, rfl⟩ := step_coord hc
      obtain ⟨inputs, rfl, hevents⟩ := ih hold
      refine ⟨inputs ++ (run parse steps).inputs parse a, ?_, ?_⟩
      · rw [WebSockCoord.run, WebSockCoord.run, List.foldl_append]
      · rw [List.filterMap_append, List.filterMap_append, hevents, inputs_events]
        cases hevent : a.event? <;> simp [hevent]

end Live

/-! ## The entry of a handler -/

/-- The last id that a handler drew, with what its client asked for then. -/
def Socket.Last (parse : String → Option SubscribeRequest) (socket : Socket) (id : Nat)
    (req : SubscribeRequest) : Prop :=
  ∃ ids texts text, socket.ids = ids ++ [id] ∧ socket.texts = texts ++ [text] ∧
    parse text = some req

/-- The handler drew the id for a text that asks for this. -/
def Socket.Asked (parse : String → Option SubscribeRequest) (socket : Socket) (id : Nat)
    (req : SubscribeRequest) : Prop :=
  ∃ text, (id, text) ∈ socket.ids.zip socket.texts ∧ parse text = some req

/-- What a handler knows of the ids that it drew. -/
structure Socket.Tied (parse : String → Option SubscribeRequest) (socket : Socket) : Prop where
  lengths : socket.ids.length = socket.texts.length
  nodup : socket.ids.Nodup
  subscribing : ∀ id req, socket.state = .subscribing id req → socket.Last parse id req
  selecting : ∀ id, socket.state = .selecting id → ∃ req, socket.Last parse id req
  changing : ∀ oldId id req, socket.state = .changing oldId id req → socket.Last parse id req

namespace Socket

variable {parse : String → Option SubscribeRequest} {s after : Socket} {n n' : Nat} {up : Bool}
  {command : Option CoordUnitWebSocketCommand} {id : Nat} {req req' : SubscribeRequest}

theorem Last.asked (h : s.Last parse id req) (hlengths : s.ids.length = s.texts.length) :
    s.Asked parse id req := by
  obtain ⟨ids, texts, text, hids, htexts, hparse⟩ := h
  rw [hids, htexts, List.length_append, List.length_append] at hlengths
  refine ⟨text, ?_, hparse⟩
  rw [hids, htexts, List.zip_append (Nat.add_right_cancel hlengths)]
  exact List.mem_append_right _ List.mem_cons_self

/-- An id was drawn for one text. -/
theorem Last.unique (h : s.Last parse id req) (htied : s.Tied parse) (hasked : s.Asked parse id req') :
    req' = req := by
  obtain ⟨ids, texts, text, hids, htexts, hparse⟩ := h
  have hlengths := htied.lengths
  have hnodup := htied.nodup
  obtain ⟨text', hmem, hparse'⟩ := hasked
  rw [hids, htexts, List.length_append, List.length_append] at hlengths
  rw [hids, htexts, List.zip_append (Nat.add_right_cancel hlengths)] at hmem
  rw [hids, List.nodup_append] at hnodup
  rcases List.mem_append.mp hmem with hbefore | hlast
  · have hid := (List.of_mem_zip hbefore).1
    exact absurd rfl (hnodup.2.2 id hid id List.mem_cons_self)
  · obtain ⟨-, rfl⟩ := Prod.mk.inj (List.mem_singleton.mp hlast)
    rw [hparse] at hparse'
    exact (Option.some.inj hparse').symm

theorem Asked.moves (h : s.Asked parse id req) (hmoves : Moves parse n up s after n' command)
    (hlengths : s.ids.length = s.texts.length) : after.Asked parse id req := by
  obtain ⟨text, hmem, hparse⟩ := h
  refine ⟨text, ?_, hparse⟩
  cases hmoves with
  | stay | refuse | finish => exact hmem
  | first | again =>
      rw [List.zip_append hlengths]
      exact List.mem_append_left _ hmem
  | send =>
      unfold sendMsg
      split <;> exact hmem

theorem Tied.moves (h : s.Tied parse) (hmoves : Moves parse n up s after n' command)
    (hfresh : ∀ id ∈ s.ids, id < n) : after.Tied parse := by
  have hlengths (text : String) : (s.ids ++ [n]).length = (s.texts ++ [text]).length := by
    rw [List.length_append, List.length_append, h.lengths]
    rfl
  have hnodup : (s.ids ++ [n]).Nodup := by
    rw [List.nodup_append]
    refine ⟨h.nodup, List.nodup_singleton n, fun id hid m hm => ?_⟩
    rw [List.mem_singleton.mp hm]
    exact Nat.ne_of_lt (hfresh id hid)
  cases hmoves with
  | stay => exact h
  | first config hstate =>
      refine ⟨hlengths config, hnodup, ?_, ?_, ?_⟩
      all_goals unfold newConfig
      all_goals cases hparse : parse config with
        | none => simp
        | some unit => simp [Last, hparse]
  | again config oldId hstate =>
      refine ⟨hlengths config, hnodup, ?_, ?_, ?_⟩
      all_goals unfold changeConfig
      all_goals cases hparse : parse config with
        | none => simp
        | some unit => simp [Last, hparse]
  | refuse hstate => exact ⟨h.lengths, h.nodup, nofun, nofun, nofun⟩
  | finish currentId hstate => exact ⟨h.lengths, h.nodup, nofun, nofun, nofun⟩
  | send =>
      unfold sendMsg
      split
      · next id unit hstate =>
          refine ⟨h.lengths, h.nodup, nofun, fun id' hid' => ⟨unit, ?_⟩, nofun⟩
          obtain rfl := SocketState.selecting.inj hid'
          exact h.subscribing id unit hstate
      · exact ⟨h.lengths, h.nodup, nofun, nofun, nofun⟩
      · next oldId newId unit hstate =>
          refine ⟨h.lengths, h.nodup, nofun, fun id' hid' => ⟨unit, ?_⟩, nofun⟩
          obtain rfl := SocketState.selecting.inj hid'
          exact h.changing oldId newId unit hstate
      · exact ⟨h.lengths, h.nodup, nofun, nofun, nofun⟩
      · exact ⟨h.lengths, h.nodup, nofun, nofun, nofun⟩
      · exact ⟨h.lengths, h.nodup, nofun, nofun, nofun⟩
      · exact h

/-- A command brings what its handler was asked for last. -/
theorem Moves.adds (hmoves : Moves parse n up s after n' command) (h : s.Tied parse)
    {c : CoordUnitWebSocketCommand} (hc : command = some c) (hadds : c.adds = some (id, req)) :
    s.Last parse id req := by
  cases hmoves with
  | stay | first | again | refuse | finish => cases hc
  | send =>
      unfold sendMsg at hc
      split at hc
      · next hstate =>
          obtain rfl := Option.some.inj hc
          obtain ⟨rfl, rfl⟩ := Prod.mk.inj (Option.some.inj hadds)
          exact h.subscribing _ _ hstate
      · cases hc
      · next hstate =>
          obtain rfl := Option.some.inj hc
          obtain ⟨rfl, rfl⟩ := Prod.mk.inj (Option.some.inj hadds)
          exact h.changing _ _ _ hstate
      · cases hc
      · obtain rfl := Option.some.inj hc
        cases hadds
      · cases hc
      · cases hc

end Socket

namespace Live

variable {parse : String → Option SubscribeRequest} {s : Live} {id : Nat} {req : SubscribeRequest}

/-- A handler drew the id for a text that asks for this. -/
def Asked (parse : String → Option SubscribeRequest) (s : Live) (id : Nat) (req : SubscribeRequest) :
    Prop :=
  ∃ (i : Nat) (socket : Socket), s.sockets[i]? = some socket ∧ socket.Asked parse id req

/-- Nobody is subscribed to anything that it did not ask for. -/
structure Tied (parse : String → Option SubscribeRequest) (s : Live) : Prop where
  sockets : ∀ (i : Nat) (socket : Socket), s.sockets[i]? = some socket → socket.Tied parse
  commands : ∀ i command, (i, command) ∈ s.toWsCoord → ∀ id req, command.adds = some (id, req) →
    s.Asked parse id req
  entries : ∀ c, s.coord = some c → c.Each fun id u => ∃ req, s.Asked parse id req ∧ u.AsksFor req

theorem tied_new : Tied parse new where
  sockets _ _ hsocket := by cases hsocket
  commands _ _ hmem := by cases hmem
  entries c hc id u hu := by
    obtain rfl := Option.some.inj hc
    cases hu

theorem Asked.step (h : s.Asked parse id req) (htied : s.Tied parse) (a : LiveStep) :
    (s.step parse a).Asked parse id req := by
  obtain ⟨i, socket, hsocket, hasked⟩ := h
  have hlt := (List.getElem?_eq_some_iff.mp hsocket).1
  cases a with
  | connect => exact ⟨i, socket, (List.getElem?_append_left hlt).trans hsocket, hasked⟩
  | socket j event =>
      simp only [Live.step]
      split
      · next mover hmover =>
          have hmoves : mover.Moves parse _ _ _ _ _ :=
            mover.handle_moves s.wsCounter s.coord.isSome event
          by_cases hj : j = i
          · subst hj
            obtain rfl := Option.some.inj (hsocket.symm.trans hmover)
            exact ⟨j, _, List.getElem?_set_self hlt,
              hasked.moves hmoves (htied.sockets j socket hsocket).lengths⟩
          · exact ⟨i, socket, (List.getElem?_set_ne hj).trans hsocket, hasked⟩
      · exact ⟨i, socket, hsocket, hasked⟩
  | command order =>
      simp only [Live.step]
      split <;> exact ⟨i, socket, hsocket, hasked⟩
  | fromReader event => exact ⟨i, socket, hsocket, hasked⟩
  | controllerGone => exact ⟨i, socket, hsocket, hasked⟩

/-- Where a handler comes from. -/
theorem step_sockets {a : LiveStep} {i : Nat} {after : Socket}
    (h : (s.step parse a).sockets[i]? = some after) :
    s.sockets[i]? = some after ∨ after = .new ∨ ∃ socket event, s.sockets[i]? = some socket ∧
      after = (socket.handle parse s.wsCounter s.coord.isSome event).1 := by
  cases a with
  | connect =>
      rcases Nat.lt_or_ge i s.sockets.length with hlt | hge
      · exact .inl ((List.getElem?_append_left hlt).symm.trans h)
      · have hmem := List.mem_of_getElem? ((List.getElem?_append_right hge).symm.trans h)
        exact .inr (.inl (List.mem_singleton.mp hmem))
  | socket j event =>
      simp only [Live.step] at h
      split at h
      · next socket hsocket =>
          have hlt := (List.getElem?_eq_some_iff.mp hsocket).1
          by_cases hj : j = i
          · subst hj
            rw [List.getElem?_set_self hlt] at h
            exact .inr (.inr ⟨socket, event, hsocket, (Option.some.inj h).symm⟩)
          · rw [List.getElem?_set_ne hj] at h
            exact .inl h
      · exact .inl h
  | command order =>
      simp only [Live.step] at h
      split at h <;> exact .inl h
  | fromReader event => exact .inl h
  | controllerGone => exact .inl h

/-- Where a command comes from. -/
theorem step_toWsCoord {a : LiveStep} {i : Nat} {command : CoordUnitWebSocketCommand}
    (h : (i, command) ∈ (s.step parse a).toWsCoord) :
    (i, command) ∈ s.toWsCoord ∨ ∃ socket event, s.sockets[i]? = some socket ∧
      (socket.handle parse s.wsCounter s.coord.isSome event).2.2 = some command := by
  cases a with
  | connect => exact .inl h
  | socket j event =>
      simp only [Live.step] at h
      split at h
      · next socket hsocket =>
          rcases List.mem_append.mp h with hold | hsent
          · exact .inl hold
          · obtain ⟨sent, hmem, heq⟩ := List.mem_map.mp hsent
            obtain ⟨rfl, rfl⟩ := Prod.mk.inj heq
            exact .inr ⟨socket, event, hsocket, Option.mem_toList.mp hmem⟩
      · exact .inl h
  | command order =>
      simp only [Live.step] at h
      split at h
      · next hqueue => exact .inl (hqueue ▸ List.mem_cons_of_mem _ h)
      · exact .inl h
  | fromReader event => exact .inl h
  | controllerGone => cases h

theorem Tied.step (h : s.Tied parse) (hkept : s.Kept parse) (a : LiveStep) :
    (s.step parse a).Tied parse := by
  refine ⟨?_, ?_, ?_⟩
  · intro i after hafter
    rcases step_sockets hafter with hsame | rfl | ⟨socket, event, hsocket, rfl⟩
    · exact h.sockets i after hsame
    · exact ⟨rfl, .nil, nofun, nofun, nofun⟩
    · exact (h.sockets i socket hsocket).moves
        (socket.handle_moves s.wsCounter s.coord.isSome event) (hkept.ids_lt i socket hsocket)
  · intro i command hmem id req hadds
    rcases step_toWsCoord hmem with hold | ⟨socket, event, hsocket, hsent⟩
    · exact (h.commands i command hold id req hadds).step h a
    · have hmoves : socket.Moves parse _ _ _ _ _ :=
        socket.handle_moves s.wsCounter s.coord.isSome event
      have htied := h.sockets i socket hsocket
      have hlast := hmoves.adds htied hsent hadds
      exact Asked.step ⟨i, socket, hsocket, hlast.asked htied.lengths⟩ h a
  · intro c' hc'
    obtain ⟨c, hc, rfl⟩ := step_coord hc'
    have hentries : c.Each fun id u => ∃ req, (s.step parse a).Asked parse id req ∧ u.AsksFor req := by
      intro id u hu
      obtain ⟨req, hasked, hreq⟩ := h.entries c hc id u hu
      exact ⟨req, hasked.step h a, hreq⟩
    refine WebSockCoord.Each.steps (fun id => Stable.exists stable_asksFor _) hentries ?_
    intro input hinput id req hadds isOpen
    obtain ⟨i, command, hmem, hcommand⟩ := inputs_adds hinput hadds
    exact ⟨req, (h.commands i command hmem id req hcommand).step h a, rfl, rfl, rfl⟩

theorem tied_run (parse : String → Option SubscribeRequest) (steps : List LiveStep) :
    Tied parse (run parse steps) := by
  induction steps using List.reverseRecOn with
  | nil => exact tied_new
  | append_singleton steps a ih =>
      rw [run_append]
      exact ih.step (kept_run parse steps) a

/-- A subscriber whose id a handler listens to has what the handler was asked for last. -/
theorem Tied.current (h : s.Tied parse) (hkept : s.Kept parse) {i : Nat} {socket : Socket}
    (hsocket : s.sockets[i]? = some socket) (hstate : socket.state = .selecting id)
    {c : WebSockCoord} (hc : s.coord = some c) {u : CoordUnitWebSocketData}
    (hu : c.subscribers id = some u) :
    ∃ text req, socket.texts.getLast? = some text ∧ parse text = some req ∧ u.AsksFor req := by
  obtain ⟨asked, ⟨j, owner, howner, hasked⟩, hasks⟩ := h.entries c hc id u hu
  obtain ⟨req, hlast⟩ := (h.sockets i socket hsocket).selecting id hstate
  have hmem : id ∈ socket.ids := by
    obtain ⟨ids, texts, text, hids, -⟩ := hlast
    rw [hids]
    exact List.mem_append_right _ List.mem_cons_self
  -- an id belongs to one handler
  obtain rfl : i = j := by
    obtain ⟨text, htext, -⟩ := hasked
    exact hkept.ids_own i j socket owner hsocket howner id hmem (List.of_mem_zip htext).1
  obtain rfl := Option.some.inj (hsocket.symm.trans howner)
  obtain rfl := hlast.unique (h.sockets i socket hsocket) hasked
  obtain ⟨ids, texts, text, -, htexts, hparse⟩ := hlast
  exact ⟨text, asked, by rw [htexts, List.getLast?_concat], hparse, hasks⟩

end Live

end ModbusLogger.WebSockets
