import ModbusLogger.Reader.Scheduling

/-!
# What a loop announces

The events of a loop tell its connection. `hear` is what a listener makes of them: a connection is
the end of an attempt, and only over a connection devices are polled. A loop sends no event that a
listener does not expect, and when it waits, a listener knows whether it is connected.
-/

namespace ModbusLogger.Reader

def MainMsg.event? : MainMsg → Option Event
  | .event e => some e
  | .request _ => none

/-- What the next event of the node tells, if it may come at all. -/
def hear (id : Int) (state : NodeEventType) : Event → Option NodeEventType
  | .nodeEvent event =>
    if event.id = id then
      match event.event with
      | .connecting => some .connecting
      | .connected => if state = .connecting then some .connected else none
      | .unConnected => some .unConnected
    else none
  | .deviceEvent _ => if state = .connected then some .connected else none

namespace ReadMaster

variable {J : Type*} {env : Environment J} {Address : String → Int → Prop} {s s' : ReadMaster}
  {node : Int}

/-- A listener has heard all events, and knows the state of the connection from them. The address is
one of those that the loop was told. -/
structure Told (Address : String → Int → Prop) (node : Int) (s : ReadMaster) : Prop where
  id : s.id = node
  address : Address s.ip s.port
  heard : (s.toController.filterMap MainMsg.event?).foldlM (hear node) .unConnected = some s.ctxState

/-- The announced state is the state. An attempt has an end, unless the address cannot be read. -/
structure Announced (env : Environment J) (Address : String → Int → Prop) (node : Int)
    (s : ReadMaster) : Prop extends Told Address node s where
  line : s.ctx.isSome = true ↔ s.ctxState = .connected
  ended : s.ctxState = .connecting → env.parses (s.ip ++ ":" ++ toString s.port) = false

theorem Told.congr (h : Told Address node s) (hid : s'.id = s.id) (hip : s'.ip = s.ip)
    (hport : s'.port = s.port) (hsent : s'.toController = s.toController)
    (hstate : s'.ctxState = s.ctxState) : Told Address node s' := by
  refine ⟨hid.trans h.id, hip ▸ hport ▸ h.address, ?_⟩
  rw [hsent, hstate]
  exact h.heard

theorem Told.sent {event : Event} {state : NodeEventType} (h : Told Address node s)
    (hheard : hear node s.ctxState event = some state) :
    Told Address node ({ s with ctxState := state }.send (.event event)) := by
  refine ⟨h.id, h.address, ?_⟩
  show ((s.toController ++ [MainMsg.event event]).filterMap MainMsg.event?).foldlM _ _ = some state
  rw [List.filterMap_append, List.foldlM_append, h.heard]
  show (hear node s.ctxState event).bind some = some state
  rw [hheard]
  rfl

theorem Told.connecting (h : Told Address node s) :
    Told Address node (s.sendConnectingMsg .connecting) := by
  apply h.sent
  simp [hear, h.id]

theorem Told.unConnected (h : Told Address node s) :
    Told Address node (s.sendConnectingMsg .unConnected) := by
  apply h.sent
  simp [hear, h.id]

theorem Told.connected (h : Told Address node s) (hstate : s.ctxState = .connecting) :
    Told Address node (s.sendConnectingMsg .connected) := by
  apply h.sent
  simp [hear, h.id, hstate]

/-- Requests tell nothing, and they leave the connection alone. -/
theorem Announced.reloads (h : Announced env Address node s) (hreloads : Reloads s s') :
    Announced env Address node s' := by
  obtain ⟨requests, hasked⟩ := hreloads.asked
  have hstate : s'.ctxState = s.ctxState := by rw [hreloads.rest]
  have hctx : s'.ctx = s.ctx := by rw [hreloads.rest]
  have hnone : (requests.map MainMsg.request).filterMap MainMsg.event? = [] := by
    rw [List.filterMap_map, List.filterMap_eq_nil_iff]
    exact fun _ _ => rfl
  refine ⟨⟨?_, ?_, ?_⟩, ?_, ?_⟩
  · rw [hreloads.rest]
    exact h.id
  · rw [hreloads.rest]
    exact h.address
  · rw [hasked, List.filterMap_append, hnone, List.append_nil, hstate]
    exact h.heard
  · rw [hstate, hctx]
    exact h.line
  · rw [hreloads.rest]
    exact h.ended

/-! ## The connection -/

theorem Told.disconnecting (h : Told Address node s) :
    Announced env Address node (s.disconnecting env) := by
  refine ⟨?_, ?_, ?_⟩
  · have hdelayed : Told Address node { s with
        lastConnectingTime := FixedWidth.addU64 (env.getTime s.moment) 60000
        moment := s.moment + 1 } := h.congr rfl rfl rfl rfl rfl
    exact hdelayed.unConnected.congr rfl rfl rfl rfl rfl
  · exact ⟨nofun, nofun⟩
  · exact nofun

theorem Told.createContext (h : Told Address node s) :
    Announced env Address node (s.createContext env).1 := by
  have hdropped : Told Address node { s with ctx := none } := h.congr rfl rfl rfl rfl rfl
  have hasked : Told Address node ({ s with ctx := none }.sendConnectingMsg .connecting) :=
    hdropped.connecting
  unfold ReadMaster.createContext
  dsimp only
  split
  · split
    · have hopened : Told Address node { { s with ctx := none }.sendConnectingMsg .connecting with
          ctx := some ReadMaster.connected, moment := s.moment + 1 } := hasked.congr rfl rfl rfl rfl rfl
      exact ⟨hopened.connected rfl, ⟨fun _ => rfl, fun _ => rfl⟩, nofun⟩
    · exact Told.disconnecting (hasked.congr rfl rfl rfl rfl rfl)
  · next hparses =>
      exact ⟨hasked, ⟨nofun, nofun⟩, fun _ => Bool.eq_false_iff.mpr hparses⟩

theorem Told.moreTime (h : Told Address node s) {idx : Option Nat} (hmore : s.moreTime idx = some s') :
    Told Address node s' := by
  cases idx with
  | none =>
      obtain rfl := Option.some.inj hmore
      exact h
  | some idx =>
      obtain ⟨device, -, rfl⟩ := Option.map_eq_some_iff.mp hmore
      exact h.congr rfl rfl rfl rfl rfl

theorem Told.increaseTimeout (h : Told Address node s) {idx : Option Nat}
    (hincrease : s.increaseTimeout env idx = some s') : Announced env Address node s' := by
  obtain ⟨a, ha, rfl⟩ := Option.map_eq_some_iff.mp hincrease
  have hcreated : Announced env Address node ((a.disconnecting env).createContext env).1 :=
    ((h.moreTime ha).disconnecting).toTold.createContext
  dsimp only
  split
  · exact hcreated
  · exact hcreated.toTold.disconnecting

theorem Told.headerMismatched (h : Told Address node s) {action : HeaderMismatchAction}
    (hmismatched : s.headerMismatched env action = some s') : Announced env Address node s' := by
  have hafter : Told Address node { s with lastestDeviceIndex := s.currentDeviseIndex } :=
    h.congr rfl rfl rfl rfl rfl
  cases action with
  | increaseCurrent => exact hafter.increaseTimeout hmismatched
  | increasePrevious => exact hafter.increaseTimeout hmismatched

/-! ## Polling -/

/-- A poll needs the connection, and so does its report. -/
theorem Announced.poll (h : Announced env Address node s) {idx : Nat} {device : ModbusDeviceUnit}
    (hctx : s.ctx.isSome = true) (hpoll : s.poll env idx device = some s') :
    Announced env Address node s' := by
  obtain ⟨⟨pool, round⟩, hpool, -⟩ := Option.bind_eq_some_iff.mp hpoll
  rw [poll_of_pollPool hpool] at hpoll
  have hstate := h.line.mp hctx
  have hlooped : Announced env Address node (s.looped env idx device pool round) :=
    ⟨h.toTold.congr rfl rfl rfl rfl rfl, ⟨fun _ => hstate, fun _ => rfl⟩, h.ended⟩
  cases hflow : round.flow with
  | next =>
      rw [hflow] at hpoll
      obtain ⟨renewed, -, rfl⟩ := Option.map_eq_some_iff.mp hpoll
      have hheard : hear node (s.looped env idx device pool round).ctxState
          (.deviceEvent (report device round)) = some .connected := if_pos hstate
      exact ⟨(hlooped.toTold.sent hheard).congr rfl rfl rfl rfl hstate,
        ⟨fun _ => hstate, fun _ => rfl⟩, h.ended⟩
  | socketFail =>
      rw [hflow] at hpoll
      obtain rfl := Option.some.inj hpoll
      exact hlooped.toTold.disconnecting
  | headerMismatch action =>
      rw [hflow] at hpoll
      exact hlooped.toTold.headerMismatched hpoll

theorem Announced.read (h : Announced env Address node s) (hread : s.read env = some s') :
    Announced env Address node s' := by
  unfold ReadMaster.read at hread
  split at hread
  · obtain rfl := Option.some.inj hread
    exact h
  · split at hread
    · cases hread
    · split at hread
      · next hready => exact h.poll hready.2 hread
      · obtain rfl := Option.some.inj hread
        exact h

theorem Announced.tick (h : Announced env Address node s) (htick : s.tick env = some s') :
    Announced env Address node s' := by
  obtain ⟨⟨a, found⟩, hdevices, htick⟩ := Option.bind_eq_some_iff.mp htick
  have ha : Announced env Address node a := by
    unfold withDevices at hdevices
    split at hdevices
    · exact h.reloads (createDevices_reloads hdevices)
    · obtain ⟨rfl, -⟩ := Prod.mk.inj (Option.some.inj hdevices)
      exact h
  have hopened : Announced env Address node (a.withContext env).1 := by
    unfold withContext
    split
    · exact ha.toTold.createContext
    · exact ha
  dsimp only at htick
  split at htick
  · split at htick
    · exact hopened.read htick
    · obtain rfl := Option.some.inj htick
      exact hopened
  · obtain rfl := Option.some.inj htick
    exact ha

theorem Announced.update (h : Announced env Address node s) {conf : NodeRead}
    (hconf : Address conf.ip (conf.port.getD 502)) (hupdate : s.update env conf = some s') :
    Announced env Address node s' := by
  obtain ⟨⟨a, created⟩, ha, hupdate⟩ := Option.bind_eq_some_iff.mp hupdate
  obtain rfl := Option.some.inj hupdate
  refine Announced.reloads ?_ (createDevices_reloads ha)
  split
  · exact Told.createContext ⟨h.id, hconf, h.heard⟩
  · exact h

end ReadMaster

namespace NodeLoop

open ReadMaster

variable {J : Type*} {env : Environment J} {Address : String → Int → Prop} {node : Int}

theorem announced_react {s s' : ReadMaster} {wake : Wake} (h : Announced env Address node s)
    (hwake : ∀ msg, wake = .message msg → Address msg.data.ip (msg.data.port.getD 502))
    (hreact : react env s wake = some (some s')) : Announced env Address node s' := by
  have hnothing (heq : some (some s) = some (some s')) : Announced env Address node s' := by
    obtain rfl := Option.some.inj (Option.some.inj heq)
    exact h
  cases wake with
  | lost => exact hnothing hreact
  | elapsed =>
      obtain ⟨a, ha, hsome⟩ := Option.map_eq_some_iff.mp hreact
      obtain rfl := Option.some.inj hsome
      exact h.tick ha
  | message msg =>
      unfold react at hreact
      dsimp only at hreact
      split at hreact
      · split at hreact
        · obtain ⟨a, ha, hsome⟩ := Option.map_eq_some_iff.mp hreact
          obtain rfl := Option.some.inj hsome
          exact h.update (hwake msg rfl) ha
        · exact hnothing hreact
      · split at hreact
        · cases hreact
        · exact hnothing hreact
      · exact hnothing hreact

theorem announced_turn {n n' : NodeLoop} {wake : Wake} (h : Announced env Address node n.readMaster)
    (hwake : ∀ msg, wake = .message msg → Address msg.data.ip (msg.data.port.getD 502))
    (hturn : turn env n wake = some n') : Announced env Address node n'.readMaster := by
  unfold turn at hturn
  split at hturn
  · obtain rfl := Option.some.inj hturn
    exact h
  · obtain ⟨reaction, hreact, hturn⟩ := Option.bind_eq_some_iff.mp hturn
    cases reaction with
    | none =>
        obtain rfl := Option.some.inj hturn
        exact h
    | some s =>
        obtain ⟨⟨s', time⟩, hnext, rfl⟩ := Option.map_eq_some_iff.mp hturn
        exact (announced_react h hwake hreact).reloads (whenNext_reloads hnext)

theorem announced_run {conf : NodeRead} {wakes : List Wake} {n : NodeLoop}
    (hconf : Address conf.ip (conf.port.getD 502))
    (hwakes : ∀ msg, .message msg ∈ wakes → Address msg.data.ip (msg.data.port.getD 502))
    (h : run env conf wakes = some n) : Announced env Address conf.id n.readMaster := by
  refine Transducer.foldlM_invariant
    (I := fun n : NodeLoop => Announced env Address conf.id n.readMaster) ?_ ?_ h
  · rintro n wake n' hwake hn hturn
    exact announced_turn hn (fun msg hmsg => hwakes msg (hmsg ▸ hwake)) hturn
  · exact ⟨⟨rfl, hconf, rfl⟩, ⟨nofun, nofun⟩, nofun⟩

/-- **Announcements.** In every run of a loop, whatever the network, the clock and the database do,
each event is one that a listener may expect: a node is connected only after an attempt, and devices
report only over a connection. When the loop waits, the last state that was announced is that of the
connection, and an attempt was announced last only if the address is none. -/
theorem events_announced (env : Environment J) (conf : NodeRead) (wakes : List Wake) (n : NodeLoop)
    (h : run env conf wakes = some n) :
    ∃ state, (n.readMaster.toController.filterMap MainMsg.event?).foldlM (hear conf.id) .unConnected =
      some state ∧ (n.readMaster.ctx.isSome ↔ state = .connected) ∧ (state = .connecting →
        env.parses (n.readMaster.ip ++ ":" ++ toString n.readMaster.port) = false) := by
  have hannounced : Announced env (fun _ _ => True) conf.id n.readMaster :=
    announced_run trivial (fun _ _ => trivial) h
  exact ⟨_, hannounced.heard, hannounced.line, hannounced.ended⟩

/-- The connection is lost and made again. -/
theorem events_announced_gateway :
    ∃ n, run gatewayEnvironment ⟨1, "10.0.0.1", none⟩ [.elapsed, .elapsed] = some n ∧
      ∃ state, (n.readMaster.toController.filterMap MainMsg.event?).foldlM (hear 1) .unConnected =
        some state ∧ (n.readMaster.ctx.isSome ↔ state = .connected) ∧ (state = .connecting →
          gatewayEnvironment.parses (n.readMaster.ip ++ ":" ++ toString n.readMaster.port) =
            false) := by
  have hruns : (run gatewayEnvironment ⟨1, "10.0.0.1", none⟩ [.elapsed, .elapsed]).isSome = true := by
    decide +kernel
  obtain ⟨n, hrun⟩ := Option.isSome_iff_exists.mp hruns
  exact ⟨n, hrun, events_announced gatewayEnvironment ⟨1, "10.0.0.1", none⟩ _ n hrun⟩

end NodeLoop

end ModbusLogger.Reader
