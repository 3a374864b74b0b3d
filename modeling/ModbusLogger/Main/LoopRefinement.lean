import ModbusLogger.Lib.Traces
import ModbusLogger.Main.Topology
import ModbusLogger.Reader.Reports

/-!
# The loops of the system poll

`Main.NodeLoop` is what the others see of a loop: what it asks and hears, and where it may send
events. `Reader.NodeLoop` is the loop that polls, with its network, its clock and its choice of
devices. Each run of the second is one of the first: with the same messages from the broadcast, it
sends the same messages in the same order, and comes to the same node with the same devices.
-/

namespace ModbusLogger

/-! ## The columns that the reader uses -/

namespace Db

variable {J : Type}

def NodeRead.forReader (node : NodeRead) : Reader.NodeRead := ⟨node.id, node.ip, node.port⟩

def DeviceRead.forReader (device : DeviceRead) : Reader.DeviceRead where
  id := device.id
  address := device.address
  timeForRecall := device.timeForRecall
  timeout := device.timeout
  retryCount := device.retryCount
  isActive := device.isActive
  readByGroup := device.readByGroup

def ValueRead.forReader (value : ValueRead J) : Reader.ValueRead J :=
  ⟨value.id, value.decodingType, value.settings, value.isLogging⟩

def ConfigEventType.forReader : ConfigEventType → Reader.ConfigEventType
  | create => .create
  | update => .update
  | delete => .delete

def ConfigEvent.forReader (msg : ConfigEvent) : Reader.ConfigEvent :=
  ⟨msg.eventType.forReader, msg.data.forReader⟩

end Db

namespace Main

open Db Traces

variable {J : Type}

/-! ## What a loop exchanges with the others -/

/-- A message that comes over the broadcast, a message to the controller, or an answer. -/
inductive Exchange (J : Type) where
  | arrived (msg : ConfigEvent)
  | sent (msg : Reader.MainMsg)
  | heard (reply : Option (Reply J))

namespace Exchange

def arrived? : Exchange J → Option ConfigEvent
  | arrived msg => some msg
  | _ => none

def sent? : Exchange J → Option Reader.MainMsg
  | sent msg => some msg
  | _ => none

end Exchange

def query : Reader.Request → Query
  | .getDeviceByNode nodeId => .getDeviceByNode nodeId
  | .getValueByDeviceId deviceId => .getByDeviceId deviceId

/-- The moves that the system lets a loop make: `sendToWorkers`, `loopTurns`, `loopSendsEvent` and
`loopSendsRequest`. A loop that has ended makes none. -/
inductive NodeLoop.Step (backlog : Nat) :
    Option (NodeLoop J) → List (Exchange J) → Option (NodeLoop J) → Prop
  | arrives (l : NodeLoop J) (msg : ConfigEvent) :
      Step backlog (some l) [.arrived msg] (some { l with fromController := l.fromController ++ [msg] })
  | turns {l : NodeLoop J} {act : LoopAction} {r : Option (NodeLoop J)}
      (turned : l.turn backlog [] act = some r) : Step backlog (some l) [] r
  | hears {l : NodeLoop J} {rx : Nat} {reply : Option (Reply J)} {r : Option (NodeLoop J)}
      (turned : l.turn backlog [(rx, reply)] .hear = some r) :
      Step backlog (some l) [.heard reply] r
  | sendsEvent {l : NodeLoop J} (may : l.sendsEvents = true) (event : Reader.Event) :
      Step backlog (some l) [.sent (.event event)] (some l)
  | sendsRequest {l l' : NodeLoop J} {rx : Nat} {request : Reader.Request}
      (asked : l.ask? rx = some (query request, l')) :
      Step backlog (some l) [.sent (.request request)] (some l')

/-! ## The loop that polls, with its channel -/

/-- How often the database fails before it lists the devices, and what it answers, by moment. -/
structure Answers (J : Type) where
  devices : Nat → Nat × List DeviceRead
  values : Nat → Option (List (ValueRead J))

namespace Answers

/-- The rest of the world is that of `env`. -/
def inside (a : Answers J) (env : Reader.Environment J) : Reader.Environment J :=
  { env with
    devices := fun moment => ((a.devices moment).1, (a.devices moment).2.map DeviceRead.forReader)
    values := fun moment => (a.values moment).map fun values => values.map ValueRead.forReader }

/-- An answer is one that the database gives, or an error. -/
def Gives (a : Answers J) : Exchange J → Prop
  | .heard (some (.devices devices)) => ∃ moment, (a.devices moment).2 = devices
  | .heard (some (.values values)) => ∃ moment, a.values moment = some values
  | .heard (some _) => False
  | _ => True

end Answers

/-- `node_loop` with what the broadcast still has for it. -/
structure NodeTask where
  loop : Reader.NodeLoop
  fromController : List ConfigEvent

inductive Input where
  | arrives (msg : ConfigEvent)
  | receives
  | elapses

def Input.arrived? : Input → Option ConfigEvent
  | arrives msg => some msg
  | _ => none

namespace NodeTask

def start (conf : NodeRead) : NodeTask := ⟨.start conf.forReader, []⟩

/-- `from_controller.recv()`, as in `NodeLoop.recv?`. -/
def recv? (backlog : Nat) (fromController : List ConfigEvent) :
    Option (Reader.Wake × List ConfigEvent) :=
  if backlog < fromController.length then
    some (.lost, fromController.drop (fromController.length - backlog))
  else
    match fromController with
    | [] => none
    | msg :: rest => some (.message msg.forReader, rest)

/-- Nothing if the loop panics, has ended, or has nothing to receive. -/
def step (backlog : Nat) (env : Reader.Environment J) (n : NodeTask) (input : Input) :
    Option NodeTask :=
  if n.loop.ended then none
  else
    match input with
    | .arrives msg => some { n with fromController := n.fromController ++ [msg] }
    | .receives => do
      let (wake, fromController) ← recv? backlog n.fromController
      let loop ← n.loop.turn env wake
      return { loop, fromController }
    | .elapses => (n.loop.turn env .elapsed).map fun loop => { n with loop }

def run (backlog : Nat) (env : Reader.Environment J) (conf : NodeRead) (inputs : List Input) :
    Option NodeTask :=
  inputs.foldlM (step backlog env) (start conf)

end NodeTask

/-! ## The relation -/

/-- The same node with the same devices. -/
structure NodeLoop.Shows (l : NodeLoop J) (s : Reader.ReadMaster) : Prop where
  id : l.id = s.id
  ip : l.ip = s.ip
  port : l.port = s.port
  devices : l.devices.map (fun d => d.1.forReader.columns) =
    s.devices.map Reader.ModbusDeviceUnit.columns

theorem NodeLoop.Shows.devices_eq_nil_iff {l : NodeLoop J} {s : Reader.ReadMaster} (h : l.Shows s) :
    l.devices = [] ↔ s.devices = [] := by
  have hlength := congrArg List.length h.devices
  rw [List.length_map, List.length_map] at hlength
  rw [← List.length_eq_zero_iff, hlength, List.length_eq_zero_iff]

/-- A loop that waits, or is gone. -/
structure Follows (a : Answers J) (inputs : List Input) (n : NodeTask) (trace : List (Exchange J))
    (r : Option (NodeLoop J)) : Prop where
  arrived : trace.filterMap Exchange.arrived? = inputs.filterMap Input.arrived?
  sent : trace.filterMap Exchange.sent? = n.loop.readMaster.toController
  answers : ∀ x ∈ trace, a.Gives x
  ended : n.loop.ended = true → r = none
  waits : n.loop.ended = false → ∃ l, r = some l ∧ l.state = .select ∧
    l.fromController = n.fromController ∧ l.Shows n.loop.readMaster

/-! ## Matching a part of a turn -/

/-- What the read master does from `s` to `s'` is a path of the loop. -/
def Matched (backlog : Nat) (a : Answers J) (s s' : Reader.ReadMaster)
    (r r' : Option (NodeLoop J)) : Prop :=
  ∃ trace, Path (NodeLoop.Step backlog) r trace r' ∧
    s'.toController = s.toController ++ trace.filterMap Exchange.sent? ∧
    trace.filterMap Exchange.arrived? = [] ∧ ∀ x ∈ trace, a.Gives x

section Matched

variable {backlog : Nat} {a : Answers J} {env : Reader.Environment J} {s s' s'' : Reader.ReadMaster}
  {r r' r'' : Option (NodeLoop J)} {l l' : NodeLoop J}

theorem Matched.trans (h : Matched backlog a s s' r r') (h' : Matched backlog a s' s'' r' r'') :
    Matched backlog a s s'' r r'' := by
  obtain ⟨trace, hpath, hsent, harrived, hanswers⟩ := h
  obtain ⟨more, hpath', hsent', harrived', hanswers'⟩ := h'
  refine ⟨trace ++ more, hpath.trans hpath', ?_, ?_, List.forall_mem_append.mpr ⟨hanswers, hanswers'⟩⟩
  · rw [hsent', hsent, List.filterMap_append, List.append_assoc]
  · rw [List.filterMap_append, harrived, harrived']
    rfl

theorem Matched.of_step {trace : List (Exchange J)} (h : NodeLoop.Step backlog r trace r')
    (hsent : s'.toController = s.toController ++ trace.filterMap Exchange.sent?)
    (harrived : trace.filterMap Exchange.arrived? = []) (hanswers : ∀ x ∈ trace, a.Gives x) :
    Matched backlog a s s' r r' :=
  ⟨trace, .single h, hsent, harrived, hanswers⟩

/-- A move that the others do not see. -/
theorem Matched.silent (h : NodeLoop.Step backlog r [] r') (hsent : s'.toController = s.toController) :
    Matched backlog a s s' r r' :=
  .of_step h (by rw [hsent]; simp) rfl nofun

theorem matched_refl (hsent : s'.toController = s.toController) : Matched backlog a s s' r r :=
  ⟨[], .refl r, by rw [hsent]; simp, rfl, nofun⟩

/-- Events go out while the loop is where it sends them. -/
theorem matched_reports (h : s.Reports s') (hl : l.sendsEvents = true) :
    Matched backlog a s s' (some l) (some l) := by
  obtain ⟨events, hevents⟩ := h.sent
  have hpath : ∀ events : List Reader.Event, Path (NodeLoop.Step backlog) (some l)
      (events.map fun event => Exchange.sent (.event event)) (some l) := by
    intro events
    induction events with
    | nil => exact .refl _
    | cons event events ih => exact .cons (.sendsEvent hl event) ih
  refine ⟨_, hpath events, ?_, ?_, ?_⟩
  · rw [hevents, List.filterMap_map]
    exact congrArg _ (congrFun List.filterMap_eq_map events).symm
  · rw [List.filterMap_map, List.filterMap_eq_nil_iff]
    exact fun _ _ => rfl
  · intro x hx
    obtain ⟨event, -, rfl⟩ := List.mem_map.mp hx
    exact trivial

/-! ### Reading the devices -/

/-- A request, and the answer to it. -/
theorem matched_asks {request : Reader.Request} {reply : Option (Reply J)}
    (hasked : l.ask? 0 = some (query request, l')) (hrx : l'.rx? = some 0)
    (hanswer : a.Gives (.heard reply))
    (hsent : s'.toController = s.toController ++ [.request request]) :
    Matched backlog a s s' (some l) (l'.hear reply) := by
  have hheard : l'.turn backlog [(0, reply)] .hear = some (l'.hear reply) := by
    unfold NodeLoop.turn
    rw [hrx]
    rfl
  refine ⟨[.sent (.request request), .heard reply],
    .cons (NodeLoop.Step.sendsRequest hasked) (.single (NodeLoop.Step.hears hheard)), hsent, rfl, ?_⟩
  simpa using ⟨trivial, hanswer⟩

theorem ask?_devices {caller : Caller} (hstate : l.state = .sendGetDevice caller) : l.ask? 0 =
    some (query (.getDeviceByNode l.id), { l with state := .awaitDevices caller 0 }) := by
  unfold NodeLoop.ask?
  rw [hstate]
  rfl

/-- The loop asks again as long as the database fails. -/
theorem matched_failures {caller : Caller} (hl : l.state = .sendGetDevice caller) (failures : Nat)
    (hsent : s'.toController = s.toController ++
      List.replicate failures (.request (.getDeviceByNode l.id))) :
    Matched backlog a s s' (some l) (some l) := by
  induction failures generalizing s with
  | zero => exact matched_refl (by rw [hsent]; simp)
  | succ failures ih =>
      have hagain : ({ l with state := .awaitDevices caller 0 } : NodeLoop J).hear none = some l := by
        show some ({ l with state := .sendGetDevice caller } : NodeLoop J) = some l
        rw [← hl]
      have hfirst : Matched backlog a s (s.send (.request (.getDeviceByNode l.id))) (some l) (some l) := by
        have hasks : Matched backlog a s (s.send (.request (.getDeviceByNode l.id))) (some l)
            (({ l with state := .awaitDevices caller 0 } : NodeLoop J).hear none) :=
          matched_asks (ask?_devices hl) rfl trivial rfl
        rwa [hagain] at hasks
      refine hfirst.trans (ih ?_)
      rw [hsent, List.replicate_succ]
      simp [Reader.ReadMaster.send]

theorem next_state (l : NodeLoop J) (state : LoopState J) (caller : Caller)
    (units : List (DeviceRead × List (ValueRead J))) (rest : List DeviceRead) :
    ({ l with state } : NodeLoop J).next caller units rest = l.next caller units rest := by
  cases rest with
  | cons device rest => rfl
  | nil => cases units <;> cases caller <;> rfl

/-- One request, and a unit of the device if it is answered. -/
theorem getDeviceFromDb_spec {env : Reader.Environment J} {config : Reader.DeviceRead}
    {unit : Option Reader.ModbusDeviceUnit} (h : s.getDeviceFromDb env config = some (s', unit)) :
    s'.toController = s.toController ++ [.request (.getValueByDeviceId config.id)] ∧
      (env.values (s.moment + 1) = none ∧ unit = none ∨
        (env.values (s.moment + 1)).isSome = true ∧
          ∃ device, unit = some device ∧ device.columns = config.columns) := by
  obtain ⟨fresh, hfresh, h⟩ := Option.bind_eq_some_iff.mp h
  obtain ⟨time, -, hfresh⟩ := Option.bind_eq_some_iff.mp hfresh
  obtain rfl := Option.some.inj hfresh
  dsimp only at h
  split at h
  · next values hvalues =>
    obtain ⟨filled, hfilled, h⟩ := Option.bind_eq_some_iff.mp h
    obtain ⟨rfl, rfl⟩ := Prod.mk.inj (Option.some.inj h)
    obtain ⟨pool, -, rfl⟩ := Option.map_eq_some_iff.mp hfilled
    refine ⟨rfl, .inr ⟨?_, _, rfl, rfl⟩⟩
    exact Option.isSome_of_eq_some hvalues
  · next hvalues =>
    obtain ⟨rfl, rfl⟩ := Prod.mk.inj (Option.some.inj h)
    exact ⟨rfl, .inl ⟨hvalues, rfl⟩⟩

/-- The values of the devices, one after the other. -/
theorem matched_units (l : NodeLoop J) (caller : Caller) {rest : List DeviceRead}
    {units : List Reader.ModbusDeviceUnit} (acc : List (DeviceRead × List (ValueRead J)))
    (h : s.createUnits (a.inside env) (rest.map DeviceRead.forReader) = some (s', units)) :
    ∃ more : List (DeviceRead × List (ValueRead J)),
      Matched backlog a s s' (l.next caller acc rest) (l.created caller (acc ++ more)) ∧
        more.map (fun d => d.1.forReader.columns) = units.map Reader.ModbusDeviceUnit.columns := by
  induction rest generalizing s units acc with
  | nil =>
      obtain ⟨rfl, rfl⟩ := Prod.mk.inj (Option.some.inj h)
      refine ⟨[], ?_, rfl⟩
      rw [List.append_nil]
      exact matched_refl rfl
  | cons device rest ih =>
      obtain ⟨⟨s₁, unit⟩, hunit, h⟩ := Option.bind_eq_some_iff.mp h
      obtain ⟨⟨s₂, later⟩, hlater, h⟩ := Option.bind_eq_some_iff.mp h
      obtain ⟨rfl, rfl⟩ := Prod.mk.inj (Option.some.inj h)
      obtain ⟨hsent, hvalues⟩ := getDeviceFromDb_spec hunit
      have hasked : ({ l with state := .sendGetValue caller acc device rest } : NodeLoop J).ask? 0 =
          some (query (.getValueByDeviceId device.id),
            { l with state := .awaitValues caller acc device rest 0 }) := rfl
      have hheard (reply : Option (Reply J)) (hanswer : a.Gives (.heard reply)) :
          Matched backlog a s s₁ (l.next caller acc (device :: rest))
            (({ l with state := .awaitValues caller acc device rest 0 } : NodeLoop J).hear reply) :=
        matched_asks hasked rfl hanswer hsent
      -- a device whose values are not answered is left out by both
      rcases hvalues with ⟨hnone, rfl⟩ | ⟨hsome, built, rfl, hbuilt⟩
      · obtain ⟨more, hmatched, hcolumns⟩ := ih acc hlater
        have hfirst := hheard none trivial
        rw [show ({ l with state := .awaitValues caller acc device rest 0 } : NodeLoop J).hear none =
          l.next caller acc rest from next_state l _ _ _ _] at hfirst
        exact ⟨more, hfirst.trans hmatched, hcolumns⟩
      · obtain ⟨values, hanswered⟩ : ∃ values, a.values (s.moment + 1) = some values := by
          rw [Answers.inside, Option.isSome_map] at hsome
          exact Option.isSome_iff_exists.mp hsome
        obtain ⟨more, hmatched, hcolumns⟩ := ih (acc ++ [(device, values)]) hlater
        have hfirst := hheard (some (.values values)) ⟨_, hanswered⟩
        rw [show ({ l with state := .awaitValues caller acc device rest 0 } : NodeLoop J).hear
            (some (.values values)) = l.next caller (acc ++ [(device, values)]) rest from
          next_state l _ _ _ _] at hfirst
        refine ⟨(device, values) :: more, hfirst.trans ?_, ?_⟩
        · simpa using hmatched
        · simp [hcolumns, hbuilt]

theorem created_of_ne_nil {caller : Caller} {units : List (DeviceRead × List (ValueRead J))}
    (h : units ≠ []) : l.created caller units = some { l with
      devices := units, state := if caller = .tick then .tick else .select } := by
  cases units with
  | nil => exact absurd rfl h
  | cons unit units => cases caller <;> rfl

/-- Where a loop comes to: the fields that the others see, and the state. -/
structure Reached (l l' : NodeLoop J) (s' : Reader.ReadMaster) (state : LoopState J) : Prop where
  shows : l'.Shows s'
  state : l'.state = state
  fromController : l'.fromController = l.fromController

/-- The devices are listed, after some failures. -/
theorem matched_listed (env : Reader.Environment J) {caller : Caller} (hid : l.id = s.id)
    (hstate : l.state = .sendGetDevice caller) :
    Matched backlog a s ({ s with devices := [] }.getDevises (a.inside env)).1 (some l)
      (({ l with state := .awaitDevices caller 0 } : NodeLoop J).hear
        (some (.devices (a.devices s.moment).2))) := by
  let requests :=
    List.replicate (a.devices s.moment).1 (Reader.MainMsg.request (.getDeviceByNode l.id))
  have hfailures : Matched backlog a s { s with toController := s.toController ++ requests } (some l)
      (some l) := matched_failures hstate (a.devices s.moment).1 rfl
  refine hfailures.trans (matched_asks (ask?_devices hstate) rfl ⟨_, rfl⟩ ?_)
  simp [Reader.ReadMaster.getDevises, Answers.inside, List.replicate_succ', requests, hid]

variable (backlog) in
/-- `create_devices`, from its first request to the choice of a device. -/
theorem matched_createDevices {caller : Caller} {created : Bool}
    (hl : l.Shows { s with devices := [] }) (hstate : l.state = .sendGetDevice caller)
    (h : s.createDevices (a.inside env) = some (s', created)) :
    ∃ l', Matched backlog a s s' (some l) (some l') ∧
      Reached l l' s' (if created = true ∧ caller = .tick then .tick else .select) := by
  have hrest := (Reader.ReadMaster.createDevices_reloads h).rest
  have hlisted : Matched backlog a s _ (some l) _ := matched_listed env hl.id hstate
  unfold Reader.ReadMaster.createDevices at h
  dsimp only at h
  have hconfigs : ({ s with devices := [] }.getDevises (a.inside env)).2 =
      (a.devices s.moment).2.map DeviceRead.forReader := rfl
  rw [hconfigs] at h
  cases hrows : (a.devices s.moment).2 with
  | nil =>
      rw [hrows] at h hlisted
      obtain ⟨rfl, rfl⟩ := Prod.mk.inj (Option.some.inj h)
      exact ⟨{ l with state := .select }, hlisted, ⟨hl.id, hl.ip, hl.port, hl.devices⟩, rfl, rfl⟩
  | cons row rows =>
      rw [hrows] at h hlisted
      obtain ⟨⟨s₁, units⟩, hunits, h⟩ := Option.bind_eq_some_iff.mp h
      obtain ⟨⟨s₂, time⟩, hnext, h⟩ := Option.bind_eq_some_iff.mp h
      obtain ⟨rfl, rfl⟩ := Prod.mk.inj (Option.some.inj h)
      obtain ⟨more, hmatched, hcolumns⟩ := matched_units l caller [] hunits
      have hchosen := (Reader.ReadMaster.whenNextDevice_spec hnext).1
      -- without a unit the choice of a device panics, and the run would be over
      have hne : more ≠ [] := by
        intro hnil
        rw [hnil] at hcolumns
        have hempty : units = [] := List.map_eq_nil_iff.mp hcolumns.symm
        rw [hempty] at hnext
        cases hnext
      rw [List.nil_append, created_of_ne_nil hne] at hmatched
      have hstarts : ({ l with state := .awaitDevices caller 0 } : NodeLoop J).hear
          (some (.devices (row :: rows))) = l.next caller [] (row :: rows) :=
        next_state l (.awaitDevices caller 0) caller [] (row :: rows)
      rw [hstarts] at hlisted
      have hsent : s₂.toController = s₁.toController := by rw [hchosen]
      refine ⟨_, (hlisted.trans hmatched).trans (matched_refl hsent), ⟨?_, ?_, ?_, ?_⟩, ?_, rfl⟩
      · rw [hrest]
        exact hl.id
      · rw [hrest]
        exact hl.ip
      · rw [hrest]
        exact hl.port
      · rw [hchosen]
        exact hcolumns
      · simp

/-! ### Turns -/

theorem shows_of_reports (hl : l.Shows s) (h : s.Reports s') : l.Shows s' :=
  ⟨hl.id.trans h.id.symm, hl.ip.trans h.ip.symm, hl.port.trans h.port.symm,
    hl.devices.trans h.devices.symm⟩

/-- The end of a tick that has devices: the connection, and a poll. -/
theorem matched_polled (hstate : l.state = .tick) (h : s.Reports s') :
    Matched backlog a s s' (some l) (some { l with state := .select }) := by
  have hsends : Matched backlog a s s' (some l) (some l) := by
    apply matched_reports h
    rw [NodeLoop.sendsEvents, hstate]
  have hfinish : l.turn backlog [] .finish = some (some { l with state := .select }) := by
    rw [NodeLoop.turn, hstate]
  exact hsends.trans (.silent (.turns hfinish) rfl)

theorem matched_tick (hl : l.Shows s) (hstate : l.state = .select)
    (h : s.tick (a.inside env) = some s') :
    ∃ l', Matched backlog a s s' (some l) (some l') ∧ Reached l l' s' .select := by
  have hturn : l.turn backlog [] .elapsed = some (some l.tick) := by
    rw [NodeLoop.turn, hstate]
  have hstarts : Matched backlog a s s (some l) (some l.tick) := .silent (.turns hturn) rfl
  obtain ⟨⟨s₁, found⟩, hdevices, h⟩ := Option.bind_eq_some_iff.mp h
  -- with devices: the connection is looked at, and if there is one, a device is polled
  have hpolled (hfound : found = true) : s₁.Reports s' := by
    rw [if_pos hfound] at h
    dsimp only at h
    split at h
    · exact (Reader.ReadMaster.reports_withContext s₁).trans (Reader.ReadMaster.reports_read h)
    · obtain rfl := Option.some.inj h
      exact Reader.ReadMaster.reports_withContext s₁
  unfold Reader.ReadMaster.withDevices at hdevices
  split at hdevices
  · next hempty =>
      have hnone : l.devices = [] := hl.devices_eq_nil_iff.mpr (List.isEmpty_iff.mp hempty)
      have hasks : l.tick = { l with state := .sendGetDevice .tick } := by
        rw [NodeLoop.tick, hnone]
        rfl
      have hshows : ({ l with state := .sendGetDevice .tick } : NodeLoop J).Shows
          { s with devices := [] } := ⟨hl.id, hl.ip, hl.port, by simp [hnone]⟩
      rw [hasks] at hstarts
      obtain ⟨l₁, hcreates, hreached⟩ := matched_createDevices backlog hshows rfl hdevices
      cases found with
      | false =>
          obtain rfl := Option.some.inj h
          exact ⟨l₁, hstarts.trans hcreates, hreached.shows, hreached.state, hreached.fromController⟩
      | true =>
          refine ⟨{ l₁ with state := .select }, (hstarts.trans hcreates).trans
            (matched_polled hreached.state (hpolled rfl)), ?_, rfl, hreached.fromController⟩
          have hshown := shows_of_reports hreached.shows (hpolled rfl)
          exact ⟨hshown.id, hshown.ip, hshown.port, hshown.devices⟩
  · next hsome =>
      obtain ⟨rfl, rfl⟩ := Prod.mk.inj (Option.some.inj hdevices)
      have hlisted : ¬l.devices.isEmpty = true := by
        rw [List.isEmpty_iff, hl.devices_eq_nil_iff, ← List.isEmpty_iff]
        exact hsome
      have hpolls : l.tick = { l with state := .tick } := by
        rw [NodeLoop.tick, if_neg hlisted]
      rw [hpolls] at hstarts
      have hshows : ({ l with state := .tick } : NodeLoop J).Shows s :=
        ⟨hl.id, hl.ip, hl.port, hl.devices⟩
      refine ⟨{ l with state := .select }, hstarts.trans (matched_polled rfl (hpolled rfl)), ?_,
        rfl, rfl⟩
      have hshown := shows_of_reports hshows (hpolled rfl)
      exact ⟨hshown.id, hshown.ip, hshown.port, hshown.devices⟩

/-- An update connects to a new address first, and reads the devices in any case. -/
theorem matched_update {conf : NodeRead} (hl : l.Shows s)
    (h : s.update (a.inside env) conf.forReader = some s') :
    ∃ l', Matched backlog a s s' (some (l.update conf)) (some l') ∧ Reached l l' s' .select := by
  obtain ⟨⟨s₁, created⟩, hcreated, h⟩ := Option.bind_eq_some_iff.mp h
  obtain rfl := Option.some.inj h
  have hends (created : Bool) : (if created = true ∧ Caller.update = .tick then .tick else .select) =
      (.select : LoopState J) := if_neg fun hboth => nomatch hboth.2
  -- both compare with the address that they have, which is the same
  by_cases hmoved : s.ip ≠ conf.ip ∨ s.port ≠ conf.port.getD 502
  · have hupdate : l.update conf =
        { l with ip := conf.ip, port := conf.port.getD 502, state := .connect } := by
      rw [NodeLoop.update, if_pos (by rw [hl.ip, hl.port]; exact hmoved)]
    rw [if_pos (show s.ip ≠ conf.forReader.ip ∨ s.port ≠ conf.forReader.port.getD 502 from hmoved)]
      at hcreated
    let moved : Reader.ReadMaster := { s with ip := conf.ip, port := conf.port.getD 502 }
    let tried : Reader.ReadMaster := (moved.createContext (a.inside env)).1
    let asking : NodeLoop J := { l with
      ip := conf.ip, port := conf.port.getD 502, devices := [], state := .sendGetDevice .update }
    have hreports : moved.Reports tried := Reader.ReadMaster.reports_createContext moved
    have hconnects : Matched backlog a moved tried (some (l.update conf)) (some (l.update conf)) :=
      matched_reports hreports (by rw [hupdate]; rfl)
    have hfinish : Matched backlog a tried tried (some (l.update conf)) (some asking) := by
      have hturn : ({ l with ip := conf.ip, port := conf.port.getD 502, state := .connect } :
          NodeLoop J).turn backlog [] .finish = some (some asking) := rfl
      rw [hupdate]
      exact .silent (.turns hturn) rfl
    have hreconnects : Matched backlog a s tried (some (l.update conf)) (some asking) :=
      hconnects.trans hfinish
    have hasking : asking.Shows { tried with devices := [] } :=
      ⟨hl.id.trans hreports.id.symm, hreports.ip.symm, hreports.port.symm, rfl⟩
    obtain ⟨l', hcreates, hreached⟩ := matched_createDevices backlog hasking rfl hcreated
    refine ⟨l', hreconnects.trans hcreates, hreached.shows, ?_, hreached.fromController⟩
    rw [hreached.state, hends]
  · have hupdate : l.update conf = { l with devices := [], state := .sendGetDevice .update } := by
      rw [NodeLoop.update, if_neg (by rw [hl.ip, hl.port]; exact hmoved)]
    rw [if_neg (show ¬(s.ip ≠ conf.forReader.ip ∨ s.port ≠ conf.forReader.port.getD 502) from hmoved)]
      at hcreated
    obtain ⟨l', hcreates, hreached⟩ := matched_createDevices backlog
      (l := { l with devices := [], state := .sendGetDevice .update })
      ⟨hl.id, hl.ip, hl.port, rfl⟩ rfl hcreated
    rw [hupdate]
    refine ⟨l', hcreates, hreached.shows, ?_, hreached.fromController⟩
    rw [hreached.state, hends]

theorem recv?_eq {wake : Reader.Wake} {rest : List ConfigEvent}
    (h : NodeTask.recv? backlog l.fromController = some (wake, rest)) :
    wake = .lost ∧ l.recv? backlog = some (none, { l with fromController := rest }) ∨
      ∃ msg, wake = .message (ConfigEvent.forReader msg) ∧
        l.recv? backlog = some (some msg, { l with fromController := rest }) := by
  unfold NodeTask.recv? at h
  unfold NodeLoop.recv?
  by_cases hlags : backlog < l.fromController.length
  · rw [if_pos hlags] at h
    obtain ⟨rfl, rfl⟩ := Prod.mk.inj (Option.some.inj h)
    exact .inl ⟨rfl, if_pos hlags⟩
  · rw [if_neg hlags] at h
    rw [if_neg hlags]
    cases hqueue : l.fromController with
    | nil =>
        rw [hqueue] at h
        cases h
    | cons msg kept =>
        rw [hqueue] at h
        obtain ⟨rfl, rfl⟩ := Prod.mk.inj (Option.some.inj h)
        exact .inr ⟨msg, rfl, rfl⟩

/-- Where the reaction to `wake` leads: the loop ends, or it waits for the next message of `rest`. -/
def Leads (backlog : Nat) (a : Answers J) (s : Reader.ReadMaster) (l : NodeLoop J) (rest : List ConfigEvent) :
    Option Reader.ReadMaster → Prop
  | none => Matched backlog a s s (some l) none
  | some s' => ∃ l', Matched backlog a s s' (some l) (some l') ∧
      Reached { l with fromController := rest } l' s' .select

/-- What `from_controller.recv()` gives, and what the loop makes of it. -/
theorem turn_receive {received : Option ConfigEvent} (hstate : l.state = .select)
    (hrecv : l.recv? backlog = some (received, l')) : l.turn backlog [] .receive =
      some (received.elim (some l') l'.handle) := by
  rw [NodeLoop.turn, hstate, hrecv]
  cases received <;> rfl

theorem leads_message {msg : ConfigEvent} {rest : List ConfigEvent}
    {reaction : Option Reader.ReadMaster} (hl : l.Shows s) (hstate : l.state = .select)
    (hrecv : l.recv? backlog = some (some msg, { l with fromController := rest }))
    (h : Reader.NodeLoop.react (a.inside env) s (.message msg.forReader) = some reaction) :
    Leads backlog a s l rest reaction := by
  have hreceives : Matched backlog a s s (some l)
      (({ l with fromController := rest } : NodeLoop J).handle msg) :=
    .silent (.turns (turn_receive hstate hrecv)) rfl
  have hshows : ({ l with fromController := rest } : NodeLoop J).Shows s :=
    ⟨hl.id, hl.ip, hl.port, hl.devices⟩
  have hother (hsame : ({ l with fromController := rest } : NodeLoop J).handle msg =
      some { l with fromController := rest }) : Leads backlog a s l rest (some s) := by
    rw [hsame] at hreceives
    exact ⟨_, hreceives, hshows, hstate, rfl⟩
  obtain ⟨eventType, data⟩ := msg
  cases eventType with
  | create =>
      obtain rfl := Option.some.inj h
      exact hother rfl
  | update =>
      replace h : (if data.id = s.id then (s.update (a.inside env) data.forReader).map some
        else some (some s)) = some reaction := h
      by_cases hid : data.id = s.id
      · have hhandles : ({ l with fromController := rest } : NodeLoop J).handle ⟨.update, data⟩ =
            some (({ l with fromController := rest } : NodeLoop J).update data) :=
          congrArg some (if_pos (hid.trans hl.id.symm))
        rw [hhandles] at hreceives
        rw [if_pos hid] at h
        obtain ⟨s', hupdate, rfl⟩ := Option.map_eq_some_iff.mp h
        obtain ⟨l', hmatched, hreached⟩ := matched_update hshows hupdate
        exact ⟨l', hreceives.trans hmatched, hreached⟩
      · rw [if_neg hid] at h
        obtain rfl := Option.some.inj h
        exact hother (congrArg some (if_neg fun heq => hid (heq.trans hl.id)))
  | delete =>
      replace h : (if data.id = s.id then some none else some (some s)) = some reaction := h
      by_cases hid : data.id = s.id
      · have hends : ({ l with fromController := rest } : NodeLoop J).handle ⟨.delete, data⟩ = none :=
          if_pos (hid.trans hl.id.symm)
        rw [hends] at hreceives
        rw [if_pos hid] at h
        obtain rfl := Option.some.inj h
        exact hreceives
      · rw [if_neg hid] at h
        obtain rfl := Option.some.inj h
        exact hother (if_neg fun heq => hid (heq.trans hl.id))

/-- The choice of the next device sends nothing. -/
theorem leads_turn {n n' : Reader.NodeLoop} {wake : Reader.Wake} {rest : List ConfigEvent}
    (hlives : n.ended = false)
    (hleads : ∀ reaction, Reader.NodeLoop.react (a.inside env) n.readMaster wake = some reaction →
      Leads backlog a n.readMaster l rest reaction)
    (h : n.turn (a.inside env) wake = some n') :
    n'.ended = true ∧ Matched backlog a n.readMaster n'.readMaster (some l) none ∨
      n'.ended = false ∧ ∃ l', Matched backlog a n.readMaster n'.readMaster (some l) (some l') ∧
        Reached { l with fromController := rest } l' n'.readMaster .select := by
  unfold Reader.NodeLoop.turn at h
  rw [if_neg (by rw [hlives]; exact Bool.false_ne_true)] at h
  obtain ⟨reaction, hreact, h⟩ := Option.bind_eq_some_iff.mp h
  cases reaction with
  | none =>
      obtain rfl := Option.some.inj h
      exact .inl ⟨rfl, hleads none hreact⟩
  | some s₁ =>
      obtain ⟨⟨s₂, time⟩, hnext, rfl⟩ := Option.map_eq_some_iff.mp h
      obtain ⟨l', hmatched, hreached⟩ := hleads (some s₁) hreact
      have hchosen := Reader.ReadMaster.whenNext_eq hnext
      refine .inr ⟨hlives, l', hmatched.trans (matched_refl ?_), ⟨?_, ?_, ?_, ?_⟩, hreached.state,
        hreached.fromController⟩
      · rw [hchosen]
      · rw [hchosen]
        exact hreached.shows.id
      · rw [hchosen]
        exact hreached.shows.ip
      · rw [hchosen]
        exact hreached.shows.port
      · rw [hchosen]
        exact hreached.shows.devices

end Matched

/-! ## Runs -/

section Runs

variable {backlog : Nat} {a : Answers J} {env : Reader.Environment J}

/-- What a turn sends comes after what was sent before. -/
theorem Follows.turned {inputs : List Input} {input : Input} {n : NodeTask} {loop : Reader.NodeLoop}
    {trace : List (Exchange J)} {rest : List ConfigEvent} {l : NodeLoop J}
    (h : Follows a inputs n trace (some l)) (hinput : input.arrived? = none)
    (hturn : loop.ended = true ∧ Matched backlog a n.loop.readMaster loop.readMaster (some l) none ∨
      loop.ended = false ∧ ∃ l', Matched backlog a n.loop.readMaster loop.readMaster (some l) (some l') ∧
        Reached { l with fromController := rest } l' loop.readMaster .select) :
    ∃ more r', Path (NodeLoop.Step backlog) (some l) more r' ∧
      Follows a (inputs ++ [input]) ⟨loop, rest⟩ (trace ++ more) r' := by
  have hkept (more : List (Exchange J)) (harrived : more.filterMap Exchange.arrived? = []) :
      (trace ++ more).filterMap Exchange.arrived? =
        (inputs ++ [input]).filterMap Input.arrived? := by
    rw [List.filterMap_append, List.filterMap_append, harrived, h.arrived, List.append_nil]
    simp [hinput]
  have hsends (more : List (Exchange J)) (hsent : loop.readMaster.toController =
      n.loop.readMaster.toController ++ more.filterMap Exchange.sent?) :
      (trace ++ more).filterMap Exchange.sent? = loop.readMaster.toController := by
    rw [List.filterMap_append, h.sent, hsent]
  rcases hturn with ⟨hended, more, hpath, hsent, harrived, hanswers⟩ |
    ⟨hlives, l', ⟨more, hpath, hsent, harrived, hanswers⟩, hreached⟩
  · exact ⟨more, none, hpath, hkept more harrived, hsends more hsent,
      List.forall_mem_append.mpr ⟨h.answers, hanswers⟩, fun _ => rfl,
      fun hlives => absurd (hended.symm.trans hlives) nofun⟩
  · exact ⟨more, some l', hpath, hkept more harrived, hsends more hsent,
      List.forall_mem_append.mpr ⟨h.answers, hanswers⟩,
      fun hended => absurd (hended.symm.trans hlives) nofun,
      fun _ => ⟨l', rfl, hreached.state, hreached.fromController, hreached.shows⟩⟩

/-- **One input** of the loop that polls is a path of the loop of the system. -/
theorem Follows.step {inputs : List Input} {input : Input} {n n' : NodeTask}
    {trace : List (Exchange J)} {r : Option (NodeLoop J)} (h : Follows a inputs n trace r)
    (hstep : n.step backlog (a.inside env) input = some n') :
    ∃ more r', Path (NodeLoop.Step backlog) r more r' ∧
      Follows a (inputs ++ [input]) n' (trace ++ more) r' := by
  unfold NodeTask.step at hstep
  split at hstep
  · cases hstep
  next hgoes =>
  have hlives : n.loop.ended = false := Bool.eq_false_iff.mpr hgoes
  obtain ⟨l, rfl, hstate, hqueue, hshows⟩ := h.waits hlives
  cases input with
  | arrives msg =>
      obtain rfl := Option.some.inj hstep
      refine ⟨_, _, .single (.arrives l msg), ?_, ?_, ?_, ?_, ?_⟩
      · rw [List.filterMap_append, List.filterMap_append, h.arrived]
        rfl
      · rw [List.filterMap_append, h.sent]
        exact List.append_nil _
      · exact List.forall_mem_append.mpr ⟨h.answers, List.forall_mem_singleton.mpr trivial⟩
      · exact fun hended => absurd (hended.symm.trans hlives) nofun
      · intro _
        refine ⟨_, rfl, hstate, ?_, hshows.id, hshows.ip, hshows.port, hshows.devices⟩
        rw [hqueue]
  | receives =>
      obtain ⟨⟨wake, rest⟩, hrecv, hstep⟩ := Option.bind_eq_some_iff.mp hstep
      obtain ⟨loop, hturn, hstep⟩ := Option.bind_eq_some_iff.mp hstep
      obtain rfl := Option.some.inj hstep
      rw [← hqueue] at hrecv
      refine h.turned rfl (leads_turn hlives ?_ hturn)
      intro reaction hreact
      rcases recv?_eq hrecv with ⟨rfl, hlost⟩ | ⟨msg, rfl, hmsg⟩
      · obtain rfl := Option.some.inj hreact
        exact ⟨_, .silent (.turns (turn_receive hstate hlost)) rfl,
          ⟨hshows.id, hshows.ip, hshows.port, hshows.devices⟩, hstate, rfl⟩
      · exact leads_message hshows hstate hmsg hreact
  | elapses =>
      obtain ⟨loop, hturn, rfl⟩ := Option.map_eq_some_iff.mp hstep
      refine h.turned rfl (leads_turn hlives ?_ hturn)
      intro reaction hreact
      obtain ⟨s', htick, rfl⟩ := Option.map_eq_some_iff.mp hreact
      obtain ⟨l', hmatched, hreached⟩ := matched_tick hshows hstate htick
      exact ⟨l', hmatched, hreached.shows, hreached.state, hreached.fromController.trans hqueue⟩

/-- **Refinement.** Each run of the loop that polls, whatever its network, its clock and the database
do, is a run of the loop of the system: the same messages come over the broadcast, the same messages
go to the controller in the same order, each answer is one of the database, and at the end both are
the same node with the same devices. -/
theorem node_loop_refines (backlog : Nat) (a : Answers J) (env : Reader.Environment J)
    (conf : NodeRead) (inputs : List Input) (n : NodeTask)
    (h : NodeTask.run backlog (a.inside env) conf inputs = some n) :
    ∃ trace r, Path (NodeLoop.Step backlog) (some (.new conf)) trace r ∧ Follows a inputs n trace r := by
  refine Path.simulation (R := Follows a) ?_ ?_ h
  · intro before c trace r input c' hfollows hstep
    exact hfollows.step hstep
  · exact ⟨rfl, rfl, nofun, nofun, fun _ => ⟨_, rfl, rfl, rfl, rfl, rfl, rfl, rfl⟩⟩

end Runs

/-- The database fails once, and then lists one meter without values. -/
def oneMeter : Answers (Int × Int) where
  devices _ := (1, [⟨4, some "Meter", 4, 1, 30000, 1500, 2, true, true, none, some false, none⟩])
  values _ := some []

/-- The node is polled, gets another address, and is deleted. -/
def movedAndDeleted : List Input :=
  [.elapses, .arrives ⟨.update, ⟨1, "10.0.0.2", some 503, none⟩⟩, .receives,
    .arrives ⟨.delete, ⟨1, "10.0.0.2", some 503, none⟩⟩, .receives]

theorem node_loop_refines_movedAndDeleted :
    ∃ n, NodeTask.run 128 (oneMeter.inside Reader.gatewayEnvironment) ⟨1, "10.0.0.1", none, none⟩
        movedAndDeleted = some n ∧
      ∃ trace r, Path (NodeLoop.Step 128) (some (.new ⟨1, "10.0.0.1", none, none⟩)) trace r ∧
        Follows oneMeter movedAndDeleted n trace r := by
  have hruns : (NodeTask.run 128 (oneMeter.inside Reader.gatewayEnvironment) ⟨1, "10.0.0.1", none, none⟩
      movedAndDeleted).isSome = true := by decide +kernel
  obtain ⟨n, hrun⟩ := Option.isSome_iff_exists.mp hruns
  exact ⟨n, hrun, node_loop_refines 128 oneMeter Reader.gatewayEnvironment _ movedAndDeleted n hrun⟩

end Main

end ModbusLogger
