import ModbusLogger.Lib.LeastFirst
import ModbusLogger.Lib.Transducer
import ModbusLogger.Reader.Polling

/-!
# The loop of a node (`reading_loop/read_master.rs`)

The loop sleeps until a message comes or the time is up. A run is any sequence of what wakes the loop;
`SleepsThrough` says that the clock of a run fits the sleeps.
-/

namespace ModbusLogger.Reader

open FixedWidth

inductive ConfigEventType where
  | create
  | update
  | delete
  deriving DecidableEq

structure ConfigEvent where
  eventType : ConfigEventType
  data : NodeRead
  deriving DecidableEq

/-- What ends the sleep: a message, an error of the channel, or the end of the time. -/
inductive Wake where
  | message (msg : ConfigEvent)
  | lost
  | elapsed
  deriving DecidableEq

/-- `ended` after the node was deleted. -/
structure NodeLoop where
  readMaster : ReadMaster
  sleepTime : Nat
  ended : Bool

namespace NodeLoop

def start (conf : NodeRead) : NodeLoop := ⟨.new conf, 0, false⟩

variable {J : Type*} (env : Environment J)

/-- What the loop does when it wakes up; `none` in the option is the end of the loop. -/
def react (s : ReadMaster) : Wake → Option (Option ReadMaster)
  | .message msg =>
    -- the channel is a broadcast: messages for other nodes come, too
    match msg.eventType with
    | .update => if msg.data.id = s.id then (s.update env msg.data).map some else some (some s)
    | .delete => if msg.data.id = s.id then some none else some (some s)
    | .create => some (some s)
  | .lost => some (some s)
  | .elapsed => (s.tick env).map some

/-- One turn of the loop. -/
def turn (n : NodeLoop) (wake : Wake) : Option NodeLoop :=
  if n.ended then some n
  else
    (react env n.readMaster wake).bind fun
      | none => some { n with ended := true }
      | some s => (s.whenNext env).map fun next =>
        { n with readMaster := next.1, sleepTime := max next.2 20 }

/-- `node_loop` -/
def run (conf : NodeRead) (wakes : List Wake) : Option NodeLoop :=
  wakes.foldlM (turn env) (start conf)

/-- The time to sleep is over. The last that a turn does is to look at the clock. -/
def Rested (n : NodeLoop) : Prop :=
  env.clock (n.readMaster.moment - 1) + n.sleepTime ≤ env.clock n.readMaster.moment

instance (n : NodeLoop) : Decidable (Rested env n) := inferInstanceAs (Decidable (_ ≤ _))

/-- No sleep of the run is cut short. -/
def SleepsThrough (conf : NodeRead) (wakes : List Wake) : Prop :=
  ∀ k < wakes.length, ∀ n ∈ run env conf (wakes.take k), Rested env n

instance (conf : NodeRead) (wakes : List Wake) : Decidable (SleepsThrough env conf wakes) :=
  inferInstanceAs (Decidable (∀ _ < _, ∀ _ ∈ run _ _ _, _))

end NodeLoop

/-! ## The choice of the next device -/

namespace ReadMaster

variable {J : Type*} {env : Environment J}

def deadlines (s : ReadMaster) : List Nat := s.entries.map Prod.fst

def AllActive (s : ReadMaster) : Prop := ∀ device ∈ s.devices, device.isActive = true

theorem allActive_iff {s : ReadMaster} : s.AllActive ↔ ∀ entry ∈ s.entries, entry.2 = true := by
  simp [AllActive, entries]

/-- If all devices are active, the current one is the most lagging. -/
def Chosen (s : ReadMaster) : Prop :=
  ∃ idx, s.currentDeviseIndex = some idx ∧
    (s.AllActive → ∃ x, LeastFirst.IsLeast s.deadlines idx x)

theorem lagging_eq_scan :
    lagging = LeastFirst.scan ModbusDeviceUnit.whenNext ModbusDeviceUnit.isActive := rfl

/-- The choice changes the current device only. -/
theorem whenNextDevice_spec {s s' : ReadMaster} {time : Nat}
    (h : s.whenNextDevice = some (s', time)) :
    s' = { s with currentDeviseIndex := s'.currentDeviseIndex } ∧ s'.Chosen := by
  obtain ⟨first, hfirst, h⟩ := Option.bind_eq_some_iff.mp h
  obtain ⟨device, -, h⟩ := Option.bind_eq_some_iff.mp h
  obtain ⟨rfl, -⟩ := Prod.mk.inj (Option.some.inj h)
  refine ⟨rfl, _, rfl, ?_⟩
  intro hactive
  rw [deadlines, entries, List.map_map, lagging_eq_scan]
  exact LeastFirst.isLeast_scan hfirst hactive

/-! ## What a turn does -/

/-- Devices are asked for, and one of them is chosen. All else stays. -/
structure Reloads (s s' : ReadMaster) : Prop where
  rest : s' = { s with
    devices := s'.devices
    currentDeviseIndex := s'.currentDeviseIndex
    toController := s'.toController
    moment := s'.moment }
  asked : ∃ requests : List Request, s'.toController = s.toController ++ requests.map MainMsg.request
  moment : s.moment ≤ s'.moment

theorem Reloads.refl (s : ReadMaster) : Reloads s s := ⟨rfl, ⟨[], by simp⟩, le_refl _⟩

theorem Reloads.trans {a b c : ReadMaster} (h : Reloads a b) (h' : Reloads b c) : Reloads a c where
  rest := by
    rw [h'.rest, h.rest]
  asked := by
    obtain ⟨xs, hxs⟩ := h.asked
    obtain ⟨ys, hys⟩ := h'.asked
    exact ⟨xs ++ ys, by rw [hys, hxs, List.map_append, List.append_assoc]⟩
  moment := h.moment.trans h'.moment

theorem Reloads.quiet {s s' : ReadMaster} (h : Reloads s s') : Quiet s s' where
  id := by rw [h.rest]
  polls := by rw [h.rest]
  events := by
    obtain ⟨requests, hasked⟩ := h.asked
    have hnone : (requests.map MainMsg.request).filterMap MainMsg.deviceEvent? = [] := by
      rw [List.filterMap_map, List.filterMap_eq_nil_iff]
      exact fun _ _ => rfl
    rw [deviceEvents, hasked, List.filterMap_append, hnone, List.append_nil]
    rfl
  moment := h.moment

theorem whenNextDevice_reloads {s s' : ReadMaster} {time : Nat}
    (h : s.whenNextDevice = some (s', time)) : Reloads s s' := by
  rw [(whenNextDevice_spec h).1]
  exact ⟨rfl, ⟨[], by simp⟩, le_refl _⟩

theorem getDevises_reloads (s : ReadMaster) : Reloads s (s.getDevises env).1 :=
  ⟨rfl, ⟨List.replicate _ _, by rw [List.map_replicate]; rfl⟩, Nat.le_succ _⟩

theorem getDeviceFromDb_reloads {s s' : ReadMaster} {config : DeviceRead}
    {device : Option ModbusDeviceUnit} (h : s.getDeviceFromDb env config = some (s', device)) :
    Reloads s s' := by
  have hasked (id : Int) : Reloads s
      ({ s with moment := s.moment + 2 }.send (.request (.getValueByDeviceId id))) :=
    ⟨rfl, ⟨[.getValueByDeviceId id], rfl⟩, Nat.le_add_right _ 2⟩
  obtain ⟨fresh, -, h⟩ := Option.bind_eq_some_iff.mp h
  dsimp only at h
  split at h
  · obtain ⟨filled, -, h⟩ := Option.bind_eq_some_iff.mp h
    obtain ⟨rfl, -⟩ := Prod.mk.inj (Option.some.inj h)
    exact hasked _
  · obtain ⟨rfl, -⟩ := Prod.mk.inj (Option.some.inj h)
    exact hasked _

theorem createUnits_reloads {configs : List DeviceRead} {s s' : ReadMaster}
    {units : List ModbusDeviceUnit} (h : s.createUnits env configs = some (s', units)) :
    Reloads s s' := by
  induction configs generalizing s units with
  | nil =>
      obtain ⟨rfl, -⟩ := Prod.mk.inj (Option.some.inj h)
      exact .refl s
  | cons config configs ih =>
      obtain ⟨⟨a, device⟩, ha, h⟩ := Option.bind_eq_some_iff.mp h
      obtain ⟨⟨b, rest⟩, hb, h⟩ := Option.bind_eq_some_iff.mp h
      obtain ⟨rfl, -⟩ := Prod.mk.inj (Option.some.inj h)
      exact (getDeviceFromDb_reloads ha).trans (ih hb)

theorem createDevices_reloads {s s' : ReadMaster} {created : Bool}
    (h : s.createDevices env = some (s', created)) : Reloads s s' := by
  have hreplaced (s : ReadMaster) (devices : List ModbusDeviceUnit) :
      Reloads s { s with devices } := ⟨rfl, ⟨[], by simp⟩, le_refl _⟩
  have hasked : Reloads s ({ s with devices := [] }.getDevises env).1 :=
    (hreplaced s []).trans (getDevises_reloads _)
  unfold createDevices at h
  dsimp only at h
  split at h
  · obtain ⟨rfl, -⟩ := Prod.mk.inj (Option.some.inj h)
    exact hasked
  · obtain ⟨⟨a, units⟩, ha, h⟩ := Option.bind_eq_some_iff.mp h
    obtain ⟨⟨b, time⟩, hb, h⟩ := Option.bind_eq_some_iff.mp h
    obtain ⟨rfl, -⟩ := Prod.mk.inj (Option.some.inj h)
    exact hasked.trans ((createUnits_reloads ha).trans
      ((hreplaced a units).trans (whenNextDevice_reloads hb)))

/-- The devices are gone, or one of the new ones is chosen. -/
theorem createDevices_spec {s s' : ReadMaster} {created : Bool}
    (h : s.createDevices env = some (s', created)) :
    Quiet s s' ∧ (created = false → s'.devices = []) ∧ (created = true → s'.Chosen) := by
  refine ⟨(createDevices_reloads h).quiet, ?_⟩
  unfold createDevices at h
  dsimp only at h
  split at h
  · obtain ⟨rfl, rfl⟩ := Prod.mk.inj (Option.some.inj h)
    exact ⟨fun _ => rfl, nofun⟩
  · obtain ⟨⟨a, units⟩, -, h⟩ := Option.bind_eq_some_iff.mp h
    obtain ⟨⟨b, time⟩, hb, h⟩ := Option.bind_eq_some_iff.mp h
    obtain ⟨rfl, rfl⟩ := Prod.mk.inj (Option.some.inj h)
    exact ⟨nofun, fun _ => (whenNextDevice_spec hb).2⟩

/-- What `tick` does before it polls: the devices stay as they are, or are new and one of them is
chosen. -/
structure Prepared (s s' : ReadMaster) : Prop extends Quiet s s' where
  devices : (s.devices ≠ [] ∧ s'.entries = s.entries ∧
      s'.currentDeviseIndex = s.currentDeviseIndex) ∨
    (s.devices = [] ∧ (s'.devices = [] ∨ s'.Chosen))

theorem Chosen.of_eq {s s' : ReadMaster} (h : s.Chosen) (hentries : s'.entries = s.entries)
    (hcurrent : s'.currentDeviseIndex = s.currentDeviseIndex) : s'.Chosen := by
  obtain ⟨idx, hidx, hleast⟩ := h
  refine ⟨idx, hcurrent.trans hidx, ?_⟩
  rw [allActive_iff, deadlines, hentries, ← allActive_iff]
  exact hleast

theorem devices_eq_nil_iff {s : ReadMaster} : s.devices = [] ↔ s.entries = [] :=
  List.map_eq_nil_iff.symm

theorem Prepared.keeps {a b c : ReadMaster} (h : Prepared a b) (h' : Keeps b c) : Prepared a c := by
  refine ⟨h.toQuiet.trans h'.toQuiet, ?_⟩
  rcases h.devices with ⟨hsome, hentries, hcurrent⟩ | ⟨hnone, hnil | hchosen⟩
  · exact .inl ⟨hsome, h'.entries.trans hentries, h'.current.trans hcurrent⟩
  · rw [devices_eq_nil_iff, ← h'.entries, ← devices_eq_nil_iff] at hnil
    exact .inr ⟨hnone, .inl hnil⟩
  · exact .inr ⟨hnone, .inr (hchosen.of_eq h'.entries h'.current)⟩

theorem withDevices_spec {s s' : ReadMaster} {found : Bool}
    (h : s.withDevices env = some (s', found)) : Prepared s s' := by
  unfold withDevices at h
  split at h
  · next hempty =>
    obtain ⟨hquiet, hgone, hchosen⟩ := createDevices_spec h
    refine ⟨hquiet, .inr ⟨List.isEmpty_iff.mp hempty, ?_⟩⟩
    cases found with
    | false => exact .inl (hgone rfl)
    | true => exact .inr (hchosen rfl)
  · next hsome =>
    obtain ⟨rfl, -⟩ := Prod.mk.inj (Option.some.inj h)
    exact ⟨.refl _, .inl ⟨fun hnil => hsome (List.isEmpty_iff.mpr hnil), rfl, rfl⟩⟩

theorem withContext_keeps (s : ReadMaster) : Keeps s (s.withContext env).1 := by
  unfold withContext
  split
  · exact createContext_keeps s
  · exact .refl s

/-- A read is nothing or a poll. -/
theorem read_cases {s s' : ReadMaster} (h : s.read env = some s') :
    s' = s ∨ ∃ idx device pool round, s.currentDeviseIndex = some idx ∧
      s.devices[idx]? = some device ∧ device.isActive = true ∧
      pollPool env (asU64 device.retryCount) device.valuePool ⟨s.moment + 1, [], 0, [], .next⟩ =
        some (pool, round) ∧ s.poll env idx device = some s' := by
  unfold read at h
  split at h
  · exact .inl (Option.some.inj h).symm
  · next idx hcurrent =>
    split at h
    · cases h
    · next device hdevice =>
      split at h
      · next hready =>
        obtain ⟨⟨pool, round⟩, hpool, -⟩ := Option.bind_eq_some_iff.mp h
        exact .inr ⟨idx, device, pool, round, hcurrent, hdevice, hready.1, hpool, h⟩
      · exact .inl (Option.some.inj h).symm

theorem read_spec {s s' : ReadMaster} (h : s.read env = some s') :
    s' = s ∨ ∃ idx device p, s.currentDeviseIndex = some idx ∧
      s.devices[idx]? = some device ∧ device.isActive = true ∧ Polled env s idx device p s' := by
  rcases read_cases h with hsame | ⟨idx, device, -, -, hcurrent, hdevice, hactive, -, hpoll⟩
  · exact .inl hsame
  · obtain ⟨p, hp⟩ := poll_spec hdevice hpoll
    exact .inr ⟨idx, device, p, hcurrent, hdevice, hactive, hp⟩

/-- **One tick**: preparations, and at most one poll, of the current device. -/
theorem tick_spec {s s' : ReadMaster} (h : s.tick env = some s') :
    ∃ a, Prepared s a ∧ (s' = a ∨ ∃ idx device p, a.currentDeviseIndex = some idx ∧
      a.devices[idx]? = some device ∧ device.isActive = true ∧ Polled env a idx device p s') := by
  obtain ⟨⟨a, found⟩, ha, h⟩ := Option.bind_eq_some_iff.mp h
  have hprepared := withDevices_spec ha
  dsimp only at h
  split at h
  · have hcontext : Keeps a (a.withContext env).1 := withContext_keeps a
    have hready := hprepared.keeps hcontext
    split at h
    · -- there is a connection
      exact ⟨_, hready, read_spec h⟩
    · exact ⟨_, hready, .inl (Option.some.inj h).symm⟩
  · exact ⟨a, hprepared, .inl (Option.some.inj h).symm⟩

theorem whenNext_eq {s s' : ReadMaster} {time : Nat} (h : s.whenNext env = some (s', time)) :
    s' = { s with moment := s.moment + 1, currentDeviseIndex := s'.currentDeviseIndex } := by
  unfold whenNext at h
  dsimp only at h
  split at h
  · obtain ⟨rfl, -⟩ := Prod.mk.inj (Option.some.inj h)
    rfl
  · split at h
    · obtain ⟨rfl, -⟩ := Prod.mk.inj (Option.some.inj h)
      rfl
    · obtain ⟨⟨a, wait⟩, ha, h⟩ := Option.map_eq_some_iff.mp h
      obtain ⟨rfl, -⟩ := Prod.mk.inj h
      exact (whenNextDevice_spec ha).1

theorem whenNext_reloads {s s' : ReadMaster} {time : Nat} (h : s.whenNext env = some (s', time)) :
    Reloads s s' := by
  rw [whenNext_eq h]
  exact ⟨rfl, ⟨[], by simp⟩, Nat.le_succ _⟩

/-- The time to sleep is looked up, and with a connection the next device is chosen. -/
theorem whenNext_spec {s s' : ReadMaster} {time : Nat} (h : s.whenNext env = some (s', time)) :
    Quiet s s' ∧ s'.entries = s.entries ∧
      (s'.currentDeviseIndex = s.currentDeviseIndex ∧ (s.devices = [] ∨ s.ctx = none) ∨
        s'.Chosen) := by
  refine ⟨(whenNext_reloads h).quiet, by rw [whenNext_eq h]; rfl, ?_⟩
  unfold whenNext at h
  dsimp only at h
  split at h
  · next hempty =>
    obtain ⟨rfl, -⟩ := Prod.mk.inj (Option.some.inj h)
    exact .inl ⟨rfl, .inl (List.isEmpty_iff.mp hempty)⟩
  · split at h
    · next hctx =>
      obtain ⟨rfl, -⟩ := Prod.mk.inj (Option.some.inj h)
      exact .inl ⟨rfl, .inr (Option.isNone_iff_eq_none.mp hctx)⟩
    · obtain ⟨⟨a, wait⟩, ha, h⟩ := Option.map_eq_some_iff.mp h
      obtain ⟨rfl, -⟩ := Prod.mk.inj h
      exact .inr (whenNextDevice_spec ha).2

theorem update_quiet {s s' : ReadMaster} {conf : NodeRead} (h : s.update env conf = some s') :
    Quiet s s' := by
  obtain ⟨⟨a, created⟩, ha, h⟩ := Option.bind_eq_some_iff.mp h
  obtain rfl := Option.some.inj h
  refine .trans ?_ (createDevices_spec ha).1
  split
  · exact .trans (b := { s with ip := conf.ip, port := conf.port.getD 502 })
      ⟨rfl, rfl, rfl, le_refl _⟩ (createContext_keeps _).toQuiet
  · exact .refl s

end ReadMaster

namespace NodeLoop

open ReadMaster

variable {J : Type*} {env : Environment J}

/-- What wakes the loop leaves the configuration of the node alone. -/
def KeepsConfig (conf : NodeRead) : Wake → Prop
  | .message msg => msg.data.id = conf.id → msg.eventType = .create
  | _ => True

/-- What the reaction of the loop can be. -/
inductive Reacted (env : Environment J) (s : ReadMaster) (wake : Wake) (s' : ReadMaster) : Prop where
  | nothing : s' = s → Reacted env s wake s'
  | updated {msg : ConfigEvent} : wake = .message msg → msg.eventType = .update →
      msg.data.id = s.id → Quiet s s' → Reacted env s wake s'
  | ticked {a : ReadMaster} : Prepared s a → s' = a → Reacted env s wake s'
  | polled {a : ReadMaster} {idx : Nat} {device : ModbusDeviceUnit} {p : Poll} : Prepared s a →
      a.currentDeviseIndex = some idx → a.devices[idx]? = some device → device.isActive = true →
      Polled env a idx device p s' → Reacted env s wake s'

theorem react_spec {s s' : ReadMaster} {wake : Wake} (h : react env s wake = some (some s')) :
    Reacted env s wake s' := by
  cases wake with
  | lost => exact .nothing (Option.some.inj (Option.some.inj h)).symm
  | elapsed =>
      obtain ⟨a, ha, h⟩ := Option.map_eq_some_iff.mp h
      obtain rfl := Option.some.inj h
      obtain ⟨b, hb, rfl | ⟨idx, device, p, hidx, hdevice, hactive, hp⟩⟩ := tick_spec ha
      · exact .ticked hb rfl
      · exact .polled hb hidx hdevice hactive hp
  | message msg =>
      rw [react] at h
      cases htype : msg.eventType with
      | create =>
          rw [htype] at h
          exact .nothing (Option.some.inj (Option.some.inj h)).symm
      | update =>
          simp only [htype] at h
          split at h
          · next hid =>
            obtain ⟨a, ha, h⟩ := Option.map_eq_some_iff.mp h
            obtain rfl := Option.some.inj h
            exact .updated rfl htype hid (update_quiet ha)
          · exact .nothing (Option.some.inj (Option.some.inj h)).symm
      | delete =>
          simp only [htype] at h
          split at h
          · cases Option.some.inj h
          · exact .nothing (Option.some.inj (Option.some.inj h)).symm

/-- **One turn**: nothing, or a reaction and the choice of the next device. -/
theorem turn_spec {n n' : NodeLoop} {wake : Wake} (h : turn env n wake = some n') :
    n'.readMaster = n.readMaster ∨ ∃ a time, Reacted env n.readMaster wake a ∧
      a.whenNext env = some (n'.readMaster, time) := by
  rw [turn] at h
  by_cases hended : n.ended = true
  · rw [if_pos hended] at h
    obtain rfl := Option.some.inj h
    exact .inl rfl
  · rw [if_neg hended] at h
    obtain ⟨reaction, hreact, h⟩ := Option.bind_eq_some_iff.mp h
    cases reaction with
    | none =>
        obtain rfl := Option.some.inj h
        exact .inl rfl
    | some a =>
        obtain ⟨⟨s, time⟩, hnext, rfl⟩ := Option.map_eq_some_iff.mp h
        exact .inr ⟨a, time, react_spec hreact, hnext⟩

/-- **Runs.** What holds of a new read master, and after each reaction and choice of a device if it
did before, holds at the end of a run. -/
theorem run_invariant {I : ReadMaster → Prop} {conf : NodeRead} {wakes : List Wake} {n : NodeLoop}
    (hstart : I (.new conf))
    (hstep : ∀ s wake a time s', wake ∈ wakes → I s → Reacted env s wake a →
      a.whenNext env = some (s', time) → I s')
    (h : run env conf wakes = some n) : I n.readMaster := by
  refine Transducer.foldlM_invariant (I := fun n : NodeLoop => I n.readMaster) ?_ hstart h
  intro n wake n' hwake hn hturn
  rcases turn_spec hturn with hsame | ⟨a, time, hreacted, hnext⟩
  · rwa [hsame]
  · exact hstep _ wake a time _ hwake hn hreacted hnext

end NodeLoop

end ModbusLogger.Reader
