import ModbusLogger.Reader.Scheduling

/-!
# What a poll leaves as it is

The connection and the polls of a node send events and nothing else, and the devices stay the devices
that were loaded: their timeouts grow, their deadlines move, and steps of theirs may be marked.
-/

namespace ModbusLogger.Reader

/-- The columns of a device that a unit keeps: its timeout grows, and its steps may be marked. -/
def ModbusDeviceUnit.columns (d : ModbusDeviceUnit) : Int × Int × Int × Int × Bool × Bool :=
  (d.id, d.address, d.timeForRecall, d.retryCount, d.isActive, d.readByGroup)

def DeviceRead.columns (d : DeviceRead) : Int × Int × Int × Int × Bool × Bool :=
  (d.id, d.address, d.timeForRecall, d.retryCount, d.isActive, d.readByGroup)

namespace ReadMaster

variable {J : Type*} {env : Environment J} {s s' s'' : ReadMaster}

/-- Nothing but events is sent, and the configuration stays. -/
structure Reports (s s' : ReadMaster) : Prop where
  id : s'.id = s.id
  ip : s'.ip = s.ip
  port : s'.port = s.port
  devices : s'.devices.map ModbusDeviceUnit.columns = s.devices.map ModbusDeviceUnit.columns
  sent : ∃ events : List Event, s'.toController = s.toController ++ events.map MainMsg.event

@[refl] theorem Reports.refl (s : ReadMaster) : Reports s s := ⟨rfl, rfl, rfl, rfl, [], by simp⟩

theorem Reports.trans (h : Reports s s') (h' : Reports s' s'') : Reports s s'' := by
  refine ⟨h'.id.trans h.id, h'.ip.trans h.ip, h'.port.trans h.port, h'.devices.trans h.devices, ?_⟩
  obtain ⟨events, hevents⟩ := h.sent
  obtain ⟨more, hmore⟩ := h'.sent
  exact ⟨events ++ more, by rw [hmore, hevents, List.map_append, List.append_assoc]⟩

theorem Reports.send (h : Reports s s') (event : Event) : Reports s (s'.send (.event event)) := by
  refine ⟨h.id, h.ip, h.port, h.devices, ?_⟩
  obtain ⟨events, hevents⟩ := h.sent
  refine ⟨events ++ [event], ?_⟩
  show s'.toController ++ [_] = _
  rw [hevents, List.map_append, List.append_assoc]
  rfl

/-- Other fields do not matter. -/
theorem Reports.congr (h : Reports s s') (hid : s''.id = s'.id) (hip : s''.ip = s'.ip)
    (hport : s''.port = s'.port) (hdevices : s''.devices = s'.devices)
    (hsent : s''.toController = s'.toController) : Reports s s'' where
  id := hid.trans h.id
  ip := hip.trans h.ip
  port := hport.trans h.port
  devices := by
    rw [hdevices]
    exact h.devices
  sent := by
    rw [hsent]
    exact h.sent

/-- A unit takes the place of one with the same columns. -/
theorem Reports.set (h : Reports s s') {idx : Nat} {device unit : ModbusDeviceUnit}
    (hdevice : s'.devices[idx]? = some device) (hunit : unit.columns = device.columns) :
    Reports s { s' with devices := s'.devices.set idx unit } := by
  refine ⟨h.id, h.ip, h.port, ?_, h.sent⟩
  obtain ⟨hlt, hget⟩ := List.getElem?_eq_some_iff.mp hdevice
  have hsame : (s'.devices.set idx unit).map ModbusDeviceUnit.columns =
      s'.devices.map ModbusDeviceUnit.columns := by
    have hlt' : idx < (s'.devices.map ModbusDeviceUnit.columns).length := by rwa [List.length_map]
    have hkept : (s'.devices.map ModbusDeviceUnit.columns)[idx] = device.columns := by
      rw [List.getElem_map, hget]
    rw [List.map_set, hunit, ← hkept, List.set_getElem_self]
  exact hsame.trans h.devices

theorem reports_disconnecting (s : ReadMaster) : Reports s (s.disconnecting env) :=
  ((Reports.refl s).send (.nodeEvent ⟨s.id, s.ip, .unConnected⟩)).congr rfl rfl rfl rfl rfl

theorem reports_createContext (s : ReadMaster) : Reports s (s.createContext env).1 := by
  have hasked : Reports s ({ s with ctx := none }.sendConnectingMsg .connecting) :=
    ((Reports.refl s).send (.nodeEvent ⟨s.id, s.ip, .connecting⟩)).congr rfl rfl rfl rfl rfl
  unfold createContext
  dsimp only
  split
  · split
    · exact (hasked.send (.nodeEvent ⟨s.id, s.ip, .connected⟩)).congr rfl rfl rfl rfl rfl
    · have hrefused : Reports s { { s with ctx := none }.sendConnectingMsg .connecting with
          moment := s.moment + 1 } := hasked.congr rfl rfl rfl rfl rfl
      exact hrefused.trans (reports_disconnecting _)
  · exact hasked

theorem reports_withContext (s : ReadMaster) : Reports s (s.withContext env).1 := by
  unfold withContext
  split
  · exact reports_createContext s
  · exact .refl s

theorem reports_increaseTimeout {idx : Option Nat} (h : s.increaseTimeout env idx = some s') :
    Reports s s' := by
  obtain ⟨a, ha, rfl⟩ := Option.map_eq_some_iff.mp h
  have hmore : Reports s a := by
    cases idx with
    | none =>
        obtain rfl := Option.some.inj ha
        exact .refl s
    | some idx =>
        obtain ⟨device, hdevice, rfl⟩ := Option.map_eq_some_iff.mp ha
        exact (Reports.refl s).set hdevice rfl
  have hcreated : Reports s ((a.disconnecting env).createContext env).1 :=
    (hmore.trans (reports_disconnecting a)).trans (reports_createContext _)
  dsimp only
  split
  · exact hcreated
  · exact hcreated.trans (reports_disconnecting _)

theorem reports_poll {idx : Nat} {device : ModbusDeviceUnit} (hdevice : s.devices[idx]? = some device)
    (h : s.poll env idx device = some s') : Reports s s' := by
  obtain ⟨⟨pool, round⟩, hpool, -⟩ := Option.bind_eq_some_iff.mp h
  rw [poll_of_pollPool hpool] at h
  have hmarked : ({ device with valuePool := pool } : ModbusDeviceUnit).columns = device.columns := rfl
  have hlooped : Reports s (s.looped env idx device pool round) :=
    ((Reports.refl s).set hdevice hmarked).congr rfl rfl rfl rfl rfl
  cases hflow : round.flow with
  | next =>
      rw [hflow] at h
      obtain ⟨renewed, hrenewed, rfl⟩ := Option.map_eq_some_iff.mp h
      obtain ⟨time, -, rfl⟩ := Option.map_eq_some_iff.mp hrenewed
      have hpolled : (s.looped env idx device pool round).devices[idx]? =
          some { device with valuePool := pool } := by
        obtain ⟨hlt, -⟩ := List.getElem?_eq_some_iff.mp hdevice
        show (s.devices.set idx _)[idx]? = _
        rw [List.getElem?_set_self hlt]
      have hset : Reports s { s.looped env idx device pool round with
          devices := (s.looped env idx device pool round).devices.set idx
            { device with valuePool := pool, nextReadAt :=
              FixedWidth.addU64 time (FixedWidth.asU64 device.timeForRecall) } } :=
        hlooped.set hpolled rfl
      exact (hset.send (.deviceEvent (report device round))).congr rfl rfl rfl rfl rfl
  | socketFail =>
      rw [hflow] at h
      obtain rfl := Option.some.inj h
      exact hlooped.trans (reports_disconnecting _)
  | headerMismatch action =>
      rw [hflow] at h
      have hlatest : Reports s { s.looped env idx device pool round with
          lastestDeviceIndex := (s.looped env idx device pool round).currentDeviseIndex } :=
        hlooped.congr rfl rfl rfl rfl rfl
      cases action with
      | increaseCurrent => exact hlatest.trans (reports_increaseTimeout h)
      | increasePrevious => exact hlatest.trans (reports_increaseTimeout h)

theorem reports_read (h : s.read env = some s') : Reports s s' := by
  rcases read_cases h with rfl | ⟨idx, device, -, -, -, hdevice, -, -, hpoll⟩
  · exact .refl _
  · exact reports_poll hdevice hpoll

end ReadMaster

end ModbusLogger.Reader
