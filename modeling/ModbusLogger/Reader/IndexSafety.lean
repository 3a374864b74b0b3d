import ModbusLogger.Reader.Scheduling

/-!
# The indices of the read master

`devices` is replaced as a whole by every reload, while `current_devise_index` and
`lastest_device_index` stay in the struct. Here is every index that the source applies to the list,
with the length of the list at that point, and when it is out of bounds: a reload that lists devices
but gets the values of none of them, and a device that is remembered longer than the list it was in.
-/

namespace ModbusLogger.Reader

open FixedWidth

/-- `devices[index]`, with `length` devices. -/
structure Access where
  index : Nat
  length : Nat
  deriving DecidableEq

def Access.InBounds (a : Access) : Prop := a.index < a.length

instance (a : Access) : Decidable a.InBounds := inferInstanceAs (Decidable (_ < _))

/-- All of them; the first that fails ends the task. -/
def AllInBounds (accesses : List Access) : Prop := ∀ a ∈ accesses, a.InBounds

instance (accesses : List Access) : Decidable (AllInBounds accesses) :=
  inferInstanceAs (Decidable (∀ _ ∈ _, _))

@[simp] theorem allInBounds_nil : AllInBounds [] := fun _ h => absurd h List.not_mem_nil

@[simp] theorem allInBounds_cons {a : Access} {accesses : List Access} :
    AllInBounds (a :: accesses) ↔ a.InBounds ∧ AllInBounds accesses := List.forall_mem_cons

@[simp] theorem allInBounds_append {accesses accesses' : List Access} :
    AllInBounds (accesses ++ accesses') ↔ AllInBounds accesses ∧ AllInBounds accesses' :=
  List.forall_mem_append

/-! ## Where indices are applied -/

namespace ReadMaster

def access (s : ReadMaster) (index : Nat) : Access := ⟨index, s.devices.length⟩

/-- Device 0, the devices of the loop, and the one it found. -/
def whenNextDeviceAccesses (s : ReadMaster) : List Access :=
  match s.devices[0]? with
  | none => [s.access 0]
  | some first =>
    s.access 0 :: (List.range s.devices.length).map s.access ++
      [s.access (s.devices.zipIdx.foldl lagging (first.whenNext, 0)).2]

def moreTimeAccesses (s : ReadMaster) (idx : Option Nat) : List Access := idx.toList.map s.access

def headerMismatchedAccesses (s : ReadMaster) : HeaderMismatchAction → List Access
  | .increaseCurrent => s.moreTimeAccesses s.currentDeviseIndex
  | .increasePrevious => s.moreTimeAccesses s.lastestDeviceIndex

variable {J : Type*} (env : Environment J)

def createDevicesAccesses (s : ReadMaster) : List Access :=
  let (s, configs) := { s with devices := [] }.getDevises env
  if configs.isEmpty then []
  else
    match s.createUnits env configs with
    | none => []
    | some (s, devices) => { s with devices }.whenNextDeviceAccesses

def pollAccesses (s : ReadMaster) (idx : Nat) (device : ModbusDeviceUnit) : List Access :=
  match pollPool env (asU64 device.retryCount) device.valuePool
    ⟨s.moment + 1, [], 0, [], .next⟩ with
  | none => []
  | some (_, round) =>
    match round.flow with
    | .socketFail => []
    | .headerMismatch action => s.headerMismatchedAccesses action
    | .next => [s.access idx]

def readAccesses (s : ReadMaster) : List Access :=
  match s.currentDeviseIndex with
  | none => []
  | some idx =>
    s.access idx ::
      match s.devices[idx]? with
      | none => []
      | some device => if device.isActive ∧ s.ctx.isSome then s.pollAccesses env idx device else []

/-- The state in which `tick` reads, if it comes to that. -/
def ready (s : ReadMaster) : Option ReadMaster :=
  match s.withDevices env with
  | some (a, true) => if (a.withContext env).2 then some (a.withContext env).1 else none
  | _ => none

def tickAccesses (s : ReadMaster) : List Access :=
  (if s.devices.isEmpty then s.createDevicesAccesses env else []) ++
    match s.ready env with
    | some a => a.readAccesses env
    | none => []

/-- The first half of `update`. -/
def reconnected (s : ReadMaster) (conf : NodeRead) : ReadMaster :=
  if s.ip ≠ conf.ip ∨ s.port ≠ conf.port.getD 502 then
    ({ s with ip := conf.ip, port := conf.port.getD 502 }.createContext env).1
  else s

def whenNextAccesses (s : ReadMaster) : List Access :=
  if s.devices.isEmpty ∨ s.ctx.isNone then [] else s.whenNextDeviceAccesses

end ReadMaster

/-- What is called on a read master, in any order. -/
inductive Call where
  | tick
  | update (conf : NodeRead)
  | whenNext

namespace Call

variable {J : Type*} (env : Environment J)

def perform (s : ReadMaster) : Call → Option ReadMaster
  | .tick => s.tick env
  | .update conf => s.update env conf
  | .whenNext => (s.whenNext env).map Prod.fst

def accesses (s : ReadMaster) : Call → List Access
  | .tick => s.tickAccesses env
  | .update conf => (s.reconnected env conf).createDevicesAccesses env
  | .whenNext => s.whenNextAccesses

/-- The state after some calls, if none of them panicked. -/
def run (config : NodeRead) (calls : List Call) : Option ReadMaster :=
  calls.foldlM (perform env) (.new config)

end Call

/-! ## When an index is out of bounds -/

/-- If the database lists devices, the values of one of them are answered. The moments are those of
the requests, and the clock is read for each device. -/
def ReloadAnswered {J : Type*} (env : Environment J) (s : ReadMaster) : Prop :=
  let count := (env.devices s.moment).2.length
  0 < count → (∀ k < count, (env.millis (s.moment + 1 + 2 * k)).isSome) →
    ∃ k < count, (env.values (s.moment + 1 + 2 * k + 1)).isSome

/-- The poll ends with a mismatched header at the first try of a step. -/
def MismatchesAtOnce {J : Type*} (env : Environment J) (s : ReadMaster) (device : ModbusDeviceUnit) :
    Prop :=
  ∃ pool round, pollPool env (asU64 device.retryCount) device.valuePool
    ⟨s.moment + 1, [], 0, [], .next⟩ = some (pool, round) ∧
      round.flow = .headerMismatch .increasePrevious

/-- If the poll of the current device ends so, the device that was polled before it still is in the
list. -/
def RemembersDevice {J : Type*} (env : Environment J) (s : ReadMaster) : Prop :=
  ∀ idx ∈ s.currentDeviseIndex, ∀ device ∈ s.devices[idx]?, device.isActive = true →
    s.ctx.isSome = true → MismatchesAtOnce env s device →
    ∀ prev ∈ s.lastestDeviceIndex, prev < s.devices.length

/-- The condition under which a call stays within bounds. -/
def Call.Safe {J : Type*} (env : Environment J) (s : ReadMaster) : Call → Prop
  | .tick => (s.devices = [] → ReloadAnswered env s) ∧ ∀ a ∈ s.ready env, RemembersDevice env a
  | .update conf => ReloadAnswered env (s.reconnected env conf)
  | .whenNext => True

namespace ReadMaster

variable {J : Type*} {env : Environment J}

theorem lagging_lt {s : ReadMaster} {first : ModbusDeviceUnit} (hfirst : s.devices[0]? = some first) :
    (s.devices.zipIdx.foldl lagging (first.whenNext, 0)).2 < s.devices.length := by
  rw [lagging_eq_scan]
  rcases LeastFirst.foldl_scan ModbusDeviceUnit.whenNext ModbusDeviceUnit.isActive s.devices 0
    (first.whenNext, 0) with heq | ⟨j, device, hdevice, -, -, heq, -⟩
  · rw [heq]
    exact (List.getElem?_eq_some_iff.mp hfirst).1
  · rw [heq, Nat.zero_add]
    exact (List.getElem?_eq_some_iff.mp hdevice).1

/-- Only the absence of devices makes the choice fail. -/
theorem whenNextDeviceAccesses_iff (s : ReadMaster) :
    AllInBounds s.whenNextDeviceAccesses ↔ s.devices ≠ [] := by
  unfold whenNextDeviceAccesses
  cases hfirst : s.devices[0]? with
  | none =>
      have hnil : s.devices = [] := by simpa using hfirst
      simp [Access.InBounds, access, hnil]
  | some first =>
      have hlt := (List.getElem?_eq_some_iff.mp hfirst).1
      have hne : s.devices ≠ [] := List.ne_nil_of_length_pos hlt
      have hall : AllInBounds ((List.range s.devices.length).map s.access) := by
        intro a ha
        obtain ⟨i, hi, rfl⟩ := List.mem_map.mp ha
        exact List.mem_range.mp hi
      simp [Access.InBounds, access, hne, hlt, hall, lagging_lt hfirst]

theorem whenNextDevice_isSome (s : ReadMaster) : s.whenNextDevice.isSome ↔ s.devices ≠ [] := by
  unfold whenNextDevice
  cases hfirst : s.devices[0]? with
  | none =>
      have hnil : s.devices = [] := by simpa using hfirst
      simp [hnil]
  | some first =>
      have hlt := (List.getElem?_eq_some_iff.mp hfirst).1
      have hne : s.devices ≠ [] := List.ne_nil_of_length_pos hlt
      have hfound := List.getElem?_eq_getElem (lagging_lt hfirst)
      simp [hne, hfound]

/-! ### Reloads -/

/-- A reload comes out empty if the values of no device are answered. -/
theorem createUnits_nil_iff (configs : List DeviceRead) (s : ReadMaster) :
    (∃ s', s.createUnits env configs = some (s', [])) ↔
      ∀ k < configs.length, (env.millis (s.moment + 2 * k)).isSome = true ∧
        env.values (s.moment + 2 * k + 1) = none := by
  induction configs generalizing s with
  | nil => simp [createUnits]
  | cons config configs ih =>
      have hsplit : (∀ k < (config :: configs).length,
          (env.millis (s.moment + 2 * k)).isSome = true ∧
            env.values (s.moment + 2 * k + 1) = none) ↔
          ((env.millis s.moment).isSome = true ∧ env.values (s.moment + 1) = none) ∧
            ∀ k < configs.length, (env.millis (s.moment + 2 + 2 * k)).isSome = true ∧
              env.values (s.moment + 2 + 2 * k + 1) = none := by
        rw [List.length_cons, Nat.forall_lt_succ_left]
        simp only [Nat.mul_zero, Nat.add_zero, Nat.mul_add, Nat.mul_one, Nat.add_assoc,
          Nat.add_comm 2]
      rw [hsplit, createUnits, getDeviceFromDb]
      cases hclock : env.millis s.moment with
      | none => simp [ModbusDeviceUnit.new]
      | some time =>
          cases hvalues : env.values (s.moment + 1) with
          | none =>
              have hrest := ih ({ s with moment := s.moment + 2 }.send
                (.request (.getValueByDeviceId config.id)))
              simp only [send] at hrest
              simp [ModbusDeviceUnit.new, send, hvalues, ← hrest]
          | some values =>
              simp [ModbusDeviceUnit.new, send, hvalues, Option.bind_eq_some_iff]

/-- The outcome of a reload depends on what is listed and on what is built of it. -/
theorem createDevicesAccesses_eq (s : ReadMaster) :
    s.createDevicesAccesses env =
      if (env.devices s.moment).2.isEmpty then []
      else
        match ({ s with devices := [] }.getDevises env).1.createUnits env (env.devices s.moment).2 with
        | none => []
        | some (a, devices) => { a with devices }.whenNextDeviceAccesses := rfl

theorem reloadAnswered_iff (s : ReadMaster) :
    ReloadAnswered env s ↔ (env.devices s.moment).2 ≠ [] →
      ¬∃ a, ({ s with devices := [] }.getDevises env).1.createUnits env (env.devices s.moment).2 =
        some (a, []) := by
  rw [createUnits_nil_iff, ReloadAnswered, ← List.length_pos_iff]
  apply imp_congr_right
  intro _
  constructor
  · intro h hnone
    obtain ⟨k, hk, hsome⟩ := h fun k hk => (hnone k hk).1
    have hvalues : env.values (s.moment + 1 + 2 * k + 1) = none := (hnone k hk).2
    rw [hvalues] at hsome
    cases hsome
  · intro h hclock
    by_contra hnone
    apply h
    intro k hk
    refine ⟨hclock k hk, ?_⟩
    by_contra hvalues
    exact hnone ⟨k, hk, Option.isSome_iff_ne_none.mpr hvalues⟩

/-- **A reload** stays within bounds if it does not come out empty of a list that is not. -/
theorem createDevicesAccesses_iff (s : ReadMaster) :
    AllInBounds (s.createDevicesAccesses env) ↔ ReloadAnswered env s := by
  rw [reloadAnswered_iff, createDevicesAccesses_eq]
  split
  · next hnil => simp [List.isEmpty_iff.mp hnil]
  · next hsome =>
    have hne : (env.devices s.moment).2 ≠ [] := fun h => hsome (List.isEmpty_iff.mpr h)
    split
    · next hunits => simp [hunits]
    · next a devices hunits =>
      rw [whenNextDeviceAccesses_iff, hunits]
      simp [hne]

theorem createDevices_panics {s : ReadMaster} (h : ¬AllInBounds (s.createDevicesAccesses env)) :
    s.createDevices env = none := by
  rw [createDevicesAccesses_eq] at h
  have heq : s.createDevices env =
      if (env.devices s.moment).2.isEmpty then
        some (({ s with devices := [] }.getDevises env).1, false)
      else
        (({ s with devices := [] }.getDevises env).1.createUnits env (env.devices s.moment).2).bind
          fun r => ({ r.1 with devices := r.2 }.whenNextDevice).bind fun r => some (r.1, true) := rfl
  rw [heq]
  split
  · next hnil => simp [hnil] at h
  · next hsome =>
    rw [if_neg hsome] at h
    split at h
    · next hunits => rw [hunits]; rfl
    · next a devices hunits =>
      rw [whenNextDeviceAccesses_iff, ← whenNextDevice_isSome, Option.not_isSome_iff_eq_none] at h
      rw [hunits, Option.bind_some]
      simp only [h, Option.bind_none]

/-! ### The current device -/

/-- The current device is one of the list. -/
def Current (s : ReadMaster) : Prop :=
  ∃ idx, s.currentDeviseIndex = some idx ∧ idx < s.devices.length

/-- What every call keeps: if there are devices, the current one is among them. -/
def Indexed (s : ReadMaster) : Prop := s.devices ≠ [] → s.Current

theorem length_entries (s : ReadMaster) : s.entries.length = s.devices.length := List.length_map _

theorem Current.of_length {s s' : ReadMaster} (h : s.Current)
    (hlength : s'.entries.length = s.entries.length)
    (hcurrent : s'.currentDeviseIndex = s.currentDeviseIndex) : s'.Current := by
  obtain ⟨idx, hidx, hlt⟩ := h
  rw [length_entries, length_entries] at hlength
  exact ⟨idx, hcurrent.trans hidx, hlength ▸ hlt⟩

theorem Indexed.of_length {s s' : ReadMaster} (h : s.Indexed)
    (hlength : s'.entries.length = s.entries.length)
    (hcurrent : s'.currentDeviseIndex = s.currentDeviseIndex) : s'.Indexed := by
  intro hne
  apply Current.of_length _ hlength hcurrent
  apply h
  rwa [← List.length_pos_iff, ← length_entries, ← hlength, length_entries, List.length_pos_iff]

theorem Keeps.indexed {s s' : ReadMaster} (hkeeps : Keeps s s') (h : s.Indexed) : s'.Indexed :=
  h.of_length (congrArg List.length hkeeps.entries) hkeeps.current

theorem whenNextDevice_current {s s' : ReadMaster} {time : Nat}
    (h : s.whenNextDevice = some (s', time)) : s'.Current := by
  obtain ⟨first, hfirst, h⟩ := Option.bind_eq_some_iff.mp h
  obtain ⟨device, -, h⟩ := Option.bind_eq_some_iff.mp h
  obtain ⟨rfl, -⟩ := Prod.mk.inj (Option.some.inj h)
  exact ⟨_, rfl, lagging_lt hfirst⟩

/-- A reload leaves no device, or a current one. -/
theorem createDevices_current {s s' : ReadMaster} {created : Bool}
    (h : s.createDevices env = some (s', created)) :
    (created = false → s'.devices = []) ∧ (created = true → s'.Current) := by
  unfold createDevices at h
  dsimp only at h
  split at h
  · obtain ⟨rfl, rfl⟩ := Prod.mk.inj (Option.some.inj h)
    exact ⟨fun _ => rfl, nofun⟩
  · obtain ⟨⟨a, units⟩, -, h⟩ := Option.bind_eq_some_iff.mp h
    obtain ⟨⟨b, time⟩, hb, h⟩ := Option.bind_eq_some_iff.mp h
    obtain ⟨rfl, rfl⟩ := Prod.mk.inj (Option.some.inj h)
    exact ⟨nofun, fun _ => whenNextDevice_current hb⟩

theorem createDevices_indexed {s s' : ReadMaster} {created : Bool}
    (h : s.createDevices env = some (s', created)) : s'.Indexed := by
  obtain ⟨hgone, hcurrent⟩ := createDevices_current h
  intro hne
  cases created with
  | false => exact absurd (hgone rfl) hne
  | true => exact hcurrent rfl

theorem withDevices_indexed {s s' : ReadMaster} {found : Bool} (hs : s.Indexed)
    (h : s.withDevices env = some (s', found)) :
    s'.Indexed ∧ (found = true → s'.Current) := by
  unfold withDevices at h
  split at h
  · exact ⟨createDevices_indexed h, (createDevices_current h).2⟩
  · next hsome =>
    obtain ⟨rfl, -⟩ := Prod.mk.inj (Option.some.inj h)
    exact ⟨hs, fun _ => hs fun hnil => hsome (List.isEmpty_iff.mpr hnil)⟩

/-- The device that `tick` reads is one of the list. -/
theorem ready_current {s a : ReadMaster} (hs : s.Indexed) (h : s.ready env = some a) :
    a.Current := by
  unfold ready at h
  split at h
  · next b hb =>
    split at h
    · obtain rfl := Option.some.inj h
      have hkeeps : Keeps b (b.withContext env).1 := withContext_keeps b
      exact ((withDevices_indexed hs hb).2 rfl).of_length (congrArg List.length hkeeps.entries)
        hkeeps.current
    · cases h
  · cases h

/-- What `tick` reads is `ready`. -/
theorem tick_eq (s : ReadMaster) :
    s.tick env = (s.withDevices env).bind fun found =>
      match s.ready env with
      | some a => a.read env
      | none => some (if found.2 then (found.1.withContext env).1 else found.1) := by
  unfold tick ready
  cases s.withDevices env with
  | none => rfl
  | some r =>
      obtain ⟨a, found⟩ := r
      cases found with
      | false => rfl
      | true => cases hready : (a.withContext env).2 <;> simp [hready]

end ReadMaster

theorem Polled.indexed {J : Type*} {env : Environment J} {s s' : ReadMaster} {idx : Nat}
    {device : ModbusDeviceUnit} {p : Poll} (hp : Polled env s idx device p s') (h : s.Indexed) :
    s'.Indexed := by
  apply h.of_length _ hp.current
  rcases hp.after with ⟨-, -, hentries⟩ | ⟨-, hentries⟩
  · rw [hentries, List.length_set]
  · rw [hentries]

namespace ReadMaster

variable {J : Type*} {env : Environment J}

/-! ### Polls -/

theorem moreTimeAccesses_iff (s : ReadMaster) (idx : Option Nat) :
    AllInBounds (s.moreTimeAccesses idx) ↔ ∀ i ∈ idx, i < s.devices.length := by
  cases idx <;> simp [moreTimeAccesses, Access.InBounds, access]

/-- **A poll** stays within bounds unless it gives more time to a device that is gone. -/
theorem pollAccesses_iff {s : ReadMaster} {idx : Nat} (hcurrent : s.currentDeviseIndex = some idx)
    (hlt : idx < s.devices.length) (device : ModbusDeviceUnit) :
    AllInBounds (s.pollAccesses env idx device) ↔
      (MismatchesAtOnce env s device → ∀ prev ∈ s.lastestDeviceIndex, prev < s.devices.length) := by
  unfold pollAccesses MismatchesAtOnce
  split
  · next hpool => simp [hpool]
  · next pool round hpool =>
    simp only [hpool, Option.some.injEq, Prod.mk.injEq]
    cases hflow : round.flow with
    | socketFail => simp [hflow]
    | next => simp [hflow, Access.InBounds, access, hlt]
    | headerMismatch action =>
        cases action with
        | increaseCurrent =>
            simp [hflow, headerMismatchedAccesses, moreTimeAccesses_iff, hcurrent, hlt]
        | increasePrevious => simp [hflow, headerMismatchedAccesses, moreTimeAccesses_iff]

theorem readAccesses_iff {s : ReadMaster} (hs : s.Current) :
    AllInBounds (s.readAccesses env) ↔ RemembersDevice env s := by
  obtain ⟨idx, hcurrent, hlt⟩ := hs
  have hdevice := List.getElem?_eq_getElem hlt
  rw [readAccesses, RemembersDevice, hcurrent]
  simp only [hdevice, allInBounds_cons, Option.mem_some_iff, forall_eq']
  by_cases hready : s.devices[idx].isActive = true ∧ s.ctx.isSome = true
  · rw [if_pos hready, pollAccesses_iff hcurrent hlt]
    simp [Access.InBounds, access, hlt, hready.1, hready.2]
  · rw [if_neg hready]
    simp only [Access.InBounds, access, hlt, allInBounds_nil, and_self, true_iff]
    exact fun hactive hctx => absurd ⟨hactive, hctx⟩ hready

theorem poll_panics {s : ReadMaster} {idx : Nat} {device : ModbusDeviceUnit}
    (hcurrent : s.currentDeviseIndex = some idx) (hlt : idx < s.devices.length)
    (h : ¬AllInBounds (s.pollAccesses env idx device)) : s.poll env idx device = none := by
  rw [pollAccesses_iff hcurrent hlt] at h
  push Not at h
  obtain ⟨⟨pool, round, hpool, hflow⟩, prev, hprev, hgone⟩ := h
  have hlastest : s.lastestDeviceIndex = some prev := hprev
  rw [poll_of_pollPool hpool, hflow]
  simp [headerMismatched, increaseTimeout, looped, moreTime, hlastest, hgone]

theorem read_panics {s : ReadMaster} (hs : s.Current)
    (h : ¬AllInBounds (s.readAccesses env)) : s.read env = none := by
  obtain ⟨idx, hcurrent, hlt⟩ := hs
  have hdevice := List.getElem?_eq_getElem hlt
  have hin : (s.access idx).InBounds := hlt
  rw [readAccesses, hcurrent] at h
  simp only [hdevice, allInBounds_cons, hin, true_and] at h
  rw [read, hcurrent]
  simp only [hdevice]
  split at h
  · next hready =>
    rw [if_pos hready]
    exact poll_panics hcurrent hlt h
  · exact absurd allInBounds_nil h

end ReadMaster

/-! ## Calls -/

namespace Call

open ReadMaster

variable {J : Type*} {env : Environment J}

theorem perform_indexed {s s' : ReadMaster} {call : Call} (hs : s.Indexed)
    (h : call.perform env s = some s') : s'.Indexed := by
  cases call with
  | tick =>
      rw [perform, tick_eq] at h
      obtain ⟨⟨a, found⟩, ha, h⟩ := Option.bind_eq_some_iff.mp h
      split at h
      · next b hb =>
        have hb' : b.Indexed := fun _ => ready_current hs hb
        rcases read_spec h with rfl | ⟨idx, device, p, -, -, -, hp⟩
        · exact hb'
        · exact hp.indexed hb'
      · obtain rfl := Option.some.inj h
        have ha' := (withDevices_indexed hs ha).1
        split
        · exact (withContext_keeps a).indexed ha'
        · exact ha'
  | update conf =>
      obtain ⟨⟨a, created⟩, ha, h⟩ := Option.bind_eq_some_iff.mp h
      obtain rfl := Option.some.inj h
      exact createDevices_indexed ha
  | whenNext =>
      obtain ⟨⟨a, time⟩, ha, rfl⟩ := Option.map_eq_some_iff.mp h
      obtain ⟨-, hentries, -⟩ := whenNext_spec ha
      unfold ReadMaster.whenNext at ha
      dsimp only at ha
      split at ha
      · obtain ⟨rfl, -⟩ := Prod.mk.inj (Option.some.inj ha)
        exact hs
      · split at ha
        · obtain ⟨rfl, -⟩ := Prod.mk.inj (Option.some.inj ha)
          exact hs
        · obtain ⟨⟨b, wait⟩, hb, hbeq⟩ := Option.map_eq_some_iff.mp ha
          obtain ⟨rfl, -⟩ := Prod.mk.inj hbeq
          exact fun _ => whenNextDevice_current hb

theorem run_indexed {config : NodeRead} {calls : List Call} {s : ReadMaster}
    (h : run env config calls = some s) : s.Indexed :=
  Transducer.foldlM_invariant (fun _ _ _ _ hs hcall => perform_indexed hs hcall)
    (fun hne => absurd rfl hne) h

theorem accesses_iff {s : ReadMaster} (hs : s.Indexed) (call : Call) :
    AllInBounds (call.accesses env s) ↔ call.Safe env s := by
  cases call with
  | tick =>
      show AllInBounds (_ ++ _) ↔ _
      rw [allInBounds_append]
      apply and_congr
      · split
        · next hempty => simp [createDevicesAccesses_iff, List.isEmpty_iff.mp hempty]
        · next hsome =>
          have hne : s.devices ≠ [] := fun h => hsome (List.isEmpty_iff.mpr h)
          simp [hne]
      · split
        · next a ha => simp [readAccesses_iff (ready_current hs ha), ha]
        · next ha => simp [ha]
  | update conf => exact createDevicesAccesses_iff _
  | whenNext =>
      show AllInBounds s.whenNextAccesses ↔ True
      rw [iff_true, whenNextAccesses]
      split
      · exact allInBounds_nil
      · next hready =>
        rw [whenNextDeviceAccesses_iff]
        exact fun hnil => hready (.inl (List.isEmpty_iff.mpr hnil))

/-- An index out of bounds ends the call. -/
theorem perform_panics {s : ReadMaster} (hs : s.Indexed) {call : Call}
    (h : ¬AllInBounds (call.accesses env s)) : call.perform env s = none := by
  cases call with
  | tick =>
      rw [accesses, tickAccesses, allInBounds_append] at h
      rw [perform, tick_eq]
      by_cases hreload : AllInBounds (if s.devices.isEmpty then s.createDevicesAccesses env else [])
      · cases ha : s.ready env with
        | none =>
            rw [ha] at h
            exact absurd ⟨hreload, allInBounds_nil⟩ h
        | some a =>
            rw [ha] at h
            simp [read_panics (ready_current hs ha) fun hread => h ⟨hreload, hread⟩]
      · split at hreload
        · next hempty =>
          rw [withDevices, if_pos hempty, createDevices_panics hreload, Option.bind_none]
        · exact absurd allInBounds_nil hreload
  | update conf =>
      have hreload : (s.reconnected env conf).createDevices env = none := createDevices_panics h
      show ((s.reconnected env conf).createDevices env).bind _ = none
      rw [hreload, Option.bind_none]
  | whenNext => exact absurd ((accesses_iff hs .whenNext).mpr trivial) h

end Call

/-- **Index safety.** In every state that calls lead to, a call applies indices of the list only, and
does not panic for one, exactly if its reload is answered and its poll does not turn to a device that
is gone. -/
theorem indices_in_bounds (env : Environment J) (config : NodeRead) (calls : List Call)
    (s : ReadMaster) (h : Call.run env config calls = some s) (call : Call) :
    AllInBounds (call.accesses env s) ↔ call.Safe env s :=
  Call.accesses_iff (Call.run_indexed h) call

/-- The values of no device are answered. -/
def silentEnvironment : Environment (Int × Int) :=
  { sampleEnvironment (fun _ => 1000) fun _ => .elapsed with values := fun _ => none }

/-- After device 1 was polled it is deleted, and the next answer is for another request. -/
def shrinkingEnvironment : Environment (Int × Int) :=
  { sampleEnvironment (fun m => 1000 * m) fun m =>
      if m < 14 then .data [5] else .error (.protocol .headerMismatch) with
    devices := fun m => (0, if m < 13 then
      [⟨1, 1, 100000, 500, 1, true, true⟩, ⟨2, 2, 100000, 500, 1, true, true⟩]
      else [⟨1, 1, 100000, 500, 1, true, true⟩]) }

/-- The calls before the tick that turns to the deleted device. -/
def shrinkingCalls : List Call := [.tick, .whenNext, .tick, .update ⟨1, "10.0.0.1", none⟩]


/-- Before the tick, the last device polled is device 1 of a list that now has one device. -/
theorem shrinkingCalls_run :
    ∃ s, Call.run shrinkingEnvironment ⟨1, "10.0.0.1", none⟩ shrinkingCalls = some s ∧
      Call.tick.accesses shrinkingEnvironment s = [⟨0, 1⟩, ⟨1, 1⟩] := by
  have hrun : (Call.run shrinkingEnvironment ⟨1, "10.0.0.1", none⟩ shrinkingCalls).map
      (Call.tick.accesses shrinkingEnvironment) = some [⟨0, 1⟩, ⟨1, 1⟩] := by
    decide +kernel
  exact Option.map_eq_some_iff.mp hrun

/-- A call after a reload that dropped a device. -/
theorem indices_in_bounds_shrinking :
    ∃ s, Call.run shrinkingEnvironment ⟨1, "10.0.0.1", none⟩ shrinkingCalls = some s ∧
      (AllInBounds (Call.tick.accesses shrinkingEnvironment s) ↔
        Call.tick.Safe shrinkingEnvironment s) := by
  obtain ⟨s, hrun, -⟩ := shrinkingCalls_run
  exact ⟨s, hrun, indices_in_bounds _ _ _ s hrun .tick⟩

/-- The first tick indexes an empty list, and a mismatched header leads to a device that is gone; both
end the task of the node. -/
theorem index_out_of_bounds :
    (¬AllInBounds (Call.tick.accesses silentEnvironment (.new ⟨1, "10.0.0.1", none⟩)) ∧
      Call.tick.perform silentEnvironment (.new ⟨1, "10.0.0.1", none⟩) = none) ∧
    ∃ s, Call.run shrinkingEnvironment ⟨1, "10.0.0.1", none⟩ shrinkingCalls = some s ∧
      ¬AllInBounds (Call.tick.accesses shrinkingEnvironment s) ∧
      Call.tick.perform shrinkingEnvironment s = none := by
  constructor
  · have hout : ¬AllInBounds (Call.tick.accesses silentEnvironment (.new ⟨1, "10.0.0.1", none⟩)) := by
      decide +kernel
    exact ⟨hout, Call.perform_panics (fun hne => absurd rfl hne) hout⟩
  · obtain ⟨s, hrun, haccesses⟩ := shrinkingCalls_run
    have hout : ¬AllInBounds (Call.tick.accesses shrinkingEnvironment s) := by
      rw [haccesses]
      decide
    exact ⟨s, hrun, hout, Call.perform_panics (Call.run_indexed hrun) hout⟩

end ModbusLogger.Reader
