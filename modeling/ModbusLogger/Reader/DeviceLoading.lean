import ModbusLogger.Lib.Retry
import ModbusLogger.Reader.OrphanedNode
import ModbusLogger.Reader.Panics

/-!
# The loop that loads the devices of a node (`reading_loop/read_master_struct.rs`)

`ReadMaster.getDevises` is given what the database answers in the end. Here is the loop itself, one
request after the other. Its only exit is an answer: the counter of the failures decides whether a line
is logged, and nothing else. All that waits for the devices waits as long as the database fails. To wait
is the outer option of what follows, and to panic the inner one; a call gives control back if it does
neither.
-/

namespace ModbusLogger.Reader

open FixedWidth

/-- How a request for the devices ends. If it cannot be sent, the channel for its answer is gone,
too. -/
inductive RequestOutcome where
  | sendError
  | dropped
  | dbError
  | success (devices : List DeviceRead)

def RequestOutcome.Succeeds : RequestOutcome → Prop
  | .success _ => True
  | _ => False

/-! ## The lines of the log -/

def unsentLine (ip : String) : String :=
  s!"Помилка відправки повідомлення до контролера при створенні пристроїв для {ip}\nErr: channel closed"

def dbErrorLine (ip : String) : String := s!"Помилка отримання даних від бази даних для {ip}"

def droppedLine (ip : String) : String :=
  s!"Помилка каналу отримування відповіді для {ip} від бази: channel closed"

def exhaustedLine (ip : String) : String :=
  s!"Помилка отримання пристроїв для {ip}, кількість спроб вичерпано"

/-! ## `get_devises` -/

/-- The variables of the loop, with the lines that it logs. -/
structure Loading where
  readMaster : ReadMaster
  counter : Int
  printed : List String

namespace Loading

def start (s : ReadMaster) : Loading := ⟨s, 0, []⟩

/-- The request is sent. -/
def ask (l : Loading) : Loading :=
  { l with readMaster := l.readMaster.send (.request (.getDeviceByNode l.readMaster.id)) }

def print (l : Loading) (line : String → String) : Loading :=
  { l with printed := l.printed ++ [line l.readMaster.ip] }

/-- The end of a turn without an answer. Five failures are logged, and do not end the loop. -/
def countFailure (l : Loading) : Loading :=
  let l := { l with counter := asI32 (l.counter + 1) }
  if l.counter ≥ 5 then l.print exhaustedLine else l

def turn (l : Loading) : RequestOutcome → Retry.Turn (ReadMaster × List DeviceRead) Loading
  | .sendError => .again ((l.print unsentLine).print droppedLine).countFailure
  | .dropped => .again (l.ask.print droppedLine).countFailure
  | .dbError => .again (l.ask.print dbErrorLine).countFailure
  | .success devices =>
    .leave ({ l.ask.readMaster with moment := l.readMaster.moment + 1 }, devices)

end Loading

namespace ReadMaster

/-- `get_devises`, for a number of attempts. -/
def getDevisesWithin (n : Nat) (outcomes : Nat → RequestOutcome) (s : ReadMaster) :
    Option (ReadMaster × List DeviceRead) :=
  Retry.within Loading.turn n outcomes (.start s)

/-- `get_devises` returns, after any number of attempts. -/
def LoadingReturns (outcomes : Nat → RequestOutcome) (s : ReadMaster) : Prop :=
  Retry.Returns Loading.turn outcomes (.start s)

variable {J : Type*} (env : Environment J)

/-! ## The functions that wait for it -/

/-- `create_devices`, once the devices are there. -/
def loaded (r : ReadMaster × List DeviceRead) : Option (ReadMaster × Bool) :=
  if r.2.isEmpty then some (r.1, false)
  else do
    let (s, devices) ← r.1.createUnits env r.2
    let (s, _) ← { s with devices }.whenNextDevice
    return (s, true)

/-- `create_devices`; nothing as long as it waits. The inner option is a panic, as in
`ReadMaster.createDevices`. -/
def createDevicesWithin (n : Nat) (outcomes : Nat → RequestOutcome) (s : ReadMaster) :
    Option (Option (ReadMaster × Bool)) :=
  ({ s with devices := [] }.getDevisesWithin n outcomes).map (loaded env)

/-- `tick`, after its first half. -/
def ticked (found : ReadMaster × Bool) : Option ReadMaster :=
  if found.2 then
    let created := found.1.withContext env
    if created.2 then created.1.read env else some created.1
  else some found.1

def tickWithin (n : Nat) (outcomes : Nat → RequestOutcome) (s : ReadMaster) :
    Option (Option ReadMaster) :=
  if s.devices.isEmpty then
    (s.createDevicesWithin env n outcomes).map fun found => found.bind (ticked env)
  else some (ticked env (s, true))

def updateWithin (n : Nat) (outcomes : Nat → RequestOutcome) (s : ReadMaster) (conf : NodeRead) :
    Option (Option ReadMaster) :=
  ((s.reconnected env conf).createDevicesWithin env n outcomes).map (Option.map Prod.fst)

end ReadMaster

namespace NodeLoop

variable {J : Type*} (env : Environment J)

def reactWithin (n : Nat) (outcomes : Nat → RequestOutcome) (s : ReadMaster) :
    Wake → Option (Option (Option ReadMaster))
  | .message msg =>
    match msg.eventType with
    | .update =>
      if msg.data.id = s.id then (s.updateWithin env n outcomes msg.data).map (Option.map some)
      else some (some (some s))
    | .delete => if msg.data.id = s.id then some (some none) else some (some (some s))
    | .create => some (some (some s))
  | .lost => some (some (some s))
  | .elapsed => (s.tickWithin env n outcomes).map (Option.map some)

/-- One turn of the loop of the node; nothing as long as it waits for the devices. -/
def turnWithin (n : Nat) (outcomes : Nat → RequestOutcome) (l : NodeLoop) (wake : Wake) :
    Option (Option NodeLoop) :=
  if l.ended then some (some l)
  else
    (reactWithin env n outcomes l.readMaster wake).map fun reacted => reacted.bind fun
      | none => some { l with ended := true }
      | some s => (s.whenNext env).map fun next =>
        { l with readMaster := next.1, sleepTime := max next.2 20 }

end NodeLoop

/-! ## When the loop is left -/

namespace Loading

theorem turn_leaves_iff (l : Loading) (outcome : RequestOutcome) :
    (∃ result, l.turn outcome = .leave result) ↔ outcome.Succeeds := by
  cases outcome <;> simp [turn, RequestOutcome.Succeeds]

@[simp] theorem countFailure_readMaster (l : Loading) : l.countFailure.readMaster = l.readMaster := by
  unfold countFailure
  dsimp only
  split <;> rfl

@[simp] theorem countFailure_counter (l : Loading) :
    l.countFailure.counter = asI32 (l.counter + 1) := by
  unfold countFailure
  dsimp only
  split <;> rfl

/-- From the fifth failure on, the line that the attempts are exhausted is logged. -/
theorem countFailure_exhausted {l : Loading} (h : 5 ≤ asI32 (l.counter + 1)) :
    exhaustedLine l.readMaster.ip ∈ l.countFailure.printed := by
  unfold countFailure
  rw [if_pos h]
  exact List.mem_append_right _ (List.mem_singleton_self _)

/-- A turn that goes on counts a failure. -/
theorem turn_again {l l' : Loading} {outcome : RequestOutcome} (h : l.turn outcome = .again l') :
    ∃ asked : Loading, l' = asked.countFailure ∧ asked.counter = l.counter ∧
      asked.readMaster.ip = l.readMaster.ip := by
  cases outcome with
  | success devices => cases h
  | sendError => exact ⟨_, (Retry.Turn.again.inj h).symm, rfl, rfl⟩
  | dropped => exact ⟨_, (Retry.Turn.again.inj h).symm, rfl, rfl⟩
  | dbError => exact ⟨_, (Retry.Turn.again.inj h).symm, rfl, rfl⟩

/-- What holds after some failures. -/
structure Failed (ip : String) (n : Nat) (l : Loading) : Prop where
  address : l.readMaster.ip = ip
  counter : n < 2147483648 → l.counter = n
  exhausted : 5 ≤ n → n < 2147483648 → exhaustedLine ip ∈ l.printed

theorem Failed.turn {ip : String} {n : Nat} {l l' : Loading} {outcome : RequestOutcome}
    (h : Failed ip n l) (hturn : l.turn outcome = .again l') : Failed ip (n + 1) l' := by
  obtain ⟨asked, rfl, hcounter, haddress⟩ := turn_again hturn
  have hcount (hn : n + 1 < 2147483648) : asI32 (asked.counter + 1) = n + 1 := by
    rw [hcounter, h.counter (by omega)]
    exact asI32_of_lt (by omega) (by omega)
  refine ⟨?_, ?_, ?_⟩
  · rw [countFailure_readMaster, haddress, h.address]
  · intro hn
    rw [countFailure_counter, hcount hn]
    rfl
  · intro hfive hn
    rw [← h.address, ← haddress]
    apply countFailure_exhausted
    rw [hcount hn]
    omega

/-- The loop says that the attempts are exhausted, and is still there. -/
theorem after_exhausted {outcomes : Nat → RequestOutcome} {s : ReadMaster} {n : Nat}
    (hfail : ∀ k < n, ¬(outcomes k).Succeeds) (hfive : 5 ≤ n) (hn : n < 2147483648) :
    ∃ l, Retry.after Loading.turn n outcomes (.start s) = some l ∧ l.counter = n ∧
      exhaustedLine s.ip ∈ l.printed := by
  obtain ⟨l, hl⟩ := Retry.after_isSome (s := .start s) (fun l k => turn_leaves_iff l (outcomes k)) hfail
  have hstart : Failed s.ip 0 (start s) := ⟨rfl, fun _ => rfl, fun h => by omega⟩
  have hfailed := Retry.after_invariant (fun n l outcome l' h => h.turn) hstart hl
  rw [Nat.zero_add] at hfailed
  exact ⟨l, hl, hfailed.counter hn, hfailed.exhausted hfive hn⟩

end Loading

namespace ReadMaster

variable {J : Type*} {env : Environment J} {outcomes : Nat → RequestOutcome} {s : ReadMaster}
  {n : Nat}

theorem getDevisesWithin_isSome :
    (s.getDevisesWithin n outcomes).isSome ↔ ∃ k < n, (outcomes k).Succeeds :=
  Retry.within_isSome_iff fun l k => Loading.turn_leaves_iff l (outcomes k)

theorem loadingReturns_iff : s.LoadingReturns outcomes ↔ ∃ k, (outcomes k).Succeeds :=
  Retry.returns_iff_exists fun l k => Loading.turn_leaves_iff l (outcomes k)

theorem createDevicesWithin_isSome :
    (s.createDevicesWithin env n outcomes).isSome ↔ ∃ k < n, (outcomes k).Succeeds := by
  rw [createDevicesWithin, Option.isSome_map, getDevisesWithin_isSome]

/-- A node with devices does not ask for them. -/
theorem tickWithin_isSome : (s.tickWithin env n outcomes).isSome ↔
    s.devices ≠ [] ∨ ∃ k < n, (outcomes k).Succeeds := by
  unfold tickWithin
  split
  · next hempty =>
    rw [Option.isSome_map, createDevicesWithin_isSome]
    simp [List.isEmpty_iff.mp hempty]
  · next hsome => simpa using .inl (fun hnil => hsome (List.isEmpty_iff.mpr hnil))

theorem updateWithin_isSome {conf : NodeRead} :
    (s.updateWithin env n outcomes conf).isSome ↔ ∃ k < n, (outcomes k).Succeeds := by
  rw [updateWithin, Option.isSome_map, createDevicesWithin_isSome]

/-! ### An answer after some failures -/

/-- The requests fail in the database, and then one is answered. -/
def Answered (outcomes : Nat → RequestOutcome) (answer : Nat × List DeviceRead) : Prop :=
  (∀ i < answer.1, outcomes i = .dropped ∨ outcomes i = .dbError) ∧
    outcomes answer.1 = .success answer.2

/-- What is left of the failures is their requests. -/
theorem after_failures (k : Nat) (outcomes : Nat → RequestOutcome) (l : Loading)
    (hfail : ∀ i < k, outcomes i = .dropped ∨ outcomes i = .dbError) :
    ∃ counter printed, Retry.after Loading.turn k outcomes l = some ⟨{ l.readMaster with
      toController := l.readMaster.toController ++
        List.replicate k (MainMsg.request (.getDeviceByNode l.readMaster.id)) },
      counter, printed⟩ := by
  induction k generalizing outcomes l with
  | zero => exact ⟨l.counter, l.printed, by simp⟩
  | succ k ih =>
      have hturn : ∃ l', l.turn (outcomes 0) = .again l' ∧ l'.readMaster = l.ask.readMaster := by
        rcases hfail 0 (Nat.succ_pos k) with heq | heq <;> rw [heq]
        · exact ⟨_, rfl, Loading.countFailure_readMaster _⟩
        · exact ⟨_, rfl, Loading.countFailure_readMaster _⟩
      obtain ⟨l', hl', hstate⟩ := hturn
      obtain ⟨counter, printed, hafter⟩ :=
        ih (fun i => outcomes (i + 1)) l' fun i hi => hfail (i + 1) (Nat.succ_lt_succ hi)
      refine ⟨counter, printed, ?_⟩
      rw [Retry.after_again hl', hafter, hstate]
      simp [Loading.ask, send, List.replicate_succ]

/-- With such a database the loop does what `getDevises` says. -/
theorem getDevisesWithin_eq (h : Answered outcomes (env.devices s.moment))
    (hn : (env.devices s.moment).1 < n) :
    s.getDevisesWithin n outcomes = some (s.getDevises env) := by
  obtain ⟨counter, printed, hafter⟩ := after_failures _ outcomes (.start s) h.1
  have hlast := Retry.within_of_after hafter (by rw [h.2]; rfl)
  rw [getDevisesWithin, Retry.within_mono hlast hn]
  simp [getDevises, Loading.start, Loading.ask, send, List.replicate_succ']

theorem createDevicesWithin_eq (h : Answered outcomes (env.devices s.moment))
    (hn : (env.devices s.moment).1 < n) :
    s.createDevicesWithin env n outcomes = some (s.createDevices env) := by
  have hloaded : ({ s with devices := [] } : ReadMaster).getDevisesWithin n outcomes =
      some (({ s with devices := [] } : ReadMaster).getDevises env) := getDevisesWithin_eq h hn
  rw [createDevicesWithin, hloaded]
  rfl

theorem tickWithin_eq (h : Answered outcomes (env.devices s.moment))
    (hn : (env.devices s.moment).1 < n) :
    s.tickWithin env n outcomes = some (s.tick env) := by
  show _ = some ((s.withDevices env).bind (ticked env))
  unfold tickWithin withDevices
  split
  · rw [createDevicesWithin_eq h hn]
    rfl
  · rfl

theorem updateWithin_eq {conf : NodeRead}
    (h : Answered outcomes (env.devices (s.reconnected env conf).moment))
    (hn : (env.devices (s.reconnected env conf).moment).1 < n) :
    s.updateWithin env n outcomes conf = some (s.update env conf) := by
  rw [updateWithin, createDevicesWithin_eq h hn]
  show some (((s.reconnected env conf).createDevices env).map Prod.fst) =
    some (((s.reconnected env conf).createDevices env).bind fun r => some r.1)
  rw [Option.map_eq_bind]
  rfl

end ReadMaster

namespace NodeLoop

variable {J : Type*} {env : Environment J} {outcomes : Nat → RequestOutcome} {n : Nat}

/-- The turn reads the devices again. -/
def Loads (s : ReadMaster) : Wake → Prop
  | .message msg => msg.eventType = .update ∧ msg.data.id = s.id
  | .lost => False
  | .elapsed => s.devices = []

theorem reactWithin_isSome {s : ReadMaster} {wake : Wake} :
    (reactWithin env n outcomes s wake).isSome ↔
      (Loads s wake → ∃ k < n, (outcomes k).Succeeds) := by
  cases wake with
  | lost => simp [reactWithin, Loads]
  | elapsed =>
      rw [reactWithin, Option.isSome_map, ReadMaster.tickWithin_isSome]
      show s.devices ≠ [] ∨ _ ↔ (s.devices = [] → _)
      rw [ne_eq, ← imp_iff_not_or]
  | message msg =>
      cases htype : msg.eventType with
      | create => simp [reactWithin, Loads, htype]
      | delete => by_cases hid : msg.data.id = s.id <;> simp [reactWithin, Loads, htype, hid]
      | update =>
          by_cases hid : msg.data.id = s.id
          · simp [reactWithin, Loads, htype, hid, ReadMaster.updateWithin_isSome]
          · simp [reactWithin, Loads, htype, hid]

/-- A turn that reads the devices again is over after an answer; every other turn is over at once. -/
theorem turnWithin_isSome {l : NodeLoop} {wake : Wake} (hended : l.ended = false) :
    (turnWithin env n outcomes l wake).isSome ↔
      (Loads l.readMaster wake → ∃ k < n, (outcomes k).Succeeds) := by
  simp [turnWithin, hended, reactWithin_isSome]

end NodeLoop

/-! ## When control comes back -/

/-- The first successful answer among the first `n`. -/
def FirstAnswer (outcomes : Nat → RequestOutcome) (n : Nat) (devices : List DeviceRead) : Prop :=
  ∃ k < n, (∀ i < k, ¬(outcomes i).Succeeds) ∧ outcomes k = .success devices

namespace Loading

/-- While the loop asks, it changes nothing of the read master but what was sent. -/
theorem turn_again_readMaster {l l' : Loading} {outcome : RequestOutcome}
    (h : l.turn outcome = .again l') :
    ∃ sent, l'.readMaster = { l.readMaster with toController := sent } := by
  cases outcome with
  | success devices => cases h
  | sendError =>
      obtain rfl := Retry.Turn.again.inj h
      exact ⟨_, countFailure_readMaster _⟩
  | dropped =>
      obtain rfl := Retry.Turn.again.inj h
      exact ⟨_, countFailure_readMaster _⟩
  | dbError =>
      obtain rfl := Retry.Turn.again.inj h
      exact ⟨_, countFailure_readMaster _⟩

end Loading

namespace ReadMaster

variable {J : Type*} {env : Environment J} {outcomes : Nat → RequestOutcome} {s : ReadMaster}
  {n : Nat} {devices : List DeviceRead}

/-- **The loop** hands on the first answer. -/
theorem getDevisesWithin_first (h : FirstAnswer outcomes n devices) (s : ReadMaster) :
    ∃ sent, s.getDevisesWithin n outcomes =
      some ({ s with toController := sent, moment := s.moment + 1 }, devices) := by
  obtain ⟨k, hk, hfail, hsuccess⟩ := h
  obtain ⟨l, hl⟩ := Retry.after_isSome (s := .start s)
    (fun l k => Loading.turn_leaves_iff l (outcomes k)) hfail
  have hkept : ∃ sent, l.readMaster = { s with toController := sent } := by
    refine Retry.after_invariant (I := fun _ l => ∃ sent, l.readMaster = { s with toController := sent })
      (k := 0) ?_ ⟨s.toController, rfl⟩ hl
    rintro - l outcome l' ⟨sent, hsent⟩ hturn
    obtain ⟨sent', hsent'⟩ := Loading.turn_again_readMaster hturn
    exact ⟨sent', by rw [hsent', hsent]⟩
  obtain ⟨sent, hsent⟩ := hkept
  have hleave : l.turn (outcomes k) = .leave
      ({ s with toController := sent ++ [.request (.getDeviceByNode s.id)], moment := s.moment + 1 },
        devices) := by
    rw [hsuccess, Loading.turn, Loading.ask, hsent]
    rfl
  exact ⟨_, Retry.within_mono (Retry.within_of_after hl hleave) hk⟩

theorem firstAnswer_iff : (∃ devices, FirstAnswer outcomes n devices) ↔
    ∃ k < n, (outcomes k).Succeeds := by
  constructor
  · rintro ⟨devices, k, hk, -, hsuccess⟩
    exact ⟨k, hk, by rw [hsuccess]; trivial⟩
  · intro h
    classical
    have hfirst := Nat.find_spec h
    cases houtcome : outcomes (Nat.find h) with
    | success devices =>
        refine ⟨devices, Nat.find h, hfirst.1, fun i hi hsucceeds => ?_, houtcome⟩
        exact Nat.find_min h hi ⟨hi.trans hfirst.1, hsucceeds⟩
    | sendError => rw [houtcome] at hfirst; exact hfirst.2.elim
    | dropped => rw [houtcome] at hfirst; exact hfirst.2.elim
    | dbError => rw [houtcome] at hfirst; exact hfirst.2.elim

theorem loaded_isSome_iff (s : ReadMaster) :
    (loaded env (s, devices)).isSome ↔ ReloadSafe env s.moment devices := by
  rw [loaded]
  split
  · next hempty =>
    have hnil : devices = [] := List.isEmpty_iff.mp hempty
    refine iff_of_true rfl ⟨fun k hk => ?_, fun hne => absurd hnil hne⟩
    rw [hnil] at hk
    exact absurd hk (Nat.not_lt_zero k)
  · next hsome =>
    have hne : devices ≠ [] := fun h => hsome (List.isEmpty_iff.mpr h)
    rw [← reload_isSome_iff hne]
    dsimp only
    cases s.createUnits env devices with
    | none => rfl
    | some r =>
        simp only [Option.bind_eq_bind, Option.bind_some]
        cases { r.1 with devices := r.2 }.whenNextDevice <;> rfl

/-- What `create_devices` needs to come back: an answer in time, and a reload of it that is safe. -/
def LoadSafe (s : ReadMaster) (env : Environment J) (n : Nat) (outcomes : Nat → RequestOutcome) : Prop :=
  ∃ devices, FirstAnswer outcomes n devices ∧ ReloadSafe env (s.moment + 1) devices

theorem createDevicesWithin_returns_iff :
    (∃ r, s.createDevicesWithin env n outcomes = some (some r)) ↔ s.LoadSafe env n outcomes := by
  constructor
  · rintro ⟨r, hr⟩
    have hanswered := createDevicesWithin_isSome.mp (by rw [hr]; rfl)
    obtain ⟨devices, hfirst⟩ := firstAnswer_iff.mpr hanswered
    obtain ⟨sent, hloaded⟩ := getDevisesWithin_first hfirst { s with devices := [] }
    rw [createDevicesWithin, hloaded, Option.map_some, Option.some.injEq] at hr
    exact ⟨devices, hfirst, (loaded_isSome_iff _).mp (by rw [hr]; rfl)⟩
  · rintro ⟨devices, hfirst, hsafe⟩
    obtain ⟨sent, hloaded⟩ := getDevisesWithin_first hfirst { s with devices := [] }
    rw [createDevicesWithin, hloaded, Option.map_some]
    have hready : (loaded env
        ({ s with devices := [], toController := sent, moment := s.moment + 1 }, devices)).isSome :=
      (loaded_isSome_iff _).mpr hsafe
    obtain ⟨r, hr⟩ := Option.isSome_iff_exists.mp hready
    exact ⟨r, congrArg some hr⟩

theorem updateWithin_returns_iff {conf : NodeRead} :
    (∃ s', s.updateWithin env n outcomes conf = some (some s')) ↔
      (s.reconnected env conf).LoadSafe env n outcomes := by
  rw [← createDevicesWithin_returns_iff, updateWithin]
  cases (s.reconnected env conf).createDevicesWithin env n outcomes with
  | none => simp
  | some found => cases found <;> simp

/-- `tick` with its devices: those it has, or those it loads; nothing as long as it waits. -/
def devicesWithin (s : ReadMaster) (env : Environment J) (n : Nat) (outcomes : Nat → RequestOutcome) :
    Option (Option (ReadMaster × Bool)) :=
  if s.devices.isEmpty then s.createDevicesWithin env n outcomes else some (some (s, true))

/-- The state in which `tick` reads, if it comes to that. -/
def readyWithin (s : ReadMaster) (env : Environment J) (n : Nat) (outcomes : Nat → RequestOutcome) :
    Option ReadMaster :=
  match s.devicesWithin env n outcomes with
  | some (some (a, true)) => if (a.withContext env).2 then some (a.withContext env).1 else none
  | _ => none

theorem tickWithin_devicesWithin (s : ReadMaster) : s.tickWithin env n outcomes =
    (s.devicesWithin env n outcomes).map fun found => found.bind (ticked env) := by
  rw [tickWithin, devicesWithin]
  split <;> rfl

theorem devicesWithin_returns_iff : (∃ found, s.devicesWithin env n outcomes = some (some found)) ↔
    (s.devices = [] → s.LoadSafe env n outcomes) := by
  rw [devicesWithin]
  split
  · next hempty =>
    rw [createDevicesWithin_returns_iff]
    simp [List.isEmpty_iff.mp hempty]
  · next hsome => exact iff_of_true ⟨_, rfl⟩ fun hnil => absurd (List.isEmpty_iff.mpr hnil) hsome

theorem ticked_isSome_iff (a : ReadMaster) (found : Bool) : (ticked env (a, found)).isSome ↔
    (found = true → (a.withContext env).2 = true → (a.withContext env).1.ReadSafe env) := by
  cases found with
  | false => simp [ticked]
  | true =>
      cases hcreated : (a.withContext env).2 with
      | false => simp [ticked, hcreated]
      | true => simp [ticked, hcreated, read_isSome_iff]

/-- **`tick`** comes back if the devices are loaded when there are none, and if what is read then is
safe to read. -/
theorem tickWithin_returns_iff : (∃ s', s.tickWithin env n outcomes = some (some s')) ↔
    (s.devices = [] → s.LoadSafe env n outcomes) ∧
      ∀ a ∈ s.readyWithin env n outcomes, a.ReadSafe env := by
  rw [← devicesWithin_returns_iff, tickWithin_devicesWithin, readyWithin]
  cases hfound : s.devicesWithin env n outcomes with
  | none => simp
  | some found =>
      cases found with
      | none => simp
      | some r =>
          obtain ⟨a, found⟩ := r
          have hticked : (∃ s', ticked env (a, found) = some s') ↔ _ :=
            Option.isSome_iff_exists.symm.trans (ticked_isSome_iff a found)
          simp only [Option.map_some, Option.bind_some, Option.some.injEq, exists_eq', true_and,
            hticked]
          cases found with
          | false => simp
          | true => cases hcreated : (a.withContext env).2 <;> simp [hcreated]

theorem reconnected_same (s : ReadMaster) : s.reconnected env ⟨s.id, s.ip, some s.port⟩ = s := by
  simp [reconnected]

end ReadMaster

/-- A turn comes back if the reaction of the read master does; to look up the time to sleep never
fails. -/
theorem NodeLoop.turnWithin_returns {J : Type*} {env : Environment J} {outcomes : Nat → RequestOutcome}
    {n : Nat} {s : ReadMaster} (htick : ∃ s', s.tickWithin env n outcomes = some (some s'))
    (hupdate : ∀ conf, ∃ s', s.updateWithin env n outcomes conf = some (some s')) (sleepTime : Nat)
    (wake : Wake) : ∃ l, turnWithin env n outcomes ⟨s, sleepTime, false⟩ wake = some (some l) := by
  have hreact : ∃ next, reactWithin env n outcomes s wake = some (some next) := by
    cases wake with
    | lost => exact ⟨_, rfl⟩
    | elapsed =>
        obtain ⟨s', hs'⟩ := htick
        exact ⟨some s', by rw [reactWithin, hs']; rfl⟩
    | message msg =>
        cases htype : msg.eventType with
        | create => exact ⟨some s, by rw [reactWithin, htype]⟩
        | delete =>
            by_cases hid : msg.data.id = s.id
            · exact ⟨none, by simp [reactWithin, htype, hid]⟩
            · exact ⟨some s, by simp [reactWithin, htype, hid]⟩
        | update =>
            by_cases hid : msg.data.id = s.id
            · obtain ⟨s', hs'⟩ := hupdate msg.data
              exact ⟨some s', by simp [reactWithin, htype, hid, hs']⟩
            · exact ⟨some s, by simp [reactWithin, htype, hid]⟩
  obtain ⟨next, hnext⟩ := hreact
  cases next with
  | none => exact ⟨⟨s, sleepTime, true⟩, by simp [turnWithin, hnext]⟩
  | some s' =>
      obtain ⟨s'', time, hwhen, -, -⟩ := s'.whenNext_total env
      exact ⟨⟨s'', max time 20, false⟩, by simp [turnWithin, hnext, hwhen]⟩

/-! ## The result -/

/-- What the line about the exhausted attempts promises: after five attempts at most, `get_devises` and
all that waits for it give control back, so that the loop of the node gets to the next message. -/
structure GivesUp {J : Type*} (env : Environment J) (outcomes : Nat → RequestOutcome)
    (s : ReadMaster) : Prop where
  getDevises : (s.getDevisesWithin 5 outcomes).isSome
  createDevices : ∃ r, s.createDevicesWithin env 5 outcomes = some (some r)
  tick : ∃ s', s.tickWithin env 5 outcomes = some (some s')
  update : ∀ conf, ∃ s', s.updateWithin env 5 outcomes conf = some (some s')
  turn : ∀ sleepTime wake, ∃ l,
    NodeLoop.turnWithin env 5 outcomes ⟨s, sleepTime, false⟩ wake = some (some l)

/-- One of the first five requests is answered, no reload of the answer panics, and if `tick` comes to
a read, that does not panic either. -/
structure LoadsSafely {J : Type*} (env : Environment J) (outcomes : Nat → RequestOutcome)
    (s : ReadMaster) : Prop where
  reload : ∀ conf, (s.reconnected env conf).LoadSafe env 5 outcomes
  read : ∀ a ∈ s.readyWithin env 5 outcomes, a.ReadSafe env

theorem device_loading_gives_up_iff {J : Type*} (env : Environment J)
    (outcomes : Nat → RequestOutcome) (s : ReadMaster) :
    GivesUp env outcomes s ↔ LoadsSafely env outcomes s := by
  constructor
  · intro h
    refine ⟨fun conf => ?_, ?_⟩
    · exact ReadMaster.updateWithin_returns_iff.mp (h.update conf)
    · exact (ReadMaster.tickWithin_returns_iff.mp h.tick).2
  · intro h
    have hload : s.LoadSafe env 5 outcomes := by
      have hsame := h.reload ⟨s.id, s.ip, some s.port⟩
      rwa [ReadMaster.reconnected_same] at hsame
    have htick := ReadMaster.tickWithin_returns_iff.mpr ⟨fun _ => hload, h.read⟩
    have hupdate := fun conf => ReadMaster.updateWithin_returns_iff.mpr (h.reload conf)
    refine ⟨?_, ?_, htick, hupdate, ?_⟩
    · obtain ⟨devices, hfirst, -⟩ := hload
      exact ReadMaster.getDevisesWithin_isSome.mpr (ReadMaster.firstAnswer_iff.mp ⟨devices, hfirst⟩)
    · exact ReadMaster.createDevicesWithin_returns_iff.mpr hload
    · exact NodeLoop.turnWithin_returns htick hupdate

/-- The database fails forever. After five attempts the line is logged, and the loop never returns; nor
does the turn of the node in which it runs. -/
theorem failing_database_never_left :
    ¬GivesUp silentEnvironment (fun _ => .dbError) (.new ⟨1, "10.0.0.1", none⟩) ∧
      (∃ l, Retry.after Loading.turn 5 (fun _ => .dbError) (.start (.new ⟨1, "10.0.0.1", none⟩)) =
        some l ∧ l.counter = 5 ∧ exhaustedLine "10.0.0.1" ∈ l.printed) ∧
      ¬(ReadMaster.new ⟨1, "10.0.0.1", none⟩).LoadingReturns (fun _ => .dbError) ∧
      ∀ n, NodeLoop.turnWithin silentEnvironment n (fun _ => .dbError)
        (.start ⟨1, "10.0.0.1", none⟩) .elapsed = none := by
  have hnever (k : Nat) : ¬(RequestOutcome.dbError).Succeeds := id
  refine ⟨?_, ?_, ?_, ?_⟩
  · intro h
    obtain ⟨k, -, hk⟩ := ReadMaster.getDevisesWithin_isSome.mp h.getDevises
    exact hnever k hk
  · exact Loading.after_exhausted (fun k _ => hnever k) (le_refl 5) (by decide)
  · intro h
    obtain ⟨k, hk⟩ := ReadMaster.loadingReturns_iff.mp h
    exact hnever k hk
  · intro n
    rw [← Option.not_isSome_iff_eq_none, NodeLoop.turnWithin_isSome rfl]
    intro h
    obtain ⟨k, -, hk⟩ := h rfl
    exact hnever k hk

end ModbusLogger.Reader
