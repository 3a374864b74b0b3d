import ModbusLogger.Lib.Iteration
import ModbusLogger.Reader.IndexSafety
import ModbusLogger.Reader.NodeLoop

/-!
# Node tasks that outlive the reader (`reading_loop/read_master.rs`)

The tasks of the nodes are detached: `main` aborts `node_master`, and starts the system anew next to
them. Then the broadcast channel has no sender and the channel to the controller no receiver. A task
still gets the messages that its channel holds, and from then on the error `Closed` at once; all that
it sends fails at once, and a request that fails drops its answer channel.

`NodeLoop` is the loop on open channels, where the database answers. Here it runs on closed ones,
from one `await` on a channel to the next: `Orphan.step`. A poll and an attempt to connect are one
step each, since they do the same on open and closed channels.
-/

namespace ModbusLogger.Reader

open FixedWidth

/-- Who waits for `create_devices`. -/
inductive Caller where
  | update
  | tick
  deriving DecidableEq

/-- Where a node task is. An `answer` is what still comes to a request that was sent before the
channels were closed: nothing if it was dropped, and the inner option is the `Result`. -/
inductive Task (J : Type*) where
  | select (s : ReadMaster) (sleepTime : Nat)
  | createContext (s : ReadMaster) (caller : Caller)
  | read (s : ReadMaster)
  | getDevises (s : ReadMaster) (counter : Int) (answer : Option (Option (List DeviceRead)))
    (caller : Caller)
  | getValuesFromDb (s : ReadMaster) (config : DeviceRead) (configs : List DeviceRead)
    (units : List ModbusDeviceUnit) (answer : Option (List (ValueRead J))) (caller : Caller)
  | returned
  | panicked

/-- The branch that `select!` takes; the error of the closed channel is always there to be taken. -/
inductive Branch where
  | recv
  | elapsed
  deriving DecidableEq

/-- A task, what its channel still holds (`none` is the error `Lagged`), and the branches that
`select!` is going to take. -/
structure Orphan (J : Type*) where
  task : Task J
  inbox : List (Option ConfigEvent)
  schedule : Nat → Branch

variable {J : Type*} (env : Environment J)

/-- `get_device_from_db`, with the answer to its request. -/
def ReadMaster.deviceAnswered (s : ReadMaster) (deviceConfig : DeviceRead)
    (answer : Option (List (ValueRead J))) : Option (ReadMaster × Option ModbusDeviceUnit) := do
  let device ← ModbusDeviceUnit.new deviceConfig (env.millis s.moment)
  let s := { s with moment := s.moment + 2 }.send (.request (.getValueByDeviceId device.id))
  match answer with
  | some values => return (s, some (← device.setValues env.settings values))
  | none => return (s, none)

namespace Task

/-- The end of a turn: `sleep_time` is set, and the loop waits again. -/
def again (s : ReadMaster) : Task J :=
  match s.whenNext env with
  | some (s, next) => .select s (max next 20)
  | none => .panicked

/-- The second half of `tick`: there are devices. -/
def withDevices (s : ReadMaster) : Task J :=
  if s.ctx.isNone then .createContext s .tick else .read s

/-- `create_devices` is left. -/
def created (s : ReadMaster) (found : Bool) : Caller → Task J
  | .update => again env s
  | .tick => if found then withDevices s else again env s

/-- `create_devices` begins. The request fails, so nothing comes to it. -/
def createDevices (s : ReadMaster) (caller : Caller) : Task J :=
  .getDevises ({ s with devices := [] }.send (.request (.getDeviceByNode s.id))) 0 none caller

def tick (s : ReadMaster) : Task J :=
  if s.devices.isEmpty then createDevices s .tick else withDevices s

def update (s : ReadMaster) (conf : NodeRead) : Task J :=
  if s.ip ≠ conf.ip ∨ s.port ≠ conf.port.getD 502 then
    .createContext { s with ip := conf.ip, port := conf.port.getD 502 } .update
  else createDevices s .update

/-- The arm `Ok(msg)` of the loop. -/
def message (s : ReadMaster) (msg : ConfigEvent) : Task J :=
  match msg.eventType with
  | .update => if msg.data.id = s.id then update s msg.data else again env s
  | .delete => if msg.data.id = s.id then .returned else again env s
  | .create => again env s

/-- All values are asked for: `self.devices` is set, and the next device is looked up. -/
def filled (s : ReadMaster) (units : List ModbusDeviceUnit) (caller : Caller) : Task J :=
  match { s with devices := units }.whenNextDevice with
  | some (s, _) => created env s true caller
  | none => .panicked

/-- What the task does when the `await` is over, outside `select!`. -/
def proceed : Task J → Task J
  | .select s sleepTime => .select s sleepTime
  | .createContext s .tick =>
    let (s, connected) := s.createContext env
    if connected then .read s else again env s
  | .createContext s .update => createDevices (s.createContext env).1 .update
  | .read s =>
    match s.read env with
    | some s => again env s
    | none => .panicked
  | .getDevises s _ (some (some [])) caller => created env s false caller
  | .getDevises s _ (some (some (config :: configs))) caller =>
    .getValuesFromDb s config configs [] none caller
  -- the error is logged, and after a while the request is sent again, however often it failed
  | .getDevises s counter _ caller =>
    .getDevises (s.send (.request (.getDeviceByNode s.id))) (asI32 (counter + 1)) none caller
  | .getValuesFromDb s config configs units answer caller =>
    match s.deviceAnswered env config answer with
    | none => .panicked
    | some (s, device) =>
      match configs with
      | [] => filled env s (units ++ device.toList) caller
      | next :: configs => .getValuesFromDb s next configs (units ++ device.toList) none caller
  | .returned => .returned
  | .panicked => .panicked

end Task

namespace Orphan

/-- One turn of `select!`. -/
def turn (o : Orphan J) (s : ReadMaster) : Orphan J :=
  let schedule := fun n => o.schedule (n + 1)
  match o.schedule 0 with
  | .elapsed => ⟨Task.tick s, o.inbox, schedule⟩
  | .recv =>
    match o.inbox with
    | some msg :: inbox => ⟨Task.message env s msg, inbox, schedule⟩
    -- the error of the channel is logged
    | none :: inbox => ⟨Task.again env s, inbox, schedule⟩
    | [] => ⟨Task.again env s, [], schedule⟩

def step (o : Orphan J) : Orphan J :=
  match o.task with
  | .select s _ => o.turn env s
  | task => { o with task := task.proceed env }

end Orphan

/-! ## Whether the task returns -/

/-- The loop reacts to the message. -/
def Concerns (id : Int) (msg : Option ConfigEvent) : Prop :=
  ∃ ev ∈ msg, ev.data.id = id ∧ ev.eventType ≠ .create

/-- How often `select!` takes the channel in the first turns. -/
def received (schedule : Nat → Branch) (turns : Nat) : Nat :=
  ((List.range turns).map schedule).count .recv

/-- The node is deleted by the last of the next turns: the message is in the channel, and no message
before it concerns the node. A node without devices must not tick before. -/
def DeleteAhead (id : Int) (hasDevices : Bool) (inbox : List (Option ConfigEvent))
    (schedule : Nat → Branch) (turns : Nat) : Prop :=
  ∃ before msg after, inbox = before ++ some msg :: after ∧
    (msg.data.id = id ∧ msg.eventType = .delete) ∧ (∀ m ∈ before, ¬Concerns id m) ∧
    received schedule turns = before.length + 1 ∧
    (hasDevices = false → ∀ i < turns, schedule i = .recv)

/-- The node of a task, and whether it has devices when it comes to `select!` next; nothing if it
asks for devices in vain. -/
def Task.outlook : Task J → Option (Int × Bool)
  | .select s _ => some (s.id, !s.devices.isEmpty)
  | .createContext s .tick => some (s.id, !s.devices.isEmpty)
  | .createContext _ .update => none
  | .read s => some (s.id, !s.devices.isEmpty)
  | .getDevises s _ (some (some [])) _ => some (s.id, !s.devices.isEmpty)
  | .getDevises s _ (some (some (_ :: _))) _ => some (s.id, true)
  | .getDevises _ _ _ _ => none
  | .getValuesFromDb s _ _ _ _ _ => some (s.id, true)
  | .returned => none
  | .panicked => none

namespace Orphan

/-- `node_loop` returns. -/
def Returns : Orphan J → Prop := Iteration.Reaches (step env) fun o => o.task = .returned

def Panics : Orphan J → Prop := Iteration.Reaches (step env) fun o => o.task = .panicked

/-- The task gets to the message that deletes the node. -/
def GetsDelete (o : Orphan J) : Prop :=
  ∃ id hasDevices turns, o.task.outlook = some (id, hasDevices) ∧
    DeleteAhead id hasDevices o.inbox o.schedule turns

end Orphan

/-! ### The messages and the turns -/

section Ahead

variable {id : Int} {hasDevices : Bool} {inbox : List (Option ConfigEvent)}
  {schedule : Nat → Branch} {turns : Nat} {m : Option ConfigEvent}

theorem received_succ (schedule : Nat → Branch) (turns : Nat) :
    received schedule (turns + 1) =
      received (fun n => schedule (n + 1)) turns + if schedule 0 = .recv then 1 else 0 := by
  rw [received, List.range_succ_eq_map, List.map_cons, List.map_map, List.count_cons]
  simp only [beq_iff_eq]
  rfl

/-- A turn has to be taken. -/
theorem DeleteAhead.exists_succ (h : DeleteAhead id hasDevices inbox schedule turns) :
    ∃ later, turns = later + 1 := by
  obtain ⟨before, msg, after, -, -, -, hcount, -⟩ := h
  cases turns with
  | zero => simp [received] at hcount
  | succ later => exact ⟨later, rfl⟩

theorem DeleteAhead.ne_nil (h : DeleteAhead id hasDevices inbox schedule turns) : inbox ≠ [] := by
  obtain ⟨before, msg, after, rfl, -⟩ := h
  simp

theorem deleteAhead_now {msg : ConfigEvent} (hid : msg.data.id = id)
    (hdelete : msg.eventType = .delete) (hrecv : schedule 0 = .recv) :
    DeleteAhead id hasDevices (some msg :: inbox) schedule 1 := by
  refine ⟨[], msg, inbox, rfl, ⟨hid, hdelete⟩, fun m hm => absurd hm List.not_mem_nil, ?_, ?_⟩
  · rw [received_succ, if_pos hrecv]
    rfl
  · intro _ i hi
    obtain rfl : i = 0 := by omega
    exact hrecv

/-- The channel is taken, and its message is no matter of the node. -/
theorem deleteAhead_recv (hm : ¬Concerns id m) (hrecv : schedule 0 = .recv) :
    DeleteAhead id hasDevices (m :: inbox) schedule (turns + 1) ↔
      DeleteAhead id hasDevices inbox (fun n => schedule (n + 1)) turns := by
  have hall : (∀ i < turns + 1, schedule i = .recv) ↔ ∀ i < turns, schedule (i + 1) = .recv := by
    rw [Nat.forall_lt_succ_left]
    exact and_iff_right hrecv
  constructor
  · rintro ⟨before, msg, after, heq, hdelete, hbefore, hcount, hturns⟩
    cases before with
    | nil =>
        obtain ⟨rfl, -⟩ := List.cons.inj heq
        refine absurd ⟨msg, rfl, hdelete.1, ?_⟩ hm
        rw [hdelete.2]
        exact ConfigEventType.noConfusion
    | cons m' before =>
        obtain ⟨rfl, rfl⟩ := List.cons.inj heq
        rw [received_succ, if_pos hrecv, List.length_cons] at hcount
        exact ⟨before, msg, after, rfl, hdelete, (List.forall_mem_cons.mp hbefore).2, by omega,
          fun h => hall.mp (hturns h)⟩
  · rintro ⟨before, msg, after, rfl, hdelete, hbefore, hcount, hturns⟩
    refine ⟨m :: before, msg, after, rfl, hdelete, List.forall_mem_cons.mpr ⟨hm, hbefore⟩, ?_,
      fun h => hall.mpr (hturns h)⟩
    rw [received_succ, if_pos hrecv, hcount, List.length_cons]

/-- The node ticks. -/
theorem deleteAhead_elapsed (helapsed : schedule 0 = .elapsed) :
    DeleteAhead id hasDevices inbox schedule (turns + 1) ↔
      hasDevices = true ∧ DeleteAhead id true inbox (fun n => schedule (n + 1)) turns := by
  have hnot : ¬schedule 0 = .recv := by
    rw [helapsed]
    exact Branch.noConfusion
  constructor
  · rintro ⟨before, msg, after, heq, hdelete, hbefore, hcount, hturns⟩
    rw [received_succ, if_neg hnot, Nat.add_zero] at hcount
    cases hasDevices with
    | false => exact absurd (hturns rfl 0 (Nat.succ_pos turns)) hnot
    | true => exact ⟨rfl, before, msg, after, heq, hdelete, hbefore, hcount, Bool.noConfusion⟩
  · rintro ⟨rfl, before, msg, after, heq, hdelete, hbefore, hcount, -⟩
    refine ⟨before, msg, after, heq, hdelete, hbefore, ?_, Bool.noConfusion⟩
    rw [received_succ, if_neg hnot, hcount]

/-- An update comes first. -/
theorem not_deleteAhead_update {msg : ConfigEvent} (hid : msg.data.id = id)
    (hupdate : msg.eventType = .update) :
    ¬DeleteAhead id hasDevices (some msg :: inbox) schedule turns := by
  rintro ⟨before, msg', after, heq, hdelete, hbefore, -⟩
  cases before with
  | nil =>
      obtain ⟨hmsg, -⟩ := List.cons.inj heq
      obtain rfl := Option.some.inj hmsg
      rw [hdelete.2] at hupdate
      cases hupdate
  | cons m' before =>
      obtain ⟨rfl, -⟩ := List.cons.inj heq
      refine (List.forall_mem_cons.mp hbefore).1 ⟨msg, rfl, hid, ?_⟩
      rw [hupdate]
      exact ConfigEventType.noConfusion

end Ahead

/-! ### The steps of a task -/

namespace ReadMaster

/-- To look up the time to sleep never fails, and leaves the devices there. -/
theorem whenNext_total (s : ReadMaster) :
    ∃ s' time, s.whenNext env = some (s', time) ∧ s'.id = s.id ∧
      s'.devices.isEmpty = s.devices.isEmpty := by
  have hsome : (s.whenNext env).isSome = true := by
    unfold whenNext
    dsimp only
    split
    · rfl
    · next hempty =>
      split
      · rfl
      · have hne : ({ s with moment := s.moment + 1 } : ReadMaster).devices ≠ [] := by
          simpa using hempty
        rw [Option.isSome_map, whenNextDevice_isSome]
        exact hne
  obtain ⟨⟨s', time⟩, hnext⟩ := Option.isSome_iff_exists.mp hsome
  obtain ⟨hquiet, hentries, -⟩ := whenNext_spec hnext
  refine ⟨s', time, hnext, hquiet.id, ?_⟩
  rw [Bool.eq_iff_iff, List.isEmpty_iff, List.isEmpty_iff, devices_eq_nil_iff, hentries,
    ← devices_eq_nil_iff]

theorem Keeps.isEmpty {s s' : ReadMaster} (h : Keeps s s') :
    s'.devices.isEmpty = s.devices.isEmpty := by
  rw [Bool.eq_iff_iff, List.isEmpty_iff, List.isEmpty_iff, devices_eq_nil_iff, h.entries,
    ← devices_eq_nil_iff]

/-- A poll leaves the devices there. -/
theorem read_outlook {env : Environment J} {s s' : ReadMaster} (h : s.read env = some s') :
    s'.id = s.id ∧ s'.devices.isEmpty = s.devices.isEmpty := by
  rcases read_spec h with rfl | ⟨idx, device, p, -, -, -, hp⟩
  · exact ⟨rfl, rfl⟩
  · refine ⟨hp.id, ?_⟩
    have hlength : s'.entries.length = s.entries.length := by
      rcases hp.after with ⟨-, -, hentries⟩ | ⟨-, hentries⟩
      · rw [hentries, List.length_set]
      · rw [hentries]
    rw [length_entries, length_entries] at hlength
    rw [Bool.eq_iff_iff, List.isEmpty_iff_length_eq_zero, List.isEmpty_iff_length_eq_zero, hlength]

theorem deviceAnswered_id {env : Environment J} {s s' : ReadMaster} {config : DeviceRead}
    {answer : Option (List (ValueRead J))} {device : Option ModbusDeviceUnit}
    (h : s.deviceAnswered env config answer = some (s', device)) : s'.id = s.id := by
  obtain ⟨fresh, -, h⟩ := Option.bind_eq_some_iff.mp h
  cases answer with
  | none =>
      obtain ⟨rfl, -⟩ := Prod.mk.inj (Option.some.inj h)
      rfl
  | some values =>
      obtain ⟨filled, -, h⟩ := Option.bind_eq_some_iff.mp h
      obtain ⟨rfl, -⟩ := Prod.mk.inj (Option.some.inj h)
      rfl

end ReadMaster

namespace Task

open ReadMaster

/-- How many steps away `select!` is at most. -/
def distance : Task J → Nat
  | .read _ => 1
  | .createContext _ _ => 2
  | .getValuesFromDb _ _ configs _ _ _ => configs.length + 3
  | .getDevises _ _ (some (some configs)) _ => configs.length + 3
  | _ => 0

/-- `select!` is near, and the node has devices there as it has now. -/
structure Near (task : Task J) (s : ReadMaster) : Prop where
  outlook : task.outlook = some (s.id, !s.devices.isEmpty)
  distance : task.distance ≤ 2

theorem again_near (s : ReadMaster) : Near (again env s) s ∧ (again env s).distance = 0 := by
  obtain ⟨s', time, hnext, hid, hdevices⟩ := whenNext_total env s
  have hagain : again env s = .select s' (max time 20) := by rw [again, hnext]
  rw [hagain]
  exact ⟨⟨by rw [Task.outlook, hid, hdevices], Nat.zero_le 2⟩, rfl⟩

theorem withDevices_near (s : ReadMaster) : Near (withDevices s : Task J) s := by
  unfold withDevices
  split
  · exact ⟨rfl, le_refl 2⟩
  · exact ⟨rfl, Nat.le_succ 1⟩

theorem created_near (s : ReadMaster) (found : Bool) (caller : Caller) :
    Near (created env s found caller) s := by
  cases caller with
  | update => exact (again_near env s).1
  | tick =>
      cases found with
      | true => exact withDevices_near s
      | false => exact (again_near env s).1

/-- The task has not returned, and asks the closed channel for devices now or soon. -/
structure InVain (task : Task J) : Prop where
  outlook : task.outlook = none
  lives : task ≠ .returned

theorem createDevices_inVain (s : ReadMaster) (caller : Caller) :
    InVain (createDevices s caller : Task J) :=
  ⟨rfl, fun h => by cases h⟩

theorem update_inVain (s : ReadMaster) (conf : NodeRead) : InVain (update s conf : Task J) := by
  unfold update
  split
  · exact ⟨rfl, fun h => by cases h⟩
  · exact createDevices_inVain s .update

/-- Without devices, looking for the next one is a panic. -/
theorem filled_near (s : ReadMaster) (units : List ModbusDeviceUnit) (caller : Caller) :
    filled env s units caller = .panicked ∨
      (filled env s units caller).outlook = some (s.id, true) ∧
        (filled env s units caller).distance ≤ 2 := by
  unfold filled
  cases hnext : ({ s with devices := units } : ReadMaster).whenNextDevice with
  | none => exact .inl rfl
  | some r =>
      obtain ⟨s', time⟩ := r
      have hsome : ({ s with devices := units } : ReadMaster).whenNextDevice.isSome = true := by
        rw [hnext]
        rfl
      have hunits : units ≠ [] := (whenNextDevice_isSome _).mp hsome
      obtain ⟨hs', -⟩ := whenNextDevice_spec hnext
      have hnear := created_near env s' true caller
      rw [hs'] at hnear ⊢
      refine .inr ⟨?_, hnear.distance⟩
      rw [hnear.outlook]
      simp [hunits]

/-- What a task does about its devices: as long as it does not panic, the outlook stays, and `select!`
comes nearer. -/
theorem proceed_outlook (task : Task J) :
    task.proceed env = .panicked ∨ (task.proceed env).outlook = task.outlook ∧
      (task.outlook ≠ none → (task.proceed env).distance < task.distance ∨
        ∃ s sleepTime, task = .select s sleepTime) := by
  cases task with
  | select s sleepTime => exact .inr ⟨rfl, fun _ => .inr ⟨s, sleepTime, rfl⟩⟩
  | returned => exact .inr ⟨rfl, fun h => absurd rfl h⟩
  | panicked => exact .inl rfl
  | createContext s caller =>
      have hkeeps : Keeps s (s.createContext env).1 := createContext_keeps s
      cases caller with
      | update => exact .inr ⟨rfl, fun h => absurd rfl h⟩
      | tick =>
          have hproceed : proceed env (.createContext s .tick : Task J) =
              if (s.createContext env).2 then .read (s.createContext env).1
              else again env (s.createContext env).1 := rfl
          have hsame : (some ((s.createContext env).1.id,
              !(s.createContext env).1.devices.isEmpty) : Option (Int × Bool)) =
              some (s.id, !s.devices.isEmpty) := by
            rw [hkeeps.id, hkeeps.isEmpty]
          rw [hproceed]
          split
          · exact .inr ⟨hsame, fun _ => .inl (Nat.lt_succ_self 1)⟩
          · obtain ⟨hnear, hzero⟩ := again_near env (s.createContext env).1
            refine .inr ⟨hnear.outlook.trans hsame, fun _ => .inl ?_⟩
            rw [hzero]
            exact Nat.succ_pos 1
  | read s =>
      cases hread : s.read env with
      | none => exact .inl (by rw [proceed, hread])
      | some s' =>
          have hproceed : proceed env (.read s : Task J) = again env s' := by rw [proceed, hread]
          obtain ⟨hid, hdevices⟩ := read_outlook hread
          obtain ⟨hnear, hzero⟩ := again_near env s'
          rw [hproceed, hnear.outlook, hzero, hid, hdevices]
          exact .inr ⟨rfl, fun _ => .inl (Nat.succ_pos 0)⟩
  | getDevises s counter answer caller =>
      rcases answer with _ | _ | _ | ⟨config, configs⟩
      · exact .inr ⟨rfl, fun h => absurd rfl h⟩
      · exact .inr ⟨rfl, fun h => absurd rfl h⟩
      · have hnear := created_near env s false caller
        exact .inr ⟨hnear.outlook, fun _ => .inl (Nat.lt_succ_of_le hnear.distance)⟩
      · refine .inr ⟨rfl, fun _ => .inl ?_⟩
        show configs.length + 3 < (config :: configs).length + 3
        rw [List.length_cons]
        omega
  | getValuesFromDb s config configs units answer caller =>
      cases hanswered : s.deviceAnswered env config answer with
      | none => exact .inl (by rw [proceed, hanswered])
      | some r =>
          obtain ⟨s', device⟩ := r
          have hid : s'.id = s.id := deviceAnswered_id hanswered
          cases configs with
          | nil =>
              have hproceed : proceed env (.getValuesFromDb s config [] units answer caller) =
                  filled env s' (units ++ device.toList) caller := by rw [proceed, hanswered]
              rw [hproceed]
              rcases filled_near env s' (units ++ device.toList) caller with
                hpanic | ⟨houtlook, hnear⟩
              · exact .inl hpanic
              · refine .inr ⟨?_, fun _ => .inl (Nat.lt_succ_of_le hnear)⟩
                rw [houtlook, hid]
                rfl
          | cons next configs =>
              have hproceed : proceed env
                  (.getValuesFromDb s config (next :: configs) units answer caller) =
                  .getValuesFromDb s' next configs (units ++ device.toList) none caller := by
                rw [proceed, hanswered]
              rw [hproceed]
              refine .inr ⟨?_, fun _ => .inl ?_⟩
              · rw [Task.outlook, hid]
                rfl
              · show configs.length + 3 < (next :: configs).length + 3
                rw [List.length_cons]
                omega

/-! ### One turn of the loop -/

theorem message_other {s : ReadMaster} {msg : ConfigEvent} (h : ¬Concerns s.id (some msg)) :
    message env s msg = again env s := by
  unfold message
  cases htype : msg.eventType with
  | create => rfl
  | update =>
      have hid : ¬msg.data.id = s.id := fun hid =>
        h ⟨msg, rfl, hid, by rw [htype]; exact ConfigEventType.noConfusion⟩
      exact if_neg hid
  | delete =>
      have hid : ¬msg.data.id = s.id := fun hid =>
        h ⟨msg, rfl, hid, by rw [htype]; exact ConfigEventType.noConfusion⟩
      exact if_neg hid

theorem message_delete {s : ReadMaster} {msg : ConfigEvent} (hid : msg.data.id = s.id)
    (hdelete : msg.eventType = .delete) : message env s msg = .returned := by
  simp only [message, hdelete, if_pos hid]

theorem message_update {s : ReadMaster} {msg : ConfigEvent} (hid : msg.data.id = s.id)
    (hupdate : msg.eventType = .update) : message env s msg = update s msg.data := by
  simp only [message, hupdate, if_pos hid]

theorem returned_of_proceed {task : Task J} (h : task.proceed env = .returned) :
    task = .returned := by
  rcases proceed_outlook env task with hpanic | ⟨houtlook, -⟩
  · rw [hpanic] at h
    cases h
  · rw [h] at houtlook
    cases task with
    | returned => rfl
    | panicked => cases h
    | select s sleepTime => cases h
    | read s => cases houtlook
    | getValuesFromDb s config configs units answer caller => cases houtlook
    | createContext s caller =>
        cases caller with
        | update => cases h
        | tick => cases houtlook
    | getDevises s counter answer caller =>
        rcases answer with _ | _ | _ | ⟨config, configs⟩
        · cases h
        · cases h
        · cases houtlook
        · cases h

end Task

namespace Orphan

variable {env : Environment J} {o : Orphan J} {s : ReadMaster}

theorem turn_elapsed (s : ReadMaster) (helapsed : o.schedule 0 = .elapsed) :
    o.turn env s = ⟨.tick s, o.inbox, fun n => o.schedule (n + 1)⟩ := by
  rw [turn, helapsed]

theorem turn_closed (s : ReadMaster) (hrecv : o.schedule 0 = .recv) (hinbox : o.inbox = []) :
    o.turn env s = ⟨.again env s, [], fun n => o.schedule (n + 1)⟩ := by
  rw [turn, hrecv, hinbox]

theorem turn_message (s : ReadMaster) (hrecv : o.schedule 0 = .recv) {msg : ConfigEvent}
    {inbox : List (Option ConfigEvent)} (hinbox : o.inbox = some msg :: inbox) :
    o.turn env s = ⟨.message env s msg, inbox, fun n => o.schedule (n + 1)⟩ := by
  rw [turn, hrecv, hinbox]

theorem turn_other (s : ReadMaster) (hrecv : o.schedule 0 = .recv) {m : Option ConfigEvent}
    {inbox : List (Option ConfigEvent)} (hinbox : o.inbox = m :: inbox)
    (hm : ¬Concerns s.id m) :
    o.turn env s = ⟨.again env s, inbox, fun n => o.schedule (n + 1)⟩ := by
  cases m with
  | none => rw [turn, hrecv, hinbox]
  | some msg => rw [turn_message s hrecv hinbox, Task.message_other env hm]

theorem step_select {sleepTime : Nat} (h : o.task = .select s sleepTime) :
    o.step env = o.turn env s := by
  rw [step, h]

theorem step_other (h : ∀ s sleepTime, o.task ≠ .select s sleepTime) :
    o.step env = { o with task := o.task.proceed env } := by
  unfold step
  split
  · next s sleepTime heq => exact absurd heq (h s sleepTime)
  · rfl

/-- The task has returned, or gets to the message that deletes the node. -/
def Ends (o : Orphan J) : Prop := o.task = .returned ∨ o.GetsDelete

/-- Near `select!`, it is up to the messages and the turns. -/
theorem ends_near {task : Task J} {inbox : List (Option ConfigEvent)} {schedule : Nat → Branch}
    (hnear : Task.Near task s) (h : Ends ⟨task, inbox, schedule⟩) :
    ∃ turns, DeleteAhead s.id (!s.devices.isEmpty) inbox schedule turns := by
  rcases h with hreturned | ⟨id, hasDevices, turns, hnext, hahead⟩
  · have houtlook := hnear.outlook
    rw [show task = .returned from hreturned] at houtlook
    cases houtlook
  · obtain ⟨rfl, rfl⟩ := Prod.mk.inj (Option.some.inj (hnear.outlook.symm.trans hnext))
    exact ⟨turns, hahead⟩

theorem not_ends {task : Task J} (h : Task.InVain task) (inbox : List (Option ConfigEvent))
    (schedule : Nat → Branch) : ¬Ends ⟨task, inbox, schedule⟩ := by
  rintro (hreturned | ⟨id, hasDevices, turns, hnext, -⟩)
  · exact h.lives hreturned
  · exact absurd (h.outlook.symm.trans hnext) (by simp)

/-- **One turn, backwards.** -/
theorem ends_of_turn {sleepTime : Nat} (htask : o.task = .select s sleepTime)
    (h : (o.turn env s).Ends) : o.Ends := by
  have houtlook : o.task.outlook = some (s.id, !s.devices.isEmpty) := by rw [htask]; rfl
  suffices hahead : ∃ turns, DeleteAhead s.id (!s.devices.isEmpty) o.inbox o.schedule turns by
    obtain ⟨turns, hahead⟩ := hahead
    exact .inr ⟨_, _, turns, houtlook, hahead⟩
  cases hbranch : o.schedule 0 with
  | elapsed =>
      rw [turn_elapsed s hbranch] at h
      cases hempty : s.devices.isEmpty with
      | true =>
          have htick : (Task.tick s : Task J) = Task.createDevices s .tick := if_pos hempty
          rw [htick] at h
          exact absurd h (not_ends (Task.createDevices_inVain s .tick) _ _)
      | false =>
          have htick : (Task.tick s : Task J) = Task.withDevices s :=
            if_neg (by rw [hempty]; exact Bool.false_ne_true)
          rw [htick] at h
          obtain ⟨turns, hahead⟩ := ends_near (Task.withDevices_near s) h
          rw [hempty] at hahead
          exact ⟨turns + 1, (deleteAhead_elapsed hbranch).mpr ⟨rfl, hahead⟩⟩
  | recv =>
      have hagain := (Task.again_near env s).1
      cases hinbox : o.inbox with
      | nil =>
          rw [turn_closed s hbranch hinbox] at h
          obtain ⟨turns, hahead⟩ := ends_near hagain h
          exact absurd rfl hahead.ne_nil
      | cons m inbox =>
          by_cases hm : Concerns s.id m
          · obtain ⟨msg, rfl, hid, htype⟩ := hm
            rw [turn_message s hbranch hinbox] at h
            cases hevent : msg.eventType with
            | create => exact absurd hevent htype
            | delete => exact ⟨1, deleteAhead_now hid hevent hbranch⟩
            | update =>
                rw [Task.message_update env hid hevent] at h
                exact absurd h (not_ends (Task.update_inVain s msg.data) _ _)
          · rw [turn_other s hbranch hinbox hm] at h
            obtain ⟨turns, hahead⟩ := ends_near hagain h
            exact ⟨turns + 1, (deleteAhead_recv hm hbranch).mpr hahead⟩

/-- **One step, backwards.** -/
theorem ends_of_step (h : (o.step env).Ends) : o.Ends := by
  by_cases hselect : ∃ s sleepTime, o.task = .select s sleepTime
  · obtain ⟨s, sleepTime, htask⟩ := hselect
    rw [step_select htask] at h
    exact ends_of_turn htask h
  · have hother : ∀ s sleepTime, o.task ≠ .select s sleepTime :=
      fun s sleepTime htask => hselect ⟨s, sleepTime, htask⟩
    rw [step_other hother] at h
    rcases h with hreturned | ⟨id, hasDevices, turns, hnext, hahead⟩
    · exact .inl (Task.returned_of_proceed env hreturned)
    · rcases Task.proceed_outlook env o.task with hpanic | ⟨hkept, -⟩
      · rw [show o.task.proceed env = .panicked from hpanic] at hnext
        cases hnext
      · exact .inr ⟨id, hasDevices, turns, hkept.symm.trans hnext, hahead⟩

/-- The variant: turns to take before the deletion, and steps up to the next turn. -/
def Distant (n : Nat) (o : Orphan J) : Prop :=
  (o.task = .returned ∨ o.task = .panicked) ∨
    ∃ id hasDevices turns, o.task.outlook = some (id, hasDevices) ∧
      DeleteAhead id hasDevices o.inbox o.schedule turns ∧ 3 * turns + o.task.distance < n

theorem distant_near {task : Task J} {inbox : List (Option ConfigEvent)}
    {schedule : Nat → Branch} {turns n : Nat} (hnear : Task.Near task s)
    (h : DeleteAhead s.id (!s.devices.isEmpty) inbox schedule turns) (hn : 3 * turns + 2 < n) :
    Distant n (⟨task, inbox, schedule⟩ : Orphan J) := by
  have hdistance := hnear.distance
  exact .inr ⟨_, _, turns, hnear.outlook, h, by dsimp only; omega⟩

/-- **One turn, forwards.** -/
theorem distant_turn {turns : Nat}
    (h : DeleteAhead s.id (!s.devices.isEmpty) o.inbox o.schedule (turns + 1)) :
    Distant (3 * turns + 3) (o.turn env s) := by
  have hagain := (Task.again_near env s).1
  cases hbranch : o.schedule 0 with
  | elapsed =>
      obtain ⟨hdevices, hahead⟩ := (deleteAhead_elapsed hbranch).mp h
      have htick : (Task.tick s : Task J) = Task.withDevices s :=
        if_neg (by simpa using hdevices)
      rw [turn_elapsed s hbranch, htick]
      rw [← hdevices] at hahead
      exact distant_near (Task.withDevices_near s) hahead (by omega)
  | recv =>
      cases hinbox : o.inbox with
      | nil => exact absurd hinbox h.ne_nil
      | cons m inbox =>
          rw [hinbox] at h
          by_cases hm : Concerns s.id m
          · obtain ⟨msg, rfl, hid, htype⟩ := hm
            rw [turn_message s hbranch hinbox]
            cases hevent : msg.eventType with
            | create => exact absurd hevent htype
            | update => exact absurd h (not_deleteAhead_update hid hevent)
            | delete => exact .inl (.inl (Task.message_delete env hid hevent))
          · rw [turn_other s hbranch hinbox hm]
            exact distant_near hagain ((deleteAhead_recv hm hbranch).mp h) (by omega)

/-- **One step, forwards.** -/
theorem distant_step {n : Nat} (h : Distant n o) :
    (o.task = .returned ∨ o.task = .panicked) ∨ ∃ m < n, Distant m (o.step env) := by
  rcases h with hended | ⟨id, hasDevices, turns, hnext, hahead, hn⟩
  · exact .inl hended
  refine .inr ?_
  by_cases hselect : ∃ s sleepTime, o.task = .select s sleepTime
  · obtain ⟨s, sleepTime, htask⟩ := hselect
    have houtlook : o.task.outlook = some (s.id, !s.devices.isEmpty) := by rw [htask]; rfl
    obtain ⟨rfl, rfl⟩ := Prod.mk.inj (Option.some.inj (houtlook.symm.trans hnext))
    obtain ⟨later, rfl⟩ := hahead.exists_succ
    rw [step_select htask]
    exact ⟨3 * later + 3, by omega, distant_turn hahead⟩
  · have hother : ∀ s sleepTime, o.task ≠ .select s sleepTime :=
      fun s sleepTime htask => hselect ⟨s, sleepTime, htask⟩
    rw [step_other hother]
    rcases Task.proceed_outlook env o.task with hpanic | ⟨hkept, hnear⟩
    · exact ⟨0, by omega, .inl (.inr hpanic)⟩
    · rcases hnear (by rw [hnext]; exact Option.some_ne_none _) with hlt | ⟨s, sleepTime, htask⟩
      · exact ⟨3 * turns + o.task.distance, hn,
          .inr ⟨id, hasDevices, turns, hkept.trans hnext, hahead, Nat.add_lt_add_left hlt _⟩⟩
      · exact absurd htask (hother s sleepTime)

theorem Returns.ends (h : Returns env o) : o.Ends :=
  Iteration.Reaches.backward h (fun _ hreturned => .inl hreturned) fun _ => ends_of_step

theorem GetsDelete.stops (h : o.GetsDelete) : Returns env o ∨ Panics env o := by
  obtain ⟨id, hasDevices, turns, hnext, hahead⟩ := h
  have hdistant : Distant (3 * turns + o.task.distance + 1) o :=
    .inr ⟨id, hasDevices, turns, hnext, hahead, Nat.lt_succ_self _⟩
  have hstops : Iteration.Reaches (step env)
      (fun o => o.task = .returned ∨ o.task = .panicked) o :=
    Iteration.reaches_of_variant (fun _ _ => distant_step) hdistant
  obtain ⟨n, hreturned | hpanicked⟩ := hstops
  · exact .inl ⟨n, hreturned⟩
  · exact .inr ⟨n, hpanicked⟩

theorem Returns.not_panics (h : Returns env o) : ¬Panics env o := by
  refine Iteration.Reaches.not_reaches h ?_ ?_ ?_
  · intro o ho
    rw [step, ho]
    rfl
  · intro o ho
    rw [step, ho]
    rfl
  · intro o hreturned hpanicked
    rw [hreturned] at hpanicked
    cases hpanicked

/-- **When a node task returns without the reader**: a deletion of the node that is still in its
channel reaches it, and no panic ends it before. -/
theorem returns_iff (env : Environment J) (o : Orphan J) :
    Returns env o ↔ o.task = .returned ∨ o.GetsDelete ∧ ¬Panics env o := by
  constructor
  · intro h
    rcases h.ends with hreturned | hgets
    · exact .inl hreturned
    · exact .inr ⟨hgets, h.not_panics⟩
  · rintro (hreturned | ⟨hgets, hcalm⟩)
    · exact .now hreturned
    · exact hgets.stops.resolve_right hcalm

/-- A task that has just begun, with nothing in its channel, never returns, whatever happens around
it. -/
theorem new_task_never_returns :
    ¬∃ (env : Environment Unit) (schedule : Nat → Branch),
      Returns env ⟨.select (.new ⟨1, "10.0.0.5", none⟩) 0, [], schedule⟩ := by
  rintro ⟨env, schedule, h⟩
  rcases h.ends with hreturned | ⟨id, hasDevices, turns, -, hahead⟩
  · cases hreturned
  · exact absurd rfl hahead.ne_nil

end Orphan

end ModbusLogger.Reader
