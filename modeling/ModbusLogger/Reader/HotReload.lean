import Mathlib.Algebra.Order.Group.Multiset
import ModbusLogger.Db.Worker.DeviceTable
import ModbusLogger.Main.ChangeNotices

/-!
# Hot reload (`read_master_struct.rs`, `device_worker.rs`, `value_worker.rs`)

A loop reads the devices of its node and their values when it is told to update. It may hold something
else than the database as long as an Update for it is on the way, or will be sent by a task. `Kept` names
the outcomes and interleavings that keep it so, and the result is that each loop holds what is in the
database once everything has come to rest.
-/

namespace ModbusLogger.Main

open Db

variable {J : Type} {lib : Libraries J} {a : Action J}

/-! ## The configuration of a node -/

/-- The devices of a node that are not deleted, with their values. `none` is a value that does not
decode. -/
def config (t : Tables J) (id : Int) : Option (List (DeviceRead × List (ValueRead J))) := do
  let devices ← (Read.devicesByNode id).exec t
  devices.mapM fun device => ((Read.valuesByDevice device.id).exec t).map fun values =>
    (device, values)

/-- `units` are the first devices of the node, and `rest` the other ones. -/
def Loads (t : Tables J) (id : Int) (units : List (DeviceRead × List (ValueRead J)))
    (rest : List DeviceRead) : Prop :=
  (Read.devicesByNode id).exec t = some (units.map Prod.fst ++ rest) ∧
    ∀ unit ∈ units, (Read.valuesByDevice unit.1.id).exec t = some unit.2

/-- What the loop holds, or has read so far, is in the database. -/
def NodeLoop.Fresh (l : NodeLoop J) (t : Tables J) (answers : List (Nat × Option (Reply J))) : Prop :=
  match l.state with
  | .select | .tick => config t l.id = some l.devices
  | .connect => True
  | .sendGetDevice _ => l.devices = []
  | .awaitDevices _ rx =>
    l.devices = [] ∧
      match answers.lookup rx with
      | some (some (.devices devices)) => Loads t l.id [] devices
      | _ => True
  | .sendGetValue _ units device rest => Loads t l.id units (device :: rest)
  | .awaitValues _ units device rest rx =>
    match answers.lookup rx with
    | none => Loads t l.id units (device :: rest)
    | some (some (.values values)) => Loads t l.id (units ++ [(device, values)]) rest
    | some _ => Loads t l.id units rest

/-! ## What a run has shown -/

/-- The loop is in the middle of reading its devices, or it will read them next. -/
def NodeLoop.reads (l : NodeLoop J) : Bool :=
  match l.state with
  | .select | .tick => false
  | _ => true

/-- What the tasks have read so far, and which loops have begun to read since they were started. -/
structure Trace (J : Type) where
  seen : List (Nat × Seen J)
  begun : List Bool

/-- The rows that a task reads. -/
def Net.sees (n : Net J) : Action J → List (Nat × Seen J)
  | .advance i fate =>
    match n.tasks[i]? with
    | some (.call (.read r) _) =>
      if fate.succeeds then ((r.exec n.tables).map fun rows => (i, ⟨r, rows⟩)).toList else []
    | _ => []
  | _ => []

namespace Trace

variable (trace : Trace J)

def seenBy (i : Nat) : List (Seen J) := (trace.seen.filter (·.1 = i)).map Prod.snd

/-- The loops that have begun to read. -/
def readers (loops : List (NodeLoop J)) : List (NodeLoop J) :=
  ((loops.zip trace.begun).filter Prod.snd).map Prod.fst

/-- What was noted about the loops that are still there. -/
def remaining (n n' : Net J) : Action J → List Bool
  | .loop i _ => if n'.loops.length < n.loops.length then trace.begun.eraseIdx i else trace.begun
  | _ => trace.begun

def next (n n' : Net J) (a : Action J) : Trace J where
  seen := n.sees a ++ trace.seen
  begun := n'.loops.mapIdx fun j l => l.reads || (trace.remaining n n' a).getD j false

end Trace

/-- A step with the notes about it. -/
def Topology.noteStep (lib : Libraries J) : Topology J × Trace J → Action J → Topology J × Trace J :=
  Execution.observed (step lib) fun s s' a trace => trace.next s.net s'.net a

def Topology.trace (lib : Libraries J) (t : Tables J) (actions : List (Action J)) : Trace J :=
  (Execution.after (noteStep lib) (start t, ⟨[], []⟩) actions).2

/-! ## The steps that keep the loops up to date -/

/-- The device whose values the loop waits for. -/
def NodeLoop.waitsFor? (l : NodeLoop J) (rx : Nat) : Option Int :=
  match l.state with
  | .awaitValues _ _ device _ rx' => if rx' = rx then some device.id else none
  | _ => none

namespace Net

/-- One of the tasks will tell it if nobody writes in the meantime, or the event is on the way. -/
def Told (n : Net J) (tasks : List (Task J Unit)) (l : NodeLoop J) : Prop :=
  (∃ p ∈ tasks, Concerns (announced n.tables p) l.id) ∨
    (∃ event ∈ n.events, Concerns [event] l.id) ∨ Concerns l.fromController l.id

/-- A write of the task `i` that takes effect. For a loop whose node it touches, it is confirmed and the
task has read where the rows were, or the loop holds what is in the database, or it is told anyway. -/
def KeptWrite (n : Net J) (trace : Trace J) (i : Nat) (c : Call J) (fate : Fate) : Prop :=
  fate.applied = true → ∀ t', c.effect? n.tables = some t' →
    ∀ l ∈ trace.readers n.loops, c.Touches n.tables l.id →
      (fate.confirmed = true ∧ ∀ s ∈ trace.seenBy i, s.Holds n.tables t' l.id) ∨
        l.Fresh t' n.answers ∨ Told { n with tables := t' } (n.tasks.eraseIdx i) l

/-- The task `i` goes on as `p'` instead of `p`. The loops that it tells no more hold what is in the
database, or they are told anyway. -/
def Spares (n : Net J) (trace : Trace J) (i : Nat) (p p' : Task J Unit) : Prop :=
  ∀ l ∈ trace.readers n.loops, Concerns (announced n.tables p) l.id →
    Concerns (announced n.tables p') l.id ∨ l.Fresh n.tables n.answers ∨
      n.Told (n.tasks.eraseIdx i) l

/-- A call of the task `i`. -/
def KeptCall (n : Net J) (trace : Trace J) (i : Nat) (fate : Fate) :
    (c : Call J) → (c.Answer → Task J Unit) → Prop
  -- A lookup that fails tells no node.
  | .read r, next =>
    n.Spares trace i (.call (.read r) next) (next (perform (.read r) fate n.tables).2)
  | .write w, _ => n.KeptWrite trace i (.write w) fate
  | .transaction ws, _ => n.KeptWrite trace i (.transaction ws) fate
  | .send _, _ => True

/-- A loop that asks for the values of a device gets them, or it is told. -/
def KeptAnswer (n : Net J) (rx : Nat) (succeeds : Bool) : Prop :=
  ∀ l ∈ n.loops, ∀ deviceId, l.waitsFor? rx = some deviceId →
    (succeeds = true ∧ ((Read.valuesByDevice deviceId).exec n.tables).isSome = true) ∨
      n.Told n.tasks l

/-- A loop that lags is told by what it does not lose. -/
def KeptLag (backlog : Nat) (n : Net J) (l : NodeLoop J) : Prop :=
  backlog < l.fromController.length → ¬l.Fresh n.tables n.answers →
    n.Told n.tasks
      { l with fromController := l.fromController.drop (l.fromController.length - backlog) }

def Kept (backlog : Nat) (n : Net J) (trace : Trace J) : Action J → Prop
  | .advance i fate =>
    ∀ c next, n.tasks[i]? = some (.call c next) → n.KeptCall trace i fate c next
  | .dropTask i => ∀ p, n.tasks[i]? = some p → n.Spares trace i p (.done (.ok ()))
  | .answer i fate => ∀ query rx, n.requests[i]? = some (query, rx) → n.KeptAnswer rx fate.succeeds
  | .dropRequest i => ∀ query rx, n.requests[i]? = some (query, rx) → n.KeptAnswer rx false
  | .loop i .receive =>
    ∀ l, n.loops[i]? = some l → trace.begun[i]? = some true → n.KeptLag backlog l
  | _ => True

/-! ### Without a failure -/

/-- A write that takes effect is confirmed, and for the nodes that it touches the rows are still where the
task `i` has read them. -/
def Lands (n : Net J) (trace : Trace J) (i : Nat) (c : Call J) (fate : Fate) : Prop :=
  fate.applied = true → fate.confirmed = true ∧ ∀ t', c.effect? n.tables = some t' →
    ∀ l ∈ trace.readers n.loops, c.Touches n.tables l.id →
      ∀ s ∈ trace.seenBy i, s.Holds n.tables t' l.id

def UndisturbedCall (n : Net J) (trace : Trace J) (i : Nat) (fate : Fate) : Call J → Prop
  | .read r => fate.succeeds = true ∧ (r.exec n.tables).isSome = true
  | .write w => n.Lands trace i (.write w) fate
  | .transaction ws => n.Lands trace i (.transaction ws) fate
  | .send _ => True

/-- A step that neither fails nor comes between the read and the write of another task. -/
def Undisturbed (backlog : Nat) (n : Net J) (trace : Trace J) : Action J → Prop
  | .advance i fate =>
    ∀ c next, n.tasks[i]? = some (.call c next) → n.UndisturbedCall trace i fate c
  | .dropTask i => ∀ p, n.tasks[i]? = some p → ended p = true
  | .answer i fate =>
    ∀ query rx, n.requests[i]? = some (query, rx) → ∀ l ∈ n.loops, ∀ deviceId,
      l.waitsFor? rx = some deviceId →
        fate.succeeds = true ∧ ((Read.valuesByDevice deviceId).exec n.tables).isSome = true
  | .dropRequest i =>
    ∀ query rx, n.requests[i]? = some (query, rx) → ∀ l ∈ n.loops, l.waitsFor? rx = none
  | .loop i .receive => ∀ l, n.loops[i]? = some l → l.fromController.length ≤ backlog
  | _ => True

section Undisturbed

variable {n : Net J} {trace : Trace J} {i : Nat} {fate : Fate}

theorem Lands.kept {c : Call J} (h : n.Lands trace i c fate) : n.KeptWrite trace i c fate := by
  intro happlied t' heffect l hl htouches
  obtain ⟨hconfirmed, hholds⟩ := h happlied
  exact .inl ⟨hconfirmed, hholds t' heffect l hl htouches⟩

theorem UndisturbedCall.kept {c : Call J} (h : n.UndisturbedCall trace i fate c)
    (next : c.Answer → Task J Unit) : n.KeptCall trace i fate c next := by
  cases c with
  | read r =>
      obtain ⟨hsucceeds, hsome⟩ := h
      obtain ⟨rows, hrows⟩ := Option.isSome_iff_exists.mp hsome
      intro l hl hconcerns
      left
      rw [announced_read, perform_read_ok hrows rfl] at hconcerns
      rw [perform_read_ok hrows hsucceeds]
      exact hconcerns
  | write w => exact Lands.kept h
  | transaction ws => exact Lands.kept h
  | send event => trivial

/-- Without a failure, the loops are kept up to date. -/
theorem Undisturbed.kept {backlog : Nat} (h : n.Undisturbed backlog trace a) :
    n.Kept backlog trace a := by
  cases a with
  | advance i fate =>
      intro c next task
      exact (h c next task).kept next
  | dropTask i =>
      intro p task l hl hconcerns
      rw [announced_ended (h p task)] at hconcerns
      exact absurd hconcerns not_concerns_nil
  | answer i fate =>
      intro query rx request l hl deviceId hwaits
      exact .inl (h query rx request l hl deviceId hwaits)
  | dropRequest i =>
      intro query rx request l hl deviceId hwaits
      rw [h query rx request l hl] at hwaits
      cases hwaits
  | loop i act =>
      cases act with
      | receive =>
          intro l hl hbegun hlag
          exact absurd hlag (Nat.not_lt.mpr (h l hl))
      | elapsed | finish | panic | hear => trivial
  | _ => trivial

end Undisturbed

end Net

/-! ## The invariant -/

namespace Net

/-- A loop that has begun to read holds what is in the database, or it is told. One that has not will
begin with its next message or poll. -/
def Loaded (n : Net J) (l : NodeLoop J) (begun : Bool) : Prop :=
  if begun = true then l.Fresh n.tables n.answers ∨ n.Told n.tasks l
  else l.state = .select ∧ l.devices = []

structure UpToDate (n : Net J) (trace : Trace J) : Prop where
  wired : n.Wired
  keyed : NodeKeyed n.tables
  tasks : ∀ (i : Nat) p, n.tasks[i]? = some p → Prepares (trace.seenBy i) p ∨ Informs p
  length : trace.begun.length = n.loops.length
  loops : ∀ (i : Nat) l b, n.loops[i]? = some l → trace.begun[i]? = some b → n.Loaded l b

end Net

/-! ## Loading -/

section Loading

variable {t : Tables J} {answers : List (Nat × Option (Reply J))} {l l' : NodeLoop J} {id : Int}
  {units : List (DeviceRead × List (ValueRead J))} {device : DeviceRead} {rest : List DeviceRead}

theorem Loads.config (h : Loads t id units []) : Main.config t id = some units := by
  obtain ⟨hdevices, hvalues⟩ := h
  rw [List.append_nil] at hdevices
  unfold Main.config
  rw [hdevices]
  show (units.map Prod.fst).mapM _ = some units
  rw [List.mapM_map]
  clear hdevices
  induction units with
  | nil => rfl
  | cons unit units ih =>
      rw [List.mapM_cons]
      have hfirst := hvalues unit List.mem_cons_self
      have hrest := ih fun unit hunit => hvalues unit (List.mem_cons_of_mem _ hunit)
      simp only [Function.comp] at hrest ⊢
      rw [hfirst, hrest]
      rfl

theorem Query.reply_devices {devices : List DeviceRead}
    (h : (Query.getDeviceByNode id).reply t = some (.devices devices)) :
    (Read.devicesByNode id).exec t = some devices := by
  change ((Read.devicesByNode id).exec t).map Reply.devices = _ at h
  cases hexec : (Read.devicesByNode id).exec t with
  | none =>
      rw [hexec] at h
      cases h
  | some devices' =>
      rw [hexec] at h
      cases h
      rfl

theorem Query.reply_values {values : List (ValueRead J)}
    (h : (Read.valuesByDevice id).exec t = some values) :
    (Query.getByDeviceId id).reply t = some (.values values) := by
  change ((Read.valuesByDevice id).exec t).map Reply.values = _
  rw [h]
  rfl

theorem Loads.start {devices : List DeviceRead}
    (h : (Read.devicesByNode id).exec t = some devices) : Loads t id [] devices :=
  ⟨h, fun _ hunit => absurd hunit List.not_mem_nil⟩

/-- The values of one more device. -/
theorem Loads.concat {values : List (ValueRead J)} (h : Loads t id units (device :: rest))
    (hvalues : (Read.valuesByDevice device.id).exec t = some values) :
    Loads t id (units ++ [(device, values)]) rest := by
  refine ⟨?_, ?_⟩
  · rw [h.1, List.map_append, List.append_assoc]
    rfl
  · intro unit hunit
    rcases List.mem_append.mp hunit with hold | hnew
    · exact h.2 unit hold
    · obtain rfl := List.mem_singleton.mp hnew
      exact hvalues

theorem Loads.next {caller : Caller} (h : Loads t l.id units rest)
    (hnext : l.next caller units rest = some l') : l'.Fresh t answers := by
  cases rest with
  | cons device rest =>
      cases hnext
      exact h
  | nil =>
      unfold NodeLoop.next NodeLoop.created at hnext
      dsimp only at hnext
      split at hnext
      · cases hnext
      · cases hnext
        exact h.config
      · cases hnext
        exact h.config

theorem NodeLoop.Fresh.hear {rx : Nat} {reply : Option (Reply J)} (h : l.Fresh t answers)
    (awaits : l.rx? = some rx) (answered : answers.lookup rx = some reply)
    (hhear : l.hear reply = some l') : l'.Fresh t answers := by
  unfold NodeLoop.hear at hhear
  unfold NodeLoop.rx? at awaits
  unfold NodeLoop.Fresh at h
  split at hhear
  · next caller rx' hstate =>
      rw [hstate] at awaits h
      cases awaits
      obtain ⟨hnone, hloads⟩ := h
      split at hhear
      · cases hhear
        rw [answered] at hloads
        have hconfig := hloads.config
        rw [← hnone] at hconfig
        exact hconfig
      · next devices _ =>
          rw [answered] at hloads
          exact Loads.next hloads hhear
      · cases hhear
        exact hnone
  · next caller units device rest rx' hstate =>
      rw [hstate] at awaits h
      cases awaits
      dsimp only at h
      rw [answered] at h
      split at hhear
      · exact Loads.next h hhear
      · next hfailed =>
          split at h
          · next heq => cases heq
          · next values heq =>
              cases heq
              exact absurd rfl (hfailed values)
          · exact Loads.next h hhear
  · next hdevices hvalues =>
      split at awaits
      · next hstate => exact absurd hstate (hdevices _ _)
      · next hstate => exact absurd hstate (hvalues _ _ _ _ _)
      · cases awaits

end Loading

/-! ## Telling -/

namespace Net

variable {n n' : Net J} {l l' : NodeLoop J} {i : Nat} {p : Task J Unit}

/-- A loop with the same node and messages is told the same. -/
theorem Told.congr (h : n.Told n.tasks l) (hid : l'.id = l.id)
    (hmsgs : Concerns l.fromController l.id → Concerns l'.fromController l.id) :
    n.Told n.tasks l' := by
  unfold Told at h ⊢
  rw [hid]
  rcases h with htask | hevent | hmsg
  · exact .inl htask
  · exact .inr (.inl hevent)
  · exact .inr (.inr (hmsgs hmsg))

theorem Told.spawn (h : n.Told n.tasks l) (tasks : List (Task J Unit)) :
    n.Told (n.tasks ++ tasks) l := by
  rcases h with ⟨p, hp, hconcerns⟩ | hother
  · exact .inl ⟨p, List.mem_append_left _ hp, hconcerns⟩
  · exact .inr hother

/-- Another task, or the reader, tells the loop. -/
theorem Told.set (h : n.Told (n.tasks.eraseIdx i) l) (task : n.tasks[i]? = some p)
    (p' : Task J Unit) : n.Told (n.tasks.set i p') l := by
  rcases h with ⟨q, hq, hconcerns⟩ | hother
  · exact .inl ⟨q, (mem_set_iff task).mpr (.inr hq), hconcerns⟩
  · exact .inr hother

/-- The task tells the loop itself, or it is not needed for that. -/
theorem Told.or_beside (h : n.Told n.tasks l) (task : n.tasks[i]? = some p) :
    Concerns (announced n.tables p) l.id ∨ n.Told (n.tasks.eraseIdx i) l := by
  rcases h with ⟨q, hq, hconcerns⟩ | hother
  · rcases (mem_iff_mem_eraseIdx task).mp hq with rfl | hrest
    · exact .inl hconcerns
    · exact .inr (.inl ⟨q, hrest, hconcerns⟩)
  · exact .inr (.inr hother)

theorem told_self (task : n.tasks[i]? = some p) {p' : Task J Unit}
    (h : Concerns (announced n.tables p') l.id) : n.Told (n.tasks.set i p') l :=
  .inl ⟨p', (mem_set_iff task).mpr (.inl rfl), h⟩

/-- An event is on the way instead of with its task. -/
theorem Told.send {event : ConfigEvent} {next : Bool → Task J Unit} (h : n.Told n.tasks l)
    (task : n.tasks[i]? = some (.call (.send event) next)) :
    Told { n with events := event ::ₘ n.events, tasks := n.tasks.set i (next true) }
      (n.tasks.set i (next true)) l := by
  rcases h with ⟨q, hq, hconcerns⟩ | ⟨event', hevent, hconcerns⟩ | hmsg
  · rcases (mem_iff_mem_eraseIdx task).mp hq with rfl | hrest
    · rw [announced_send, concerns_head] at hconcerns
      rcases hconcerns with hnow | hlater
      · exact .inr (.inl ⟨event, Multiset.mem_cons_self _ _, hnow⟩)
      · exact .inl ⟨_, (mem_set_iff task).mpr (.inl rfl), hlater⟩
    · exact .inl ⟨q, (mem_set_iff task).mpr (.inr hrest), hconcerns⟩
  · exact .inr (.inl ⟨event', Multiset.mem_cons_of_mem hevent, hconcerns⟩)
  · exact .inr (.inr hmsg)

/-- `node_master` takes an event. -/
theorem Told.taken {msg : ConfigEvent} {events : Multiset ConfigEvent} (h : n.Told n.tasks l)
    (taken : n.events = msg ::ₘ events) :
    Concerns [msg] l.id ∨ Told { n with events } n.tasks l := by
  rcases h with htask | ⟨event, hevent, hconcerns⟩ | hmsg
  · exact .inr (.inl htask)
  · rw [taken] at hevent
    rcases Multiset.mem_cons.mp hevent with rfl | hold
    · exact .inl hconcerns
    · exact .inr (.inr (.inl ⟨event, hold, hconcerns⟩))
  · exact .inr (.inr (.inr hmsg))

theorem Told.create {data : NodeRead} {events : Multiset ConfigEvent} {nodeMaster : NodeMaster J}
    (h : n.Told n.tasks l) (taken : n.events = ⟨.create, data⟩ ::ₘ events) :
    Told { n with events, nodeMaster } n.tasks l := by
  rcases h.taken taken with hmsg | htold
  · exact absurd hmsg (not_concerns fun _ => rfl)
  · exact htold

theorem Told.sendToWorkers {msg : ConfigEvent} {events : Multiset ConfigEvent}
    {loops : List (NodeLoop J)} (h : n.Told n.tasks l) (taken : n.events = msg ::ₘ events) :
    Told { n with events, loops } n.tasks
      { l with fromController := l.fromController ++ [msg] } := by
  rcases h.taken taken with hmsg | htold
  · exact .inr (.inr (concerns_append.mpr (.inr hmsg)))
  · exact htold.congr rfl fun hold => concerns_append.mpr (.inl hold)

/-! ## Answers -/

/-- The answer to the question of a loop is what is in the database, but for an error in front of
which the loop is told. -/
theorem Fresh.answered {query : Query} {rx : Nat} {succeeds : Bool} {reply : Option (Reply J)}
    (h : l.Fresh n.tables n.answers) (hwired : n.Wired) (hl : l ∈ n.loops)
    (hpending : (query, rx) ∈ n.pending) (hkept : n.KeptAnswer rx succeeds)
    (hreply : reply = if succeeds then query.reply n.tables else none) :
    l.Fresh n.tables (n.answers ++ [(rx, reply)]) ∨ n.Told n.tasks l := by
  have hlookup := hwired.lookup_eq_none hpending
  have hother {rx' : Nat} (hne : rx' ≠ rx) :
      (n.answers ++ [(rx, reply)]).lookup rx' = n.answers.lookup rx' := by
    rw [lookup_concat, if_neg hne, Option.or_none]
  have hown : (n.answers ++ [(rx, reply)]).lookup rx = some reply := by
    rw [lookup_concat, hlookup, if_pos rfl]
    rfl
  cases hstate : l.state with
  | awaitDevices caller rx' =>
      left
      simp only [NodeLoop.Fresh, hstate] at h ⊢
      by_cases hrx : rx' = rx
      · subst hrx
        obtain rfl := hwired.asked _ rx' (.loop hl (.devices hstate)) query hpending
        rw [hown]
        refine ⟨h.1, ?_⟩
        split
        · next devices heq =>
            have hdevices : reply = some (.devices devices) := Option.some.inj heq
            rw [hreply] at hdevices
            split at hdevices
            · exact .start (Query.reply_devices hdevices)
            · cases hdevices
        · trivial
      · rw [hother hrx]
        exact h
  | awaitValues caller units device rest rx' =>
      by_cases hrx : rx' = rx
      · subst hrx
        obtain rfl := hwired.asked _ rx' (.loop hl (.values hstate)) query hpending
        have hwaits : l.waitsFor? rx' = some device.id := by
          unfold NodeLoop.waitsFor?
          rw [hstate]
          exact if_pos rfl
        rcases hkept l hl device.id hwaits with ⟨hsucceeds, hsome⟩ | htold
        · left
          obtain ⟨values, hvalues⟩ := Option.isSome_iff_exists.mp hsome
          have hvalued : reply = some (.values values) := by
            rw [hreply, if_pos hsucceeds]
            exact Query.reply_values hvalues
          simp only [NodeLoop.Fresh, hstate] at h ⊢
          rw [hlookup] at h
          rw [hown, hvalued]
          exact h.concat hvalues
        · exact .inr htold
      · left
        simp only [NodeLoop.Fresh, hstate] at h ⊢
        rw [hother hrx]
        exact h
  | connect => exact .inl (by simp only [NodeLoop.Fresh, hstate])
  | select | tick | sendGetDevice | sendGetValue =>
      left
      simp only [NodeLoop.Fresh, hstate] at h ⊢
      exact h

/-! ## Turns -/

/-- What a loop does apart from receiving keeps what it holds. -/
theorem Fresh.turn {backlog : Nat} {act : LoopAction} {l' : NodeLoop J} (h : l.Fresh n.tables n.answers)
    (hturns : l.Turns backlog n.answers act (some l')) : l'.Fresh n.tables n.answers := by
  generalize hresult : some l' = result at hturns
  cases hturns with
  | lag select lags =>
      cases hresult
      simp only [NodeLoop.Fresh, select] at h ⊢
      exact h
  | foreign select received other =>
      cases hresult
      simp only [NodeLoop.Fresh, select] at h ⊢
      exact h
  | update select received own =>
      cases hresult
      unfold NodeLoop.update
      split <;> simp only [NodeLoop.Fresh]
  | elapsed select =>
      cases hresult
      unfold NodeLoop.tick
      simp only [NodeLoop.Fresh, select] at h
      split
      · next hempty => exact List.isEmpty_iff.mp hempty
      · exact h
  | ticked state =>
      cases hresult
      simp only [NodeLoop.Fresh, state] at h ⊢
      exact h
  | connected state =>
      cases hresult
      rfl
  | hear awaits answered => exact NodeLoop.Fresh.hear h awaits answered hresult.symm
  | delete | panic => cases hresult

/-- A loop is told until it reads its devices again, but for messages that it loses. -/
theorem Told.turn {backlog : Nat} {act : LoopAction} {l' : NodeLoop J} (h : n.Told n.tasks l)
    (hturns : l.Turns backlog n.answers act (some l'))
    (hlag : act = .receive → n.KeptLag backlog l) :
    l'.Fresh n.tables n.answers ∨ n.Told n.tasks l' := by
  cases hturns.received with
  | same same =>
      right
      apply h.congr hturns.id
      rw [same]
      exact id
  | lag select lags loop =>
      by_cases hfresh : l.Fresh n.tables n.answers
      · exact .inl (Fresh.turn hfresh hturns)
      · right
        rw [loop]
        exact hlag rfl lags hfresh
  | foreign select received other loop =>
      right
      apply h.congr hturns.id
      rw [loop, received, concerns_head]
      rintro (hmsg | hrest)
      · exact absurd hmsg (not_concerns other)
      · exact hrest
  | update select received own loop =>
      left
      rw [loop]
      unfold NodeLoop.update
      split <;> simp only [NodeLoop.Fresh]

theorem Fresh.asks {query : Query} (h : l.Fresh n.tables n.answers) (hwired : n.Wired)
    (asks : l.ask? n.nextChannel = some (query, l')) : l'.Fresh n.tables n.answers := by
  have hnone := hwired.lookup_next
  unfold NodeLoop.ask? at asks
  split at asks
  · next caller hstate =>
      cases asks
      simp only [NodeLoop.Fresh, hstate, hnone] at h ⊢
      exact ⟨h, trivial⟩
  · next caller units device rest hstate =>
      cases asks
      simp only [NodeLoop.Fresh, hstate, hnone] at h ⊢
      exact h
  · cases asks

end Net

/-! ## Tasks -/

namespace Trace

variable {trace : Trace J} {n n' : Net J} {i : Nat}

theorem mem_readers {loops : List (NodeLoop J)} {l : NodeLoop J} :
    l ∈ trace.readers loops ↔ ∃ i : Nat, loops[i]? = some l ∧ trace.begun[i]? = some true := by
  unfold readers
  simp only [List.mem_map, List.mem_filter]
  constructor
  · rintro ⟨⟨l, b⟩, ⟨hmem, hb⟩, rfl⟩
    obtain ⟨i, hi⟩ := List.mem_iff_getElem?.mp hmem
    obtain ⟨hl, hbegun⟩ := List.getElem?_zip_eq_some.mp hi
    exact ⟨i, hl, hbegun.trans (congrArg some hb)⟩
  · rintro ⟨i, hl, hbegun⟩
    have hi : (loops.zip trace.begun)[i]? = some (l, true) :=
      List.getElem?_zip_eq_some.mpr ⟨hl, hbegun⟩
    exact ⟨(l, true), ⟨List.mem_of_getElem? hi, rfl⟩, rfl⟩

/-- What a task has read stays known. -/
theorem seenBy_subset : trace.seenBy i ⊆ (trace.next n n' a).seenBy i := by
  unfold seenBy next
  rw [List.filter_append, List.map_append]
  exact List.subset_append_right _ _

theorem mem_seenBy {fate : Fate} {r : Read} {rows : r.Rows J}
    {next : (Call.read (J := J) r).Answer → Task J Unit} (task : n.tasks[i]? = some (.call (.read r) next))
    (hfate : fate.succeeds = true) (hrows : r.exec n.tables = some rows) :
    ⟨r, rows⟩ ∈ (trace.next n n' (.advance i fate)).seenBy i := by
  unfold seenBy Trace.next
  have hsees : n.sees (.advance i fate) = [(i, ⟨r, rows⟩)] := by
    unfold Net.sees
    dsimp only
    rw [task]
    dsimp only
    rw [if_pos hfate, hrows]
    rfl
  rw [hsees]
  exact List.mem_map.mpr ⟨_, List.mem_filter.mpr ⟨List.mem_cons_self, decide_eq_true rfl⟩, rfl⟩

end Trace

theorem Prepares.of_ended {seen : List (Seen J)} {p : Task J Unit} (h : Main.ended p = true) :
    Prepares seen p := by
  cases p with
  | done result => exact .ended result
  | call => cases h

namespace Net

variable {n n' : Net J} {trace : Trace J}

/-- The task that has made a call. -/
theorem prepares_or_informs {seen seen' : List (Seen J)} {t : Tables J} {c : Call J}
    {next : c.Answer → Task J Unit} {fate : Fate} (h : Prepares seen (.call c next) ∨ Informs (.call c next))
    (hsubset : seen ⊆ seen')
    (hsees : ∀ r, (heq : c = .read r) → ∀ rows, fate.succeeds = true → r.exec t = some rows →
      (⟨r, rows⟩ : Seen J) ∈ seen') :
    Prepares seen' (next (perform c fate t).2) ∨ Informs (next (perform c fate t).2) := by
  rcases h with hprepares | hinforms
  · cases hprepares with
    | @looks _ r next fails goes =>
        left
        cases hrows : r.exec t with
        | none =>
            rw [perform_read_error hrows]
            exact .of_ended (fails _)
        | some rows =>
            cases hfate : fate.succeeds with
            | true =>
                rw [perform_read_ok hrows hfate]
                exact (goes t rows hrows).mono
                  (List.cons_subset.mpr ⟨hsees r rfl rows hfate hrows, hsubset⟩)
            | false =>
                have hfailed : (perform (.read r) fate t).2 = .error fate.error := by
                  unfold perform
                  dsimp only
                  rw [hrows]
                  simp [hfate]
                rw [hfailed]
                exact .of_ended (fails _)
    | @writes _ w next fails goes =>
        rcases (perform (.write w) fate t).2 with e | _
        · exact .inl (.of_ended (fails e))
        · exact .inr goes
    | @commits _ ws next removes fails goes =>
        rcases (perform (.transaction ws) fate t).2 with e | _
        · exact .inl (.of_ended (fails e))
        · exact .inr goes
  · cases hinforms with
    | looks steady goes => exact .inr (goes _)
    | sends goes => exact .inr (goes _)

/-- The entry that has been set, or an old one. -/
theorem getElem?_set_cases {α : Type*} {xs : List α} {i j : Nat} {x y : α}
    (h : (xs.set i x)[j]? = some y) : i = j ∧ y = x ∨ xs[j]? = some y := by
  rw [List.getElem?_set] at h
  split at h
  · next hij =>
      split at h
      · cases h
        exact .inl ⟨hij, rfl⟩
      · cases h
  · exact .inr h

theorem Step.tasks (h : Step lib n a n')
    (hn : ∀ (i : Nat) p, n.tasks[i]? = some p → Prepares (trace.seenBy i) p ∨ Informs p) :
    ∀ (i : Nat) p, n'.tasks[i]? = some p →
      Prepares ((trace.next n n' a).seenBy i) p ∨ Informs p := by
  have hold (i : Nat) (p : Task J Unit) (hp : n.tasks[i]? = some p) :
      Prepares ((trace.next n n' a).seenBy i) p ∨ Informs p :=
    (hn i p hp).imp_left fun hprepares => hprepares.mono Trace.seenBy_subset
  cases h with
  | spawn command =>
      intro j p hp
      rcases Nat.lt_or_ge j n.tasks.length with hlt | hge
      · exact hold j p ((List.getElem?_append_left hlt).symm.trans hp)
      · dsimp only at hp
        rw [List.getElem?_append_right hge] at hp
        obtain rfl := List.mem_singleton.mp (List.mem_of_getElem? hp)
        exact .inl ((task_prepares lib command).mono (List.nil_subset _))
  | @call i c next fate task hc =>
      intro j p hp
      rcases getElem?_set_cases hp with ⟨rfl, rfl⟩ | hother
      · refine prepares_or_informs (hn i _ task) Trace.seenBy_subset ?_
        rintro r rfl rows hfate hrows
        exact Trace.mem_seenBy task hfate hrows
      · exact hold j p hother
  | @send i event next fate task =>
      intro j p hp
      rcases getElem?_set_cases hp with ⟨rfl, rfl⟩ | hother
      · rcases hn i _ task with hprepares | hinforms
        · cases hprepares
        · cases hinforms with
          | sends goes => exact .inr (goes true)
      · exact hold j p hother
  | dropTask i =>
      intro j p hp
      rcases getElem?_set_cases hp with ⟨-, rfl⟩ | hother
      · exact .inr (.ended _)
      · exact hold j p hother
  | @turn i l l' act loop turns =>
      cases l' <;> exact hold
  | _ => exact hold

theorem Step.keyed (h : Step lib n a n') (hn : NodeKeyed n.tables) : NodeKeyed n'.tables := by
  cases h with
  | call fate task hc => exact perform_keyed hn _ fate
  | @turn i l l' act loop turns =>
      cases l' <;> exact hn
  | _ => exact hn

end Net

/-! ## Writes -/

section Elsewhere

variable {t t' : Tables J} {id : Int} {l : NodeLoop J} {answers : List (Nat × Option (Reply J))}

theorem Loads.elsewhere {units : List (DeviceRead × List (ValueRead J))} {rest : List DeviceRead}
    (h : Loads t id units rest) (huntouched : Untouched id t t') : Loads t' id units rest := by
  refine ⟨huntouched.devicesByNode.trans h.1, fun unit hunit => ?_⟩
  have hlisted : unit.1 ∈ units.map Prod.fst ++ rest :=
    List.mem_append_left _ (List.mem_map_of_mem hunit)
  exact (huntouched.valuesByDevice (nodeOfDevice?_of_mem h.1 hlisted)).trans (h.2 unit hunit)

theorem mapM_congr {α β : Type} {f g : α → Option β} {xs : List α} (h : ∀ x ∈ xs, f x = g x) :
    xs.mapM f = xs.mapM g := by
  induction xs with
  | nil => rfl
  | cons x xs ih =>
      rw [List.mapM_cons, List.mapM_cons, h x List.mem_cons_self,
        ih fun y hy => h y (List.mem_cons_of_mem _ hy)]

theorem config_elsewhere (huntouched : Untouched id t t') : config t' id = config t id := by
  unfold config
  rw [huntouched.devicesByNode]
  cases hdevices : (Read.devicesByNode id).exec t with
  | none => rfl
  | some devices =>
      apply mapM_congr
      intro device hdevice
      rw [huntouched.valuesByDevice (nodeOfDevice?_of_mem hdevices hdevice)]

/-- A write elsewhere. -/
theorem NodeLoop.Fresh.elsewhere (h : l.Fresh t answers) (huntouched : Untouched l.id t t') :
    l.Fresh t' answers := by
  cases hstate : l.state with
  | select | tick =>
      simp only [NodeLoop.Fresh, hstate] at h ⊢
      exact (config_elsewhere huntouched).trans h
  | connect => simp only [NodeLoop.Fresh, hstate]
  | sendGetDevice =>
      simp only [NodeLoop.Fresh, hstate] at h ⊢
      exact h
  | awaitDevices caller rx =>
      simp only [NodeLoop.Fresh, hstate] at h ⊢
      refine ⟨h.1, ?_⟩
      split
      · next devices heq =>
          have hloads := h.2
          rw [heq] at hloads
          exact hloads.elsewhere huntouched
      · trivial
  | sendGetValue =>
      simp only [NodeLoop.Fresh, hstate] at h ⊢
      exact h.elsewhere huntouched
  | awaitValues =>
      simp only [NodeLoop.Fresh, hstate] at h ⊢
      split
      · next heq =>
          rw [heq] at h
          exact h.elsewhere huntouched
      · next heq =>
          rw [heq] at h
          exact h.elsewhere huntouched
      · next hfailed heq =>
          rw [heq] at h
          split at h
          · next heq' => cases heq'
          · next values heq' =>
              cases heq'
              exact absurd rfl (hfailed values)
          · exact h.elsewhere huntouched

end Elsewhere

theorem Prepares.steady {seen : List (Seen J)} {p : Task J Unit} (h : Prepares seen p) : Steady p := by
  intro t t' id _ _ _ hconcerns
  rw [h.silent] at hconcerns
  exact absurd hconcerns not_concerns_nil

namespace Net

variable {n n' : Net J} {trace : Trace J} {i : Nat} {l : NodeLoop J} {t' : Tables J}

theorem Told.elsewhere {tasks : List (Task J Unit)} (h : n.Told tasks l) (hsteady : ∀ p ∈ tasks, Steady p)
    (hkeyed : NodeKeyed n.tables) (hkeyed' : NodeKeyed t') (huntouched : Untouched l.id n.tables t') :
    Told { n with tables := t' } tasks l := by
  rcases h with ⟨p, hp, hconcerns⟩ | hother
  · exact .inl ⟨p, hp, hsteady p hp _ _ _ hkeyed hkeyed' huntouched hconcerns⟩
  · exact .inr hother

theorem UpToDate.steady (hn : n.UpToDate trace) : ∀ p ∈ n.tasks, Steady p := by
  intro p hp
  obtain ⟨i, hi⟩ := List.mem_iff_getElem?.mp hp
  rcases hn.tasks i p hi with hprepares | hinforms
  · exact hprepares.steady
  · exact hinforms.steady

/-- A task that has told no node yet goes on. -/
theorem Told.silent {p : Task J Unit} (h : n.Told n.tasks l) (task : n.tasks[i]? = some p)
    (hsilent : announced n.tables p = []) : n.Told (n.tasks.eraseIdx i) l := by
  rcases h.or_beside task with hconcerns | hbeside
  · rw [hsilent] at hconcerns
    exact absurd hconcerns not_concerns_nil
  · exact hbeside

/-- A write that takes effect. The nodes that it touches are told now, and nothing has become of the
others. -/
theorem UpToDate.effect {c : Call J} {fate : Fate} {p p' : Task J Unit} (hn : n.UpToDate trace)
    (task : n.tasks[i]? = some p) (hsilent : announced n.tables p = []) (hkeyed' : NodeKeyed t')
    (happlied : fate.applied = true) (heffect : c.effect? n.tables = some t')
    (hcovers : fate.confirmed = true → Covers (trace.seenBy i) c p')
    (huntouched : ∀ id, ¬c.Touches n.tables id → Untouched id n.tables t')
    (hkept : n.KeptWrite trace i c fate) (hl : l ∈ trace.readers n.loops)
    (h : l.Fresh n.tables n.answers ∨ n.Told n.tasks l) :
    l.Fresh t' n.answers ∨ Told { n with tables := t' } (n.tasks.set i p') l := by
  have hset (hbeside : Told { n with tables := t' } (n.tasks.eraseIdx i) l) :
      Told { n with tables := t' } (n.tasks.set i p') l := by
    have htask : (Net.tasks { n with tables := t' })[i]? = some p := task
    exact hbeside.set htask p'
  by_cases htouches : c.Touches n.tables l.id
  · rcases hkept happlied t' heffect l hl htouches with ⟨hconfirmed, hholds⟩ | hfresh | hbeside
    · right
      have hconcerns := hcovers hconfirmed n.tables t' l.id hn.keyed heffect htouches hholds
      exact .inl ⟨p', (mem_set_iff task).mpr (.inl rfl), hconcerns⟩
    · exact .inl hfresh
    · exact .inr (hset hbeside)
  · have helsewhere := huntouched l.id htouches
    rcases h with hfresh | htold
    · exact .inl (hfresh.elsewhere helsewhere)
    · right
      refine hset ((htold.silent task hsilent).elsewhere (fun q hq => ?_) hn.keyed hkeyed' helsewhere)
      exact hn.steady q (List.mem_of_mem_eraseIdx hq)

/-- A call that leaves the tables as they are. -/
theorem UpToDate.idle {p : Task J Unit} (task : n.tasks[i]? = some p)
    (hsilent : announced n.tables p = []) (p' : Task J Unit)
    (h : l.Fresh n.tables n.answers ∨ n.Told n.tasks l) :
    l.Fresh n.tables n.answers ∨ n.Told (n.tasks.set i p') l :=
  h.imp_right fun htold => (htold.silent task hsilent).set task p'

theorem UpToDate.call {c : Call J} {next : c.Answer → Task J Unit} {fate : Fate}
    (hn : n.UpToDate trace) (task : n.tasks[i]? = some (.call c next))
    (hc : ∀ event, c ≠ .send event) (hkept : n.KeptCall trace i fate c next)
    (hl : l ∈ trace.readers n.loops) (h : l.Fresh n.tables n.answers ∨ n.Told n.tasks l) :
    l.Fresh (perform c fate n.tables).1 n.answers ∨
      Told { n with tables := (perform c fate n.tables).1 }
        (n.tasks.set i (next (perform c fate n.tables).2)) l := by
  have hkeyed' := perform_keyed hn.keyed c fate
  have htask := hn.tasks i _ task
  cases c with
  | send event => exact absurd rfl (hc event)
  | read r =>
      rw [perform_read_tables]
      rcases h with hfresh | htold
      · exact .inl hfresh
      · rcases htold.or_beside task with hconcerns | hbeside
        · rcases hkept l hl hconcerns with hlater | hfresh | hbeside
          · exact .inr (told_self task hlater)
          · exact .inl hfresh
          · exact .inr (hbeside.set task _)
        · exact .inr (hbeside.set task _)
  | write w =>
      have hprepares := htask.resolve_right nofun
      have hsilent := hprepares.silent n.tables
      cases hprepares with
      | writes fails goes covers =>
          rcases perform_write_effect w fate n.tables with hsame | ⟨happlied, hexec, hanswer⟩
          · rw [hsame]
            exact UpToDate.idle task hsilent _ h
          · have heffect : (Call.write w).effect? n.tables = some _ := hexec
            refine hn.effect task hsilent hkeyed' happlied heffect (fun hconfirmed => ?_)
              (fun id => Write.exec_untouched hn.keyed.toReferential hexec) hkept hl h
            rw [hanswer hconfirmed]
            exact covers
  | transaction ws =>
      have hprepares := htask.resolve_right nofun
      have hsilent := hprepares.silent n.tables
      cases hprepares with
      | commits removes fails goes covers =>
          rcases perform_transaction_effect ws fate n.tables with hsame | ⟨happlied, hexec, hanswer⟩
          · rw [hsame]
            exact UpToDate.idle task hsilent _ h
          · refine hn.effect task hsilent hkeyed' happlied (Call.effect?_transaction.mpr hexec)
              (fun hconfirmed => ?_) (fun id htouches => ?_) hkept hl h
            · rw [hanswer hconfirmed]
              exact covers
            · exact execAll_untouched hn.keyed.toReferential removes hexec
                fun w hw hw' => htouches ⟨w, hw, hw'⟩

end Net

/-! ## Loops -/

namespace Trace

variable {trace : Trace J} {n n' : Net J}

theorem remaining_eq (hle : n.loops.length ≤ n'.loops.length) :
    trace.remaining n n' a = trace.begun := by
  unfold remaining
  split
  · exact if_neg (Nat.not_lt.mpr hle)
  · rfl

/-- What is noted about a loop after a step. -/
theorem begun_next {i : Nat} {l' : NodeLoop J} {b : Bool} (hl : n'.loops[i]? = some l')
    (hb : (trace.next n n' a).begun[i]? = some b) :
    b = (l'.reads || (trace.remaining n n' a)[i]?.getD false) := by
  unfold next at hb
  dsimp only at hb
  rw [List.getElem?_mapIdx, hl] at hb
  rw [← Option.some.inj hb, List.getD_eq_getElem?_getD]

end Trace

namespace Net

variable {n n' : Net J} {trace : Trace J} {i : Nat} {l l' : NodeLoop J} {b : Bool}

/-- A loop that reads has begun to. -/
theorem Loaded.reads (h : n.Loaded l b) : (l.reads || b) = b := by
  cases b with
  | true => exact Bool.or_true _
  | false =>
      obtain ⟨hselect, -⟩ := h
      unfold NodeLoop.reads
      rw [hselect]
      rfl

/-- A loop that goes on with the same devices. -/
theorem Loaded.imp (h : n.Loaded l b) (hstate : l'.state = l.state) (hdevices : l'.devices = l.devices)
    (hloaded : b = true → l.Fresh n.tables n.answers ∨ n.Told n.tasks l →
      l'.Fresh n'.tables n'.answers ∨ n'.Told n'.tasks l') : n'.Loaded l' b := by
  cases b with
  | true => exact hloaded rfl h
  | false => exact ⟨hstate.trans h.1, hdevices.trans h.2⟩

theorem UpToDate.noted (hn : n.UpToDate trace) (hl : n.loops[i]? = some l) :
    ∃ b, trace.begun[i]? = some b ∧ n.Loaded l b := by
  obtain ⟨hlt, -⟩ := List.getElem?_eq_some_iff.mp hl
  rw [← hn.length] at hlt
  have hb := List.getElem?_eq_getElem hlt
  exact ⟨_, hb, hn.loops i l _ hl hb⟩

/-- The loops after a step. -/
def Follows (n : Net J) (trace : Trace J) (a : Action J) (n' : Net J) : Prop :=
  ∀ (i : Nat) l, n'.loops[i]? = some l →
    n'.Loaded l (l.reads || (trace.remaining n n' a)[i]?.getD false)

/-- All loops are there still, and perhaps new ones. -/
theorem UpToDate.follows {f : NodeLoop J → NodeLoop J} (hn : n.UpToDate trace) (nodes : List NodeRead)
    (hloops : n'.loops = n.loops.map f ++ nodes.map .new)
    (h : ∀ (i : Nat) l b, n.loops[i]? = some l → trace.begun[i]? = some b → n.Loaded l b →
      n'.Loaded (f l) b) : n.Follows trace a n' := by
  intro i l' hl'
  have hle : n.loops.length ≤ n'.loops.length := by simp [hloops]
  rw [Trace.remaining_eq hle]
  rw [hloops] at hl'
  rcases Nat.lt_or_ge i n.loops.length with hlt | hge
  · rw [List.getElem?_append_left (by simpa using hlt), List.getElem?_map] at hl'
    obtain ⟨l, hl, rfl⟩ := Option.map_eq_some_iff.mp hl'
    obtain ⟨b, hb, hloaded⟩ := hn.noted hl
    have hloaded' := h i l b hl hb hloaded
    rw [hb, Option.getD_some, hloaded'.reads]
    exact hloaded'
  · rw [List.getElem?_append_right (by simpa using hge)] at hl'
    obtain ⟨node, -, rfl⟩ := List.mem_map.mp (List.mem_of_getElem? hl')
    have hnone : trace.begun[i]? = none := List.getElem?_eq_none (hn.length.trans_le hge)
    rw [hnone]
    exact ⟨rfl, rfl⟩

theorem UpToDate.follows_same (hn : n.UpToDate trace) (hloops : n'.loops = n.loops)
    (h : ∀ l ∈ trace.readers n.loops, l.Fresh n.tables n.answers ∨ n.Told n.tasks l →
      l.Fresh n'.tables n'.answers ∨ n'.Told n'.tasks l) : n.Follows trace a n' := by
  refine hn.follows (f := id) [] (by simp [hloops]) fun i l b hl hb hloaded => ?_
  refine hloaded.imp rfl rfl fun hbegun => h l (Trace.mem_readers.mpr ⟨i, hl, ?_⟩)
  rw [hb, hbegun]

theorem UpToDate.follows_set (hn : n.UpToDate trace) (hl : n.loops[i]? = some l)
    (h : ∀ b, trace.begun[i]? = some b → n.Loaded l b → n.Loaded l' (l'.reads || b)) :
    n.Follows trace a { n with loops := n.loops.set i l' } := by
  intro j l₁ hl₁
  rw [Trace.remaining_eq (by simp)]
  rcases getElem?_set_cases hl₁ with ⟨rfl, rfl⟩ | hother
  · obtain ⟨b, hb, hloaded⟩ := hn.noted hl
    rw [hb]
    exact h b hb hloaded
  · obtain ⟨b, hb, hloaded⟩ := hn.noted hother
    rw [hb, Option.getD_some, hloaded.reads]
    exact hloaded

/-- A loop has ended. -/
theorem UpToDate.follows_erase {act : LoopAction} (hn : n.UpToDate trace) (hl : n.loops[i]? = some l) :
    n.Follows trace (.loop i act) { n with loops := n.loops.eraseIdx i } := by
  obtain ⟨hlt, -⟩ := List.getElem?_eq_some_iff.mp hl
  have hshorter : (n.loops.eraseIdx i).length < n.loops.length := by
    rw [List.length_eraseIdx_of_lt hlt]
    omega
  intro j l₁ hl₁
  have hremaining : trace.remaining n { n with loops := n.loops.eraseIdx i } (.loop i act) =
      trace.begun.eraseIdx i := if_pos hshorter
  rw [hremaining, List.getElem?_eraseIdx]
  dsimp only at hl₁
  rw [List.getElem?_eraseIdx] at hl₁
  split
  · next hbefore =>
      rw [if_pos hbefore] at hl₁
      obtain ⟨b, hb, hloaded⟩ := hn.noted hl₁
      rw [hb, Option.getD_some, hloaded.reads]
      exact hloaded
  · next hafter =>
      rw [if_neg hafter] at hl₁
      obtain ⟨b, hb, hloaded⟩ := hn.noted hl₁
      rw [hb, Option.getD_some, hloaded.reads]
      exact hloaded

theorem Loaded.turn {backlog : Nat} {act : LoopAction} (h : n.Loaded l b)
    (hturns : l.Turns backlog n.answers act (some l'))
    (hlag : b = true → act = .receive → n.KeptLag backlog l) : n.Loaded l' (l'.reads || b) := by
  cases b with
  | true =>
      rw [Bool.or_true]
      rcases h with hfresh | htold
      · exact .inl (Fresh.turn hfresh hturns)
      · exact htold.turn hturns (hlag rfl)
  | false =>
      obtain ⟨hselect, hdevices⟩ := h
      rw [Bool.or_false]
      generalize hresult : some l' = result at hturns
      cases hturns with
      | lag select | foreign select =>
          cases hresult
          have hidle : l.reads = false := by
            unfold NodeLoop.reads
            rw [hselect]
          show n.Loaded _ l.reads
          rw [hidle]
          exact ⟨hselect, hdevices⟩
      | update select received own =>
          cases hresult
          unfold NodeLoop.update
          split
          · exact .inl trivial
          · exact .inl rfl
      | elapsed select =>
          cases hresult
          unfold NodeLoop.tick
          rw [hdevices]
          exact .inl rfl
      | ticked state | connected state =>
          rw [hselect] at state
          cases state
      | hear awaits =>
          unfold NodeLoop.rx? at awaits
          rw [hselect] at awaits
          cases awaits
      | delete | panic => cases hresult

theorem Loaded.asks {query : Query} (h : n.Loaded l b) (hwired : n.Wired)
    (asks : l.ask? n.nextChannel = some (query, l')) : n.Loaded l' (l'.reads || b) := by
  cases b with
  | true =>
      rw [Bool.or_true]
      rcases h with hfresh | htold
      · exact .inl (Fresh.asks hfresh hwired asks)
      · right
        have hkeeps := NodeLoop.ask_keeps asks
        apply htold.congr hkeeps.1
        rw [hkeeps.2]
        exact id
  | false =>
      unfold NodeLoop.ask? at asks
      rw [h.1] at asks
      cases asks

/-! ## Steps and runs -/

theorem Step.follows (h : Step lib n a n') (hn : n.UpToDate trace)
    (hkept : n.Kept lib.backlog trace a) : n.Follows trace a n' := by
  cases h with
  | spawn command =>
      exact hn.follows_same rfl fun l _ h => h.imp_right fun htold => htold.spawn [command.task lib]
  | call fate task hc =>
      exact hn.follows_same rfl fun l hl h => hn.call task hc (hkept _ _ task) hl h
  | send fate task =>
      exact hn.follows_same rfl fun l _ h => h.imp_right fun htold => htold.send task
  | dropTask i =>
      refine hn.follows_same rfl fun l hl h => ?_
      rcases h with hfresh | htold
      · exact .inl hfresh
      · cases task : n.tasks[i]? with
        | none =>
            right
            rw [List.set_eq_of_length_le (List.getElem?_eq_none_iff.mp task)]
            exact htold
        | some p =>
            rcases htold.or_beside task with hconcerns | hbeside
            · rcases hkept p task l hl hconcerns with hlater | hfresh | hbeside
              · exact absurd hlater not_concerns_nil
              · exact .inl hfresh
              · exact .inr (hbeside.set task _)
            · exact .inr (hbeside.set task _)
  | answer fate request =>
      refine hn.follows_same rfl fun l hl h => ?_
      obtain ⟨i, hl, -⟩ := Trace.mem_readers.mp hl
      rcases h with hfresh | htold
      · exact Fresh.answered hfresh hn.wired (List.mem_of_getElem? hl)
          (mem_pending_of_request request) (hkept _ _ request) rfl
      · exact .inr htold
  | dropRequest request =>
      refine hn.follows_same rfl fun l hl h => ?_
      obtain ⟨i, hl, -⟩ := Trace.mem_readers.mp hl
      rcases h with hfresh | htold
      · exact Fresh.answered hfresh hn.wired (List.mem_of_getElem? hl)
          (mem_pending_of_request request) (hkept _ _ request) rfl
      · exact .inr htold
  | create select taken =>
      exact hn.follows_same rfl fun l _ h => h.imp_right fun htold => htold.create taken
  | @sendToWorkers msg events select taken passed =>
      refine hn.follows [] (List.append_nil _).symm fun i l b _ _ hloaded => ?_
      exact hloaded.imp rfl rfl fun _ h => h.imp_right fun htold => htold.sendToWorkers taken
  | @hearNodes rx nodes awaits answered =>
      exact hn.follows (f := id) nodes (by rw [List.map_id]) fun i l b _ _ hloaded => hloaded
  | @hearNode node row =>
      exact hn.follows (f := id) [row] (by rw [List.map_id]; rfl)
        fun i l b _ _ hloaded => hloaded
  | @turn i l l' act loop turns =>
      have hturns := NodeLoop.turns_of_turn turns
      cases l' with
      | none => exact hn.follows_erase loop
      | some l' =>
          refine hn.follows_set loop fun b hb hloaded => hloaded.turn hturns ?_
          rintro rfl rfl
          exact hkept l loop hb
  | @loopAsk i l l' query loop asks =>
      have hfollows : n.Follows trace (.loopSendsRequest i) { n with loops := n.loops.set i l' } :=
        hn.follows_set loop fun b _ hloaded => hloaded.asks hn.wired asks
      exact hfollows
  | _ => exact hn.follows_same rfl fun l _ h => h

theorem Step.upToDate (h : Step lib n a n') (hn : n.UpToDate trace)
    (hkept : n.Kept lib.backlog trace a) : n'.UpToDate (trace.next n n' a) where
  wired := h.wired hn.wired
  keyed := h.keyed hn.keyed
  tasks := h.tasks hn.tasks
  length := List.length_mapIdx
  loops i l b hl hb := by
    rw [Trace.begun_next hl hb]
    exact h.follows hn hkept i l hl

end Net

namespace Topology

variable {t : Tables J} {actions : List (Action J)}

theorem after_noteStep (actions : List (Action J)) :
    Execution.after (noteStep lib) (start t, ⟨[], []⟩) actions =
      (run lib t actions, trace lib t actions) :=
  Prod.ext (Execution.after_observed_fst _ _ _ _) rfl

theorem meets_noteStep {G : Topology J × Trace J → Action J → Prop} :
    Execution.Meets (noteStep lib) (start t, ⟨[], []⟩) G actions ↔
      ∀ pre a post, actions = pre ++ a :: post → G (run lib t pre, trace lib t pre) a := by
  unfold Execution.Meets
  simp only [after_noteStep]

/-- **Runs.** A run whose steps keep the loops up to date. -/
theorem run_upToDate (hkeyed : NodeKeyed t)
    (h : ∀ pre a post, actions = pre ++ a :: post →
      (run lib t pre).net.Kept lib.backlog (trace lib t pre) a) :
    (run lib t actions).net.UpToDate (trace lib t actions) := by
  have hmeets : Execution.Meets (noteStep lib) (start t, ⟨[], []⟩)
      (fun x a => x.1.net.Kept lib.backlog x.2 a) actions := meets_noteStep.mpr h
  have hstart : (start t).net.UpToDate ⟨[], []⟩ := by
    refine ⟨Net.run_wired lib t [], hkeyed, fun i p hp => ?_, rfl, fun i l b hl => ?_⟩
    · have hnone : ([] : List (Task J Unit))[i]? = some p := hp
      cases hnone
    · have hnone : ([] : List (NodeLoop J))[i]? = some l := hl
      cases hnone
  have hrun := hmeets.invariant (I := fun x => x.1.net.UpToDate x.2) hstart fun x a hx hkept => by
    have hstep := (step_net lib x.1 a).upToDate hx hkept
    exact hstep
  rwa [after_noteStep] at hrun

end Topology

/-! ## Runs without a failure can be checked -/

section Decidable

variable (n : Net J) (trace : Trace J)

instance (t t' : Tables J) (id : Int) : (s : Seen J) → Decidable (s.Holds t t' id)
  | ⟨.nodeById nodeId, none⟩ =>
    inferInstanceAs (Decidable (nodeId = id → t.nodes.contains id = false))
  | ⟨.deviceById deviceId, some old⟩ => inferInstanceAs <| Decidable <|
      t.nodeOfDevice? deviceId = some id →
        old.parentNodeId = id ∨ t'.isLive deviceId = true ∧ t'.nodeOfDevice? deviceId = some id
  | ⟨.valueById valueId, some old⟩ => inferInstanceAs <| Decidable <|
      t.nodeOfValue? valueId = some id → t.nodeOfDevice? old.parentDeviceId = some id
  | ⟨.valuesByDevice deviceId, values⟩ => inferInstanceAs <| Decidable <|
      ∀ value ∈ values, t.nodeOfValue? value.id = some id → t.nodeOfDevice? deviceId = some id
  | ⟨.nodeById _, some _⟩ | ⟨.deviceById _, none⟩ | ⟨.valueById _, none⟩ | ⟨.nodes, _⟩
  | ⟨.nodeByIp _, _⟩ | ⟨.nodeOfDevice _, _⟩ | ⟨.deviceIdById _, _⟩ | ⟨.devicesByNode _, _⟩
  | ⟨.deviceByAddress _ _, _⟩ | ⟨.valueTypeById _, _⟩ => isTrue trivial

instance (i : Nat) (c : Call J) (fate : Fate) : Decidable (n.Lands trace i c fate) := by
  unfold Net.Lands
  infer_instance

instance (i : Nat) (fate : Fate) : (c : Call J) → Decidable (n.UndisturbedCall trace i fate c)
  | .read r => inferInstanceAs <| Decidable <|
      fate.succeeds = true ∧ (r.exec n.tables).isSome = true
  | .write w => inferInstanceAs (Decidable (n.Lands trace i (.write w) fate))
  | .transaction ws => inferInstanceAs (Decidable (n.Lands trace i (.transaction ws) fate))
  | .send _ => isTrue trivial

instance (i : Nat) (fate : Fate) : Decidable
    (∀ c next, n.tasks[i]? = some (.call c next) → n.UndisturbedCall trace i fate c) :=
  match htask : n.tasks[i]? with
  | none => isTrue (by rintro c next ⟨⟩)
  | some (.done _) => isTrue (by rintro c next ⟨⟩)
  | some (.call c next) =>
    decidable_of_iff (n.UndisturbedCall trace i fate c) (by
      constructor
      · rintro h c' next' ⟨⟩
        exact h
      · exact fun h => h c next rfl)

instance {P : Query → Nat → Prop} [∀ query rx, Decidable (P query rx)] (i : Nat) :
    Decidable (∀ query rx, n.requests[i]? = some (query, rx) → P query rx) :=
  decidable_of_iff (∀ r, n.requests[i]? = some r → P r.1 r.2) Prod.forall

instance (backlog : Nat) : (a : Action J) → Decidable (n.Undisturbed backlog trace a)
  | .advance i fate => inferInstanceAs <| Decidable <|
      ∀ c next, n.tasks[i]? = some (.call c next) → n.UndisturbedCall trace i fate c
  | .dropTask i => inferInstanceAs <| Decidable <| ∀ p, n.tasks[i]? = some p → ended p = true
  | .answer i fate => inferInstanceAs <| Decidable <|
      ∀ query rx, n.requests[i]? = some (query, rx) → ∀ l ∈ n.loops, ∀ deviceId,
        l.waitsFor? rx = some deviceId →
          fate.succeeds = true ∧ ((Read.valuesByDevice deviceId).exec n.tables).isSome = true
  | .dropRequest i => inferInstanceAs <| Decidable <|
      ∀ query rx, n.requests[i]? = some (query, rx) → ∀ l ∈ n.loops, l.waitsFor? rx = none
  | .loop i act =>
    match act with
    | .receive => inferInstanceAs <| Decidable <|
        ∀ l, n.loops[i]? = some l → l.fromController.length ≤ backlog
    | .elapsed | .finish | .panic | .hear => isTrue trivial
  | .apiSends _ | .apiReceives | .dataMasterFromApi | .dataMasterFromReader | .dataMasterFromDb
  | .dataMasterSends | .dbMasterReceives | .dbMasterSends | .measuresReceive
  | .nodeMasterFromController | .nodeMasterFromNode | .nodeMasterWakes | .nodeMasterSends
  | .nodeMasterHears | .loopSendsEvent .. | .loopSendsRequest _ => isTrue trivial

end Decidable

/-! ## The result -/

namespace Topology

/-- A run from tables whose keys hold, in which every write that touches a node is confirmed to a task
that knows where the rows are and goes on to tell the node, leaves each loop that has begun to read with
what is in the database about its node, when everything has come to rest. -/
theorem hot_reload_converges (lib : Libraries J) (t : Tables J) (hkeyed : NodeKeyed t)
    (actions : List (Action J))
    (hkept : ∀ pre a post, actions = pre ++ a :: post →
      (run lib t pre).net.Kept lib.backlog (trace lib t pre) a)
    (hrest : (run lib t actions).Quiescent) (l : NodeLoop J)
    (hl : l ∈ (trace lib t actions).readers (run lib t actions).loops)
    (hstate : l.state = .select ∨ l.state = .tick) :
    config (run lib t actions).tables l.id = some l.devices := by
  have hupToDate := run_upToDate hkeyed hkept
  generalize run lib t actions = s at hrest hl hupToDate ⊢
  obtain ⟨i, hl, hbegun⟩ := Trace.mem_readers.mp hl
  have hloaded : l.Fresh s.tables s.answers ∨ s.net.Told s.tasks l := hupToDate.loops i l true hl hbegun
  rcases hloaded with hfresh | ⟨p, hp, hconcerns⟩ | ⟨event, hevent, -⟩ | hmsg
  · unfold NodeLoop.Fresh at hfresh
    rcases hstate with hstate | hstate
    · rw [hstate] at hfresh
      exact hfresh
    · rw [hstate] at hfresh
      exact hfresh
  · rw [hrest.announced hp] at hconcerns
    exact absurd hconcerns not_concerns_nil
  · rw [hrest.events] at hevent
    exact absurd hevent (Multiset.notMem_zero _)
  · rw [hrest.messages (List.mem_of_getElem? hl)] at hmsg
    exact absurd hmsg not_concerns_nil

/-! ## A device that is updated -/

/-- A request of the first loop on its way, up to the answer. -/
def asks : List (Action Unit) :=
  [.loopSendsRequest 0, .nodeMasterFromNode, .nodeMasterSends, .dataMasterFromReader,
    .dataMasterSends, .dbMasterReceives, .answer 0 .success, .loop 0 .hear]

/-- An Update comes to the first loop, which reads a device. -/
def reloads : List (Action Unit) :=
  [.dataMasterFromDb, .dataMasterSends, .nodeMasterFromController, .loop 0 .receive] ++ asks ++ asks

/-- The node 1 gets a device. -/
def deviceCreated : List (Action Unit) :=
  startUp ++ handed (.deviceCreate ⟨"meter", 7, 1, 1000, 500, 3, true, false, none⟩) ++ calls 0 5 ++
    reloads

def updatesTimeout : List (Action Unit) :=
  handed (.deviceUpdate ⟨1, none, none, none, none, some 900, none, none, none, none⟩)

def deviceUpdated : List (Action Unit) := deviceCreated ++ updatesTimeout ++ calls 1 5 ++ reloads

/-- The task is dropped after its write. -/
def updateDropped : List (Action Unit) :=
  deviceCreated ++ updatesTimeout ++ calls 1 2 ++ [.dropTask 1]

theorem hot_reload_converges_updated : ∃ l ∈ (run noSettings oneNode deviceUpdated).loops,
    l.devices ≠ [] ∧
      config (run noSettings oneNode deviceUpdated).tables l.id = some l.devices := by
  have hnode : (Write.insertNode "10.0.0.5" 502 "").exec Tables.empty = some oneNode := rfl
  have hkeyed := Write.exec_keyed keyed_empty hnode
  have hundisturbed : Execution.Meets (noteStep noSettings) (start oneNode, ⟨[], []⟩)
      (fun x a => x.1.net.Undisturbed noSettings.backlog x.2 a) deviceUpdated := by
    decide +kernel
  have hrest : (run noSettings oneNode deviceUpdated).Quiescent := by decide +kernel
  have hloop : ∃ l ∈ (trace noSettings oneNode deviceUpdated).readers
      (run noSettings oneNode deviceUpdated).loops, l.devices ≠ [] ∧ l.state = .select := by
    decide +kernel
  obtain ⟨l, hl, hdevices, hstate⟩ := hloop
  have hkept pre a post (hactions : deviceUpdated = pre ++ a :: post) :=
    (meets_noteStep.mp hundisturbed pre a post hactions).kept
  have hconfig := hot_reload_converges noSettings oneNode hkeyed deviceUpdated hkept hrest l hl
    (.inl hstate)
  obtain ⟨i, hl, -⟩ := Trace.mem_readers.mp hl
  exact ⟨l, List.mem_of_getElem? hl, hdevices, hconfig⟩

theorem updateDropped_stale : (run noSettings oneNode updateDropped).Quiescent ∧
    ∃ l ∈ (run noSettings oneNode updateDropped).loops, l.state = .select ∧ l.devices ≠ [] ∧
      config (run noSettings oneNode updateDropped).tables l.id ≠ some l.devices := by
  decide +kernel

end Topology

end ModbusLogger.Main
