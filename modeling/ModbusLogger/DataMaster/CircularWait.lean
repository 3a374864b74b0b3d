import ModbusLogger.Db.Worker.DeviceTable
import ModbusLogger.Main.Oneshots

/-!
# The controller and the reader wait for each other (`data_master/data_master_loop.rs`)

The controller stops receiving while it sends to the reader, and the reader stops receiving while it
sends to the controller or awaits an answer. The result is which steps close the circle. A circle that
is closed stays closed.
-/

namespace ModbusLogger.Main

open Db

variable {J : Type}

/-- Whether `node_master` is in a send to the controller. -/
def NodeMaster.sends : NodeMaster J → Bool
  | .sendGetAll | .sendGetByIp _ _ | .forward _ => true
  | _ => false

/-- The oneshot that `node_master` awaits. -/
def NodeMaster.rx? : NodeMaster J → Option Nat
  | .awaitNodes rx | .awaitNode _ _ rx => some rx
  | _ => none

/-- The event that the controller sends to the reader. -/
def DataMaster.toReader? : DataMaster J → Option ConfigEvent
  | .sendToReader event => some event
  | _ => none

/-- The oneshot of a request of the reader. -/
def MainMsg.rx? (msg : MainMsg J) : Option Nat := msg.reader?.map Prod.snd

namespace Topology

/-- The controller has an event for a reader that does not take any more. -/
def DataMasterWaits (s : Topology J) : Prop :=
  s.dataMaster.toReader?.isSome = true ∧ capacity ≤ s.toReader.length

/-- The request of the oneshot `rx` has not been taken from the channel. -/
def Unread (s : Topology J) (rx : Nat) : Prop :=
  ∃ msg ∈ s.fromReader, msg.rx? = some rx

/-- `node_master` waits for a slot that only the controller makes free, or for the answer to a request
that only the controller takes. -/
def NodeMasterWaits (s : Topology J) : Prop :=
  (s.nodeMaster.sends = true ∧ capacity ≤ s.fromReader.length) ∨
    ∃ rx ∈ s.nodeMaster.rx?, s.Unread rx

def CircularWait (s : Topology J) : Prop := s.DataMasterWaits ∧ s.NodeMasterWaits

instance (s : Topology J) : Decidable s.CircularWait :=
  inferInstanceAs (Decidable ((_ ∧ _) ∧ ((_ ∧ _) ∨ ∃ rx ∈ s.nodeMaster.rx?, ∃ msg ∈ s.fromReader, _)))

/-- The steps that close the circle. -/
inductive Closes (s : Topology J) : Action J → Prop where
  /-- The controller takes an event that does not fit, and `node_master` waits already. -/
  | takesEvent {event : ConfigEvent} {rest : List ConfigEvent} (select : s.dataMaster = .select)
      (takes : s.fromDb = event :: rest) (full : capacity ≤ s.toReader.length)
      (waits : s.NodeMasterWaits) : Closes s .dataMasterFromDb
  /-- `node_master` awaits the answer to a request, and the controller waits already. -/
  | asks (waits : s.DataMasterWaits)
      (request : s.nodeMaster = .sendGetAll ∨ ∃ node n, s.nodeMaster = .sendGetByIp node n)
      (room : s.fromReader.length < capacity) : Closes s .nodeMasterSends
  /-- It wakes up in front of a full channel. -/
  | wakes {node : NodeRead} {tryCounter : Nat} (waits : s.DataMasterWaits)
      (sleeps : s.nodeMaster = .sleep node tryCounter) (full : capacity ≤ s.fromReader.length) :
      Closes s .nodeMasterWakes
  /-- It takes a message of a loop for a full channel. -/
  | forwards {msg : MainMsg J} {rest : List (MainMsg J)} (waits : s.DataMasterWaits)
      (select : s.nodeMaster = .select) (takes : s.fromNode = msg :: rest)
      (passes : ∀ cmd, msg ≠ .command cmd) (full : capacity ≤ s.fromReader.length) :
      Closes s .nodeMasterFromNode

variable {s s' : Topology J}

/-! ## Steps of others -/

/-- Nothing that the two wait for has changed. -/
structure SameWaits (s' s : Topology J) : Prop where
  dataMaster : s'.dataMaster = s.dataMaster
  toReader : s'.toReader = s.toReader
  nodeMaster : s'.nodeMaster = s.nodeMaster
  fromReader : s'.fromReader = s.fromReader

theorem SameWaits.refl (s : Topology J) : SameWaits s s := ⟨rfl, rfl, rfl, rfl⟩

theorem SameWaits.circularWait (h : SameWaits s' s) : s'.CircularWait ↔ s.CircularWait := by
  unfold CircularWait DataMasterWaits NodeMasterWaits Unread
  rw [h.dataMaster, h.toReader, h.nodeMaster, h.fromReader]

theorem SameWaits.keeps {a : Action J} (h : SameWaits s' s) (hs : ¬s.CircularWait)
    (ha : ¬s.Closes a) : s'.CircularWait ↔ s.Closes a :=
  iff_of_false (fun h' => hs (h.circularWait.mp h')) ha

theorem apiSends_sameWaits (lib : Libraries J) (msg : ApiMsg J) :
    SameWaits (step lib s (.apiSends msg)) s := by
  dsimp only [step]
  split <;> exact ⟨rfl, rfl, rfl, rfl⟩

theorem dbMasterReceives_sameWaits (lib : Libraries J) : SameWaits (s.dbMasterReceives lib) s := by
  unfold dbMasterReceives
  split
  · split <;> exact ⟨rfl, rfl, rfl, rfl⟩
  · exact .refl s

theorem dbMasterSends_sameWaits : SameWaits s.dbMasterSends s := by
  unfold dbMasterSends
  split
  · exact .refl s
  · split <;> exact ⟨rfl, rfl, rfl, rfl⟩

theorem advance_sameWaits (i : Nat) (fate : Fate) : SameWaits (s.advance i fate) s := by
  unfold advance
  split
  · split <;> exact ⟨rfl, rfl, rfl, rfl⟩
  · exact ⟨rfl, rfl, rfl, rfl⟩
  · exact .refl s

theorem answer_sameWaits (i : Nat) (fate : Fate) : SameWaits (s.answer i fate) s := by
  unfold answer
  split <;> exact ⟨rfl, rfl, rfl, rfl⟩

theorem dropRequest_sameWaits (i : Nat) : SameWaits (s.dropRequest i) s := by
  unfold dropRequest
  split <;> exact ⟨rfl, rfl, rfl, rfl⟩

theorem loopTurns_sameWaits (lib : Libraries J) (i : Nat) (act : LoopAction) :
    SameWaits (s.loopTurns lib i act) s := by
  unfold loopTurns
  split
  · next l _ => cases l <;> exact ⟨rfl, rfl, rfl, rfl⟩
  · exact .refl s

theorem loopSendsEvent_sameWaits (i : Nat) (event : Reader.Event) :
    SameWaits (s.loopSendsEvent i event) s := by
  unfold loopSendsEvent
  split <;> exact ⟨rfl, rfl, rfl, rfl⟩

theorem loopSendsRequest_sameWaits (i : Nat) : SameWaits (s.loopSendsRequest i) s := by
  unfold loopSendsRequest
  split
  · split <;> exact ⟨rfl, rfl, rfl, rfl⟩
  · exact .refl s

/-! ## Steps of the controller -/

theorem not_circularWait_of_select (h : s.dataMaster = .select) : ¬s.CircularWait := by
  rintro ⟨⟨hevent, -⟩, -⟩
  rw [h] at hevent
  cases hevent

theorem dataMasterFromApi_circularWait : s.dataMasterFromApi.CircularWait → s.CircularWait := by
  unfold dataMasterFromApi
  split
  · next hselect _ =>
      split
      · rintro ⟨⟨hevent, -⟩, -⟩
        cases hevent
      · rintro ⟨⟨hevent, -⟩, -⟩
        cases hevent
      · exact fun h => absurd h (not_circularWait_of_select hselect)
  · exact id

theorem dataMasterFromReader_circularWait : s.dataMasterFromReader.CircularWait → s.CircularWait := by
  unfold dataMasterFromReader
  split
  · next hselect _ =>
      split
      · rintro ⟨⟨hevent, -⟩, -⟩
        cases hevent
      · rintro ⟨⟨hevent, -⟩, -⟩
        cases hevent
      · exact fun h => absurd h (not_circularWait_of_select hselect)
  · exact id

theorem dataMasterFromDb_circularWait (hs : ¬s.CircularWait) :
    s.dataMasterFromDb.CircularWait ↔ s.Closes .dataMasterFromDb := by
  unfold dataMasterFromDb
  split
  · next event rest hselect htakes =>
      constructor
      · rintro ⟨⟨-, hfull⟩, hwaits⟩
        exact .takesEvent hselect htakes hfull hwaits
      · rintro (⟨-, -, hfull, hwaits⟩)
        exact ⟨⟨rfl, hfull⟩, hwaits⟩
  · next hother =>
      apply iff_of_false hs
      rintro (⟨hselect, htakes, -, -⟩)
      exact hother _ _ hselect htakes

theorem dataMasterSends_circularWait : s.dataMasterSends.CircularWait → s.CircularWait := by
  unfold dataMasterSends
  split
  · exact id
  all_goals
    split
    · rintro ⟨⟨hevent, -⟩, -⟩
      cases hevent
    · exact id

/-! ## Steps of the reader -/

theorem nodeMasterFromController_circularWait :
    s.nodeMasterFromController.CircularWait → s.CircularWait := by
  unfold nodeMasterFromController
  split
  · next msg rest hselect _ =>
      split
      · rintro ⟨-, ⟨hsends, -⟩ | ⟨rx, hrx, -⟩⟩
        · cases hsends
        · cases hrx
      all_goals
        rintro ⟨-, ⟨hsends, -⟩ | ⟨rx, hrx, -⟩⟩
        · change s.nodeMaster.sends = true at hsends
          rw [hselect] at hsends
          cases hsends
        · change rx ∈ s.nodeMaster.rx? at hrx
          rw [hselect] at hrx
          cases hrx
  · exact id

theorem nodeMasterFromNode_circularWait (hs : ¬s.CircularWait) :
    s.nodeMasterFromNode.CircularWait ↔ s.Closes .nodeMasterFromNode := by
  unfold nodeMasterFromNode
  split
  · next msg rest hselect htakes =>
      split
      · constructor
        · rintro ⟨hwaits, ⟨-, hfull⟩ | ⟨rx, hrx, -⟩⟩
          · exact .forwards hwaits hselect htakes (by simp) hfull
          · cases hrx
        · rintro (⟨⟩ | ⟨⟩ | ⟨⟩ | ⟨hwaits, -, -, -, hfull⟩)
          exact ⟨hwaits, .inl ⟨rfl, hfull⟩⟩
      · constructor
        · rintro ⟨hwaits, ⟨-, hfull⟩ | ⟨rx, hrx, -⟩⟩
          · exact .forwards hwaits hselect htakes (by simp) hfull
          · cases hrx
        · rintro (⟨⟩ | ⟨⟩ | ⟨⟩ | ⟨hwaits, -, -, -, hfull⟩)
          exact ⟨hwaits, .inl ⟨rfl, hfull⟩⟩
      · next cmd =>
          apply iff_of_false
          · exact fun h => hs (SameWaits.circularWait ⟨rfl, rfl, rfl, rfl⟩ |>.mp h)
          · rintro (⟨⟩ | ⟨⟩ | ⟨⟩ | ⟨-, -, htakes', hpasses, -⟩)
            rw [htakes] at htakes'
            cases htakes'
            exact hpasses cmd rfl
  · next hother =>
      apply iff_of_false hs
      rintro (⟨⟩ | ⟨⟩ | ⟨⟩ | ⟨-, hselect, htakes, -, -⟩)
      exact hother _ _ hselect htakes

theorem nodeMasterWakes_circularWait (hs : ¬s.CircularWait) :
    s.nodeMasterWakes.CircularWait ↔ s.Closes .nodeMasterWakes := by
  unfold nodeMasterWakes
  split
  · next node tryCounter hsleeps =>
      constructor
      · rintro ⟨hwaits, ⟨-, hfull⟩ | ⟨rx, hrx, -⟩⟩
        · exact .wakes hwaits hsleeps hfull
        · cases hrx
      · rintro (⟨⟩ | ⟨⟩ | ⟨hwaits, -, hfull⟩)
        exact ⟨hwaits, .inl ⟨rfl, hfull⟩⟩
  · next hother =>
      apply iff_of_false hs
      rintro (⟨⟩ | ⟨⟩ | ⟨-, hsleeps, -⟩)
      exact hother _ _ hsleeps

/-- A request that has just been sent is still in the channel. -/
theorem unread_request {query : Query} (h : s'.fromReader = s.fromReader ++ [s.request query]) :
    s'.Unread s.nextChannel := by
  refine ⟨s.request query, ?_, rfl⟩
  rw [h]
  exact List.mem_concat_self

theorem nodeMasterSends_circularWait (hs : ¬s.CircularWait) :
    s.nodeMasterSends.CircularWait ↔ s.Closes .nodeMasterSends := by
  unfold nodeMasterSends
  split
  · next hroom =>
      split
      · next hget =>
          constructor
          · exact fun h => .asks h.1 (.inl hget) hroom
          · rintro (⟨⟩ | ⟨hwaits, -, -⟩)
            exact ⟨hwaits, .inr ⟨_, rfl, unread_request rfl⟩⟩
      · next node tryCounter hget =>
          constructor
          · exact fun h => .asks h.1 (.inr ⟨node, tryCounter, hget⟩) hroom
          · rintro (⟨⟩ | ⟨hwaits, -, -⟩)
            exact ⟨hwaits, .inr ⟨_, rfl, unread_request rfl⟩⟩
      · next msg hforward =>
          apply iff_of_false
          · rintro ⟨-, ⟨hsends, -⟩ | ⟨rx, hrx, -⟩⟩
            · cases hsends
            · cases hrx
          · rintro (⟨⟩ | ⟨-, hget | ⟨_, _, hget⟩, -⟩)
            · rw [hforward] at hget
              cases hget
            · rw [hforward] at hget
              cases hget
      · next hall hip _ =>
          apply iff_of_false hs
          rintro (⟨⟩ | ⟨-, hget | ⟨node, tryCounter, hget⟩, -⟩)
          · exact hall hget
          · exact hip node tryCounter hget
  · next hfull =>
      apply iff_of_false hs
      rintro (⟨⟩ | ⟨-, -, hroom⟩)
      exact hfull hroom

theorem nodeMasterHears_circularWait : s.nodeMasterHears.CircularWait → s.CircularWait := by
  unfold nodeMasterHears
  split
  · split
    · rintro ⟨-, ⟨hsends, -⟩ | ⟨rx, hrx, -⟩⟩
      · cases hsends
      · cases hrx
    · rintro ⟨-, ⟨hsends, -⟩ | ⟨rx, hrx, -⟩⟩
      · cases hsends
      · cases hrx
    · exact id
  · next node tryCounter rx _ =>
      split
      · rintro ⟨-, ⟨hsends, -⟩ | ⟨rx, hrx, -⟩⟩
        · cases hsends
        · cases hrx
      · have hretry : (retry node tryCounter : NodeMaster J).sends = false ∧
            (retry node tryCounter : NodeMaster J).rx? = none := by
          unfold retry
          split <;> exact ⟨rfl, rfl⟩
        rintro ⟨-, ⟨hsends, -⟩ | ⟨rx, hrx, -⟩⟩
        · exact absurd hsends (by simp [hretry.1])
        · exact absurd hrx (by simp [hretry.2])
      · exact id
  · exact id

/-! ## Runs -/

/-- A step closes an open circle exactly if it is one of those that `Closes` names. -/
theorem step_circularWait (lib : Libraries J) (a : Action J) (hs : ¬s.CircularWait) :
    (step lib s a).CircularWait ↔ s.Closes a := by
  cases a with
  | dataMasterFromApi =>
      exact iff_of_false (fun h => hs (dataMasterFromApi_circularWait h)) (by rintro ⟨⟩)
  | dataMasterFromReader =>
      exact iff_of_false (fun h => hs (dataMasterFromReader_circularWait h)) (by rintro ⟨⟩)
  | dataMasterFromDb => exact dataMasterFromDb_circularWait hs
  | dataMasterSends =>
      exact iff_of_false (fun h => hs (dataMasterSends_circularWait h)) (by rintro ⟨⟩)
  | nodeMasterFromController =>
      exact iff_of_false (fun h => hs (nodeMasterFromController_circularWait h)) (by rintro ⟨⟩)
  | nodeMasterFromNode => exact nodeMasterFromNode_circularWait hs
  | nodeMasterWakes => exact nodeMasterWakes_circularWait hs
  | nodeMasterSends => exact nodeMasterSends_circularWait hs
  | nodeMasterHears =>
      exact iff_of_false (fun h => hs (nodeMasterHears_circularWait h)) (by rintro ⟨⟩)
  | apiSends msg => exact (apiSends_sameWaits lib msg).keeps hs nofun
  | apiReceives => exact SameWaits.keeps ⟨rfl, rfl, rfl, rfl⟩ hs nofun
  | dbMasterReceives => exact (dbMasterReceives_sameWaits lib).keeps hs nofun
  | dbMasterSends => exact dbMasterSends_sameWaits.keeps hs nofun
  | measuresReceive => exact SameWaits.keeps ⟨rfl, rfl, rfl, rfl⟩ hs nofun
  | advance i fate => exact (advance_sameWaits i fate).keeps hs nofun
  | dropTask i => exact SameWaits.keeps ⟨rfl, rfl, rfl, rfl⟩ hs nofun
  | answer i fate => exact (answer_sameWaits i fate).keeps hs nofun
  | dropRequest i => exact (dropRequest_sameWaits i).keeps hs nofun
  | loop i act => exact (loopTurns_sameWaits lib i act).keeps hs nofun
  | loopSendsEvent i event => exact (loopSendsEvent_sameWaits i event).keeps hs nofun
  | loopSendsRequest i => exact (loopSendsRequest_sameWaits i).keeps hs nofun

theorem no_circularWait_iff (lib : Libraries J) (t : Tables J) (actions : List (Action J)) :
    (∀ pre post, actions = pre ++ post → ¬(run lib t pre).CircularWait) ↔
      ∀ pre a post, actions = pre ++ a :: post → ¬(run lib t pre).Closes a := by
  show Execution.Always (step lib) (start t) (fun s => ¬s.CircularWait) actions ↔
    Execution.Meets (step lib) (start t) (fun s a => ¬s.Closes a) actions
  apply Execution.always_iff_meets
  · exact not_circularWait_of_select rfl
  · exact fun s a hs => not_congr (step_circularWait lib a hs)

/-! ## The circle stays closed -/

theorem DataMasterWaits.event (h : s.DataMasterWaits) :
    ∃ event, s.dataMaster = .sendToReader event := by
  have hevent := h.1
  unfold DataMaster.toReader? at hevent
  split at hevent
  · next event hstate => exact ⟨event, hstate⟩
  · cases hevent

/-- What has not been read is not answered. -/
theorem Unread.lookup_eq_none {rx : Nat} (h : s.Unread rx) (hs : s.net.Wired) :
    s.answers.lookup rx = none := by
  obtain ⟨msg, hmsg, hrx⟩ := h
  obtain ⟨⟨query, rx'⟩, hreader, rfl⟩ := Option.map_eq_some_iff.mp hrx
  have hsent : (query, rx') ∈ requestsIn s.fromReader := List.mem_filterMap.mpr ⟨msg, hmsg, hreader⟩
  have hpending : (query, rx') ∈ s.net.pending := by
    simp only [Net.pending, net, Multiset.mem_add]
    exact .inl (.inl (.inl (.inr hsent)))
  exact hs.lookup_eq_none hpending

theorem NodeMasterWaits.not_select (h : s.NodeMasterWaits) : s.nodeMaster ≠ .select := by
  intro hselect
  rcases h with ⟨hsends, -⟩ | ⟨rx, hrx, -⟩
  · rw [hselect] at hsends
    cases hsends
  · rw [hselect] at hrx
    cases hrx

theorem NodeMasterWaits.not_sleep (h : s.NodeMasterWaits) (node : NodeRead) (tryCounter : Nat) :
    s.nodeMaster ≠ .sleep node tryCounter := by
  intro hsleeps
  rcases h with ⟨hsends, -⟩ | ⟨rx, hrx, -⟩
  · rw [hsleeps] at hsends
    cases hsends
  · rw [hsleeps] at hrx
    cases hrx

theorem NodeMasterWaits.sends_nothing (h : s.NodeMasterWaits) : s.nodeMasterSends = s := by
  unfold nodeMasterSends
  split
  · next hroom =>
      rcases h with ⟨-, hfull⟩ | ⟨rx, hrx, -⟩
      · exact absurd hroom (not_lt.mpr hfull)
      · split
        · next hasks =>
            rw [hasks] at hrx
            cases hrx
        · next hasks =>
            rw [hasks] at hrx
            cases hrx
        · next hforward =>
            rw [hforward] at hrx
            cases hrx
        · rfl
  · rfl

theorem NodeMasterWaits.hears_nothing (h : s.NodeMasterWaits) (hs : s.net.Wired) :
    s.nodeMasterHears = s := by
  unfold nodeMasterHears
  rcases h with ⟨hsends, -⟩ | ⟨rx, hrx, hunread⟩
  · split
    · next hawaits =>
        rw [hawaits] at hsends
        cases hsends
    · next hawaits =>
        rw [hawaits] at hsends
        cases hsends
    · rfl
  · have hlookup := hunread.lookup_eq_none hs
    split
    · next hawaits =>
        rw [hawaits] at hrx
        cases hrx
        rw [hlookup]
    · next hawaits =>
        rw [hawaits] at hrx
        cases hrx
        rw [hlookup]
    · rfl

/-- Nothing that either of the two waits for can happen. -/
theorem CircularWait.step (h : s.CircularWait) (hs : s.net.Wired) (lib : Libraries J)
    (a : Action J) : (step lib s a).CircularWait := by
  obtain ⟨event, hevent⟩ := h.1.event
  have hfull : ¬s.toReader.length < capacity := not_lt.mpr h.1.2
  cases a with
  | dataMasterFromApi => simpa [Topology.step, dataMasterFromApi, hevent] using h
  | dataMasterFromReader => simpa [Topology.step, dataMasterFromReader, hevent] using h
  | dataMasterFromDb => simpa [Topology.step, dataMasterFromDb, hevent] using h
  | dataMasterSends => simpa [Topology.step, dataMasterSends, hevent, hfull] using h
  | nodeMasterFromController =>
      show s.nodeMasterFromController.CircularWait
      unfold nodeMasterFromController
      split
      · next hselect _ => exact absurd hselect h.2.not_select
      · exact h
  | nodeMasterFromNode =>
      show s.nodeMasterFromNode.CircularWait
      unfold nodeMasterFromNode
      split
      · next hselect _ => exact absurd hselect h.2.not_select
      · exact h
  | nodeMasterWakes =>
      show s.nodeMasterWakes.CircularWait
      unfold nodeMasterWakes
      split
      · next hsleeps => exact absurd hsleeps (h.2.not_sleep _ _)
      · exact h
  | nodeMasterSends =>
      show s.nodeMasterSends.CircularWait
      rw [h.2.sends_nothing]
      exact h
  | nodeMasterHears =>
      show s.nodeMasterHears.CircularWait
      rw [h.2.hears_nothing hs]
      exact h
  | apiSends msg => exact (apiSends_sameWaits lib msg).circularWait.mpr h
  | apiReceives => exact h
  | dbMasterReceives => exact (dbMasterReceives_sameWaits lib).circularWait.mpr h
  | dbMasterSends => exact dbMasterSends_sameWaits.circularWait.mpr h
  | measuresReceive => exact h
  | advance i fate => exact (advance_sameWaits i fate).circularWait.mpr h
  | dropTask i => exact h
  | answer i fate => exact (answer_sameWaits i fate).circularWait.mpr h
  | dropRequest i => exact (dropRequest_sameWaits i).circularWait.mpr h
  | loop i act => exact (loopTurns_sameWaits lib i act).circularWait.mpr h
  | loopSendsEvent i event => exact (loopSendsEvent_sameWaits i event).circularWait.mpr h
  | loopSendsRequest i => exact (loopSendsRequest_sameWaits i).circularWait.mpr h

theorem circularWait_stays (lib : Libraries J) (t : Tables J) (pre post : List (Action J))
    (h : (run lib t pre).CircularWait) : (run lib t (pre ++ post)).CircularWait := by
  induction post using List.reverseRecOn with
  | nil => rwa [List.append_nil]
  | append_singleton post a ih =>
      rw [← List.append_assoc, run, Execution.after_concat]
      exact ih.step (Net.run_wired lib t (pre ++ post)) lib a

/-! ## A burst of updates while a node is created -/

/-- A node is created, and `create_new_node` sleeps before it asks for it. -/
def createdNode : List (Action Unit) :=
  handed (.nodeCreate ⟨"10.0.0.6", none, none⟩) ++ calls 0 4 ++
    [.dataMasterFromDb, .dataMasterSends, .nodeMasterFromController]

/-- The task `i` updates the node 1, and the controller takes the event. -/
def updatedNode (i : Nat) : List (Action Unit) :=
  handed (.nodeUpdate ⟨1, none, none, none⟩) ++ calls i 4 ++ [.dataMasterFromDb, .dataMasterSends]

/-- One event more than the channel holds, before `create_new_node` asks. -/
def burst : List (Action Unit) :=
  startUp ++ createdNode ++ (List.range' 1 101).flatMap updatedNode ++
    [.nodeMasterWakes, .nodeMasterSends]

/-- The request of `create_new_node` will not be taken. -/
theorem circularWait_burst : (run noSettings oneNode burst).CircularWait := by
  decide +kernel

end Topology

end ModbusLogger.Main
