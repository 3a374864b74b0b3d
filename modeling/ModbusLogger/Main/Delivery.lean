import ModbusLogger.Lib.Conveyor
import ModbusLogger.Main.Moves

/-!
# From end to end (`main.rs`, `data_master/data_master_loop.rs`)

A message passes through several actors and channels. The events of the loops go through
`node_master` to the controller, from there to the database and then to the API, and the events of
devices once more from the database worker to the measures. Commands go from the API to the database,
and config events from the tasks of the database to `node_master`. Each of these ways is a conveyor:
no actor drops, doubles or overtakes anything, whatever the order of steps.
-/

namespace ModbusLogger.Main

open Db Execution

variable {J : Type}

/-! ## The ways -/

/-- The event that a message carries. -/
def MainMsg.event? : MainMsg J → Option Reader.Event
  | .event e => some e
  | .request _ | .command _ => none

def MainMsg.command? : MainMsg J → Option (CommandType J)
  | .command cmd => some cmd
  | .event _ | .request _ => none

section Contents

variable (event : Reader.Event) (request : Request) (cmd : CommandType J)

@[simp] theorem event?_event : (.event event : MainMsg J).event? = some event := rfl

@[simp] theorem event?_request : (.request request : MainMsg J).event? = none := rfl

@[simp] theorem event?_command : (.command cmd : MainMsg J).event? = none := rfl

@[simp] theorem command?_event : (.event event : MainMsg J).command? = none := rfl

@[simp] theorem command?_request : (.request request : MainMsg J).command? = none := rfl

@[simp] theorem command?_command : (.command cmd : MainMsg J).command? = some cmd := rfl

end Contents

/-- The event of a device. -/
def device? : Reader.Event → Option Reader.DeviceEvent
  | .deviceEvent event => some event
  | .nodeEvent _ => none

/-- The event that goes to the database first. -/
def DataMaster.forDb : DataMaster J → List Reader.Event
  | .sendEventToDb event => [event]
  | _ => []

def DataMaster.forApi : DataMaster J → List Reader.Event
  | .sendApi event => [event]
  | _ => []

def DataMaster.forReader : DataMaster J → List ConfigEvent
  | .sendToReader event => [event]
  | _ => []

section Lengths

variable (dataMaster : DataMaster J) (dbMaster : DbMaster J) (nodeMaster : NodeMaster J)

theorem DataMaster.length_forDb : dataMaster.forDb.length ≤ 1 := by
  cases dataMaster <;> simp [forDb]

theorem DataMaster.length_forApi : dataMaster.forApi.length ≤ 1 := by
  cases dataMaster <;> simp [forApi]

theorem DataMaster.length_forReader : dataMaster.forReader.length ≤ 1 := by
  cases dataMaster <;> simp [forReader]

theorem DataMaster.length_msgs : dataMaster.msgs.length ≤ 1 := by
  cases dataMaster <;> simp [msgs]

theorem DbMaster.length_msgs : dbMaster.msgs.length ≤ 1 := by
  cases dbMaster <;> simp [msgs]

theorem NodeMaster.length_msgs : nodeMaster.msgs.length ≤ 1 := by
  cases nodeMaster <;> simp [msgs]

end Lengths

namespace Topology

/-- No channel is overfull, and the controller sends events on their own way only. -/
structure Proper (s : Topology J) : Prop where
  sends : ∀ event, s.dataMaster ≠ .sendToDb (.event event)
  toApi : s.toApi.length ≤ capacity
  fromApi : s.fromApi.length ≤ capacity
  fromReader : s.fromReader.length ≤ capacity
  toReader : s.toReader.length ≤ capacity
  toDb : s.toDb.length ≤ capacity
  fromDb : s.fromDb.length ≤ capacity
  measures : s.measures.length ≤ capacity
  fromNode : s.fromNode.length ≤ capacity

theorem proper_start (t : Tables J) : (start t).Proper := by
  constructor <;> simp [start]

theorem length_concat_le {M : Type} {l : List M} {x : M} (h : l.length < capacity) :
    (l ++ [x]).length ≤ capacity := by
  rw [List.length_append]
  exact h

theorem length_rest_le {M : Type} {l rest : List M} {x : M} (h : l.length ≤ capacity)
    (htaken : l = x :: rest) : rest.length ≤ capacity := by
  rw [htaken] at h
  exact Nat.le_of_succ_le h

theorem length_tail_le {M : Type} {l : List M} (h : l.length ≤ capacity) :
    l.tail.length ≤ capacity := by
  rw [List.length_tail]
  omega

variable {s s' : Topology J} {lib : Libraries J} {a : Action J}

theorem Proper.moves (h : s.Proper) (hmoves : Moves lib s a s') : s'.Proper := by
  have hsends : ∀ {dataMaster : DataMaster J}, (∀ msg, dataMaster ≠ .sendToDb msg) →
      ∀ event, dataMaster ≠ .sendToDb (.event event) := fun hne event => hne _
  cases hmoves with
  | waits => exact h
  | calls => exact { h with }
  | drops => exact { h with }
  | aside => exact { h with }
  | turns => exact { h with }
  | apiSends msg room => exact { h with fromApi := length_concat_le room }
  | apiReceives => exact { h with toApi := length_tail_le h.toApi }
  | takesFromApi select taken passed =>
      refine { h with fromApi := length_rest_le h.fromApi taken, sends := ?_ }
      intro event heq
      exact passed event (DataMaster.sendToDb.inj heq)
  | dropsFromApi taken => exact { h with fromApi := length_rest_le h.fromApi taken }
  | takesRequest select taken =>
      exact { h with fromReader := length_rest_le h.fromReader taken, sends := by simp }
  | takesEvent select taken =>
      exact { h with fromReader := length_rest_le h.fromReader taken, sends := by simp }
  | dropsFromReader taken => exact { h with fromReader := length_rest_le h.fromReader taken }
  | takesFromDb select taken =>
      exact { h with fromDb := length_rest_le h.fromDb taken, sends := by simp }
  | sendsToDb sends room => exact { h with toDb := length_concat_le room, sends := by simp }
  | sendsEventToDb sends room => exact { h with toDb := length_concat_le room, sends := by simp }
  | sendsApi sends room => exact { h with toApi := length_concat_le room, sends := by simp }
  | sendsToReader sends room =>
      exact { h with toReader := length_concat_le room, sends := by simp }
  | starts receive taken => exact { h with toDb := length_rest_le h.toDb taken }
  | queries receive taken => exact { h with toDb := length_rest_le h.toDb taken }
  | ends receive taken stays => exact { h with toDb := length_rest_le h.toDb taken }
  | passes receive taken measures => exact { h with toDb := length_rest_le h.toDb taken }
  | sendsMeasure sends room => exact { h with measures := length_concat_le room }
  | measuresReceive => exact { h with measures := length_tail_le h.measures }
  | notifies fate task room => exact { h with fromDb := length_concat_le room }
  | creates select taken => exact { h with toReader := length_rest_le h.toReader taken }
  | broadcasts select taken passed => exact { h with toReader := length_rest_le h.toReader taken }
  | takesFromNode select taken => exact { h with fromNode := length_rest_le h.fromNode taken }
  | dropsFromNode taken => exact { h with fromNode := length_rest_le h.fromNode taken }
  | forwards forward room => exact { h with fromReader := length_concat_le room }
  | asks before behind room => exact { h with fromReader := length_concat_le room }
  | loopSends sends room => exact { h with fromNode := length_concat_le room }
  | loopAsks room inherit => exact { h with fromNode := length_concat_le room }

theorem proper_step (lib : Libraries J) (s : Topology J) (a : Action J) (h : s.Proper) :
    (step lib s a).Proper := h.moves (step_moves lib s a)

theorem Proper.sends_event? (h : s.Proper) {msg : MainMsg J} (hsends : s.dataMaster = .sendToDb msg) :
    msg.event? = none := by
  cases msg with
  | event event => exact absurd hsends (h.sends event)
  | request request => rfl
  | command cmd => rfl

/-- Events between the loops and the database. -/
def readerWay (s : Topology J) : List Reader.Event :=
  s.dataMaster.forDb ++ (s.fromReader ++ s.nodeMaster.msgs ++ s.fromNode).filterMap MainMsg.event?

/-- Events that the database has and the API has not. -/
def apiWay (s : Topology J) : List Reader.Event :=
  s.toApi.filterMap MainMsg.event? ++ s.dataMaster.forApi

/-- Events of devices between the controller and the measures. -/
def measureWay (s : Topology J) : List Reader.DeviceEvent :=
  ((s.measures ++ s.dbMaster.msgs ++ s.toDb).filterMap MainMsg.event?).filterMap device?

def commandWay (s : Topology J) : List (CommandType J) :=
  (s.toDb ++ s.dataMaster.msgs ++ s.fromApi).filterMap MainMsg.command?

def noticeWay (s : Topology J) : List ConfigEvent :=
  s.toReader ++ s.dataMaster.forReader ++ s.fromDb

theorem readerWay_moves (h : s.Proper) (hmoves : Moves lib s a s') :
    s.readerWay ++ (entered s.fromNode s'.fromNode).filterMap MainMsg.event? =
      (entered s.toDb s'.toDb).filterMap MainMsg.event? ++ s'.readerWay := by
  unfold readerWay
  cases hmoves with
  | takesFromApi select taken passed => simp [select, DataMaster.forDb]
  | takesRequest select taken => simp [select, taken, DataMaster.forDb, List.filterMap_cons]
  | takesEvent select taken => simp [select, taken, DataMaster.forDb]
  | dropsFromReader taken => simp [taken, List.filterMap_cons]
  | takesFromDb select taken => simp [select, DataMaster.forDb]
  | sendsToDb sends room =>
      simp [sends, h.sends_event? sends, DataMaster.forDb]
  | sendsEventToDb sends room => simp [sends, DataMaster.forDb]
  | sendsApi sends room => simp [sends, DataMaster.forDb]
  | sendsToReader sends room => simp [sends, DataMaster.forDb]
  | starts receive taken => simp [taken]
  | queries receive taken => simp [taken]
  | ends receive taken stays => simp [taken]
  | passes receive taken measures => simp [taken]
  | turns a nodeMaster loops inherit before behind => simp [before, behind]
  | creates select taken => simp [select, NodeMaster.msgs]
  | broadcasts select taken passed => simp [sendToWorkers]
  | takesFromNode select taken => simp [select, taken, NodeMaster.msgs]
  | dropsFromNode taken => simp [taken, List.filterMap_cons]
  | forwards forward room => simp [forward, NodeMaster.msgs]
  | asks before behind room => simp [before, behind, request, List.filterMap_cons]
  | loopAsks room inherit => simp [request]
  | _ => simp

theorem apiWay_moves (h : s.Proper) (hmoves : Moves lib s a s') :
    s.apiWay ++ (entered s.toDb s'.toDb).filterMap MainMsg.event? =
      (left s.toApi s'.toApi).filterMap MainMsg.event? ++ s'.apiWay := by
  unfold apiWay
  cases hmoves with
  | apiReceives =>
      rw [entered_self, List.filterMap_nil, List.append_nil, ← List.append_assoc,
        ← List.filterMap_append, left_append_tail]
  | takesFromApi select taken passed => simp [select, DataMaster.forApi]
  | takesRequest select taken => simp [select, DataMaster.forApi]
  | takesEvent select taken => simp [select, DataMaster.forApi]
  | takesFromDb select taken => simp [select, DataMaster.forApi]
  | sendsToDb sends room =>
      simp [sends, h.sends_event? sends, DataMaster.forApi]
  | sendsEventToDb sends room => simp [sends, DataMaster.forApi]
  | sendsApi sends room => simp [sends, DataMaster.forApi]
  | sendsToReader sends room => simp [sends, DataMaster.forApi]
  | starts receive taken => simp [taken]
  | queries receive taken => simp [taken]
  | ends receive taken stays => simp [taken]
  | passes receive taken measures => simp [taken]
  | broadcasts select taken passed => simp [sendToWorkers]
  | _ => simp

theorem staysInDb_device? {msg : MainMsg J} (h : msg.staysInDb = true) :
    msg.event?.bind device? = none := by
  cases msg with
  | event event =>
      cases event with
      | nodeEvent event => rfl
      | deviceEvent event => cases h
  | request request => rfl
  | command cmd => rfl

theorem measureWay_moves (hmoves : Moves lib s a s') :
    s.measureWay ++ ((entered s.toDb s'.toDb).filterMap MainMsg.event?).filterMap device? =
      ((left s.measures s'.measures).filterMap MainMsg.event?).filterMap device? ++ s'.measureWay := by
  unfold measureWay
  simp only [List.filterMap_filterMap]
  cases hmoves with
  | sendsToDb sends room => simp
  | sendsEventToDb sends room => simp
  | starts receive taken => simp [receive, taken, DbMaster.msgs, List.filterMap_cons]
  | queries receive taken => simp [receive, taken, DbMaster.msgs, List.filterMap_cons]
  | ends receive taken stays =>
      simp [receive, taken, DbMaster.msgs, staysInDb_device? stays]
  | passes receive taken measures => simp [receive, taken, DbMaster.msgs]
  | sendsMeasure sends room => simp [sends, DbMaster.msgs]
  | measuresReceive =>
      rw [entered_self, List.filterMap_nil, List.append_nil, ← List.filterMap_append,
        ← List.append_assoc, ← List.append_assoc, left_append_tail]
  | broadcasts select taken passed => simp [sendToWorkers]
  | _ => simp

theorem commandWay_moves (hmoves : Moves lib s a s') :
    s.commandWay ++ (entered s.fromApi s'.fromApi).filterMap MainMsg.command? =
      (left s.toDb s'.toDb).filterMap MainMsg.command? ++ s'.commandWay := by
  unfold commandWay
  cases hmoves with
  | takesFromApi select taken passed => simp [select, taken, DataMaster.msgs]
  | dropsFromApi taken => simp [taken, List.filterMap_cons]
  | takesRequest select taken => simp [select, DataMaster.msgs, List.filterMap_cons]
  | takesEvent select taken => simp [select, DataMaster.msgs]
  | takesFromDb select taken => simp [select, DataMaster.msgs]
  | sendsToDb sends room => simp [sends, DataMaster.msgs]
  | sendsEventToDb sends room => simp [sends, DataMaster.msgs, List.filterMap_cons]
  | sendsApi sends room => simp [sends, DataMaster.msgs]
  | sendsToReader sends room => simp [sends, DataMaster.msgs]
  | starts receive taken => simp [taken]
  | queries receive taken => simp [taken, List.filterMap_cons]
  | @ends msg rest receive taken stays => cases msg <;> simp [taken, List.filterMap_cons]
  | @passes msg rest receive taken measures => cases msg <;> simp [taken, List.filterMap_cons]
  | broadcasts select taken passed => simp [sendToWorkers]
  | _ => simp

theorem noticeWay_moves (hmoves : Moves lib s a s') :
    s.noticeWay ++ entered s.fromDb s'.fromDb = left s.toReader s'.toReader ++ s'.noticeWay := by
  unfold noticeWay
  cases hmoves with
  | takesFromApi select taken passed => simp [select, DataMaster.forReader]
  | takesRequest select taken => simp [select, DataMaster.forReader]
  | takesEvent select taken => simp [select, DataMaster.forReader]
  | takesFromDb select taken => simp [select, taken, DataMaster.forReader]
  | sendsToDb sends room => simp [sends, DataMaster.forReader]
  | sendsEventToDb sends room => simp [sends, DataMaster.forReader]
  | sendsApi sends room => simp [sends, DataMaster.forReader]
  | sendsToReader sends room => simp [sends, DataMaster.forReader]
  | notifies fate task room => simp
  | creates select taken => simp [taken]
  | broadcasts select taken passed => simp [taken, sendToWorkers]
  | _ => simp

/-! ## Runs -/

variable (lib : Libraries J) (t : Tables J) (actions : List (Action J))

/-- What is observed in a run. -/
def observe {M : Type} (observation : Topology J → Topology J → List M) : List M :=
  collect (step lib) (fun s a => observation s (step lib s a)) (start t) actions

/-- The events that the loops send. -/
def sentEvents : List Reader.Event :=
  observe lib t actions fun s s' => (entered s.fromNode s'.fromNode).filterMap MainMsg.event?

/-- The events that the controller hands to the database. -/
def storedEvents : List Reader.Event :=
  observe lib t actions fun s s' => (entered s.toDb s'.toDb).filterMap MainMsg.event?

/-- The events that the API receives. -/
def shownEvents : List Reader.Event :=
  observe lib t actions fun s s' => (left s.toApi s'.toApi).filterMap MainMsg.event?

/-- The events of devices that `measure_master` receives. -/
def measuredEvents : List Reader.DeviceEvent :=
  observe lib t actions fun s s' =>
    ((left s.measures s'.measures).filterMap MainMsg.event?).filterMap device?

/-- The commands that the API sends. -/
def sentCommands : List (CommandType J) :=
  observe lib t actions fun s s' => (entered s.fromApi s'.fromApi).filterMap MainMsg.command?

/-- The commands that the database worker receives. -/
def receivedCommands : List (CommandType J) :=
  observe lib t actions fun s s' => (left s.toDb s'.toDb).filterMap MainMsg.command?

/-- The config events that the tasks of the database send. -/
def sentNotices : List ConfigEvent :=
  observe lib t actions fun s s' => entered s.fromDb s'.fromDb

/-- The config events that `node_master` receives. -/
def receivedNotices : List ConfigEvent :=
  observe lib t actions fun s s' => left s.toReader s'.toReader

theorem readerWay_conveys : Conveys (step lib) Proper readerWay
    (fun s a => (entered s.fromNode (step lib s a).fromNode).filterMap MainMsg.event?)
    fun s a => (entered s.toDb (step lib s a).toDb).filterMap MainMsg.event? :=
  ⟨proper_step lib, fun s a h => readerWay_moves h (step_moves lib s a)⟩

theorem apiWay_conveys : Conveys (step lib) Proper apiWay
    (fun s a => (entered s.toDb (step lib s a).toDb).filterMap MainMsg.event?)
    fun s a => (left s.toApi (step lib s a).toApi).filterMap MainMsg.event? :=
  ⟨proper_step lib, fun s a h => apiWay_moves h (step_moves lib s a)⟩

theorem measureWay_conveys : Conveys (step lib) Proper measureWay
    (fun s a => ((entered s.toDb (step lib s a).toDb).filterMap MainMsg.event?).filterMap device?)
    fun s a => ((left s.measures (step lib s a).measures).filterMap MainMsg.event?).filterMap device? :=
  ⟨proper_step lib, fun s a _ => measureWay_moves (step_moves lib s a)⟩

theorem commandWay_conveys : Conveys (step lib) Proper commandWay
    (fun s a => (entered s.fromApi (step lib s a).fromApi).filterMap MainMsg.command?)
    fun s a => (left s.toDb (step lib s a).toDb).filterMap MainMsg.command? :=
  ⟨proper_step lib, fun s a _ => commandWay_moves (step_moves lib s a)⟩

theorem noticeWay_conveys : Conveys (step lib) Proper noticeWay
    (fun s a => entered s.fromDb (step lib s a).fromDb)
    fun s a => left s.toReader (step lib s a).toReader :=
  ⟨proper_step lib, fun s a _ => noticeWay_moves (step_moves lib s a)⟩

/-! ### How much is on the way -/

theorem length_readerWay (h : s.Proper) : s.readerWay.length ≤ 202 := by
  have hmsgs := List.length_filterMap_le MainMsg.event? (s.fromReader ++ s.nodeMaster.msgs ++ s.fromNode)
  have hforDb := s.dataMaster.length_forDb
  have hforward := s.nodeMaster.length_msgs
  have hfromReader := h.fromReader
  have hfromNode := h.fromNode
  simp only [readerWay, List.length_append, capacity] at *
  omega

theorem length_apiWay (h : s.Proper) : s.apiWay.length ≤ 101 := by
  have hmsgs := List.length_filterMap_le MainMsg.event? s.toApi
  have hforApi := s.dataMaster.length_forApi
  have htoApi := h.toApi
  simp only [apiWay, List.length_append, capacity] at *
  omega

theorem length_measureWay (h : s.Proper) : s.measureWay.length ≤ 201 := by
  have hevents := List.length_filterMap_le MainMsg.event? (s.measures ++ s.dbMaster.msgs ++ s.toDb)
  have hdevices := List.length_filterMap_le device?
    ((s.measures ++ s.dbMaster.msgs ++ s.toDb).filterMap MainMsg.event?)
  have hheld := s.dbMaster.length_msgs
  have hmeasures := h.measures
  have htoDb := h.toDb
  simp only [measureWay, List.length_append, capacity] at *
  omega

theorem length_commandWay (h : s.Proper) : s.commandWay.length ≤ 201 := by
  have hmsgs := List.length_filterMap_le MainMsg.command? (s.toDb ++ s.dataMaster.msgs ++ s.fromApi)
  have hheld := s.dataMaster.length_msgs
  have htoDb := h.toDb
  have hfromApi := h.fromApi
  simp only [commandWay, List.length_append, capacity] at *
  omega

theorem length_noticeWay (h : s.Proper) : s.noticeWay.length ≤ 201 := by
  have hheld := s.dataMaster.length_forReader
  have htoReader := h.toReader
  have hfromDb := h.fromDb
  simp only [noticeWay, List.length_append, capacity] at *
  omega

/-! ### What arrives -/

theorem measured_delivered :
    Delivered 403 ((sentEvents lib t actions).filterMap device?) (measuredEvents lib t actions) := by
  unfold sentEvents observe
  rw [← collect_filterMap]
  refine (((readerWay_conveys lib).filterMap device?).trans (measureWay_conveys lib)).delivered
    (fun s h => ?_) (proper_start t) rfl actions
  have hdevices := List.length_filterMap_le device? s.readerWay
  have hreader := length_readerWay h
  have hmeasures := length_measureWay h
  rw [List.length_append]
  omega

theorem shown_delivered : Delivered 303 (sentEvents lib t actions) (shownEvents lib t actions) := by
  refine ((readerWay_conveys lib).trans (apiWay_conveys lib)).delivered
    (fun s h => ?_) (proper_start t) rfl actions
  have hreader := length_readerWay h
  have hapi := length_apiWay h
  rw [List.length_append]
  omega

theorem shown_of_stored : shownEvents lib t actions <+: storedEvents lib t actions :=
  ((apiWay_conveys lib).delivered (fun _ h => length_apiWay h) (proper_start t) rfl actions).inOrder

/-- **Events.** In every run, `measure_master` receives the events of devices, and the API receives
all events, in the order in which the loops send them, each of them once. At most 403 and 303 of them
are behind. The API receives none that the controller has not handed to the database before. -/
theorem events_delivered :
    Delivered 403 ((sentEvents lib t actions).filterMap device?) (measuredEvents lib t actions) ∧
      Delivered 303 (sentEvents lib t actions) (shownEvents lib t actions) ∧
      shownEvents lib t actions <+: storedEvents lib t actions :=
  ⟨measured_delivered lib t actions, shown_delivered lib t actions, shown_of_stored lib t actions⟩

/-! ### Commands and their tasks -/

/-- A command on nodes, devices or values. -/
def config? : CommandType J → Option (Command J)
  | .config command => some command
  | .account => none

/-- What a task is in the middle of. -/
def Carries (lib : Libraries J) (command : Command J) (p : Task J Unit) : Prop :=
  (command.task lib).Reaches p ∨ p = .done (.ok ())

theorem forall₂_set {α β : Type} {R : α → β → Prop} {as : List α} {bs : List β} {i : Nat} {new : β}
    (h : List.Forall₂ R as bs) (hnew : ∀ a b, bs[i]? = some b → R a b → R a new) :
    List.Forall₂ R as (bs.set i new) := by
  induction h generalizing i with
  | nil => exact .nil
  | cons hab hrest ih =>
      cases i with
      | zero => exact .cons (hnew _ _ rfl hab) hrest
      | succ i => exact .cons hab (ih fun a b hb => hnew a b hb)

/-- The tasks are those of the commands that were received. -/
theorem carries_moves (hmoves : Moves lib s a s') {commands : List (Command J)}
    (h : List.Forall₂ (Carries lib) commands s.tasks) :
    List.Forall₂ (Carries lib)
      (commands ++ ((left s.toDb s'.toDb).filterMap MainMsg.command?).filterMap config?)
      s'.tasks := by
  cases hmoves with
  | calls fate task =>
      rw [left_self, List.filterMap_nil, List.filterMap_nil, List.append_nil]
      refine forall₂_set h fun command p hp hcarries => ?_
      obtain rfl := Option.some.inj (task.symm.trans hp)
      rcases hcarries with hreaches | hdone
      · exact .inl (.answered hreaches _)
      · cases hdone
  | notifies fate task room =>
      rw [left_self, List.filterMap_nil, List.filterMap_nil, List.append_nil]
      refine forall₂_set h fun command p hp hcarries => ?_
      obtain rfl := Option.some.inj (task.symm.trans hp)
      rcases hcarries with hreaches | hdone
      · exact .inl (.answered hreaches _)
      · cases hdone
  | drops i =>
      rw [left_self, List.filterMap_nil, List.filterMap_nil, List.append_nil]
      exact forall₂_set h fun command p hp hcarries => .inr rfl
  | starts receive taken =>
      simp only [taken, left_rest]
      exact List.rel_append h (.cons (.inl .start) .nil)
  | queries receive taken => simpa [taken, List.filterMap_cons] using h
  | @ends msg rest receive taken stays =>
      cases msg with
      | event event => simpa [taken, List.filterMap_cons] using h
      | request request => simpa [taken, List.filterMap_cons] using h
      | command cmd =>
          cases cmd with
          | account => simpa [taken, config?, List.filterMap_cons] using h
          | config command => cases stays
  | @passes msg rest receive taken measures =>
      cases msg with
      | event event => simpa [taken, List.filterMap_cons] using h
      | request request => simpa [taken, List.filterMap_cons] using h
      | command cmd => cases measures
  | sendsToDb sends room => simpa using h
  | sendsEventToDb sends room => simpa using h
  | broadcasts select taken passed => simpa [sendToWorkers] using h
  | _ => simpa using h

/-- **Commands.** In every run, the database worker receives the commands in the order in which the
API sends them, each of them once, and at most 201 are behind. It has one task for each command on
nodes, devices and values that it has received, in the same order, and a task that was not dropped is
somewhere in its command. -/
theorem commands_delivered :
    Delivered 201 (sentCommands lib t actions) (receivedCommands lib t actions) ∧
      List.Forall₂ (Carries lib) ((receivedCommands lib t actions).filterMap config?)
        (run lib t actions).tasks := by
  refine ⟨?_, ?_⟩
  · exact (commandWay_conveys lib).delivered (fun _ h => length_commandWay h) (proper_start t) rfl
      actions
  · induction actions using List.reverseRecOn with
    | nil => exact .nil
    | append_singleton actions a ih =>
        rw [receivedCommands, observe, collect_concat, List.filterMap_append, run, after_concat]
        exact carries_moves lib (step_moves lib _ a) ih

/-! ### Config events and the loops -/

/-- The messages that go on to the loops. -/
def isBroadcast (event : ConfigEvent) : Bool :=
  match event.eventType with
  | .create => false
  | .update | .delete => true

/-- What the loops have still to receive is the end of what was broadcast. -/
theorem broadcasts_moves (hmoves : Moves lib s a s') {broadcasts : List ConfigEvent}
    (h : ∀ l ∈ s.loops, l.fromController <:+ broadcasts) :
    ∀ l ∈ s'.loops, l.fromController <:+
      broadcasts ++ (left s.toReader s'.toReader).filter isBroadcast := by
  have hinherit : ∀ {loops : List (NodeLoop J)}, Inherit s.loops loops →
      ∀ l ∈ loops, l.fromController <:+ broadcasts := by
    intro loops hloops l hl
    rcases hloops l hl with hnil | ⟨old, hold, hsuffix⟩
    · rw [hnil]
      exact List.nil_suffix
    · exact hsuffix.trans (h old hold)
  cases hmoves with
  | aside a requests answers loops inherit => simpa using hinherit inherit
  | turns a nodeMaster loops inherit before behind => simpa using hinherit inherit
  | loopAsks room inherit => simpa using hinherit inherit
  | creates select taken => simpa [taken, isBroadcast] using h
  | @broadcasts msg rest select taken passed =>
      have hpassed : isBroadcast msg = true := by
        unfold isBroadcast
        split
        · next hcreate => exact absurd hcreate passed
        · rfl
        · rfl
      intro l' hl'
      obtain ⟨l, hl, rfl⟩ := List.mem_map.mp hl'
      simp only [taken, sendToWorkers, left_rest, List.filter_cons, hpassed, if_true, List.filter_nil]
      exact (List.suffix_append_inj_of_length_eq rfl).mpr ⟨h l hl, rfl⟩
  | _ => simpa using h

/-- **Config events.** In every run, `node_master` receives the config events in the order in which
the tasks of the database send them, each of them once, and at most 201 are behind. What a loop has
still to receive is the end of what was broadcast: it misses none of them and receives none twice, as
long as it does not lag. -/
theorem notices_delivered :
    Delivered 201 (sentNotices lib t actions) (receivedNotices lib t actions) ∧
      ∀ l ∈ (run lib t actions).loops,
        l.fromController <:+ (receivedNotices lib t actions).filter isBroadcast := by
  refine ⟨?_, ?_⟩
  · exact (noticeWay_conveys lib).delivered (fun _ h => length_noticeWay h) (proper_start t) rfl
      actions
  · induction actions using List.reverseRecOn with
    | nil => exact fun l hl => absurd hl List.not_mem_nil
    | append_singleton actions a ih =>
        rw [receivedNotices, observe, collect_concat, List.filter_append, run, after_concat]
        exact broadcasts_moves lib (step_moves lib _ a) ih

end Topology

end ModbusLogger.Main
