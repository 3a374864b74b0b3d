import ModbusLogger.Main.Notices

/-!
# What a step moves

`Moves` says once what each action does to the messages and to the tasks: which channel or actor
gives a message away, which one gets it, and that all others keep theirs.
-/

namespace ModbusLogger.Main

open Db

variable {J : Type}

/-- What `run_db_master` holds. -/
def DbMaster.msgs : DbMaster J → List (MainMsg J)
  | .sendMeasure msg => [msg]
  | .receive => []

/-- The messages that end at the database worker itself. -/
def MainMsg.staysInDb : MainMsg J → Bool
  | .command .account | .request .api | .event (.nodeEvent _) => true
  | _ => false

/-- The messages that the database worker passes to the measures. -/
def MainMsg.isForMeasures : MainMsg J → Bool
  | .request .getMeasure | .event (.deviceEvent _) => true
  | _ => false

/-- What `loops'` still have to receive is the end of what `loops` have to. New loops have nothing. -/
def Inherit (loops loops' : List (NodeLoop J)) : Prop :=
  ∀ l' ∈ loops', l'.fromController = [] ∨ ∃ l ∈ loops, l'.fromController <:+ l.fromController

section Inherit

variable {loops new : List (NodeLoop J)} {l l' : NodeLoop J} {i : Nat}

theorem Inherit.refl (loops : List (NodeLoop J)) : Inherit loops loops :=
  fun l hl => .inr ⟨l, hl, List.suffix_refl _⟩

theorem Inherit.append (hnew : ∀ l ∈ new, l.fromController = []) : Inherit loops (loops ++ new) := by
  intro l hl
  rcases List.mem_append.mp hl with hold | hl
  · exact Inherit.refl loops l hold
  · exact .inl (hnew l hl)

theorem Inherit.eraseIdx (i : Nat) : Inherit loops (loops.eraseIdx i) :=
  fun l hl => Inherit.refl loops l (List.mem_of_mem_eraseIdx hl)

theorem Inherit.set (hl : loops[i]? = some l) (hsuffix : l'.fromController <:+ l.fromController) :
    Inherit loops (loops.set i l') := by
  intro x hx
  rcases List.mem_or_eq_of_mem_set hx with hold | rfl
  · exact Inherit.refl loops x hold
  · exact .inr ⟨l, List.mem_of_getElem? hl, hsuffix⟩

end Inherit

theorem NodeLoop.Received.suffix {backlog : Nat} {l l' : NodeLoop J} {act : LoopAction}
    (h : l.Received backlog l' act) :
    l'.fromController <:+ l.fromController := by
  cases h with
  | same same => exact same ▸ List.suffix_refl _
  | lag select lags loop =>
      rw [loop]
      exact List.drop_suffix _ _
  | foreign select received other loop =>
      rw [loop, received]
      exact List.suffix_cons _ _
  | update select received own loop =>
      rw [loop, (NodeLoop.update_keeps _ _).2, received]
      exact List.suffix_cons _ _

namespace Topology

/-- What a step does to the messages. -/
inductive Moves (lib : Libraries J) (s : Topology J) : Action J → Topology J → Prop where
  | waits (a : Action J) : Moves lib s a s
  | calls {i : Nat} {c : Call J} {next : c.Answer → Task J Unit} (fate : Fate)
      (task : s.tasks[i]? = some (.call c next)) :
      Moves lib s (.advance i fate)
        { s with
          tables := (perform c fate s.tables).1
          tasks := s.tasks.set i (next (perform c fate s.tables).2) }
  | drops (i : Nat) : Moves lib s (.dropTask i) { s with tasks := s.tasks.set i (.done (.ok ())) }
  /-- Nothing that is on the way. -/
  | aside (a : Action J) (requests : List (Query × Nat)) (answers : List (Nat × Option (Reply J)))
      (loops : List (NodeLoop J)) (inherit : Inherit s.loops loops) :
      Moves lib s a { s with requests, answers, loops }
  | turns (a : Action J) (nodeMaster : NodeMaster J) (loops : List (NodeLoop J))
      (inherit : Inherit s.loops loops) (before : s.nodeMaster.msgs = []) (behind : nodeMaster.msgs = []) :
      Moves lib s a { s with nodeMaster, loops }
  | apiSends (msg : ApiMsg J) (room : s.fromApi.length < capacity) :
      Moves lib s (.apiSends msg) { s with fromApi := s.fromApi ++ [msg.toMain] }
  | apiReceives : Moves lib s .apiReceives { s with toApi := s.toApi.tail }
  | takesFromApi {msg : MainMsg J} {rest : List (MainMsg J)} (select : s.dataMaster = .select)
      (taken : s.fromApi = msg :: rest) (passed : ∀ event, msg ≠ .event event) :
      Moves lib s .dataMasterFromApi { s with fromApi := rest, dataMaster := .sendToDb msg }
  | dropsFromApi {event : Reader.Event} {rest : List (MainMsg J)}
      (taken : s.fromApi = .event event :: rest) :
      Moves lib s .dataMasterFromApi { s with fromApi := rest }
  | takesRequest {request : Request} {rest : List (MainMsg J)} (select : s.dataMaster = .select)
      (taken : s.fromReader = .request request :: rest) :
      Moves lib s .dataMasterFromReader
        { s with fromReader := rest, dataMaster := .sendToDb (.request request) }
  | takesEvent {event : Reader.Event} {rest : List (MainMsg J)} (select : s.dataMaster = .select)
      (taken : s.fromReader = .event event :: rest) :
      Moves lib s .dataMasterFromReader
        { s with fromReader := rest, dataMaster := .sendEventToDb event }
  | dropsFromReader {cmd : CommandType J} {rest : List (MainMsg J)}
      (taken : s.fromReader = .command cmd :: rest) :
      Moves lib s .dataMasterFromReader { s with fromReader := rest }
  | takesFromDb {event : ConfigEvent} {rest : List ConfigEvent} (select : s.dataMaster = .select)
      (taken : s.fromDb = event :: rest) :
      Moves lib s .dataMasterFromDb { s with fromDb := rest, dataMaster := .sendToReader event }
  | sendsToDb {msg : MainMsg J} (sends : s.dataMaster = .sendToDb msg)
      (room : s.toDb.length < capacity) :
      Moves lib s .dataMasterSends { s with toDb := s.toDb ++ [msg], dataMaster := .select }
  | sendsEventToDb {event : Reader.Event} (sends : s.dataMaster = .sendEventToDb event)
      (room : s.toDb.length < capacity) :
      Moves lib s .dataMasterSends
        { s with toDb := s.toDb ++ [.event event], dataMaster := .sendApi event }
  | sendsApi {event : Reader.Event} (sends : s.dataMaster = .sendApi event)
      (room : s.toApi.length < capacity) :
      Moves lib s .dataMasterSends
        { s with toApi := s.toApi ++ [.event event], dataMaster := .select }
  | sendsToReader {event : ConfigEvent} (sends : s.dataMaster = .sendToReader event)
      (room : s.toReader.length < capacity) :
      Moves lib s .dataMasterSends
        { s with toReader := s.toReader ++ [event], dataMaster := .select }
  | starts {command : Command J} {rest : List (MainMsg J)} (receive : s.dbMaster = .receive)
      (taken : s.toDb = .command (.config command) :: rest) :
      Moves lib s .dbMasterReceives
        { s with toDb := rest, tasks := s.tasks ++ [command.task lib] }
  | queries {query : Query} {rx : Nat} {rest : List (MainMsg J)} (receive : s.dbMaster = .receive)
      (taken : s.toDb = .request (.reader query rx) :: rest) :
      Moves lib s .dbMasterReceives
        { s with toDb := rest, requests := s.requests ++ [(query, rx)] }
  | ends {msg : MainMsg J} {rest : List (MainMsg J)} (receive : s.dbMaster = .receive)
      (taken : s.toDb = msg :: rest) (stays : msg.staysInDb = true) :
      Moves lib s .dbMasterReceives { s with toDb := rest }
  | passes {msg : MainMsg J} {rest : List (MainMsg J)} (receive : s.dbMaster = .receive)
      (taken : s.toDb = msg :: rest) (measures : msg.isForMeasures = true) :
      Moves lib s .dbMasterReceives { s with toDb := rest, dbMaster := .sendMeasure msg }
  | sendsMeasure {msg : MainMsg J} (sends : s.dbMaster = .sendMeasure msg)
      (room : s.measures.length < capacity) :
      Moves lib s .dbMasterSends { s with measures := s.measures ++ [msg], dbMaster := .receive }
  | measuresReceive : Moves lib s .measuresReceive { s with measures := s.measures.tail }
  | notifies {i : Nat} {event : ConfigEvent} {next : Bool → Task J Unit} (fate : Fate)
      (task : s.tasks[i]? = some (.call (.send event) next)) (room : s.fromDb.length < capacity) :
      Moves lib s (.advance i fate)
        { s with fromDb := s.fromDb ++ [event], tasks := s.tasks.set i (next true) }
  | creates {data : NodeRead} {rest : List ConfigEvent} (select : s.nodeMaster = .select)
      (taken : s.toReader = ⟨.create, data⟩ :: rest) :
      Moves lib s .nodeMasterFromController
        { s with toReader := rest, nodeMaster := .sleep data 0 }
  | broadcasts {msg : ConfigEvent} {rest : List ConfigEvent} (select : s.nodeMaster = .select)
      (taken : s.toReader = msg :: rest) (passed : msg.eventType ≠ .create) :
      Moves lib s .nodeMasterFromController ({ s with toReader := rest }.sendToWorkers msg)
  | takesFromNode {msg : MainMsg J} {rest : List (MainMsg J)} (select : s.nodeMaster = .select)
      (taken : s.fromNode = msg :: rest) :
      Moves lib s .nodeMasterFromNode { s with fromNode := rest, nodeMaster := .forward msg }
  | dropsFromNode {cmd : CommandType J} {rest : List (MainMsg J)}
      (taken : s.fromNode = .command cmd :: rest) :
      Moves lib s .nodeMasterFromNode { s with fromNode := rest }
  | forwards {msg : MainMsg J} (forward : s.nodeMaster = .forward msg)
      (room : s.fromReader.length < capacity) :
      Moves lib s .nodeMasterSends
        { s with fromReader := s.fromReader ++ [msg], nodeMaster := .select }
  | asks {query : Query} {nodeMaster : NodeMaster J} (before : s.nodeMaster.msgs = [])
      (behind : nodeMaster.msgs = []) (room : s.fromReader.length < capacity) :
      Moves lib s .nodeMasterSends
        { s with
          fromReader := s.fromReader ++ [s.request query]
          nextChannel := s.nextChannel + 1
          nodeMaster }
  | loopSends {i : Nat} {event : Reader.Event} (sends : s.loops[i]?.any NodeLoop.sendsEvents = true)
      (room : s.fromNode.length < capacity) :
      Moves lib s (.loopSendsEvent i event) { s with fromNode := s.fromNode ++ [.event event] }
  | loopAsks {i : Nat} {query : Query} {l : NodeLoop J} (room : s.fromNode.length < capacity)
      (inherit : Inherit s.loops (s.loops.set i l)) :
      Moves lib s (.loopSendsRequest i)
        { s with
          fromNode := s.fromNode ++ [s.request query]
          nextChannel := s.nextChannel + 1
          loops := s.loops.set i l }

variable {s : Topology J} {lib : Libraries J}

theorem dataMasterFromApi_moves : Moves lib s .dataMasterFromApi s.dataMasterFromApi := by
  unfold dataMasterFromApi
  split
  · next msg rest hselect htaken =>
      split
      · exact .takesFromApi hselect htaken (by simp)
      · exact .takesFromApi hselect htaken (by simp)
      · exact .dropsFromApi htaken
  · exact .waits _

theorem dataMasterFromReader_moves : Moves lib s .dataMasterFromReader s.dataMasterFromReader := by
  unfold dataMasterFromReader
  split
  · next msg rest hselect htaken =>
      split
      · exact .takesRequest hselect htaken
      · exact .takesEvent hselect htaken
      · exact .dropsFromReader htaken
  · exact .waits _

theorem dataMasterFromDb_moves : Moves lib s .dataMasterFromDb s.dataMasterFromDb := by
  unfold dataMasterFromDb
  split
  · next event rest hselect htaken => exact .takesFromDb hselect htaken
  · exact .waits _

theorem dataMasterSends_moves : Moves lib s .dataMasterSends s.dataMasterSends := by
  unfold dataMasterSends
  split
  · exact .waits _
  · next msg hsends =>
      split
      · next hroom => exact .sendsToDb hsends hroom
      · exact .waits _
  · next event hsends =>
      split
      · next hroom => exact .sendsEventToDb hsends hroom
      · exact .waits _
  · next event hsends =>
      split
      · next hroom => exact .sendsApi hsends hroom
      · exact .waits _
  · next event hsends =>
      split
      · next hroom => exact .sendsToReader hsends hroom
      · exact .waits _

theorem dbMasterReceives_moves : Moves lib s .dbMasterReceives (s.dbMasterReceives lib) := by
  unfold dbMasterReceives
  split
  · next msg rest hreceive htaken =>
      split
      · exact .starts hreceive htaken
      · exact .ends hreceive htaken rfl
      · exact .ends hreceive htaken rfl
      · exact .queries hreceive htaken
      · exact .passes hreceive htaken rfl
      · exact .passes hreceive htaken rfl
      · exact .ends hreceive htaken rfl
  · exact .waits _

theorem dbMasterSends_moves : Moves lib s .dbMasterSends s.dbMasterSends := by
  unfold dbMasterSends
  split
  · exact .waits _
  · next msg hsends =>
      split
      · next hroom => exact .sendsMeasure hsends hroom
      · exact .waits _

theorem advance_moves (i : Nat) (fate : Fate) : Moves lib s (.advance i fate) (s.advance i fate) := by
  unfold advance
  split
  · next event next htask =>
      split
      · next hroom => exact .notifies fate htask hroom
      · exact .waits _
  · next c next _ htask => exact .calls fate htask
  · exact .waits _

theorem answer_moves (i : Nat) (fate : Fate) : Moves lib s (.answer i fate) (s.answer i fate) := by
  unfold answer
  split
  · exact .aside _ _ _ _ (.refl _)
  · exact .waits _

theorem dropRequest_moves (i : Nat) : Moves lib s (.dropRequest i) (s.dropRequest i) := by
  unfold dropRequest
  split
  · exact .aside _ _ _ _ (.refl _)
  · exact .waits _

theorem nodeMasterFromController_moves :
    Moves lib s .nodeMasterFromController s.nodeMasterFromController := by
  unfold nodeMasterFromController
  split
  · next msg rest hselect htaken =>
      obtain ⟨eventType, data⟩ := msg
      cases eventType with
      | create => exact .creates hselect htaken
      | update => exact .broadcasts hselect htaken (by simp)
      | delete => exact .broadcasts hselect htaken (by simp)
  · exact .waits _

theorem nodeMasterFromNode_moves : Moves lib s .nodeMasterFromNode s.nodeMasterFromNode := by
  unfold nodeMasterFromNode
  split
  · next msg rest hselect htaken =>
      cases msg with
      | event event => exact .takesFromNode hselect htaken
      | request request => exact .takesFromNode hselect htaken
      | command cmd => exact .dropsFromNode htaken
  · exact .waits _

theorem nodeMasterWakes_moves : Moves lib s .nodeMasterWakes s.nodeMasterWakes := by
  unfold nodeMasterWakes
  split
  · next node tryCounter hsleep => exact .turns _ _ _ (.refl _) (by rw [hsleep]; rfl) rfl
  · exact .waits _

theorem nodeMasterSends_moves : Moves lib s .nodeMasterSends s.nodeMasterSends := by
  unfold nodeMasterSends
  split
  · next hroom =>
      split
      · next hsends => exact .asks (by rw [hsends]; rfl) rfl hroom
      · next node tryCounter hsends => exact .asks (by rw [hsends]; rfl) rfl hroom
      · next msg hforward => exact .forwards hforward hroom
      · exact .waits _
  · exact .waits _

theorem retry_msgs (node : NodeRead) (tryCounter : Nat) :
    (retry node tryCounter : NodeMaster J).msgs = [] := by
  unfold retry
  split <;> rfl

theorem nodeMasterHears_moves : Moves lib s .nodeMasterHears s.nodeMasterHears := by
  unfold nodeMasterHears
  split
  · next rx hawaits =>
      have hbefore : s.nodeMaster.msgs = [] := by rw [hawaits]; rfl
      split
      · next nodes _ =>
          refine .turns _ _ _ (.append fun l hl => ?_) hbefore rfl
          obtain ⟨conf, -, rfl⟩ := List.mem_map.mp hl
          rfl
      · exact .turns _ _ _ (.refl _) hbefore rfl
      · exact .waits _
  · next node tryCounter rx hawaits =>
      have hbefore : s.nodeMaster.msgs = [] := by rw [hawaits]; rfl
      split
      · next nodeRead _ =>
          refine .turns _ _ _ (.append fun l hl => ?_) hbefore rfl
          rw [List.mem_singleton.mp hl]
          rfl
      · exact .turns _ _ _ (.refl _) hbefore (retry_msgs node tryCounter)
      · exact .waits _
  · exact .waits _

theorem loopTurns_moves (i : Nat) (act : LoopAction) :
    Moves lib s (.loop i act) (s.loopTurns lib i act) := by
  unfold loopTurns
  split
  · next l' hl' =>
      obtain ⟨l, hl, hturn⟩ := Option.bind_eq_some_iff.mp hl'
      cases l' with
      | some l' =>
          have hsuffix := (NodeLoop.turns_of_turn hturn).received.suffix
          exact .aside _ _ _ _ (.set hl hsuffix)
      | none => exact .aside _ _ _ _ (.eraseIdx i)
  · exact .waits _

theorem loopSendsEvent_moves (i : Nat) (event : Reader.Event) :
    Moves lib s (.loopSendsEvent i event) (s.loopSendsEvent i event) := by
  unfold loopSendsEvent
  split
  · next h => exact .loopSends h.1 h.2
  · exact .waits _

theorem loopSendsRequest_moves (i : Nat) :
    Moves lib s (.loopSendsRequest i) (s.loopSendsRequest i) := by
  unfold loopSendsRequest
  split
  · next hroom =>
      split
      · next query l' hasks =>
          obtain ⟨l, hl, hask⟩ := Option.bind_eq_some_iff.mp hasks
          exact .loopAsks hroom (.set hl ((NodeLoop.ask_keeps hask).2 ▸ List.suffix_refl _))
      · exact .waits _
  · exact .waits _

theorem step_moves (lib : Libraries J) (s : Topology J) (a : Action J) :
    Moves lib s a (step lib s a) := by
  cases a with
  | apiSends msg =>
      unfold step
      dsimp only
      split
      · next hroom => exact .apiSends msg hroom
      · exact .waits _
  | apiReceives => exact .apiReceives
  | dataMasterFromApi => exact dataMasterFromApi_moves
  | dataMasterFromReader => exact dataMasterFromReader_moves
  | dataMasterFromDb => exact dataMasterFromDb_moves
  | dataMasterSends => exact dataMasterSends_moves
  | dbMasterReceives => exact dbMasterReceives_moves
  | dbMasterSends => exact dbMasterSends_moves
  | measuresReceive => exact .measuresReceive
  | advance i fate => exact advance_moves i fate
  | dropTask i => exact .drops i
  | answer i fate => exact answer_moves i fate
  | dropRequest i => exact dropRequest_moves i
  | nodeMasterFromController => exact nodeMasterFromController_moves
  | nodeMasterFromNode => exact nodeMasterFromNode_moves
  | nodeMasterWakes => exact nodeMasterWakes_moves
  | nodeMasterSends => exact nodeMasterSends_moves
  | nodeMasterHears => exact nodeMasterHears_moves
  | loop i act => exact loopTurns_moves i act
  | loopSendsEvent i event => exact loopSendsEvent_moves i event
  | loopSendsRequest i => exact loopSendsRequest_moves i

end Topology

end ModbusLogger.Main
