import ModbusLogger.Api.WebSockets.WebSockCoord
import Mathlib.Data.Set.Insert

/-!
# The handlers of the live sockets (`api/web_sockets/live_socket.rs`)

A handler subscribes its client under an id from a counter. When the client asks for something else,
the handler draws a new id and has the coordinator replace the old one; when the connection ends, it
has the current id deleted. The commands of all handlers go through one channel.
-/

namespace ModbusLogger.WebSockets

open Reader

inductive CoordUnitWebSocketCommand where
  | new (id : Nat) (unit : SubscribeRequest)
  | change (oldId newId : Nat) (unit : SubscribeRequest)
  | delete (id : Nat)
  deriving DecidableEq, Repr

/-! ## One handler -/

/-- Where a handler is. -/
inductive SocketState where
  /-- waiting for the first text -/
  | connecting
  /-- sending `New` -/
  | subscribing (id : Nat) (unit : SubscribeRequest)
  /-- in the `select!`, with the receiver of the current id -/
  | selecting (currentId : Nat)
  /-- sending `Change` -/
  | changing (oldId newId : Nat) (unit : SubscribeRequest)
  /-- sending `Delete`, with the receiver of another id perhaps -/
  | closing (currentId receiver : Nat)
  | closed
  deriving DecidableEq, Repr

inductive SocketEvent where
  | text (config : String)
  /-- any other message, an error, or the end of the socket -/
  | other
  /-- the channel has a message for the client, and it could be sent or not -/
  | message (ok : Bool)
  /-- the sender of the channel is gone -/
  | channelClosed
  /-- thirty seconds without a first message, or fifteen minutes -/
  | timeout
  /-- the channel to the coordinator has room, or is closed -/
  | ready
  deriving DecidableEq, Repr

/-- No function depends on the last two fields: the texts that were read and the ids that were drawn. -/
structure Socket where
  state : SocketState
  texts : List String
  ids : List Nat
  deriving DecidableEq, Repr

/-- The receivers that a handler holds. -/
def SocketState.receivers : SocketState → List Nat
  | connecting | closed => []
  | subscribing id _ => [id]
  | .selecting currentId => [currentId]
  | changing oldId newId _ => [oldId, newId]
  | closing _ receiver => [receiver]

namespace Socket

variable (parse : String → Option SubscribeRequest)

def new : Socket := ⟨.connecting, [], []⟩

/-- `new_config` up to the `send`. -/
def newConfig (config : String) (id : Nat) : SocketState :=
  match parse config with
  | some unit => .subscribing id unit
  | none => .closed

/-- `change_config` up to the `send`. If it fails, the loop ends with the new id. -/
def changeConfig (config : String) (newId oldId : Nat) : SocketState :=
  match parse config with
  | some unit => .changing oldId newId unit
  | none => .closing newId oldId

/-- `send_msg`: the command is sent, or the coordinator is gone. -/
def sendMsg (up : Bool) (s : Socket) : Socket × Option CoordUnitWebSocketCommand :=
  match s.state, up with
  | .subscribing id unit, true => ({ s with state := .selecting id }, some (.new id unit))
  | .subscribing _ _, false => ({ s with state := .closed }, none)
  | .changing oldId newId unit, true =>
    ({ s with state := .selecting newId }, some (.change oldId newId unit))
  | .changing oldId newId _, false => ({ s with state := .closing newId oldId }, none)
  | .closing currentId _, true => ({ s with state := .closed }, some (.delete currentId))
  | .closing _ _, false => ({ s with state := .closed }, none)
  | _, _ => (s, none)

/-- `handle_socket`, with the counter of the ids and whether the coordinator is there. A handler sees
only the events that it waits for. -/
def handle (wsCounter : Nat) (up : Bool) (s : Socket) :
    SocketEvent → Socket × Nat × Option CoordUnitWebSocketCommand
  | .ready => let (s, command) := s.sendMsg up; (s, wsCounter, command)
  | .text config =>
    let read := { s with texts := s.texts ++ [config], ids := s.ids ++ [wsCounter] }
    match s.state with
    | .connecting =>
      ({ read with state := newConfig parse config wsCounter }, wsCounter + 1, none)
    | .selecting oldId =>
      ({ read with state := changeConfig parse config wsCounter oldId }, wsCounter + 1, none)
    | _ => (s, wsCounter, none)
  | .other | .timeout =>
    match s.state with
    | .connecting => ({ s with state := .closed }, wsCounter, none)
    | .selecting currentId => ({ s with state := .closing currentId currentId }, wsCounter, none)
    | _ => (s, wsCounter, none)
  | .message false | .channelClosed =>
    match s.state with
    | .selecting currentId => ({ s with state := .closing currentId currentId }, wsCounter, none)
    | _ => (s, wsCounter, none)
  | .message true => (s, wsCounter, none)

end Socket

/-! ## All handlers and the coordinator -/

/-- The commands on their way are kept with the number of their handler. The coordinator panics when
the controller is gone. -/
structure Live where
  wsCounter : Nat
  sockets : List Socket
  toWsCoord : List (Nat × CoordUnitWebSocketCommand)
  coord : Option WebSockCoord

inductive LiveStep where
  | connect
  | socket (i : Nat) (event : SocketEvent)
  | command (order : HashOrder)
  | fromReader (event : Option Event)
  | controllerGone

namespace Live

def new : Live := ⟨0, [], [], some .new⟩

/-- The channel of a subscription is open as long as the handler holds the receiver. -/
def isOpen (s : Live) (id : Nat) : Bool := s.sockets.any fun socket => id ∈ socket.state.receivers

def input (s : Live) (order : HashOrder) : CoordUnitWebSocketCommand → Input
  | .new id unit => .new id unit (s.isOpen id) order
  | .change oldId newId unit => .change oldId newId unit (s.isOpen newId) order
  | .delete id => .delete id

/-- What the handler does to the channels: it takes a message, or drops receivers. -/
def onChannels (before after : SocketState) (event : SocketEvent) (c : WebSockCoord) : WebSockCoord :=
  let c :=
    match before, event with
    | .selecting currentId, .message _ => c.step (.receive currentId)
    | _, _ => c
  (before.receivers.filter (· ∉ after.receivers)).foldl (fun c id => c.step (.hangUp id)) c

variable (parse : String → Option SubscribeRequest)

def step (s : Live) : LiveStep → Live
  | .connect => { s with sockets := s.sockets ++ [.new] }
  | .socket i event =>
    match s.sockets[i]? with
    | some socket =>
      let (after, wsCounter, command) := socket.handle parse s.wsCounter s.coord.isSome event
      { wsCounter
        sockets := s.sockets.set i after
        toWsCoord := s.toWsCoord ++ command.toList.map (i, ·)
        coord := s.coord.map (onChannels socket.state after.state event) }
    | none => s
  | .command order =>
    match s.coord, s.toWsCoord with
    | some c, (_, command) :: rest =>
      { s with toWsCoord := rest, coord := some (c.step (s.input order command)) }
    | _, _ => s
  | .fromReader event =>
    { s with coord := s.coord.map fun c => c.step (event.elim .other .event) }
  | .controllerGone => { s with toWsCoord := [], coord := none }

def run (steps : List LiveStep) : Live := steps.foldl (step parse) new

/-- The commands of a handler that are on their way. -/
def pending (s : Live) (i : Nat) : List CoordUnitWebSocketCommand :=
  (s.toWsCoord.filter fun entry => entry.1 = i).map Prod.snd

/-- The map of the coordinator has an entry with this id. -/
def Subscribed (s : Live) (id : Nat) : Prop := ∃ c ∈ s.coord, (c.subscribers id).isSome

end Live

/-! ## What the coordinator keeps -/

namespace WebSockCoord

variable {c : WebSockCoord} {id : Nat}

@[simp] theorem tell_isSome (f : CoordUnitWebSocketData → CoordUnitWebSocketData) :
    ((c.tell f).subscribers id).isSome = (c.subscribers id).isSome :=
  Option.isSome_map

theorem isSome_of_flushSubscribers (h : (c.flushSubscribers.subscribers id).isSome = true) :
    (c.subscribers id).isSome = true := by
  obtain ⟨u, hu⟩ := Option.isSome_iff_exists.mp h
  obtain ⟨old, hold, -⟩ := Option.bind_eq_some_iff.mp hu
  exact Option.isSome_of_mem hold

theorem isSome_of_nodeEvent {event : NodeEvent}
    (h : ((c.nodeEvent event).subscribers id).isSome = true) : (c.subscribers id).isSome = true := by
  unfold nodeEvent at h
  dsimp only at h
  split at h
  · have htold := isSome_of_flushSubscribers h
    rwa [tell_isSome] at htold
  · exact h

theorem deviceState_isSome (event : DeviceEvent) :
    ((c.deviceState event).subscribers id).isSome = (c.subscribers id).isSome := by
  unfold deviceState
  dsimp only
  split
  · exact tell_isSome _
  · rfl

theorem measure_isSome (value : ModbusMeasure) :
    ((c.measure value).subscribers id).isSome = (c.subscribers id).isSome := by
  unfold measure
  dsimp only
  split
  · exact tell_isSome _
  · rfl

theorem measures_isSome (values : List ModbusMeasure) (c : WebSockCoord) :
    ((values.foldl measure c).subscribers id).isSome = (c.subscribers id).isSome := by
  induction values generalizing c with
  | nil => rfl
  | cons value values ih => rw [List.foldl_cons, ih, measure_isSome]

theorem isSome_of_deviceEvent {event : DeviceEvent}
    (h : ((c.deviceEvent event).subscribers id).isSome = true) :
    (c.subscribers id).isSome = true := by
  have hbefore := isSome_of_flushSubscribers h
  rwa [measures_isSome, deviceState_isSome] at hbefore

/-- A message of the controller adds no subscriber. -/
theorem isSome_of_fromReader {event : Option Event}
    (h : ((c.step (event.elim .other .event)).subscribers id).isSome = true) :
    (c.subscribers id).isSome = true := by
  cases event with
  | none => exact h
  | some event =>
      cases event with
      | nodeEvent event => exact isSome_of_nodeEvent h
      | deviceEvent event => exact isSome_of_deviceEvent h

@[simp] theorem onChannel_isSome (id' : Nat) (f : ClientChannel → ClientChannel) :
    ((c.onChannel id' f).subscribers id).isSome = (c.subscribers id).isSome := by
  show (Function.update c.subscribers id' _ id).isSome = _
  by_cases hid : id = id'
  · subst hid
    rw [Function.update_self, Option.isSome_map]
  · rw [Function.update_of_ne hid]

theorem isSome_of_remove {id' : Nat} (h : ((c.remove id').subscribers id).isSome = true) :
    id ≠ id' ∧ (c.subscribers id).isSome = true := by
  have hupdate : (Function.update c.subscribers id' none id).isSome = true := h
  by_cases hid : id = id'
  · subst hid
    rw [Function.update_self] at hupdate
    cases hupdate
  · rw [Function.update_of_ne hid] at hupdate
    exact ⟨hid, hupdate⟩

theorem isSome_of_insert {order : HashOrder} {id' : Nat} {unit : CoordUnitWebSocketData}
    (h : ((c.insert order id' unit).subscribers id).isSome = true) :
    id = id' ∨ (c.subscribers id).isSome = true := by
  unfold insert at h
  dsimp only at h
  split at h
  · have hupdate : (Function.update c.subscribers id' _ id).isSome = true := h
    by_cases hid : id = id'
    · exact .inl hid
    · rw [Function.update_of_ne hid] at hupdate
      exact .inr hupdate
  · exact .inr h

end WebSockCoord

/-! ## What a command leaves -/

namespace CoordUnitWebSocketCommand

def ids : CoordUnitWebSocketCommand → List Nat
  | new id _ => [id]
  | change oldId newId _ => [oldId, newId]
  | delete id => [id]

/-- The ids that may have an entry when the command is done. -/
def leaves (ids : Set Nat) : CoordUnitWebSocketCommand → Set Nat
  | new id _ => insert id ids
  | change oldId newId _ => insert newId (ids \ {oldId})
  | delete id => ids \ {id}

theorem leaves_mono {ids ids' : Set Nat} (h : ids ⊆ ids') (command : CoordUnitWebSocketCommand) :
    command.leaves ids ⊆ command.leaves ids' := by
  cases command with
  | new id unit => exact Set.insert_subset_insert h
  | change oldId newId unit => exact Set.insert_subset_insert (Set.sdiff_subset_sdiff_left h)
  | delete id => exact Set.sdiff_subset_sdiff_left h

/-- A command decides about each id alone. -/
theorem leaves_inter {command : CoordUnitWebSocketCommand} {ids own : Set Nat} {id : Nat}
    (hid : id ∈ command.leaves ids) (hown : id ∈ own) : id ∈ command.leaves (ids ∩ own) := by
  cases command with
  | new newId unit => exact hid.imp_right fun h => ⟨h, hown⟩
  | change oldId newId unit => exact hid.imp_right fun h => ⟨⟨h.1, hown⟩, h.2⟩
  | delete oldId => exact ⟨⟨hid.1, hown⟩, hid.2⟩

/-- An id that a command does not name keeps its entry. -/
theorem mem_of_leaves {command : CoordUnitWebSocketCommand} {ids : Set Nat} {id : Nat}
    (hid : id ∈ command.leaves ids) (hother : id ∉ command.ids) : id ∈ ids := by
  cases command with
  | new newId unit =>
      rcases hid with rfl | hid
      · exact absurd List.mem_cons_self hother
      · exact hid
  | change oldId newId unit =>
      rcases hid with rfl | hid
      · exact absurd (List.mem_cons_of_mem _ List.mem_cons_self) hother
      · exact hid.1
  | delete oldId => exact hid.1

end CoordUnitWebSocketCommand

/-- The ids that may have an entry when all commands are done. -/
def leftover (commands : List CoordUnitWebSocketCommand) (ids : Set Nat) : Set Nat :=
  commands.foldl (fun ids command => command.leaves ids) ids

theorem leftover_mono {ids ids' : Set Nat} (h : ids ⊆ ids')
    (commands : List CoordUnitWebSocketCommand) : leftover commands ids ⊆ leftover commands ids' := by
  induction commands generalizing ids ids' with
  | nil => exact h
  | cons command commands ih => exact ih (command.leaves_mono h)

theorem leftover_concat (commands : List CoordUnitWebSocketCommand)
    (command : CoordUnitWebSocketCommand) (ids : Set Nat) :
    leftover (commands ++ [command]) ids = command.leaves (leftover commands ids) := by
  simp [leftover]

/-- The coordinator does no more than its commands say. -/
theorem Live.mem_leaves_of_input {s : Live} {c : WebSockCoord} {order : HashOrder}
    {command : CoordUnitWebSocketCommand} {id : Nat}
    (h : ((c.step (s.input order command)).subscribers id).isSome = true) :
    id ∈ command.leaves {id | (c.subscribers id).isSome = true} := by
  cases command with
  | new newId unit => exact WebSockCoord.isSome_of_insert h
  | change oldId newId unit =>
      refine (WebSockCoord.isSome_of_insert h).imp_right fun hold => ?_
      obtain ⟨hid, hold⟩ := WebSockCoord.isSome_of_remove hold
      exact ⟨hold, hid⟩
  | delete oldId =>
      obtain ⟨hid, hold⟩ := WebSockCoord.isSome_of_remove h
      exact ⟨hold, hid⟩

/-! ## What a handler does -/

variable {parse : String → Option SubscribeRequest}

/-- If the first text can be read, all of them can. -/
def Readable (parse : String → Option SubscribeRequest) (texts : List String) : Prop :=
  (∀ first ∈ texts.head?, (parse first).isSome = true) → ∀ text ∈ texts, (parse text).isSome = true

theorem Readable.of_prefix {texts sent : List String} (h : Readable parse sent)
    (hpre : texts <+: sent) : Readable parse texts := by
  intro hfirst text htext
  obtain ⟨rest, rfl⟩ := hpre
  refine h ?_ text (List.mem_append_left rest htext)
  cases texts with
  | nil => cases htext
  | cons first texts => exact hfirst

/-- Else there is a text that cannot be read after some that can. -/
theorem exists_unreadable {sent : List String} (h : ¬Readable parse sent) :
    ∃ texts text, texts ++ [text] <+: sent ∧ texts ≠ [] ∧
      (∀ text ∈ texts, (parse text).isSome = true) ∧ parse text = none := by
  induction sent using List.reverseRecOn with
  | nil => exact absurd (fun _ text htext => by cases htext) h
  | append_singleton sent last ih =>
      by_cases hsent : Readable parse sent
      · -- all but the last can be read, and the first is among them
        unfold Readable at h
        push Not at h
        obtain ⟨hfirst, text, htext, hunread⟩ := h
        have hne : sent ≠ [] := by
          rintro rfl
          obtain rfl := List.mem_singleton.mp htext
          exact hunread (hfirst _ rfl)
        have hall : ∀ text ∈ sent, (parse text).isSome = true := by
          apply hsent
          intro first hmem
          apply hfirst
          rwa [List.head?_append_of_ne_nil _ hne]
        refine ⟨sent, last, List.prefix_refl _, hne, hall, ?_⟩
        rcases List.mem_append.mp htext with htext | htext
        · exact absurd (hall text htext) hunread
        · rw [← List.mem_singleton.mp htext]
          simpa using hunread
      · obtain ⟨texts, text, hpre, hrest⟩ := ih hsent
        exact ⟨texts, text, hpre.trans (List.prefix_append sent [last]), hrest⟩

namespace Socket

/-- The turns of a handler. -/
inductive Moves (parse : String → Option SubscribeRequest) (n : Nat) (up : Bool) (s : Socket) :
    Socket → Nat → Option CoordUnitWebSocketCommand → Prop
  | stay : Moves parse n up s s n none
  | first (config : String) (hstate : s.state = .connecting) :
    Moves parse n up s ⟨newConfig parse config n, s.texts ++ [config], s.ids ++ [n]⟩ (n + 1) none
  | again (config : String) (oldId : Nat) (hstate : s.state = .selecting oldId) :
    Moves parse n up s ⟨changeConfig parse config n oldId, s.texts ++ [config], s.ids ++ [n]⟩
      (n + 1) none
  | refuse (hstate : s.state = .connecting) : Moves parse n up s { s with state := .closed } n none
  | finish (currentId : Nat) (hstate : s.state = .selecting currentId) :
    Moves parse n up s { s with state := .closing currentId currentId } n none
  | send : Moves parse n up s (s.sendMsg up).1 n (s.sendMsg up).2

theorem handle_moves (n : Nat) (up : Bool) (s : Socket) (event : SocketEvent) :
    Moves parse n up s (s.handle parse n up event).1 (s.handle parse n up event).2.1
      (s.handle parse n up event).2.2 := by
  unfold handle
  split
  · exact .send
  · next config =>
      dsimp only
      split
      · next hstate => exact .first config hstate
      · next oldId hstate => exact .again config oldId hstate
      · exact .stay
  · split
    · next hstate => exact .refuse hstate
    · next currentId hstate => exact .finish currentId hstate
    · exact .stay
  · split
    · next hstate => exact .refuse hstate
    · next currentId hstate => exact .finish currentId hstate
    · exact .stay
  · split
    · next currentId hstate => exact .finish currentId hstate
    · exact .stay
  · split
    · next currentId hstate => exact .finish currentId hstate
    · exact .stay
  · exact .stay

/-- What a handler knows of its texts and ids. -/
def Valid (parse : String → Option SubscribeRequest) (s : Socket) : Prop :=
  match s.state with
  | .connecting => s.texts = [] ∧ s.ids = []
  | .subscribing id _ | .selecting id =>
    id ∈ s.ids ∧ s.texts ≠ [] ∧ ∀ text ∈ s.texts, (parse text).isSome = true
  | .changing oldId newId _ =>
    oldId ∈ s.ids ∧ newId ∈ s.ids ∧ s.texts ≠ [] ∧ ∀ text ∈ s.texts, (parse text).isSome = true
  | .closing currentId _ => currentId ∈ s.ids
  | .closed => True

/-- The entry that a handler has made, once its commands are done. -/
def current (s : Socket) : Set Nat :=
  match s.state with
  | .connecting | .subscribing .. | .closed => ∅
  | .selecting id | .changing id _ _ | .closing id _ => {id}

variable {s after : Socket} {n n' : Nat} {up : Bool} {command : Option CoordUnitWebSocketCommand}

theorem Moves.ids (h : Moves parse n up s after n' command) :
    after.ids = s.ids ∧ n' = n ∨ after.ids = s.ids ++ [n] ∧ n' = n + 1 := by
  cases h with
  | stay | refuse | finish => exact .inl ⟨rfl, rfl⟩
  | first | again => exact .inr ⟨rfl, rfl⟩
  | send =>
      refine .inl ⟨?_, rfl⟩
      unfold sendMsg
      split <;> rfl

theorem Moves.valid (h : Moves parse n up s after n' command) (hs : s.Valid parse) :
    after.Valid parse := by
  cases h with
  | stay => exact hs
  | refuse => exact trivial
  | first config hstate =>
      rw [Valid, hstate] at hs
      obtain ⟨htexts, hids⟩ := hs
      unfold newConfig
      cases hparse : parse config with
      | none => exact trivial
      | some unit => simp [Valid, htexts, hparse]
  | again config oldId hstate =>
      rw [Valid, hstate] at hs
      obtain ⟨hold, hne, hall⟩ := hs
      unfold changeConfig
      cases hparse : parse config with
      | none => simp [Valid]
      | some unit =>
          refine ⟨List.mem_append_left _ hold, List.mem_append_right _ List.mem_cons_self,
            List.append_ne_nil_of_left_ne_nil hne _, ?_⟩
          intro text htext
          rcases List.mem_append.mp htext with htext | htext
          · exact hall text htext
          · rw [List.mem_singleton.mp htext, hparse]
            rfl
  | finish currentId hstate =>
      rw [Valid, hstate] at hs
      exact hs.1
  | send =>
      unfold Valid at hs
      unfold sendMsg
      cases hstate : s.state with
      | connecting | selecting | closed => simp_all [Valid]
      | subscribing | changing | closing => cases up <;> simp_all [Valid]

/-- A command names ids of its handler. -/
theorem Moves.command_ids (h : Moves parse n up s after n' command) (hs : s.Valid parse) :
    ∀ c ∈ command, ∀ id ∈ c.ids, id ∈ after.ids := by
  cases h with
  | stay | first | again | refuse | finish => simp
  | send =>
      unfold Valid at hs
      unfold sendMsg
      cases hstate : s.state with
      | connecting | selecting | closed => simp
      | subscribing | changing | closing =>
          cases up <;> simp_all [CoordUnitWebSocketCommand.ids]

theorem Moves.command_down (h : Moves parse n false s after n' command) : command = none := by
  cases h with
  | stay | first | again | refuse | finish => rfl
  | send =>
      unfold sendMsg
      split <;> first | rfl | contradiction

/-- As long as the coordinator is there, a handler whose texts are readable leaves no entry behind. -/
theorem Moves.current (h : Moves parse n true s after n' command) (hs : s.Valid parse)
    (hreadable : Readable parse after.texts) :
    Readable parse s.texts ∧
      (command.elim s.current fun c => c.leaves s.current) ⊆ after.current := by
  cases h with
  | stay => exact ⟨hreadable, subset_rfl⟩
  | first config hstate =>
      rw [Valid, hstate] at hs
      refine ⟨?_, ?_⟩
      · rw [hs.1]
        intro _ text htext
        cases htext
      · simp [Socket.current, hstate]
  | again config oldId hstate =>
      rw [Valid, hstate] at hs
      obtain ⟨-, hne, hall⟩ := hs
      refine ⟨fun _ => hall, ?_⟩
      -- a text that cannot be read would be the one after the first that breaks the rule
      have hparse : (parse config).isSome = true := by
        refine hreadable ?_ config (List.mem_append_right _ List.mem_cons_self)
        intro first hfirst
        cases htexts : s.texts with
        | nil => exact absurd htexts hne
        | cons text texts =>
            simp only [htexts, List.cons_append, List.head?_cons, Option.mem_some_iff] at hfirst
            exact hfirst ▸ hall text (htexts ▸ List.mem_cons_self)
      obtain ⟨unit, hunit⟩ := Option.isSome_iff_exists.mp hparse
      simp [Socket.current, hstate, changeConfig, hunit]
  | refuse hstate => exact ⟨hreadable, by simp [Socket.current, hstate]⟩
  | finish currentId hstate => exact ⟨hreadable, by simp [Socket.current, hstate]⟩
  | send =>
      unfold sendMsg at hreadable ⊢
      unfold Socket.current
      cases hstate : s.state with
      | connecting | selecting | closed => simp_all
      | subscribing | changing | closing =>
          simp_all [CoordUnitWebSocketCommand.leaves]

end Socket

namespace Live

/-! ## Runs -/

/-- The entries of a handler. -/
def entries (s : Live) (socket : Socket) : Set Nat := {id | id ∈ socket.ids ∧ s.Subscribed id}

/-- What holds at any point of a run. -/
structure Kept (parse : String → Option SubscribeRequest) (s : Live) : Prop where
  ids_lt : ∀ (i : Nat) (socket : Socket), s.sockets[i]? = some socket → ∀ id ∈ socket.ids, id < s.wsCounter
  ids_own : ∀ (i j : Nat) (si sj : Socket), s.sockets[i]? = some si → s.sockets[j]? = some sj →
    ∀ id ∈ si.ids, id ∈ sj.ids → i = j
  subscribed_lt : ∀ id, s.Subscribed id → id < s.wsCounter
  commands : ∀ i command, (i, command) ∈ s.toWsCoord →
    ∃ socket : Socket, s.sockets[i]? = some socket ∧ ∀ id ∈ command.ids, id ∈ socket.ids
  down : s.coord = none → s.toWsCoord = []
  valid : ∀ (i : Nat) (socket : Socket), s.sockets[i]? = some socket → socket.Valid parse
  current : ∀ (i : Nat) (socket : Socket), s.sockets[i]? = some socket → Readable parse socket.texts →
    leftover (s.pending i) (s.entries socket) ⊆ socket.current

variable {s : Live}

theorem not_subscribed_of_down (h : s.coord = none) (id : Nat) : ¬s.Subscribed id := by
  rintro ⟨c, hc, -⟩
  rw [h] at hc
  cases hc

theorem pending_of_down (h : Kept parse s) (hdown : s.coord = none) (i : Nat) : s.pending i = [] := by
  rw [pending, h.down hdown]
  rfl

theorem entries_mono {s s' : Live} {socket socket' : Socket}
    (h : ∀ id ∈ socket'.ids, s'.Subscribed id → id ∈ socket.ids ∧ s.Subscribed id) :
    s'.entries socket' ⊆ s.entries socket :=
  fun id hid => h id hid.1 hid.2

/-- Nothing but a command makes an entry. -/
theorem Kept.shrink {s' : Live} (h : Kept parse s) (hcounter : s'.wsCounter = s.wsCounter)
    (hsockets : s'.sockets = s.sockets) (hqueue : s'.toWsCoord = s.toWsCoord)
    (hdown : s'.coord = none → s.coord = none)
    (hsubscribed : ∀ id, s'.Subscribed id → s.Subscribed id) : Kept parse s' where
  ids_lt := by rw [hcounter, hsockets]; exact h.ids_lt
  ids_own := by rw [hsockets]; exact h.ids_own
  subscribed_lt id hid := by rw [hcounter]; exact h.subscribed_lt id (hsubscribed id hid)
  commands := by rw [hqueue, hsockets]; exact h.commands
  down hnone := by rw [hqueue]; exact h.down (hdown hnone)
  valid := by rw [hsockets]; exact h.valid
  current i socket hsocket hreadable := by
    rw [hsockets] at hsocket
    rw [pending, hqueue]
    refine (leftover_mono ?_ _).trans (h.current i socket hsocket hreadable)
    exact entries_mono fun id hid hnew => ⟨hid, hsubscribed id hnew⟩

theorem kept_new : Kept parse new where
  ids_lt _ _ hsocket := by cases hsocket
  ids_own _ _ _ _ hsocket := by cases hsocket
  subscribed_lt id h := by
    obtain ⟨c, hc, hid⟩ := h
    obtain rfl := Option.some.inj hc
    cases hid
  commands _ _ h := by cases h
  down h := by cases h
  valid _ _ hsocket := by cases hsocket
  current _ _ hsocket := by cases hsocket

theorem Kept.connect (h : Kept parse s) : Kept parse (s.step parse .connect) := by
  -- the new handler has neither ids nor commands
  have hcases : ∀ {i : Nat} {socket : Socket}, (s.sockets ++ [Socket.new])[i]? = some socket →
      s.sockets[i]? = some socket ∨ i = s.sockets.length ∧ socket = .new := by
    intro i socket hsocket
    rcases Nat.lt_trichotomy i s.sockets.length with hlt | rfl | hgt
    · rw [List.getElem?_append_left hlt] at hsocket
      exact .inl hsocket
    · rw [List.getElem?_concat_length] at hsocket
      exact .inr ⟨rfl, (Option.some.inj hsocket).symm⟩
    · rw [List.getElem?_eq_none (by simp; omega)] at hsocket
      cases hsocket
  refine ⟨?_, ?_, h.subscribed_lt, ?_, h.down, ?_, ?_⟩
  · intro i socket hsocket id hid
    rcases hcases hsocket with hold | ⟨-, rfl⟩
    · exact h.ids_lt i socket hold id hid
    · cases hid
  · intro i j si sj hsi hsj id hi hj
    rcases hcases hsi with holdi | ⟨-, rfl⟩
    · rcases hcases hsj with holdj | ⟨-, rfl⟩
      · exact h.ids_own i j si sj holdi holdj id hi hj
      · cases hj
    · cases hi
  · intro i command hcommand
    obtain ⟨socket, hsocket, hids⟩ := h.commands i command hcommand
    exact ⟨socket, List.getElem?_append_left (List.getElem?_eq_some_iff.mp hsocket).1 ▸ hsocket, hids⟩
  · intro i socket hsocket
    rcases hcases hsocket with hold | ⟨-, rfl⟩
    · exact h.valid i socket hold
    · exact ⟨rfl, rfl⟩
  · intro i socket hsocket hreadable
    rcases hcases hsocket with hold | ⟨rfl, rfl⟩
    · exact h.current i socket hold hreadable
    · have hpending : (s.step parse .connect).pending s.sockets.length = [] := by
        simp only [pending, List.map_eq_nil_iff, List.filter_eq_nil_iff, decide_eq_true_eq]
        rintro ⟨i, command⟩ hcommand hi
        obtain ⟨socket, hsocket, -⟩ := h.commands i command hcommand
        have hlt := (List.getElem?_eq_some_iff.mp hsocket).1
        exact absurd hi (Nat.ne_of_lt hlt)
      rw [hpending]
      rintro id ⟨hid, -⟩
      cases hid

theorem Kept.fromReader (h : Kept parse s) (event : Option Event) :
    Kept parse (s.step parse (.fromReader event)) := by
  refine h.shrink rfl rfl rfl (fun hnone => Option.map_eq_none_iff.mp hnone) ?_
  rintro id ⟨c, hc, hid⟩
  obtain ⟨old, hold, rfl⟩ := Option.map_eq_some_iff.mp hc
  exact ⟨old, hold, WebSockCoord.isSome_of_fromReader hid⟩

theorem Kept.controllerGone (h : Kept parse s) : Kept parse (s.step parse .controllerGone) := by
  have hdown : (s.step parse .controllerGone).coord = none := rfl
  refine ⟨h.ids_lt, h.ids_own, ?_, ?_, fun _ => rfl, h.valid, ?_⟩
  · exact fun id hid => absurd hid (not_subscribed_of_down hdown id)
  · intro i command hcommand
    cases hcommand
  · rintro i socket - - id ⟨-, hid⟩
    exact absurd hid (not_subscribed_of_down hdown id)

theorem Kept.command (h : Kept parse s) (order : HashOrder) :
    Kept parse (s.step parse (.command order)) := by
  simp only [step]
  split
  · next c j command rest hcoord hqueue =>
      obtain ⟨owner, howner, hids⟩ := h.commands j command (hqueue ▸ List.mem_cons_self)
      -- the command makes an entry of its own handler at most
      have hleaves : ∀ id, ({ s with
            toWsCoord := rest, coord := some (c.step (s.input order command)) } : Live).Subscribed id →
          id ∈ command.leaves {id | s.Subscribed id} := by
        rintro id ⟨c', hc', hid⟩
        obtain rfl := Option.some.inj hc'
        refine CoordUnitWebSocketCommand.leaves_mono ?_ command (mem_leaves_of_input hid)
        exact fun id hid => ⟨c, hcoord, hid⟩
      refine ⟨h.ids_lt, h.ids_own, ?_, ?_, nofun, h.valid, ?_⟩
      · intro id hid
        by_cases hown : id ∈ command.ids
        · exact h.ids_lt j owner howner id (hids id hown)
        · exact h.subscribed_lt id (CoordUnitWebSocketCommand.mem_of_leaves (hleaves id hid) hown)
      · intro i other hother
        exact h.commands i other (hqueue ▸ List.mem_cons_of_mem _ hother)
      · intro i socket hsocket hreadable
        refine subset_trans ?_ (h.current i socket hsocket hreadable)
        by_cases hi : j = i
        · subst hi
          have hpending : s.pending j =
              command :: (rest.filter fun entry => entry.1 = j).map Prod.snd := by
            simp [pending, hqueue]
          rw [hpending]
          refine leftover_mono ?_ _
          rintro id ⟨hid, hnew⟩
          have hown : id ∈ {id | id ∈ socket.ids} := hid
          refine CoordUnitWebSocketCommand.leaves_mono ?_ command
            (CoordUnitWebSocketCommand.leaves_inter (hleaves id hnew) hown)
          exact fun id hid => ⟨hid.2, hid.1⟩
        · have hpending : s.pending i = (rest.filter fun entry => entry.1 = i).map Prod.snd := by
            simp [pending, hqueue, hi]
          rw [hpending]
          refine leftover_mono (entries_mono fun id hid hnew => ⟨hid, ?_⟩) _
          apply CoordUnitWebSocketCommand.mem_of_leaves (hleaves id hnew)
          exact fun hown => hi (h.ids_own j i owner socket howner hsocket id (hids id hown) hid)
  · exact h

/-- What a handler does to the channels makes no entry. -/
theorem onChannels_isSome (before after : SocketState) (event : SocketEvent) (c : WebSockCoord)
    (id : Nat) :
    ((onChannels before after event c).subscribers id).isSome = (c.subscribers id).isSome := by
  have hangUps : ∀ (ids : List Nat) (c : WebSockCoord),
      ((ids.foldl (fun c id => c.step (.hangUp id)) c).subscribers id).isSome =
        (c.subscribers id).isSome := by
    intro ids
    induction ids with
    | nil => exact fun c => rfl
    | cons dropped ids ih => exact fun c => (ih _).trans (WebSockCoord.onChannel_isSome _ _)
  unfold onChannels
  dsimp only
  rw [hangUps]
  split
  · exact WebSockCoord.onChannel_isSome _ _
  · rfl

theorem pending_append {wsCounter : Nat} {sockets : List Socket} {coord : Option WebSockCoord}
    (i j : Nat) (command : Option CoordUnitWebSocketCommand) :
    (Live.mk wsCounter sockets (s.toWsCoord ++ command.toList.map (i, ·)) coord).pending j =
      s.pending j ++ if j = i then command.toList else [] := by
  rw [pending, List.filter_append, List.map_append]
  congr 1
  cases command with
  | none => simp
  | some c =>
      by_cases hj : j = i
      · simp [hj]
      · simp [hj, Ne.symm hj]

theorem Kept.moves (h : Kept parse s) {i : Nat} {socket after : Socket} {wsCounter : Nat}
    {command : Option CoordUnitWebSocketCommand} {coord : Option WebSockCoord}
    (hsocket : s.sockets[i]? = some socket)
    (hmoves : socket.Moves parse s.wsCounter s.coord.isSome after wsCounter command)
    (hdown : coord = none ↔ s.coord = none)
    (hsubscribed : ∀ id, (Live.mk wsCounter (s.sockets.set i after)
      (s.toWsCoord ++ command.toList.map (i, ·)) coord).Subscribed id → s.Subscribed id) :
    Kept parse ⟨wsCounter, s.sockets.set i after, s.toWsCoord ++ command.toList.map (i, ·), coord⟩ := by
  have hlt := (List.getElem?_eq_some_iff.mp hsocket).1
  have hvalid := hmoves.valid (h.valid i socket hsocket)
  have hcases : ∀ {j : Nat} {sj : Socket}, (s.sockets.set i after)[j]? = some sj →
      j = i ∧ sj = after ∨ j ≠ i ∧ s.sockets[j]? = some sj := by
    intro j sj hsj
    by_cases hj : j = i
    · subst hj
      rw [List.getElem?_set_self hlt] at hsj
      exact .inl ⟨rfl, (Option.some.inj hsj).symm⟩
    · rw [List.getElem?_set_ne (Ne.symm hj)] at hsj
      exact .inr ⟨hj, hsj⟩
  -- the ids of the handler are the old ones, and the counter if it was drawn
  have hcounter : s.wsCounter ≤ wsCounter ∧ (∀ id ∈ socket.ids, id ∈ after.ids) ∧
      ∀ id ∈ after.ids, id ∈ socket.ids ∨ id = s.wsCounter ∧ s.wsCounter < wsCounter := by
    rcases hmoves.ids with ⟨hids, rfl⟩ | ⟨hids, rfl⟩
    · rw [hids]
      exact ⟨le_refl _, fun id hid => hid, fun id hid => .inl hid⟩
    · rw [hids]
      refine ⟨Nat.le_succ _, fun id hid => List.mem_append_left _ hid, fun id hid => ?_⟩
      rcases List.mem_append.mp hid with hid | hid
      · exact .inl hid
      · exact .inr ⟨List.mem_singleton.mp hid, Nat.lt_succ_self _⟩
  obtain ⟨hle, hkeep, hdrawn⟩ := hcounter
  refine ⟨?_, ?_, ?_, ?_, ?_, ?_, ?_⟩
  · intro j sj hsj id hid
    rcases hcases hsj with ⟨rfl, rfl⟩ | ⟨-, hold⟩
    · rcases hdrawn id hid with hid | ⟨rfl, hnew⟩
      · exact (h.ids_lt j socket hsocket id hid).trans_le hle
      · exact hnew
    · exact (h.ids_lt j sj hold id hid).trans_le hle
  · -- an id that was drawn belongs to nobody else
    have hother : ∀ (j : Nat) (sj : Socket), j ≠ i → s.sockets[j]? = some sj → ∀ id ∈ after.ids,
        id ∉ sj.ids := by
      intro j sj hj hsj id hid hmem
      rcases hdrawn id hid with hid | ⟨rfl, -⟩
      · exact hj (h.ids_own j i sj socket hsj hsocket id hmem hid)
      · exact absurd (h.ids_lt j sj hsj _ hmem) (Nat.lt_irrefl _)
    intro j k sj sk hsj hsk id hj hk
    rcases hcases hsj with ⟨rfl, rfl⟩ | ⟨hne, holdj⟩
    · rcases hcases hsk with ⟨rfl, -⟩ | ⟨hne', holdk⟩
      · rfl
      · exact absurd hk (hother k sk hne' holdk id hj)
    · rcases hcases hsk with ⟨rfl, rfl⟩ | ⟨-, holdk⟩
      · exact absurd hj (hother j sj hne holdj id hk)
      · exact h.ids_own j k sj sk holdj holdk id hj hk
  · exact fun id hid => (h.subscribed_lt id (hsubscribed id hid)).trans_le hle
  · intro j c hc
    have hafter : (s.sockets.set i after)[i]? = some after := List.getElem?_set_self hlt
    rcases List.mem_append.mp hc with hc | hc
    · obtain ⟨sj, hsj, hids⟩ := h.commands j c hc
      by_cases hj : j = i
      · subst hj
        rw [hsocket] at hsj
        obtain rfl := Option.some.inj hsj
        exact ⟨after, hafter, fun id hid => hkeep id (hids id hid)⟩
      · exact ⟨sj, (List.getElem?_set_ne (Ne.symm hj)).trans hsj, hids⟩
    · obtain ⟨c', hc', heq⟩ := List.mem_map.mp hc
      obtain ⟨rfl, rfl⟩ := Prod.mk.inj heq
      exact ⟨after, hafter, hmoves.command_ids (h.valid i socket hsocket) c' (by simpa using hc')⟩
  · intro hnone
    have hold := hdown.mp hnone
    rw [hold] at hmoves
    show s.toWsCoord ++ _ = []
    rw [hmoves.command_down, h.down hold]
    rfl
  · intro j sj hsj
    rcases hcases hsj with ⟨rfl, rfl⟩ | ⟨-, hold⟩
    · exact hvalid
    · exact h.valid j sj hold
  · intro j sj hsj hreadable
    have hpending : (Live.mk wsCounter (s.sockets.set i after)
        (s.toWsCoord ++ command.toList.map (i, ·)) coord).pending j =
          s.pending j ++ if j = i then command.toList else [] := pending_append i j command
    rw [hpending]
    rcases hcases hsj with ⟨rfl, rfl⟩ | ⟨hne, hold⟩
    · rw [if_pos rfl]
      have hentries : entries _ sj ⊆ s.entries socket := entries_mono fun id hid hnew => by
        have hs := hsubscribed id hnew
        rcases hdrawn id hid with hid | ⟨rfl, -⟩
        · exact ⟨hid, hs⟩
        · exact absurd (h.subscribed_lt _ hs) (Nat.lt_irrefl _)
      cases hup : s.coord with
      | none =>
          -- nothing is left of a coordinator that is gone
          rw [hup] at hmoves
          rw [hmoves.command_down, pending_of_down h hup]
          rintro id ⟨-, hid⟩
          exact absurd (hsubscribed id hid) (not_subscribed_of_down hup id)
      | some c =>
          rw [hup] at hmoves
          obtain ⟨hold, hcurrent⟩ := hmoves.current (h.valid j socket hsocket) hreadable
          have hbefore := (leftover_mono hentries _).trans (h.current j socket hsocket hold)
          refine subset_trans ?_ hcurrent
          cases command with
          | none =>
              rw [Option.toList_none, List.append_nil]
              exact hbefore
          | some c =>
              rw [Option.toList_some, leftover_concat]
              exact c.leaves_mono hbefore
    · rw [if_neg hne, List.append_nil]
      refine subset_trans (leftover_mono ?_ _) (h.current j sj hold hreadable)
      exact entries_mono fun id hid hnew => ⟨hid, hsubscribed id hnew⟩

theorem Kept.socket (h : Kept parse s) (i : Nat) (event : SocketEvent) :
    Kept parse (s.step parse (.socket i event)) := by
  simp only [step]
  split
  · next socket hsocket =>
      refine h.moves hsocket (socket.handle_moves s.wsCounter s.coord.isSome event)
        Option.map_eq_none_iff ?_
      rintro id ⟨c, hc, hid⟩
      obtain ⟨old, hold, rfl⟩ := Option.map_eq_some_iff.mp hc
      exact ⟨old, hold, by rwa [onChannels_isSome] at hid⟩
  · exact h

theorem Kept.step (h : Kept parse s) (a : LiveStep) : Kept parse (s.step parse a) := by
  cases a with
  | connect => exact h.connect
  | socket i event => exact h.socket i event
  | command order => exact h.command order
  | fromReader event => exact h.fromReader event
  | controllerGone => exact h.controllerGone

theorem kept_run (parse : String → Option SubscribeRequest) (steps : List LiveStep) :
    Kept parse (run parse steps) := by
  induction steps using List.reverseRecOn with
  | nil => exact kept_new
  | append_singleton steps a ih =>
      rw [run, List.foldl_append]
      exact ih.step a

/-! ## A text that cannot be read -/

/-- The only handler is in its loop, and the coordinator has its entry and no commands. -/
structure Alone (s : Live) (id : Nat) (texts : List String) : Prop where
  sockets : ∃ ids, s.sockets = [⟨.selecting id, texts, ids⟩] ∧ id ∈ ids
  lt : id < s.wsCounter
  queue : s.toWsCoord = []
  coord : ∃ c, s.coord = some c ∧ c.nodes = ∅ ∧ c.devises = ∅ ∧ c.values = ∅ ∧
    (c.subscribers id).isSome = true

/-- A coordinator that knows nothing has nothing to write, so a subscriber stays. -/
theorem insert_of_empty {c : WebSockCoord} (hnodes : c.nodes = ∅) (hdevises : c.devises = ∅)
    (hvalues : c.values = ∅) (id : Nat) (req : SubscribeRequest) (isOpen : Bool) :
    c.insert asListed id (.new req (.new isOpen)) =
      { c with subscribers := Function.update c.subscribers id (some (.new req (.new isOpen))) } := by
  simp [WebSockCoord.insert, WebSockCoord.firstWrite, hnodes, hdevises, hvalues, asListed,
    CoordUnitWebSocketData.flush, CoordUnitWebSocketData.Flushed, CoordUnitWebSocketData.new]

/-- A text is read, the command that follows is sent, and the coordinator takes it. -/
def takeText (text : String) : List LiveStep :=
  [.socket 0 (.text text), .socket 0 .ready, .command asListed]

theorem run_append (steps more : List LiveStep) :
    run parse (steps ++ more) = more.foldl (Live.step parse) (run parse steps) :=
  List.foldl_append

theorem alone_first {text : String} (htext : (parse text).isSome = true) :
    (run parse (.connect :: takeText text)).Alone 0 [text] := by
  obtain ⟨unit, hunit⟩ := Option.isSome_iff_exists.mp htext
  have hrun : run parse (.connect :: takeText text) =
      ⟨1, [⟨.selecting 0, [text], [0]⟩], [],
        some (WebSockCoord.new.insert asListed 0 (.new unit (.new true)))⟩ := by
    simp [run, takeText, step, Live.new, Socket.new, Socket.handle, Socket.newConfig, hunit,
      onChannels, SocketState.receivers, Socket.sendMsg, input, isOpen, WebSockCoord.step]
  rw [hrun, insert_of_empty rfl rfl rfl]
  refine ⟨⟨[0], rfl, List.mem_singleton_self 0⟩, Nat.one_pos, rfl, _, rfl, rfl, rfl, rfl, ?_⟩
  simp

theorem Alone.again {id : Nat} {texts : List String} (h : s.Alone id texts) {text : String}
    (htext : (parse text).isSome = true) :
    ((takeText text).foldl (Live.step parse) s).Alone s.wsCounter (texts ++ [text]) := by
  obtain ⟨unit, hunit⟩ := Option.isSome_iff_exists.mp htext
  obtain ⟨⟨ids, hsockets, hid⟩, hlt, hqueue, c, hcoord, hnodes, hdevises, hvalues, hsome⟩ := h
  have hrun : (takeText text).foldl (Live.step parse) s =
      ⟨s.wsCounter + 1, [⟨.selecting s.wsCounter, texts ++ [text], ids ++ [s.wsCounter]⟩], [],
        some (((c.step (.hangUp id)).remove id).insert asListed s.wsCounter
          (.new unit (.new true)))⟩ := by
    simp [takeText, step, hsockets, hqueue, hcoord, Socket.handle, Socket.changeConfig, hunit,
      onChannels, SocketState.receivers, Socket.sendMsg, input, isOpen, WebSockCoord.step,
      Nat.ne_of_lt hlt]
  have hinsert := insert_of_empty (c := (c.step (.hangUp id)).remove id) hnodes hdevises hvalues
    s.wsCounter unit true
  rw [hrun, hinsert]
  refine ⟨⟨ids ++ [s.wsCounter], rfl, List.mem_append_right _ List.mem_cons_self⟩,
    Nat.lt_succ_self _, rfl, _, rfl, hnodes, hdevises, hvalues, ?_⟩
  simp

/-- Texts that can all be read. -/
theorem alone_of_readable {texts : List String} (hne : texts ≠ [])
    (htexts : ∀ text ∈ texts, (parse text).isSome = true) :
    ∃ steps id, (run parse steps).Alone id texts := by
  induction texts using List.reverseRecOn with
  | nil => exact absurd rfl hne
  | append_singleton texts text ih =>
      have htext := htexts text (List.mem_append_right _ List.mem_cons_self)
      by_cases hnil : texts = []
      · subst hnil
        exact ⟨_, 0, alone_first htext⟩
      · obtain ⟨steps, id, halone⟩ := ih hnil fun t ht => htexts t (List.mem_append_left _ ht)
        refine ⟨steps ++ takeText text, (run parse steps).wsCounter, ?_⟩
        rw [run_append]
        exact halone.again htext

/-- After a text that cannot be parsed the command has the new id, and the entry of the old one
stays. -/
theorem Alone.breakOff {id : Nat} {texts : List String} (h : s.Alone id texts) {text : String}
    (htext : parse text = none) :
    ∃ ids, ((takeText text).foldl (Live.step parse) s).sockets =
        [⟨.closed, texts ++ [text], ids⟩] ∧ id ∈ ids ∧
      ((takeText text).foldl (Live.step parse) s).toWsCoord = [] ∧
      ((takeText text).foldl (Live.step parse) s).Subscribed id := by
  obtain ⟨⟨ids, hsockets, hid⟩, hlt, hqueue, c, hcoord, hnodes, hdevises, hvalues, hsome⟩ := h
  have hrun : (takeText text).foldl (Live.step parse) s =
      ⟨s.wsCounter + 1, [⟨.closed, texts ++ [text], ids ++ [s.wsCounter]⟩], [],
        some ((c.step (.hangUp id)).remove s.wsCounter)⟩ := by
    simp [takeText, step, hsockets, hqueue, hcoord, Socket.handle, Socket.changeConfig, htext,
      onChannels, SocketState.receivers, Socket.sendMsg, input, WebSockCoord.step]
  rw [hrun]
  refine ⟨ids ++ [s.wsCounter], rfl, List.mem_append_left _ hid, rfl, _, rfl, ?_⟩
  show (Function.update (c.onChannel id ClientChannel.hangUp).subscribers s.wsCounter none id).isSome = _
  rw [Function.update_of_ne (Nat.ne_of_lt hlt), WebSockCoord.onChannel_isSome]
  exact hsome

end Live

/-! ## The result -/

/-- When a handler has read some of the texts that its client sends, and has ended for whatever
reason, and its commands are done, then the coordinator has no entry of it: in every run, whatever the
other clients and the controller do, exactly if all texts can be read or the first one cannot. -/
theorem closed_socket_unsubscribed_iff (parse : String → Option SubscribeRequest)
    (sent : List String) :
    (∀ (steps : List LiveStep) (i : Nat) (socket : Socket),
      (Live.run parse steps).sockets[i]? = some socket → socket.texts <+: sent →
        socket.state = .closed → (Live.run parse steps).pending i = [] →
          ∀ id ∈ socket.ids, ¬(Live.run parse steps).Subscribed id) ↔
      Readable parse sent := by
  constructor
  · intro hall
    by_contra hnot
    obtain ⟨texts, text, hpre, hne, htexts, htext⟩ := exists_unreadable hnot
    obtain ⟨steps, id, halone⟩ := Live.alone_of_readable hne htexts
    obtain ⟨ids, hsockets, hid, hqueue, hsubscribed⟩ := halone.breakOff htext
    rw [← Live.run_append] at hsockets hqueue hsubscribed
    refine hall _ 0 ⟨.closed, texts ++ [text], ids⟩ ?_ hpre rfl ?_ id hid hsubscribed
    · rw [hsockets]
      rfl
    · rw [Live.pending, hqueue]
      rfl
  · intro hreadable steps i socket hsocket hpre hclosed hpending id hid hsubscribed
    have hcurrent := (Live.kept_run parse steps).current i socket hsocket
      (hreadable.of_prefix hpre)
    rw [hpending, Socket.current, hclosed] at hcurrent
    exact hcurrent ⟨hid, hsubscribed⟩

/-- A parser that reads the request for nothing only. -/
def parseNothing (text : String) : Option SubscribeRequest :=
  if text = "{}" then some ⟨[], [], []⟩ else none

/-- A client subscribes, and then it sends a text that is no request. -/
def garbled : List LiveStep := .connect :: Live.takeText "{}" ++ Live.takeText "x"

theorem closed_socket_stays : ∃ socket, (Live.run parseNothing garbled).sockets[0]? = some socket ∧
    socket.texts = ["{}", "x"] ∧ socket.state = .closed ∧
      (Live.run parseNothing garbled).pending 0 = [] ∧
        ∃ id ∈ socket.ids, (Live.run parseNothing garbled).Subscribed id := by
  have halone : (Live.run parseNothing (.connect :: Live.takeText "{}")).Alone 0 ["{}"] :=
    Live.alone_first rfl
  obtain ⟨ids, hsockets, hid, hqueue, hsubscribed⟩ :=
    halone.breakOff (show parseNothing "x" = none from rfl)
  rw [← Live.run_append] at hsockets hqueue hsubscribed
  refine ⟨⟨.closed, ["{}", "x"], ids⟩, ?_, rfl, rfl, ?_, 0, hid, hsubscribed⟩
  · show (Live.run parseNothing (.connect :: Live.takeText "{}" ++ Live.takeText "x")).sockets[0]? = _
    rw [hsockets]
    rfl
  · show (Live.run parseNothing (.connect :: Live.takeText "{}" ++ Live.takeText "x")).pending 0 = []
    rw [Live.pending, hqueue]
    rfl

end ModbusLogger.WebSockets
