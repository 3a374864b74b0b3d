import ModbusLogger.Lib.Replica
import ModbusLogger.Reader.Structs
import Std.Data.HashSet

/-!
# The subscription of a live socket (`api/web_sockets/live_socket_unit.rs`)

A unit collects the changes that its client asked for and hands them to the channel of the client as
one text. The text is kept as its content here, and writing it down does not fail. How it writes a
number is left to the one who reads it: JSON has `null` for all that is not finite.
-/

namespace ModbusLogger.WebSockets

open Reader

/-! ## What a client is sent -/

structure NodeChange where
  id : Int
  state : NodeEventType
  deriving DecidableEq, Repr

structure DeviceChange where
  id : Int
  state : DeviceEventType
  deriving DecidableEq, Repr

structure ValueChange where
  tag : String
  value : Binary64
  deriving DecidableEq, Repr

structure FlushPayload where
  nodes : List NodeChange
  devices : List DeviceChange
  values : List ValueChange
  deriving DecidableEq, Repr

/-- The text of a payload: empty lists are left out. -/
structure Message where
  nodes : Option (List (Int × NodeEventType))
  devices : Option (List (Int × DeviceEventType))
  values : Option (List (String × Binary64))
  deriving DecidableEq, Repr

/-- `skip_serializing_if = "Vec::is_empty"` -/
def skipIfEmpty {α : Type*} (l : List α) : Option (List α) := if l.isEmpty then none else some l

theorem skipIfEmpty_getD {α : Type*} (l : List α) : (skipIfEmpty l).getD [] = l := by
  cases l <;> rfl

/-- `serde_json::to_string` -/
def FlushPayload.toMessage (p : FlushPayload) : Message where
  nodes := skipIfEmpty (p.nodes.map fun c => (c.id, c.state))
  devices := skipIfEmpty (p.devices.map fun c => (c.id, c.state))
  values := skipIfEmpty (p.values.map fun c => (c.tag, c.value))

/-! ## The channel of a client -/

/-- A channel with two places. No function depends on the last two fields: what the channel has
accepted so far, and whether it ever rejected something. -/
structure ClientChannel where
  queue : List Message
  isOpen : Bool
  accepted : List Message
  rejected : Bool
  deriving DecidableEq, Repr

namespace ClientChannel

def new (isOpen : Bool) : ClientChannel := ⟨[], isOpen, [], false⟩

/-- A full channel rejects a message, and so does one whose receiver is gone. -/
def trySend (c : ClientChannel) (msg : Message) : ClientChannel × Bool :=
  if c.isOpen ∧ c.queue.length < 2 then
    ({ c with queue := c.queue ++ [msg], accepted := c.accepted ++ [msg] }, true)
  else ({ c with rejected := true }, false)

/-- The client takes a message. -/
def receive (c : ClientChannel) : ClientChannel := { c with queue := c.queue.tail }

/-- The client goes away. -/
def hangUp (c : ClientChannel) : ClientChannel := { c with isOpen := false }

end ClientChannel

/-! ## The unit -/

structure SubscribeRequest where
  values : List String
  nodes : List Int
  devices : List Int
  deriving DecidableEq, Repr

structure CoordUnitWebSocketData where
  tags : Std.HashSet String
  devises : Std.HashSet Int
  nodes : Std.HashSet Int
  sendChanel : ClientChannel
  nodesChange : List NodeChange
  deviseChange : List DeviceChange
  valueChange : List ValueChange

namespace CoordUnitWebSocketData

/-- A request that was read, with the sending half of a new channel. -/
def new (req : SubscribeRequest) (sendChanel : ClientChannel) : CoordUnitWebSocketData where
  tags := .ofList req.values
  devises := .ofList req.devices
  nodes := .ofList req.nodes
  sendChanel
  nodesChange := []
  deviseChange := []
  valueChange := []

def nodeEvents (u : CoordUnitWebSocketData) (id : Int) (state : NodeEventType) :
    CoordUnitWebSocketData :=
  if u.nodes.contains id then { u with nodesChange := u.nodesChange ++ [⟨id, state⟩] } else u

def deviceEvents (u : CoordUnitWebSocketData) (id : Int) (state : DeviceEventType) :
    CoordUnitWebSocketData :=
  if u.devises.contains id then { u with deviseChange := u.deviseChange ++ [⟨id, state⟩] } else u

def valueEvents (u : CoordUnitWebSocketData) (tag : String) (value : Binary64) :
    CoordUnitWebSocketData :=
  if u.tags.contains tag then { u with valueChange := u.valueChange ++ [⟨tag, value⟩] } else u

def payload (u : CoordUnitWebSocketData) : FlushPayload :=
  ⟨u.nodesChange, u.deviseChange, u.valueChange⟩

/-- Nothing waits to be sent. -/
def Flushed (u : CoordUnitWebSocketData) : Prop :=
  u.nodesChange = [] ∧ u.deviseChange = [] ∧ u.valueChange = []

instance (u : CoordUnitWebSocketData) : Decidable u.Flushed := inferInstanceAs (Decidable (_ ∧ _))

/-- Whether the unit stays alive. The lists are cleared in any case. -/
def flush (u : CoordUnitWebSocketData) : CoordUnitWebSocketData × Bool :=
  if u.Flushed then (u, true)
  else
    let sent := u.sendChanel.trySend u.payload.toMessage
    ({ u with sendChanel := sent.1, nodesChange := [], deviseChange := [], valueChange := [] },
      sent.2)

end CoordUnitWebSocketData

/-! ## What a client sees -/

/-- The states that a client has been told, the latest of each key, with the values as written. -/
structure View (N : Type) where
  nodes : Int → Option NodeEventType
  devices : Int → Option DeviceEventType
  tags : String → Option N

namespace View

variable {N : Type} (write : Binary64 → N)

def empty : View N := ⟨fun _ => none, fun _ => none, fun _ => none⟩

/-- Reads one message. -/
def read (v : View N) (msg : Message) : View N where
  nodes := Replica.apply v.nodes (msg.nodes.getD [])
  devices := Replica.apply v.devices (msg.devices.getD [])
  tags := Replica.apply v.tags ((msg.values.getD []).map fun c => (c.1, write c.2))

/-- Reads messages in order. -/
def replay (msgs : List Message) : View N := msgs.foldl (read write) empty

theorem replay_concat (msgs : List Message) (msg : Message) :
    replay write (msgs ++ [msg]) = (replay write msgs).read write msg := by
  rw [replay, List.foldl_append]
  rfl

end View

end ModbusLogger.WebSockets
