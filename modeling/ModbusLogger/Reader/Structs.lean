import ModbusLogger.Lib.Binary64

/-!
# What the reader sends to the controller (`reader/structs`, `messages`)
-/

namespace ModbusLogger.Reader

/-- One decoded value. `valueId` is a `u32`, `measureTime` an `i64` of whole seconds. -/
structure ModbusMeasure where
  measureValue : Binary64
  isLogging : Bool
  valueId : Nat
  tag : String
  measureTime : Int
  deriving DecidableEq, Repr

inductive DeviceEventType where
  | full
  | somePart
  | failed
  deriving DecidableEq, Repr

/-- The measures of one poll of the device `id`. -/
structure DeviceEvent where
  event : DeviceEventType
  id : Int
  measures : List ModbusMeasure
  deriving DecidableEq, Repr

inductive NodeEventType where
  | connected
  | unConnected
  | connecting
  deriving DecidableEq, Repr

structure NodeEvent where
  id : Int
  ip : String
  event : NodeEventType
  deriving DecidableEq, Repr

inductive Event where
  | nodeEvent (event : NodeEvent)
  | deviceEvent (event : DeviceEvent)
  deriving DecidableEq, Repr

/-- The requests of a node: its devices, and the values of a device. -/
inductive Request where
  | getDeviceByNode (nodeId : Int)
  | getValueByDeviceId (deviceId : Int)
  deriving DecidableEq, Repr

/-- Nodes send no commands. -/
inductive MainMsg where
  | event (event : Event)
  | request (request : Request)
  deriving DecidableEq, Repr

/-- The device event that a message carries. -/
def MainMsg.deviceEvent? : MainMsg → Option DeviceEvent
  | .event (.deviceEvent ev) => some ev
  | _ => none

end ModbusLogger.Reader
