import ModbusLogger.Reader.PoolIterator

/-!
# Modbus devices (`modbus_device/modbus_device_unit.rs`)
-/

namespace ModbusLogger.Reader

open FixedWidth

/-- The columns of a row of `devices` that the reader uses. -/
structure DeviceRead where
  id : Int
  address : Int
  timeForRecall : Int
  timeout : Int
  retryCount : Int
  isActive : Bool
  readByGroup : Bool
  deriving DecidableEq

/-- `nextReadAt` is in milliseconds since the epoch. -/
structure ModbusDeviceUnit where
  id : Int
  address : Int
  timeForRecall : Int
  timeout : Nat
  retryCount : Int
  isActive : Bool
  readByGroup : Bool
  nextReadAt : Nat
  valuePool : PollValueIterator
  deriving DecidableEq

namespace ModbusDeviceUnit

/-- `time` is the clock in milliseconds; a clock before the epoch panics. -/
def new (setting : DeviceRead) (time : Option Nat) : Option ModbusDeviceUnit := do
  let nextReadAt ← time
  return {
    id := setting.id
    address := setting.address
    timeout := asU64 setting.timeout
    timeForRecall := setting.timeForRecall
    retryCount := setting.retryCount
    isActive := setting.isActive
    readByGroup := setting.readByGroup
    nextReadAt
    valuePool := .new }

/-- The `u8` that goes on the wire. -/
def slave (d : ModbusDeviceUnit) : Nat := asU8 d.address

def increaseTimeout (d : ModbusDeviceUnit) : ModbusDeviceUnit :=
  { d with timeout := addU64 d.timeout 50 }

def totalSteps (d : ModbusDeviceUnit) : Nat := d.valuePool.totalSteps

def setValues {J : Type*} (env : Settings J) (d : ModbusDeviceUnit) (values : List (ValueRead J)) :
    Option ModbusDeviceUnit :=
  (PollValueIterator.init env values d.readByGroup).map fun valuePool => { d with valuePool }

def finished (d : ModbusDeviceUnit) (time : Option Nat) : Option ModbusDeviceUnit :=
  time.map fun time => { d with nextReadAt := addU64 time (asU64 d.timeForRecall) }

def whenNext (d : ModbusDeviceUnit) : Nat := d.nextReadAt

end ModbusDeviceUnit

end ModbusLogger.Reader
