import ModbusLogger.Lib.Binary64
import ModbusLogger.Lib.Table

/-!
# Rows and commands (`db/schemas`, `db/db_init/init_database.rs`)

A row is what stands in a table beside the key. The `Read` structures are what a query returns. `J` is
the type of JSON values.
-/

namespace ModbusLogger.Db

/-! ## Nodes -/

structure NodeRow where
  ip : String
  port : Option Int
  description : Option String
  deriving DecidableEq, Repr

structure NodeRead where
  id : Int
  ip : String
  port : Option Int
  description : Option String
  deriving DecidableEq, Repr

def NodeRow.read (id : Int) (row : NodeRow) : NodeRead := ⟨id, row.ip, row.port, row.description⟩

structure NodeCreate where
  ip : String
  port : Option Int
  description : Option String
  deriving DecidableEq, Repr

structure NodeUpdate where
  id : Int
  ip : Option String
  port : Option Int
  description : Option String
  deriving DecidableEq, Repr

structure NodeDelete where
  id : Int
  deriving DecidableEq, Repr

/-! ## Devices -/

/-- `parentNodeId` is `NULL` once the node is gone. `deleted` has a default and is never `NULL`. -/
structure DeviceRow where
  parentNodeId : Option Int
  deviceName : Option String
  address : Int
  timeForRecall : Int
  timeout : Int
  retryCount : Int
  isActive : Bool
  readByGroup : Bool
  description : Option String
  deleted : Bool
  deletedAt : Option Int
  deriving DecidableEq, Repr

structure DeviceRead where
  id : Int
  deviceName : Option String
  address : Int
  parentNodeId : Int
  timeForRecall : Int
  timeout : Int
  retryCount : Int
  isActive : Bool
  readByGroup : Bool
  description : Option String
  deleted : Option Bool
  deletedAt : Option Int
  deriving DecidableEq, Repr

/-- A `NULL` in a column that is not optional cannot be decoded. -/
def DeviceRow.read? (id : Int) (row : DeviceRow) : Option DeviceRead :=
  row.parentNodeId.map fun parentNodeId =>
    { id, parentNodeId
      deviceName := row.deviceName
      address := row.address
      timeForRecall := row.timeForRecall
      timeout := row.timeout
      retryCount := row.retryCount
      isActive := row.isActive
      readByGroup := row.readByGroup
      description := row.description
      deleted := some row.deleted
      deletedAt := row.deletedAt }

structure DeviceCreate where
  deviceName : String
  address : Int
  parentNodeId : Int
  timeForRecall : Int
  timeout : Int
  retryCount : Int
  isActive : Bool
  readByGroup : Bool
  description : Option String
  deriving DecidableEq, Repr

structure DeviceUpdate where
  id : Int
  deviceName : Option String
  address : Option Int
  parentNodeId : Option Int
  timeForRecall : Option Int
  timeout : Option Int
  retryCount : Option Int
  isActive : Option Bool
  readByGroup : Option Bool
  description : Option String
  deriving DecidableEq, Repr

structure DeviceDelete where
  id : Int
  deriving DecidableEq, Repr

/-! ## Values -/

structure ValueRow (J : Type) where
  parentDeviceId : Int
  valueName : Option String
  valueTag : String
  description : Option String
  decodingType : Int
  settings : J
  isLogging : Bool
  deriving DecidableEq, Repr

structure ValueRead (J : Type) where
  id : Int
  parentDeviceId : Int
  valueName : String
  valueTag : String
  description : Option String
  decodingType : Int
  settings : J
  isLogging : Bool
  deriving DecidableEq, Repr

def ValueRow.read? {J : Type} (id : Int) (row : ValueRow J) : Option (ValueRead J) :=
  row.valueName.map fun valueName =>
    { id, valueName
      parentDeviceId := row.parentDeviceId
      valueTag := row.valueTag
      description := row.description
      decodingType := row.decodingType
      settings := row.settings
      isLogging := row.isLogging }

/-- The columns that an update looks at. -/
structure ReadVal where
  id : Int
  decodingType : Int
  isLogging : Bool
  deriving DecidableEq, Repr

structure ValueCreate (J : Type) where
  parentDeviceId : Int
  valueName : String
  valueTag : String
  description : Option String
  decodingType : Int
  settings : J
  isLogging : Bool
  deriving DecidableEq, Repr

structure ValueUpdate (J : Type) where
  id : Int
  parentDeviceId : Option Int
  valueName : Option String
  valueTag : Option String
  description : Option String
  decodingType : Option Int
  settings : Option J
  isLogging : Option Bool
  deriving DecidableEq, Repr

structure ValueDelete where
  id : Int
  deriving DecidableEq, Repr

/-! ## Measures -/

structure MeasureRow where
  valueId : Int
  measureValue : Binary64
  measureTime : Int
  deriving DecidableEq, Repr

/-! ## The tables -/

structure Tables (J : Type) where
  nodes : Table NodeRow
  devices : Table DeviceRow
  valueUnits : Table (ValueRow J)
  measures : Table MeasureRow

def Tables.empty {J : Type} : Tables J := ⟨.empty, .empty, .empty, .empty⟩

/-- The keys of `decoding_type`: `ComaShift`, `SatecDoubleRegistersInt32` and `BitInWord`. -/
def decodingTypes : List Int := [1, 2, 3]

end ModbusLogger.Db
