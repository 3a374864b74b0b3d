import ModbusLogger.Api.WebSockets.WebSockCoord
import ModbusLogger.Db.Hasher.DbMeasureUnit
import ModbusLogger.Db.Worker.UserGroupWorker

/-!
# Reading groups, subgroups and measures (`user_group_worker.rs`, `user_sub_group_workers.rs`)

The queries of the routes that are open to every user. A query without `ORDER BY` gives the rows in
the order of a table, or in any order where the table has no key of one column.
-/

namespace ModbusLogger.Db

open WebSockets Hasher

variable {J : Type}

/-! ## Groups -/

def getAllGroups (db : Database J) : List UserGroupRead :=
  db.groups.userGroups.rows.map fun r => r.2.read r.1

/-- The join with `user_group_access`. -/
def getGroupByUserId (db : Database J) (userId : Int) : List UserGroupRead :=
  (db.groups.userGroups.select fun id _ => ⟨userId, id⟩ ∈ db.groups.userGroupAccess).map fun r =>
    r.2.read r.1

def getByGroupId (db : Database J) (groupId : Int) : List UserSubGroupRead :=
  (db.groups.userSubgroups.select fun _ row => row.groupId = groupId).map fun r => r.2.read r.1

/-! ## The page of a group -/

structure ValueWithSubgroup (J : Type) where
  subgroupId : Int
  id : Int
  row : ValueRow J
  nodeId : Option Int

def ValueWithSubgroup.value (r : ValueWithSubgroup J) : ValueRead J where
  id := r.id
  parentDeviceId := r.row.parentDeviceId
  valueName := r.row.valueName.getD ""
  valueTag := r.row.valueTag
  description := r.row.description
  decodingType := r.row.decodingType
  settings := r.row.settings
  isLogging := r.row.isLogging

/-- A value with the node of its device. -/
def joinDevice (db : Database J) (valueUnitId : Int) : Option (ValueRow J × Option Int) := do
  let row ← db.main.valueUnits.get? valueUnitId
  let device ← db.main.devices.get? row.parentDeviceId
  return (row, device.parentNodeId)

def valuesWithSubgroup (db : Database J) (subgroupIds : List Int) : List (ValueWithSubgroup J) :=
  (db.groups.subgroupValues.filter fun r => r.subgroupId ∈ subgroupIds).filterMap fun r =>
    (joinDevice db r.valueUnitId).map fun (row, nodeId) =>
      ⟨r.subgroupId, r.valueUnitId, row, nodeId⟩

structure UiUserSubGroupsRead (J : Type) where
  groupState : UserSubGroupRead
  values : List (ValueRead J)

structure UiUserGroupRead (J : Type) where
  id : Int
  subGroups : List (UiUserSubGroupsRead J)
  nodes : List Int
  devices : List Int

/-- The nodes and the devices come out of hash sets. -/
def uiGetGroup (order : HashOrder) (db : Database J) (id : Int) : Option (UiUserGroupRead J) :=
  let subgroups := getByGroupId db id
  if subgroups.isEmpty then none
  else
    let rows := valuesWithSubgroup db (subgroups.map (·.id))
    some {
      id
      subGroups := subgroups.map fun subgroup =>
        ⟨subgroup, (rows.filter (·.subgroupId = subgroup.id)).map (·.value)⟩
      nodes := order.order (rows.filterMap (·.nodeId)).dedup
      devices := order.order (rows.map (·.row.parentDeviceId)).dedup }

/-! ## The values of subgroups -/

structure GetSubgroupAssign where
  id : Int
  valuesId : List Int
  deriving DecidableEq, Repr

/-- The rows of the subgroup. -/
def valuesOfSubgroup (db : Database J) (subgroupId : Int) : List Int :=
  (db.groups.subgroupValues.filter (·.subgroupId = subgroupId)).map (·.valueUnitId)

/-- One query for each subgroup, whose rows come in any order. -/
def uiGetSubgroupsAssign (order : HashOrder) (db : Database J) (subgroupIds : List Int) :
    List GetSubgroupAssign :=
  subgroupIds.map fun id => ⟨id, order.order (valuesOfSubgroup db id)⟩

/-! ## Measures -/

def MeasureRow.entry (row : MeasureRow) : Int × HashedValue :=
  (row.valueId, ⟨row.measureValue, row.measureTime⟩)

/-- What the API reads: the database, and the rings of the measure master. -/
structure Store (J : Type) where
  db : Database J
  hashedMap : HashedMap

def Store.measureMaster (s : Store J) : MeasureMaster :=
  ⟨s.hashedMap, .new (s.db.main.measures.rows.map fun r => r.2.entry)⟩

end ModbusLogger.Db
