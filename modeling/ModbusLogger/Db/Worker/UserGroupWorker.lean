import ModbusLogger.Db.Statements
import ModbusLogger.Db.Worker.UserWorker

/-!
# Groups, subgroups and assignments (`db/worker/user_group_worker.rs`, `user_sub_group_workers.rs`,
`assign_worker.rs`)

The rows, the statements on them and the commands that issue them. The foreign keys refer to the users
and to the values, so a statement sees the whole database.
-/

namespace ModbusLogger.Db

open Program

/-! ## Rows and commands -/

structure UserGroupRow where
  groupName : String
  description : Option String
  deriving DecidableEq, Repr

structure UserGroupRead where
  id : Int
  groupName : String
  description : Option String
  deriving DecidableEq, Repr

def UserGroupRow.read (id : Int) (row : UserGroupRow) : UserGroupRead :=
  ⟨id, row.groupName, row.description⟩

structure UserGroupCreate where
  groupName : String
  description : Option String
  deriving DecidableEq, Repr

structure UserGroupUpdate where
  id : Int
  groupName : Option String
  description : Option String
  deriving DecidableEq, Repr

structure UserGroupDelete where
  id : Int
  deriving DecidableEq, Repr

structure UserSubGroupRow where
  groupId : Int
  subgroupName : String
  description : Option String
  deriving DecidableEq, Repr

structure UserSubGroupRead where
  id : Int
  groupId : Int
  subgroupName : String
  description : Option String
  deriving DecidableEq, Repr

def UserSubGroupRow.read (id : Int) (row : UserSubGroupRow) : UserSubGroupRead :=
  ⟨id, row.groupId, row.subgroupName, row.description⟩

structure UserSubGroupCreate where
  groupId : Int
  subgroupName : String
  description : Option String
  deriving DecidableEq, Repr

structure UserSubGroupUpdate where
  id : Int
  groupId : Option Int
  subgroupName : Option String
  description : Option String
  deriving DecidableEq, Repr

structure UserSubGroupDelete where
  id : Int
  deriving DecidableEq, Repr

/-- The groups of a user. -/
structure AssignGroupsCommand where
  userId : Int
  groupIds : List Int
  deriving DecidableEq, Repr

/-- The values of a subgroup. -/
structure AssignValuesCommand where
  subgroupId : Int
  valueUnitIds : List Int
  deriving DecidableEq, Repr

/-! ## Tables -/

structure GroupAccess where
  userId : Int
  groupId : Int
  deriving DecidableEq, Repr

structure SubgroupValue where
  subgroupId : Int
  valueUnitId : Int
  deriving DecidableEq, Repr

/-- A row of the last two tables is its own key. -/
structure GroupTables where
  userGroups : Table UserGroupRow
  userSubgroups : Table UserSubGroupRow
  userGroupAccess : List GroupAccess
  subgroupValues : List SubgroupValue

structure Database (J : Type) where
  main : Tables J
  auth : AuthTables
  groups : GroupTables

/-! ## Statements -/

inductive GroupWrite where
  | insertGroup (group : UserGroupCreate)
  | updateGroup (group : UserGroupUpdate)
  | deleteGroup (id : Int)
  | insertSubgroup (subgroup : UserSubGroupCreate)
  | updateSubgroup (subgroup : UserSubGroupUpdate)
  | deleteSubgroup (id : Int)
  | clearGroupsOfUser (userId : Int)
  | insertGroupsOfUser (userId : Int) (groupIds : List Int)
  | clearValuesOfSubgroup (subgroupId : Int)
  | insertValuesOfSubgroup (subgroupId : Int) (valueUnitIds : List Int)
  deriving DecidableEq, Repr

/-- The `SET` of `UPDATE user_groups`. -/
def UserGroupUpdate.set (group : UserGroupUpdate) (row : UserGroupRow) : UserGroupRow where
  groupName := group.groupName.getD row.groupName
  description := group.description <|> row.description

/-- The `SET` of `UPDATE user_subgroups`. -/
def UserSubGroupUpdate.set (subgroup : UserSubGroupUpdate) (row : UserSubGroupRow) :
    UserSubGroupRow where
  groupId := subgroup.groupId.getD row.groupId
  subgroupName := subgroup.subgroupName.getD row.subgroupName
  description := subgroup.description <|> row.description

namespace GroupTables

/-- `ON DELETE CASCADE` -/
def deleteSubgroups (g : GroupTables) (p : Int → UserSubGroupRow → Bool) : GroupTables :=
  { g with
    userSubgroups := g.userSubgroups.delete p
    subgroupValues := g.subgroupValues.filter fun r =>
      (g.userSubgroups.get? r.subgroupId).all fun row => !p r.subgroupId row }

/-- `ON DELETE CASCADE` -/
def deleteGroup (g : GroupTables) (id : Int) : GroupTables :=
  let g := g.deleteSubgroups fun _ row => row.groupId = id
  { g with
    userGroups := g.userGroups.delete fun key _ => key = id
    userGroupAccess := g.userGroupAccess.filter fun r => r.groupId ≠ id }

end GroupTables

variable {J : Type}

/-- Several rows in one statement: `none` if one of them is refused. -/
def insertRows {R : Type} [DecidableEq R] (allowed : R → Bool) (rows new : List R) :
    Option (List R) :=
  if new.all allowed ∧ (rows ++ new).Nodup then some (rows ++ new) else none

/-- `none` is a key that is violated. -/
def GroupWrite.exec (db : Database J) : GroupWrite → Option (Database J)
  | insertGroup group => some { db with groups := { db.groups with
      userGroups := db.groups.userGroups.insert ⟨group.groupName, group.description⟩ } }
  | updateGroup group => some { db with groups := { db.groups with
      userGroups := db.groups.userGroups.modify (fun key _ => key = group.id) group.set } }
  | deleteGroup id => some { db with groups := db.groups.deleteGroup id }
  | insertSubgroup subgroup =>
    if db.groups.userGroups.contains subgroup.groupId then
      some { db with groups := { db.groups with
        userSubgroups := db.groups.userSubgroups.insert
          ⟨subgroup.groupId, subgroup.subgroupName, subgroup.description⟩ } }
    else none
  | updateSubgroup subgroup =>
    -- a row that keeps its group is not checked again
    if (subgroup.groupId.all db.groups.userGroups.contains) ∨
        ¬db.groups.userSubgroups.contains subgroup.id then
      some { db with groups := { db.groups with
        userSubgroups := db.groups.userSubgroups.modify (fun key _ => key = subgroup.id)
          subgroup.set } }
    else none
  | deleteSubgroup id => some { db with
      groups := db.groups.deleteSubgroups fun key _ => key = id }
  | clearGroupsOfUser userId => some { db with groups := { db.groups with
      userGroupAccess := db.groups.userGroupAccess.filter fun r => r.userId ≠ userId } }
  | insertGroupsOfUser userId groupIds =>
    (insertRows
      (fun r => db.auth.users.contains r.userId ∧ db.groups.userGroups.contains r.groupId)
      db.groups.userGroupAccess (groupIds.map (⟨userId, ·⟩))).map fun rows =>
        { db with groups := { db.groups with userGroupAccess := rows } }
  | clearValuesOfSubgroup subgroupId => some { db with groups := { db.groups with
      subgroupValues := db.groups.subgroupValues.filter fun r => r.subgroupId ≠ subgroupId } }
  | insertValuesOfSubgroup subgroupId valueUnitIds =>
    (insertRows
      (fun r => db.groups.userSubgroups.contains r.subgroupId ∧
        db.main.valueUnits.contains r.valueUnitId)
      db.groups.subgroupValues (valueUnitIds.map (⟨subgroupId, ·⟩))).map fun rows =>
        { db with groups := { db.groups with subgroupValues := rows } }

/-- The statements of a transaction, or the one that is refused. -/
def execGroups (db : Database J) : List GroupWrite → Except GroupWrite (Database J)
  | [] => .ok db
  | w :: ws =>
    match w.exec db with
    | some db' => execGroups db' ws
    | none => .error w

/-! ## Calls -/

/-- Where a transaction breaks. -/
inductive GroupTxError where
  | begin (e : SqlError)
  | statement (w : GroupWrite) (e : SqlError)
  | commit (e : SqlError)
  deriving DecidableEq, Repr

inductive GroupCall where
  | write (w : GroupWrite)
  | transaction (ws : List GroupWrite)
  deriving DecidableEq, Repr

abbrev GroupCall.Answer : GroupCall → Type
  | write _ => Except SqlError Unit
  | transaction _ => Except GroupTxError Unit

def Fate.groupTxError (fate : Fate) (ws : List GroupWrite) : GroupTxError :=
  match fate.stage with
  | 0 => .begin fate.error
  | i + 1 =>
    match ws[i]? with
    | some w => .statement w fate.error
    | none => .commit fate.error

def performGroups : (c : GroupCall) → Fate → Database J → Database J × c.Answer
  | .write w, fate, db =>
    match w.exec db with
    | some db' => (if fate.applied then db' else db,
        if fate.succeeds then .ok () else .error fate.error)
    | none => (db, .error fate.error)
  | .transaction ws, fate, db =>
    match execGroups db ws with
    | .ok db' => (if fate.applied then db' else db,
        if fate.succeeds then .ok () else .error (fate.groupTxError ws))
    | .error w => (db, .error (.statement w fate.error))

abbrev GroupTask : Type → Type := Program GroupCall GroupCall.Answer String

/-- One statement, and the text of its error. -/
def executeGroup (w : GroupWrite) (msg : SqlError → String) : GroupTask Unit := do
  let written : Except SqlError Unit ← issue (GroupCall.write w)
  match written with
  | .ok () => return ()
  | .error e => fail (msg e)

/-! ## Commands -/

def createGroup (group : UserGroupCreate) : GroupTask Unit :=
  executeGroup (.insertGroup group) fun e => s!"Помилка створення групи: {e.display}"

def updateGroup (group : UserGroupUpdate) : GroupTask Unit :=
  executeGroup (.updateGroup group) fun e => s!"Помилка оновлення групи: {e.display}"

def deleteGroup (group : UserGroupDelete) : GroupTask Unit :=
  executeGroup (.deleteGroup group.id) fun e => s!"Помилка Видалення групи: {e.display}"

def createSubgroup (subgroup : UserSubGroupCreate) : GroupTask Unit :=
  executeGroup (.insertSubgroup subgroup) fun e => s!"Помилка створення підгрупи: {e.display}"

def updateSubgroup (subgroup : UserSubGroupUpdate) : GroupTask Unit :=
  executeGroup (.updateSubgroup subgroup) fun e => s!"Помилка оновлення підгрупи: {e.display}"

def deleteSubgroup (subgroup : UserSubGroupDelete) : GroupTask Unit :=
  executeGroup (.deleteSubgroup subgroup.id) fun e => s!"Помилка видалення підгрупи: {e.display}"

/-- The old assignments are deleted, and the new ones are written unless there are none. -/
def assign (clear insert : GroupWrite) (noneNew : Bool) (cleared inserted : SqlError → String) :
    GroupTask Unit := do
  let committed : Except GroupTxError Unit ←
    issue (GroupCall.transaction (if noneNew then [clear] else [clear, insert]))
  match committed with
  | .ok () => return ()
  | .error (.begin e) => fail s!"Помилка старту транзакції: {e.display}"
  | .error (.statement w e) => fail (if w = clear then cleared e else inserted e)
  | .error (.commit e) => fail s!"Помилка коміту транзакції: {e.display}"

def assignGroupsToUser (data : AssignGroupsCommand) : GroupTask Unit :=
  assign (.clearGroupsOfUser data.userId) (.insertGroupsOfUser data.userId data.groupIds)
    data.groupIds.isEmpty
    (fun e => s!"Помилка очищення старих прав користувача: {e.display}")
    fun e =>
      s!"Помилка запису нових прав доступу (можливо, вказано неіснуючий group_id): {e.display}"

def assignValuesToSubgroup (data : AssignValuesCommand) : GroupTask Unit :=
  assign (.clearValuesOfSubgroup data.subgroupId)
    (.insertValuesOfSubgroup data.subgroupId data.valueUnitIds) data.valueUnitIds.isEmpty
    (fun e => s!"Помилка очищення регістрів підгрупи: {e.display}")
    fun e =>
      s!"Помилка прив'язки регістрів (перевірте, чи всі value_unit_id існують): {e.display}"

inductive GroupCommand where
  | groupCreate (group : UserGroupCreate)
  | groupUpdate (group : UserGroupUpdate)
  | groupDelete (group : UserGroupDelete)
  | subGroupCreate (subgroup : UserSubGroupCreate)
  | subGroupUpdate (subgroup : UserSubGroupUpdate)
  | subGroupDelete (subgroup : UserSubGroupDelete)
  | groups (data : AssignGroupsCommand)
  | values (data : AssignValuesCommand)
  deriving DecidableEq, Repr

/-- `group_command`, `user_sub_group_command` and `command_assign` -/
def GroupCommand.task : GroupCommand → GroupTask Unit
  | groupCreate group => createGroup group
  | groupUpdate group => updateGroup group
  | groupDelete group => deleteGroup group
  | subGroupCreate subgroup => createSubgroup subgroup
  | subGroupUpdate subgroup => updateSubgroup subgroup
  | subGroupDelete subgroup => deleteSubgroup subgroup
  | groups data => assignGroupsToUser data
  | values data => assignValuesToSubgroup data

end ModbusLogger.Db
