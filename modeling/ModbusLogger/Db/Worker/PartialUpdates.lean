import ModbusLogger.Api.Router.AccessTokens
import ModbusLogger.Db.Worker.DeviceTable
import ModbusLogger.Db.Worker.UserGroupWorker
import ModbusLogger.Lib.PartialUpdate

/-!
# What an update leaves alone

Six commands update a row by its id, and send the columns that they change. The statements keep a
column with `COALESCE(?, column)`, so a command that sends nothing has to bind `NULL`. Two columns are
bound to something else: `is_active` of a user, and the description of a node.
-/

namespace ModbusLogger.Db

open Program

variable {J : Type}

/-! ## The columns -/

/-- What is updated. -/
inductive Kind where
  | users
  | nodes
  | devices
  | values
  | groups
  | subgroups
  deriving DecidableEq, Repr

namespace Kind

abbrev Row (J : Type) : Kind → Type
  | users => UserRow
  | nodes => NodeRow
  | devices => DeviceRow
  | values => ValueRow J
  | groups => UserGroupRow
  | subgroups => UserSubGroupRow

abbrev Update (J : Type) : Kind → Type
  | users => UserUpdate
  | nodes => NodeUpdate
  | devices => DeviceUpdate
  | values => ValueUpdate J
  | groups => UserGroupUpdate
  | subgroups => UserSubGroupUpdate

/-- The row that is updated. -/
def id : (k : Kind) → k.Update J → Int
  | users, user => user.id
  | nodes, node => node.id
  | devices, device => device.id
  | values, value => value.id
  | groups, group => group.id
  | subgroups, subgroup => subgroup.id

/-- The columns beside the id. -/
def columns (J : Type) : (k : Kind) → List (Column (k.Row J) (k.Update J))
  | users =>
    [⟨_, UserRow.username, UserUpdate.username⟩,
      ⟨_, UserRow.passwordHash, UserUpdate.passwordHash⟩,
      ⟨_, UserRow.roleId, UserUpdate.roleId⟩,
      ⟨_, UserRow.isActive, UserUpdate.isActive⟩]
  | nodes =>
    [⟨_, NodeRow.ip, NodeUpdate.ip⟩,
      ⟨_, NodeRow.port, fun node => node.port.map some⟩,
      ⟨_, NodeRow.description, fun node => node.description.map some⟩]
  | devices =>
    [⟨_, DeviceRow.parentNodeId, fun device => device.parentNodeId.map some⟩,
      ⟨_, DeviceRow.deviceName, fun device => device.deviceName.map some⟩,
      ⟨_, DeviceRow.address, DeviceUpdate.address⟩,
      ⟨_, DeviceRow.timeForRecall, DeviceUpdate.timeForRecall⟩,
      ⟨_, DeviceRow.timeout, DeviceUpdate.timeout⟩,
      ⟨_, DeviceRow.retryCount, DeviceUpdate.retryCount⟩,
      ⟨_, DeviceRow.isActive, DeviceUpdate.isActive⟩,
      ⟨_, DeviceRow.readByGroup, DeviceUpdate.readByGroup⟩,
      ⟨_, DeviceRow.description, fun device => device.description.map some⟩,
      .silent DeviceRow.deleted,
      .silent DeviceRow.deletedAt]
  | values =>
    [⟨_, ValueRow.parentDeviceId, ValueUpdate.parentDeviceId⟩,
      ⟨_, ValueRow.valueName, fun value => value.valueName.map some⟩,
      ⟨_, ValueRow.valueTag, ValueUpdate.valueTag⟩,
      ⟨_, ValueRow.description, fun value => value.description.map some⟩,
      ⟨_, ValueRow.decodingType, ValueUpdate.decodingType⟩,
      ⟨_, ValueRow.settings, ValueUpdate.settings⟩,
      ⟨_, ValueRow.isLogging, ValueUpdate.isLogging⟩]
  | groups =>
    [⟨_, UserGroupRow.groupName, UserGroupUpdate.groupName⟩,
      ⟨_, UserGroupRow.description, fun group => group.description.map some⟩]
  | subgroups =>
    [⟨_, UserSubGroupRow.groupId, UserSubGroupUpdate.groupId⟩,
      ⟨_, UserSubGroupRow.subgroupName, UserSubGroupUpdate.subgroupName⟩,
      ⟨_, UserSubGroupRow.description, fun subgroup => subgroup.description.map some⟩]

end Kind

/-! ## What takes effect -/

/-- In some run, a call of the command takes effect, and turns the row `old` of a key into `new`. -/
def Overwrites {σ C K F R : Type} {A : C → Type} (task : K → Program C A String Unit)
    (perform : (c : C) → F → σ → σ × A c) (TakesEffect : C → F → σ → Prop) (rows : σ → Table R)
    (command : K) (key : Int) (old new : R) : Prop :=
  ∃ (world : σ) (steps : List (Pool.Step K F)) (i : Nat) (c : C) (fate : F),
    (Pool.commands steps)[i]? = some command ∧
    (Pool.run task perform world steps).issued (.advance i fate : Pool.Step K F) =
      some (c, fate) ∧
    TakesEffect c fate (Pool.run task perform world steps).world ∧
    (rows (Pool.run task perform world steps).world).Has key old ∧
    (rows (perform c fate (Pool.run task perform world steps).world).1).Has key new

/-- A write that the database carries out. -/
def Call.TakesEffect (c : Call J) (fate : Fate) (t : Tables J) : Prop :=
  match c with
  | .write w => fate.applied = true ∧ (w.exec t).isSome = true
  | _ => False

def GroupCall.TakesEffect (c : GroupCall) (fate : Fate) (db : Database J) : Prop :=
  match c with
  | .write w => fate.applied = true ∧ (w.exec db).isSome = true
  | _ => False

def userTakesEffect (collation : Collation) (c : Auth.Call) (fate : Auth.Fate) (t : AuthTables) :
    Prop :=
  match c with
  | .updateUser user => fate.applied = true ∧ ∃ t', t.updateUser collation user = .ok t'
  | _ => False

/-- The command of a kind, in its pool. -/
def Kind.Overwrites (lib : Libraries J) (collation : Collation) :
    (k : Kind) → k.Update J → Int → k.Row J → k.Row J → Prop
  | users, user => Db.Overwrites Auth.Request.task (Auth.perform collation)
      (userTakesEffect collation) AuthTables.users (.userUpdate user)
  | nodes, node => Db.Overwrites (Command.task lib) perform Call.TakesEffect Tables.nodes
      (.nodeUpdate node)
  | devices, device => Db.Overwrites (Command.task lib) perform Call.TakesEffect Tables.devices
      (.deviceUpdate device)
  | values, value => Db.Overwrites (Command.task lib) perform Call.TakesEffect Tables.valueUnits
      (.valueUpdate value)
  | groups, group => Db.Overwrites GroupCommand.task (performGroups (J := J))
      GroupCall.TakesEffect (fun db => db.groups.userGroups) (.groupUpdate group)
  | subgroups, subgroup => Db.Overwrites GroupCommand.task (performGroups (J := J))
      GroupCall.TakesEffect (fun db => db.groups.userSubgroups) (.subGroupUpdate subgroup)

/-! ## What the commands write -/

/-- The `SET` of the statement that an update binds its columns to. -/
def Kind.set : (k : Kind) → k.Update J → k.Row J → k.Row J
  | users, user => user.set
  | nodes, node => fun row =>
    ⟨node.ip.getD row.ip, node.port <|> row.port, some (node.description.getD "")⟩
  | devices, device => device.set
  | values, value => value.set
  | groups, group => group.set
  | subgroups, subgroup => subgroup.set

variable {lib : Libraries J} {collation : Collation}

/-- What an update command issues beside queries and notices. -/
def Command.Issues (command : Command J) (c : Call J) : Prop :=
  match command, c with
  | .nodeUpdate node, .write w =>
    w = .updateNode node.id node.ip node.port (some (node.description.getD ""))
  | .deviceUpdate device, .write w => w = .updateDevice device
  | .valueUpdate value, .write w => w = .updateValue value
  | .nodeUpdate _, .transaction _ | .deviceUpdate _, .transaction _
  | .valueUpdate _, .transaction _ => False
  | _, _ => True

theorem Command.task_issues (command : Command J) :
    (command.task lib).Every command.Issues fun _ => True := by
  have hread (command : Command J) (r : Read) : command.Issues (.read r) := by
    cases command <;> exact trivial
  have hsend (command : Command J) (event : ConfigEvent) : command.Issues (.send event) := by
    cases command <;> exact trivial
  cases command with
  | nodeUpdate node => exact updateNode_every node (hread _) (fun _ => hsend _ _) rfl
  | deviceUpdate device => exact updateDevice_every device (hread _) (fun _ => hsend _ _) fun _ => rfl
  | valueUpdate value => exact valueUpdate_every value (hread _) (fun _ => hsend _ _) fun _ => rfl
  | nodeCreate | nodeDelete | deviceCreate | deviceDelete | valueCreate | valueDelete =>
      exact every_of_forall _ (fun _ => trivial) fun _ => trivial

def GroupCommand.Issues (command : GroupCommand) (c : GroupCall) : Prop :=
  match command with
  | .groupUpdate group => c = .write (.updateGroup group)
  | .subGroupUpdate subgroup => c = .write (.updateSubgroup subgroup)
  | _ => True

theorem GroupCommand.task_issues (command : GroupCommand) :
    command.task.Every command.Issues fun _ => True := by
  have hone {P : GroupCall → Prop} {w : GroupWrite} {msg : SqlError → String} (hw : P (.write w)) :
      (executeGroup w msg).Every P fun _ => True := by
    simp only [executeGroup, issue_bind]
    refine ⟨hw, fun written => ?_⟩
    dsimp only
    split <;> exact trivial
  cases command with
  | groupUpdate group => exact hone rfl
  | subGroupUpdate subgroup => exact hone rfl
  | groupCreate | groupDelete | subGroupCreate | subGroupDelete | groups | values =>
      exact every_of_forall _ (fun _ => trivial) fun _ => trivial

def userIssues (request : Auth.Request) (c : Auth.Call) : Prop :=
  match request, c with
  | .userUpdate user, .updateUser written => written = user
  | _, _ => True

theorem userTask_issues (request : Auth.Request) :
    request.task.Every (userIssues request) fun _ => True := by
  cases request with
  | userUpdate user =>
      have hfound (roleId : Int) :
          (Auth.foundRoleId roleId).Every (userIssues (.userUpdate user)) fun _ => True := by
        simp only [Auth.foundRoleId, issue_bind]
        refine ⟨trivial, fun found => ?_⟩
        dsimp only
        split <;> exact trivial
      have hwrite : (.call (Auth.Call.updateUser user) Auth.checkDbWriteUserErr :
          Auth.Task Unit).Every (userIssues (.userUpdate user)) fun _ => True := by
        refine ⟨rfl, fun result => ?_⟩
        unfold Auth.checkDbWriteUserErr
        split
        · exact trivial
        · split <;> exact trivial
      show (Auth.updateUser user).Every _ _
      unfold Auth.updateUser
      split
      · next roleId _ =>
          rw [every_bind]
          exact (hfound roleId).imp (fun _ h => h) fun _ _ => hwrite
      · exact hwrite
  | login | logout | refreshToken | userCreate | userDelete =>
      exact every_of_forall _ (fun _ => trivial) fun _ => trivial

/-! ## What becomes of a row -/

theorem Overwrites.call {σ C K F R : Type} {A : C → Type} {task : K → Program C A String Unit}
    {perform : (c : C) → F → σ → σ × A c} {TakesEffect : C → F → σ → Prop} {rows : σ → Table R}
    {command : K} {key : Int} {old new : R} {P : K → C → Prop}
    (h : Overwrites task perform TakesEffect rows command key old new)
    (htask : ∀ command, (task command).Every (P command) fun _ => True) :
    ∃ c fate w, P command c ∧ TakesEffect c fate w ∧ (rows w).Has key old ∧
      (rows (perform c fate w).1).Has key new := by
  obtain ⟨world, steps, i, c, fate, hcommand, hissued, heffect, hold, hnew⟩ := h
  exact ⟨c, fate, _, Pool.issued_of_command htask hcommand hissued, heffect, hold, hnew⟩

/-- A write that takes effect leaves the tables that it asks for. -/
theorem perform_of_takesEffect {w : Write J} {fate : Fate} {t : Tables J}
    (h : (Call.write w).TakesEffect fate t) : w.exec t = some (perform (.write w) fate t).1 := by
  obtain ⟨happlied, hexec⟩ := h
  obtain ⟨t', hexec⟩ := Option.isSome_iff_exists.mp hexec
  simp [perform, hexec, happlied]

theorem performGroups_of_takesEffect {w : GroupWrite} {fate : Fate} {db : Database J}
    (h : (GroupCall.write w).TakesEffect fate db) :
    w.exec db = some (performGroups (.write w) fate db).1 := by
  obtain ⟨happlied, hexec⟩ := h
  obtain ⟨db', hexec⟩ := Option.isSome_iff_exists.mp hexec
  simp [performGroups, hexec, happlied]

/-- The tables before and after the write of a command. -/
theorem written_of_overwrites {R : Type} {rows : Tables J → Table R} {command : Command J}
    {key : Int} {old new : R} {w : Write J}
    (h : Overwrites (Command.task lib) perform Call.TakesEffect rows command key old new)
    (hissues : ∀ w', command.Issues (.write w') → w' = w) :
    ∃ t t', w.exec t = some t' ∧ (rows t).Has key old ∧ (rows t').Has key new := by
  obtain ⟨c, fate, t, hc, heffect, hold, hnew⟩ := h.call Command.task_issues
  cases c with
  | write w' =>
      obtain rfl := hissues w' hc
      exact ⟨t, _, perform_of_takesEffect heffect, hold, hnew⟩
  | read | send | transaction => exact heffect.elim

theorem groups_of_overwrites {R : Type} (rows : Database J → Table R) (command : GroupCommand)
    {key : Int} {old new : R} {w : GroupWrite}
    (h : Overwrites GroupCommand.task performGroups GroupCall.TakesEffect rows command key old new)
    (hissues : ∀ c, command.Issues c → c = .write w) :
    ∃ db db', w.exec db = some db' ∧ (rows db).Has key old ∧ (rows db').Has key new := by
  obtain ⟨c, fate, db, hc, heffect, hold, hnew⟩ := h.call GroupCommand.task_issues
  obtain rfl := hissues c hc
  exact ⟨db, _, performGroups_of_takesEffect heffect, hold, hnew⟩

theorem user_of_overwrites {user : UserUpdate} {key : Int} {old new : UserRow}
    (h : Overwrites Auth.Request.task (Auth.perform collation) (userTakesEffect collation)
      AuthTables.users (.userUpdate user) key old new) :
    ∃ t t' : AuthTables, t.updateUser collation user = .ok t' ∧ t.users.Has key old ∧
      t'.users.Has key new := by
  obtain ⟨c, fate, t, hc, heffect, hold, hnew⟩ := h.call userTask_issues
  cases c with
  | updateUser written =>
      obtain rfl : written = user := hc
      obtain ⟨happlied, t', hexec⟩ := heffect
      simp only [Auth.perform, Auth.Fate.write, hexec, happlied] at hnew
      exact ⟨t, t', hexec, hold, hnew⟩
  | _ => exact heffect.elim

/-- `UPDATE … WHERE id = ?` -/
theorem modified {R : Type} {t : Table R} {id key : Int} {f : R → R} {old new : R}
    (hold : t.Has key old) (hnew : (t.modify (fun k _ => k = id) f).Has key new) :
    new = if key = id then f old else old := by
  have heq := Table.modify_unique hold hnew
  simp only [decide_eq_true_eq] at heq
  exact heq

/-- An id without a row. -/
theorem unmodified {R : Type} {t : Table R} {id key : Int} {f : R → R} {old new : R}
    (hnone : t.get? id = none) (hold : t.Has key old) (hnew : t.Has key new) :
    new = if key = id then f old else old := by
  have hne : key ≠ id := by
    rintro rfl
    exact Table.get?_eq_none.mp hnone old hold
  rw [if_neg hne]
  exact hnew.unique hold

/-- The row of the id is set, and the others stay. -/
theorem Kind.overwrites_eq {k : Kind} {update : k.Update J} {key : Int} {old new : k.Row J}
    (h : k.Overwrites lib collation update key old new) :
    new = if key = k.id update then k.set update old else old := by
  cases k with
  | users =>
      obtain ⟨t, t', hexec, hold, hnew⟩ := user_of_overwrites h
      unfold AuthTables.updateUser at hexec
      split at hexec
      · next hnone =>
          cases hexec
          exact unmodified hnone hold hnew
      · simp only [ite_error_eq_ok] at hexec
        obtain ⟨-, hexec⟩ := hexec
        split at hexec
        · cases hexec
          exact modified hold hnew
        · cases hexec
  | nodes =>
      obtain ⟨t, t', hexec, hold, hnew⟩ := written_of_overwrites h fun _ hw => hw
      cases hexec
      exact modified hold hnew
  | devices =>
      obtain ⟨t, t', hexec, hold, hnew⟩ := written_of_overwrites h fun _ hw => hw
      obtain ⟨-, heq⟩ := Option.ite_none_right_eq_some.mp hexec
      cases heq
      exact modified hold hnew
  | values =>
      obtain ⟨t, t', hexec, hold, hnew⟩ := written_of_overwrites h fun _ hw => hw
      simp only [Write.exec] at hexec
      split at hexec
      · obtain ⟨-, heq⟩ := Option.ite_none_right_eq_some.mp hexec
        cases heq
        exact modified hold hnew
      · next hnone =>
          cases hexec
          exact unmodified hnone hold hnew
  | groups =>
      obtain ⟨db, db', hexec, hold, hnew⟩ :=
        groups_of_overwrites (fun db => db.groups.userGroups) (.groupUpdate update) h fun _ hw => hw
      cases hexec
      exact modified hold hnew
  | subgroups =>
      obtain ⟨db, db', hexec, hold, hnew⟩ := groups_of_overwrites
        (fun db => db.groups.userSubgroups) (.subGroupUpdate update) h fun _ hw => hw
      obtain ⟨-, heq⟩ := Option.ite_none_right_eq_some.mp hexec
      cases heq
      exact modified hold hnew

/-! ## The result -/

/-- The value that is bound for nothing is the one that is stored. -/
def Kind.DefaultFits : (k : Kind) → k.Update J → k.Row J → Prop
  | users, user, row => user.isActive = none → row.isActive = true
  | nodes, node, row => node.description = none → row.description = some ""
  | _, _, _ => True

/-- The row of the id is as the frame asks for, and the others are as they were. -/
def Kind.Follows (k : Kind) (update : k.Update J) (key : Int) (old new : k.Row J) : Prop :=
  if key = k.id update then Framed (k.columns J) update old new else new = old

theorem or_eq_getD_map {α : Type} (said stored : Option α) :
    (said <|> stored) = (said.map some).getD stored := by
  cases said <;> rfl

theorem Kind.framed_set_iff (k : Kind) (update : k.Update J) (row : k.Row J) :
    Framed (k.columns J) update row (k.set update row) ↔ k.DefaultFits update row := by
  cases k with
  | users =>
      have hactive : update.isActive.getD true = update.isActive.getD row.isActive ↔
          (update.isActive = none → row.isActive = true) := by
        cases update.isActive with
        | none => exact ⟨fun h _ => h.symm, fun h => (h rfl).symm⟩
        | some isActive => simp
      simpa [columns, set, UserUpdate.set, Column.obeyed_iff, DefaultFits] using hactive
  | nodes =>
      have hdescription :
          some (update.description.getD "") = (update.description.map some).getD row.description ↔
          (update.description = none → row.description = some "") := by
        cases update.description with
        | none => exact ⟨fun h _ => h.symm, fun h => (h rfl).symm⟩
        | some description => simp
      simpa [columns, set, Column.obeyed_iff, DefaultFits, or_eq_getD_map] using hdescription
  | devices =>
      simp [columns, set, DeviceUpdate.set, Column.obeyed_iff, Column.silent, DefaultFits, or_eq_getD_map]
  | values => simp [columns, set, ValueUpdate.set, Column.obeyed_iff, DefaultFits, or_eq_getD_map]
  | groups => simp [columns, set, UserGroupUpdate.set, Column.obeyed_iff, DefaultFits, or_eq_getD_map]
  | subgroups =>
      simp [columns, set, UserSubGroupUpdate.set, Column.obeyed_iff, DefaultFits, or_eq_getD_map]

/-- An update that takes effect follows the frame exactly if the values that are bound for nothing are
those that are stored. -/
theorem update_frames_iff (lib : Libraries J) (collation : Collation) (k : Kind)
    (update : k.Update J) (key : Int) (old new : k.Row J)
    (h : k.Overwrites lib collation update key old new) :
    k.Follows update key old new ↔ (key = k.id update → k.DefaultFits update old) := by
  obtain rfl := Kind.overwrites_eq h
  unfold Kind.Follows
  by_cases hkey : key = k.id update
  · rw [if_pos hkey, if_pos hkey, Kind.framed_set_iff]
    exact ⟨fun hfits _ => hfits, fun hfits => hfits hkey⟩
  · simp [hkey]

/-! ## Columns that nobody sent -/

/-- The user 1 is not active. -/
def inactiveUser : AuthTables where
  users := Table.empty.insert ⟨"operator", "secret", 3, false⟩
  roles := [1, 2, 3, 4]
  refreshTokens := []

/-- A new name, and nothing else. -/
def renameUser : UserUpdate := ⟨1, some "operator2", none, none, none⟩

theorem renameUser_overwrites : Kind.users.Overwrites noSettings Auth.exact renameUser 1
    ⟨"operator", "secret", 3, false⟩ ⟨"operator2", "secret", 3, true⟩ :=
  ⟨inactiveUser, [.start (.userUpdate renameUser)], 0, .updateUser renameUser, .success, rfl, rfl,
    ⟨rfl, _, rfl⟩, List.mem_singleton_self _, List.mem_singleton_self _⟩

/-- The node 1 has a description. -/
def describedNode : Tables Unit :=
  { Tables.empty with nodes := Table.empty.insert ⟨"10.0.0.5", some 502, some "boiler room"⟩ }

/-- A new port, and nothing else. -/
def movePort : NodeUpdate := ⟨1, none, some 503, none⟩

theorem movePort_overwrites : Kind.nodes.Overwrites noSettings Auth.exact movePort 1
    ⟨"10.0.0.5", some 502, some "boiler room"⟩ ⟨"10.0.0.5", some 503, some ""⟩ :=
  ⟨describedNode, [.start (.nodeUpdate movePort), .advance 0 .success], 0,
    .write (.updateNode 1 none (some 503) (some "")), .success, rfl, rfl, ⟨rfl, rfl⟩,
    List.mem_singleton_self _, List.mem_singleton_self _⟩

/-- The user gets active, and the node loses its description. -/
theorem update_breaks_frame :
    (∃ update old new, Kind.users.Overwrites noSettings Auth.exact update 1 old new ∧
      ¬Kind.users.Follows (J := Unit) update 1 old new) ∧
    ∃ update old new, Kind.nodes.Overwrites noSettings Auth.exact update 1 old new ∧
      ¬Kind.nodes.Follows (J := Unit) update 1 old new := by
  refine ⟨⟨_, _, _, renameUser_overwrites, ?_⟩, ⟨_, _, _, movePort_overwrites, ?_⟩⟩
  · simp [Kind.Follows, Kind.columns, Column.obeyed_iff, Kind.id, renameUser]
  · simp [Kind.Follows, Kind.columns, Column.obeyed_iff, Kind.id, movePort]

theorem update_frames_iff_renamed :
    Kind.users.Follows (J := Unit) renameUser 1 ⟨"operator", "secret", 3, false⟩
        ⟨"operator2", "secret", 3, true⟩ ↔
      (1 = Kind.users.id (J := Unit) renameUser →
        Kind.users.DefaultFits (J := Unit) renameUser ⟨"operator", "secret", 3, false⟩) :=
  update_frames_iff noSettings Auth.exact .users renameUser 1 _ _ renameUser_overwrites

end ModbusLogger.Db
