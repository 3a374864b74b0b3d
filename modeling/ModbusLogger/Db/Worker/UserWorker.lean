import ModbusLogger.Lib.RelyGuarantee
import ModbusLogger.Lib.Table

/-!
# Users and refresh tokens (`db/worker/user_worker.rs`, `db/worker/tokens_worker.rs`)

The tables `users` and `refresh_tokens` with the statements on them, and the commands on users. Texts
are compared as the collation of the database does. What is logged is left out.
-/

namespace ModbusLogger.Db

/-! ## Rows and commands -/

structure UserRow where
  username : String
  passwordHash : String
  roleId : Int
  isActive : Bool
  deriving DecidableEq, Repr

structure UserRead where
  id : Int
  username : String
  passwordHash : String
  roleId : Int
  isActive : Bool
  deriving DecidableEq, Repr

def UserRow.read (id : Int) (row : UserRow) : UserRead :=
  ⟨id, row.username, row.passwordHash, row.roleId, row.isActive⟩

structure UserCreate where
  username : String
  passwordHash : String
  roleId : Int
  deriving DecidableEq, Repr

structure UserUpdate where
  id : Int
  username : Option String
  passwordHash : Option String
  roleId : Option Int
  isActive : Option Bool
  deriving DecidableEq, Repr

structure UserDelete where
  id : Int
  deriving DecidableEq, Repr

structure RefreshToken where
  userId : Int
  userRoleId : Int
  tokenHash : String
  createdAt : Int
  expiresAt : Int
  deriving DecidableEq, Repr

/-- The primary key of `refreshTokens` is the user. -/
structure AuthTables where
  users : Table UserRow
  roles : List Int
  refreshTokens : List RefreshToken

/-! ## Statements -/

/-- How the database compares texts. -/
structure Collation where
  equal : String → String → Bool

/-- `code` is the SQLSTATE; the number of the error is in its text only. -/
structure WriteError where
  code : Option String
  display : String
  deriving DecidableEq, Repr

/-- The errors of MySQL for a broken constraint, up to the names of the entry and the key. -/
def WriteError.duplicateEntry : WriteError :=
  ⟨some "23000", "error returned from database: 1062 (23000): Duplicate entry"⟩

def WriteError.noReferencedRow : WriteError :=
  ⟨some "23000", "error returned from database: 1452 (23000): Cannot add or update a child row"⟩

/-- The `SET` of `UPDATE users`: a user that is updated without `is_active` gets active. -/
def UserUpdate.set (user : UserUpdate) (row : UserRow) : UserRow where
  username := user.username.getD row.username
  passwordHash := user.passwordHash.getD row.passwordHash
  roleId := user.roleId.getD row.roleId
  isActive := user.isActive.getD true

namespace AuthTables

variable (collation : Collation) (t : AuthTables)

/-- `WHERE username = ?` -/
def userByName (username : String) : Option UserRead :=
  (t.users.first? fun _ row => collation.equal row.username username).map fun r => r.2.read r.1

/-- `WHERE token_hash = ?` -/
def tokenByHash (token : String) : Option RefreshToken :=
  t.refreshTokens.find? fun r => collation.equal r.tokenHash token

/-- `INSERT … ON DUPLICATE KEY UPDATE` -/
def upsertToken (token : RefreshToken) : AuthTables :=
  if t.refreshTokens.any fun r => r.userId = token.userId then
    { t with refreshTokens := t.refreshTokens.map fun r =>
        if r.userId = token.userId then token else r }
  else { t with refreshTokens := t.refreshTokens ++ [token] }

/-- Another user has the name. -/
def nameTaken (self : Option Int) (username : String) : Bool :=
  (t.users.first? fun key row => some key ≠ self ∧ collation.equal row.username username).isSome

def insertUser (user : UserCreate) : Except WriteError AuthTables :=
  if t.nameTaken collation none user.username then .error .duplicateEntry
  else if user.roleId ∈ t.roles then
    .ok { t with users := t.users.insert ⟨user.username, user.passwordHash, user.roleId, true⟩ }
  else .error .noReferencedRow

def updateUser (user : UserUpdate) : Except WriteError AuthTables :=
  match t.users.get? user.id with
  | none => .ok t
  | some row =>
    if t.nameTaken collation (some user.id) (user.set row).username then
      .error .duplicateEntry
    else if (user.set row).roleId ∈ t.roles then
      .ok { t with users := t.users.modify (fun key _ => key = user.id) user.set }
    else .error .noReferencedRow

def deleteUser (id : Int) : AuthTables :=
  { t with users := t.users.delete fun key _ => key = id }

variable {collation t}

theorem tokenByHash_mem {token : String} {r : RefreshToken}
    (h : t.tokenByHash collation token = some r) : r ∈ t.refreshTokens := List.mem_of_find?_eq_some h

theorem tokenByHash_eq_some {token : String} {r : RefreshToken}
    (h : t.tokenByHash collation token = some r) :
    r ∈ t.refreshTokens ∧ collation.equal r.tokenHash token = true :=
  ⟨tokenByHash_mem h, by simpa using List.find?_some h⟩

theorem userByName_has {username : String} {user : UserRead}
    (h : t.userByName collation username = some user) :
    ∃ row, t.users.Has user.id row ∧ user = row.read user.id := by
  obtain ⟨r, hr, rfl⟩ := Option.map_eq_some_iff.mp h
  exact ⟨r.2, (Table.first?_has hr).1, rfl⟩

/-- The record of the user is replaced. -/
theorem mem_upsertToken {token r : RefreshToken} : r ∈ (t.upsertToken token).refreshTokens ↔
    (r ∈ t.refreshTokens ∧ r.userId ≠ token.userId) ∨ r = token := by
  unfold upsertToken
  split
  · next hany =>
      obtain ⟨old, hold, huser⟩ := List.any_eq_true.mp hany
      constructor
      · intro h
        obtain ⟨old, hold, rfl⟩ := List.mem_map.mp h
        split
        · exact .inr rfl
        · next hother => exact .inl ⟨hold, hother⟩
      · rintro (⟨hold, hother⟩ | rfl)
        · exact List.mem_map.mpr ⟨r, hold, if_neg hother⟩
        · exact List.mem_map.mpr ⟨old, hold, if_pos (of_decide_eq_true huser)⟩
  · next hnone =>
      show r ∈ t.refreshTokens ++ [token] ↔ _
      rw [List.mem_append, List.mem_singleton]
      refine or_congr_left (iff_self_and.mpr fun hold huser => hnone ?_)
      exact List.any_eq_true.mpr ⟨r, hold, decide_eq_true huser⟩

/-- The statements on users leave the tokens alone. -/
theorem insertUser_refreshTokens {user : UserCreate} {t' : AuthTables}
    (h : t.insertUser collation user = .ok t') : t'.refreshTokens = t.refreshTokens := by
  unfold insertUser at h
  split at h
  · cases h
  · split at h
    · cases h
      rfl
    · cases h

theorem updateUser_refreshTokens {user : UserUpdate} {t' : AuthTables}
    (h : t.updateUser collation user = .ok t') : t'.refreshTokens = t.refreshTokens := by
  unfold updateUser at h
  split at h
  · cases h
    rfl
  · split at h
    · cases h
    · split at h
      · cases h
        rfl
      · cases h

end AuthTables

end ModbusLogger.Db
