import ModbusLogger.Db.Worker.UserWorker

/-!
# Login, logout and refresh (`api/router/auth.rs`)

The handlers with the database statements that they wait for, and the commands on users. Every request
runs as a task of its own. An access token is its claims: encoding them may fail, and nobody else can
encode any.
-/

namespace ModbusLogger.Auth

open Db Program

/-! ## Requests and responses -/

structure UserLogin where
  username : String
  password : String
  deriving DecidableEq, Repr

structure RefreshRequest where
  refreshToken : String
  deriving DecidableEq, Repr

structure Claims where
  id : Int
  roleId : Int
  exp : Int
  iat : Int
  deriving DecidableEq, Repr

structure AuthResponse where
  accessToken : Claims
  refreshToken : String
  tokenType : String
  deriving DecidableEq, Repr

inductive Body where
  | text (s : String)
  | auth (response : AuthResponse)
  deriving DecidableEq, Repr

structure Response where
  status : Nat
  body : Body
  deriving DecidableEq, Repr

/-- How a request to the database worker ends. `lost` is a `oneshot` whose sender is gone. -/
inductive Reply (α : Type) where
  | unsent
  | lost
  | answered (a : α)
  deriving DecidableEq, Repr

/-- What an access token is made from. Only proofs read it. -/
inductive TokenUse where
  | login
  | refresh (record : RefreshToken) (checkedAt : Int)
  deriving DecidableEq, Repr

inductive Call where
  | verify (username : String)
  | findToken (token : String)
  | writeToken (token : RefreshToken)
  | clock
  | newUuid
  | encode (use : TokenUse) (claims : Claims)
  | respond (response : Response)
  | roleById (roleId : Int)
  | insertUser (user : UserCreate)
  | updateUser (user : UserUpdate)
  | deleteUser (id : Int)
  deriving DecidableEq, Repr

abbrev Call.Answer : Call → Type
  | verify _ => Reply (Except Unit (Option UserRead))
  | findToken _ => Reply (Except Unit (Option RefreshToken))
  | writeToken _ => Reply (Except String Unit)
  | clock => Int
  | newUuid => String
  | encode _ _ => Bool
  | respond _ => Unit
  | roleById _ => Except WriteError (Option Int)
  | insertUser _ | updateUser _ | deleteUser _ => Except WriteError Unit

/-- How a call ends. A statement that is not applied has no effect, and one that is not confirmed is
answered with an error. -/
structure Fate where
  sent : Bool
  replied : Bool
  applied : Bool
  confirmed : Bool
  encoded : Bool
  time : Int
  uuid : String
  error : WriteError
  deriving DecidableEq, Repr

def Fate.reply {α : Type} (fate : Fate) (a : α) : Reply α :=
  if fate.sent then if fate.replied then .answered a else .lost else .unsent

def Fate.succeeds (fate : Fate) : Bool := fate.applied && fate.confirmed

/-- A write with its two outcomes. -/
def Fate.write (fate : Fate) (t : AuthTables) (result : Except WriteError AuthTables) :
    AuthTables × Except WriteError Unit :=
  match result with
  | .ok t' => (if fate.applied then t' else t, if fate.succeeds then .ok () else .error fate.error)
  | .error e => (t, .error e)

def perform (collation : Collation) : (c : Call) → Fate → AuthTables → AuthTables × c.Answer
  | .verify username, fate, t => (t, fate.reply
      (if fate.confirmed then .ok (t.userByName collation username) else .error ()))
  | .findToken token, fate, t => (t, fate.reply
      (if fate.confirmed then .ok (t.tokenByHash collation token) else .error ()))
  | .writeToken token, fate, t => (if fate.sent && fate.applied then t.upsertToken token else t,
      fate.reply (if fate.succeeds then .ok ()
        else .error s!"Помилка збереження токену: {fate.error.display}"))
  | .clock, fate, t => (t, fate.time)
  | .newUuid, fate, t => (t, fate.uuid)
  | .encode _ _, fate, t => (t, fate.encoded)
  | .respond _, _, t => (t, ())
  | .roleById roleId, fate, t => (t,
      if fate.confirmed then .ok (if roleId ∈ t.roles then some roleId else none)
      else .error fate.error)
  | .insertUser user, fate, t => fate.write t (t.insertUser collation user)
  | .updateUser user, fate, t => fate.write t (t.updateUser collation user)
  | .deleteUser id, fate, t => fate.write t (.ok (t.deleteUser id))

abbrev Task : Type → Type := Program Call Call.Answer String

/-! ## Handlers -/

/-- `check_send_message` -/
def sendError : Response := ⟨500, .text "Помилка сервера: channel closed"⟩

/-- The token, with the time at which it was issued. -/
def generateAccessToken (use : TokenUse) (id roleId : Int) : Task (Except Unit (Claims × Int)) := do
  let currentTime : Int ← issue Call.clock
  let expiration := currentTime + 900
  let claims : Claims := ⟨id, roleId, expiration, currentTime⟩
  let encoded : Bool ← issue (Call.encode use claims)
  return if encoded then .ok (claims, currentTime) else .error ()

def login (payload : UserLogin) : Task Response := do
  let user : Reply (Except Unit (Option UserRead)) ← issue (Call.verify payload.username)
  match user with
  | .unsent => return sendError
  | .lost | .answered (.error _) => return ⟨500, .text "Server error"⟩
  | .answered (.ok none) => return ⟨401, .text "User not found"⟩
  | .answered (.ok (some user)) =>
    if user.passwordHash ≠ payload.password then return ⟨401, .text "Password incorrect"⟩
    else
      match ← generateAccessToken .login user.id user.roleId with
      | .error _ => return ⟨500, .text "Error generating access token"⟩
      | .ok (accessToken, currTime) =>
        let refreshToken : String ← issue Call.newUuid
        let written : Reply (Except String Unit) ← issue (Call.writeToken
          { userId := user.id
            userRoleId := user.roleId
            tokenHash := refreshToken
            createdAt := currTime
            expiresAt := currTime + 2678400 })
        match written with
        | .unsent => return sendError
        | .lost => return ⟨500, .text "Error generating access token"⟩
        -- an error of the write is an answer too
        | .answered _ => return ⟨200, .auth ⟨accessToken, refreshToken, "Bearer"⟩⟩

/-- The record stays, and expires now. -/
def logout (payload : RefreshRequest) : Task Response := do
  let record : Reply (Except Unit (Option RefreshToken)) ←
    issue (Call.findToken payload.refreshToken)
  match record with
  | .unsent => return sendError
  | .lost | .answered (.error _) => return ⟨500, .text "Server error"⟩
  | .answered (.ok none) => return ⟨401, .text "Invalid refresh token"⟩
  | .answered (.ok (some tokenRecord)) =>
    let currentTime : Int ← issue Call.clock
    let written : Reply (Except String Unit) ← issue (Call.writeToken
      { tokenRecord with createdAt := currentTime, expiresAt := currentTime })
    match written with
    | .unsent => return sendError
    | .lost => return ⟨500, .text "Error generating access token"⟩
    | .answered _ => return ⟨200, .text "Ok"⟩

/-- The user and the role are those of the record. -/
def refreshToken (payload : RefreshRequest) : Task Response := do
  let record : Reply (Except Unit (Option RefreshToken)) ←
    issue (Call.findToken payload.refreshToken)
  match record with
  | .unsent => return sendError
  | .lost | .answered (.error _) => return ⟨500, .text "Server error"⟩
  | .answered (.ok none) => return ⟨401, .text "Invalid refresh token"⟩
  | .answered (.ok (some tokenRecord)) =>
    let currentTime : Int ← issue Call.clock
    if tokenRecord.expiresAt < currentTime then
      return ⟨401, .text "Refresh token expired. Please login again"⟩
    else
      match ← generateAccessToken (.refresh tokenRecord currentTime) tokenRecord.userId
        tokenRecord.userRoleId with
      | .error _ => return ⟨500, .text "Error generating access token"⟩
      | .ok (accessToken, _) =>
        return ⟨200, .auth ⟨accessToken, payload.refreshToken, "Bearer"⟩⟩

/-! ## Commands on users -/

def foundRoleId (roleId : Int) : Task Unit := do
  let found : Except WriteError (Option Int) ← issue (Call.roleById roleId)
  match found with
  | .error e => fail s!"Помилка читання з бази даних: {e.display}"
  | .ok none => fail s!"Вказаної ролі (role_id: {roleId}) не існує"
  | .ok (some _) => return ()

def checkDbWriteUserErr (result : Except WriteError Unit) : Task Unit :=
  match result with
  | .ok () => return ()
  | .error e =>
    -- 1062 is the number of the error for a duplicate, but the code of a duplicate is 23000
    if e.code = some "1062" then fail "Користувач з таким іменем уже існує"
    else fail s!"Помилка запису в БД: {e.display}"

def createUser (user : UserCreate) : Task Unit := do
  foundRoleId user.roleId
  checkDbWriteUserErr (← issue (Call.insertUser user))

def updateUser (user : UserUpdate) : Task Unit := do
  if let some roleId := user.roleId then foundRoleId roleId
  checkDbWriteUserErr (← issue (Call.updateUser user))

def deleteUser (user : UserDelete) : Task Unit := do
  let deleted : Except WriteError Unit ← issue (Call.deleteUser user.id)
  match deleted with
  | .ok () => return ()
  | .error e => fail s!"Помилка видалення користувача: {e.display}"

inductive Request where
  | login (payload : UserLogin)
  | logout (payload : RefreshRequest)
  | refreshToken (payload : RefreshRequest)
  | userCreate (user : UserCreate)
  | userUpdate (user : UserUpdate)
  | userDelete (user : UserDelete)
  deriving DecidableEq, Repr

def respond (handler : Task Response) : Task Unit := do
  let response ← handler
  issue (Call.respond response)

def Request.task : Request → Task Unit
  | login payload => respond (Auth.login payload)
  | logout payload => respond (Auth.logout payload)
  | refreshToken payload => respond (Auth.refreshToken payload)
  | userCreate user => createUser user
  | userUpdate user => updateUser user
  | userDelete user => deleteUser user

abbrev Step := Pool.Step Request Fate

/-- The tables and the tasks after requests, their calls and drops, in the order in which they happen. -/
def runAuth (collation : Collation) (t : AuthTables) (steps : List Step) :
    Pool AuthTables Call Call.Answer String :=
  Pool.run Request.task (perform collation) t steps

end ModbusLogger.Auth
