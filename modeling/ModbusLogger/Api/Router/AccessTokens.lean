import ModbusLogger.Api.Router.Auth

/-!
# What an access token says about its user

Changes of a user do not reach the tokens: a login looks at the row of the user, whether it is active or
not, and a refresh repeats what a login wrote down. The result is where the user and the role of a
token come from, and until when a record is good for another token. A login gives it 31 days; a logout
ends it in the second in which it is, which may be later, too.
-/

namespace ModbusLogger.Auth

open Db Program Pool

variable {collation : Collation} {t : AuthTables}

/-- The task `i` read this time from the clock of the service. -/
def ReadClock (collation : Collation) (t : AuthTables) (now : List Step) (i : Nat) (time : Int) :
    Prop :=
  ∃ past fate, past ++ [.advance i fate] <+: now ∧
    (runAuth collation t past).issued (.advance i fate : Step) = some (.clock, fate) ∧
    fate.time = time

/-- A logout ended the record at the time that it read, whether the record had ended before or not. -/
def EndedByLogout (collation : Collation) (t : AuthTables) (now : List Step) (record : RefreshToken) :
    Prop :=
  ∃ i payload, (commands now)[i]? = some (.logout payload) ∧
    ReadClock collation t now i record.expiresAt ∧ record.createdAt = record.expiresAt

/-- A login that issued a token for the user and the role of the record. It gave the record its
lifetime, unless a logout has ended it. -/
def Granted (collation : Collation) (t : AuthTables) (now : List Step) (record : RefreshToken) :
    Prop :=
  ∃ past i fate claims, past ++ [.advance i fate] <+: now ∧
    (runAuth collation t past).issued (.advance i fate : Step) =
      some (.encode .login claims, fate) ∧
    claims.id = record.userId ∧ claims.roleId = record.userRoleId ∧
    (record.expiresAt = claims.iat + 2678400 ∨ EndedByLogout collation t now record)

/-- The task `i` looked up a user that had this id and this role. -/
def LookedUp (collation : Collation) (t : AuthTables) (now : List Step) (i : Nat)
    (id roleId : Int) : Prop :=
  ∃ past fate username, past ++ [.advance i fate] <+: now ∧
    (runAuth collation t past).issued (.advance i fate : Step) = some (.verify username, fate) ∧
    ∃ row, (runAuth collation t past).world.users.Has id row ∧ row.roleId = roleId

/-- Every stored record is granted. -/
def AllGranted (collation : Collation) (t : AuthTables) (now : List Step) : Prop :=
  ∀ record ∈ (runAuth collation t now).world.refreshTokens, Granted collation t now record

/-- What the calls of the tasks guarantee. -/
def Guarantee (collation : Collation) (t : AuthTables) (now : List Step) (i : Nat) (c : Call)
    (_ : Fate) : Prop :=
  match c with
  | .encode .login claims => LookedUp collation t now i claims.id claims.roleId
  | .encode (.refresh record checkedAt) claims => Granted collation t now record ∧
      claims.id = record.userId ∧ claims.roleId = record.userRoleId ∧
      ReadClock collation t now i checkedAt ∧ checkedAt ≤ record.expiresAt
  | .writeToken record => Granted collation t now record
  | _ => True

theorem ReadClock.later {now now' : List Step} {i : Nat} {time : Int}
    (h : ReadClock collation t now i time) (hnow : now <+: now') :
    ReadClock collation t now' i time := by
  obtain ⟨past, fate, hpast, hrest⟩ := h
  exact ⟨past, fate, hpast.trans hnow, hrest⟩

theorem Granted.later {now now' : List Step} {record : RefreshToken}
    (h : Granted collation t now record) (hnow : now <+: now') : Granted collation t now' record := by
  obtain ⟨past, i, fate, claims, hpast, hissued, hid, hrole, hlife⟩ := h
  refine ⟨past, i, fate, claims, hpast.trans hnow, hissued, hid, hrole, hlife.imp_right ?_⟩
  rintro ⟨j, payload, hcommand, hread, hcreated⟩
  exact ⟨j, payload, command_later hcommand hnow, hread.later hnow, hcreated⟩

theorem LookedUp.later {now now' : List Step} {i : Nat} {id roleId : Int}
    (h : LookedUp collation t now i id roleId) (hnow : now <+: now') :
    LookedUp collation t now' i id roleId := by
  obtain ⟨past, fate, username, hpast, hrest⟩ := h
  exact ⟨past, fate, username, hpast.trans hnow, hrest⟩

/-! ## The stored records -/

/-- The statements on users leave the records alone. -/
theorem Fate.write_refreshTokens {fate : Fate} {t : AuthTables} {result : Except WriteError AuthTables}
    (hresult : ∀ t', result = .ok t' → t'.refreshTokens = t.refreshTokens) :
    (fate.write t result).1.refreshTokens = t.refreshTokens := by
  unfold Fate.write
  split
  · dsimp only
    split
    · exact hresult _ rfl
    · rfl
  · rfl

/-- Only a write of a token changes the records. -/
theorem perform_cases (c : Call) (fate : Fate) (t : AuthTables) :
    (perform collation c fate t).1.refreshTokens = t.refreshTokens ∨
      ∃ token, c = .writeToken token ∧ (fate.sent && fate.applied) = true ∧
        (perform collation c fate t).1 = t.upsertToken token := by
  cases c with
  | writeToken token =>
      cases hsent : fate.sent && fate.applied with
      | true => exact .inr ⟨token, rfl, rfl, if_pos hsent⟩
      | false =>
          left
          show (if fate.sent && fate.applied then _ else _ : AuthTables).refreshTokens = _
          rw [if_neg (by simp [hsent])]
  | insertUser user => exact .inl (Fate.write_refreshTokens fun t' => AuthTables.insertUser_refreshTokens)
  | updateUser user => exact .inl (Fate.write_refreshTokens fun t' => AuthTables.updateUser_refreshTokens)
  | deleteUser id =>
      refine .inl (Fate.write_refreshTokens fun t' heq => ?_)
      cases heq
      rfl
  | verify | findToken | clock | newUuid | encode | respond | roleById => exact .inl rfl

theorem perform_refreshTokens {c : Call} {fate : Fate} {t : AuthTables} {record : RefreshToken}
    (h : record ∈ (perform collation c fate t).1.refreshTokens) :
    record ∈ t.refreshTokens ∨ c = .writeToken record := by
  rcases perform_cases c fate t with hsame | ⟨token, rfl, -, hwritten⟩
  · exact .inl (hsame ▸ h)
  · rw [hwritten] at h
    rcases AuthTables.mem_upsertToken.mp h with ⟨hold, -⟩ | rfl
    · exact .inl hold
    · exact .inr rfl

theorem allGranted_keeps (ht : t.refreshTokens = []) :
    Keeps Request.task (perform collation) t (AllGranted collation t) (Guarantee collation t) where
  start record hrecord := by
    change record ∈ t.refreshTokens at hrecord
    rw [ht] at hrecord
    cases hrecord
  idle pre s hI hissued record hrecord := by
    unfold runAuth at hrecord
    rw [run_concat, step_world, hissued] at hrecord
    exact (hI record hrecord).later (List.prefix_append pre [s])
  call pre i fate c hI hissued hG record hrecord := by
    unfold runAuth at hrecord
    rw [run_concat, step_world, hissued] at hrecord
    rcases perform_refreshTokens hrecord with hold | rfl
    · exact (hI record hold).later (List.prefix_append _ _)
    · exact hG.later (List.prefix_append _ _)

/-! ## The handlers -/

theorem reply_eq_answered {α : Type} {fate : Fate} {a b : α} (h : fate.reply a = .answered b) :
    a = b := by
  unfold Fate.reply at h
  split at h
  · split at h
    · cases h
      rfl
    · cases h
  · cases h

/-- The handlers guarantee what they issue. -/
abbrev Safe (collation : Collation) (t : AuthTables) (i : Nat) {α : Type}
    (Q : α → List Step → Prop) (p : Task α) (pre : List Step) : Prop :=
  Sat Request.task (perform collation) t (AllGranted collation t) (Guarantee collation t) i Q p pre

theorem safe_generateAccessToken {use : TokenUse} {id roleId : Int} {i : Nat} {pre : List Step}
    {Q : Except Unit (Claims × Int) → List Step → Prop}
    (hencode : ∀ now claims fate, pre <+: now → claims.id = id → claims.roleId = roleId →
      Guarantee collation t now i (.encode use claims) fate)
    (hok : ∀ now claims fate, pre <+: now → (runAuth collation t now).issued
      (.advance i fate : Step) = some (.encode use claims, fate) → claims.id = id →
      claims.roleId = roleId → Q (.ok (claims, claims.iat)) (now ++ [.advance i fate]))
    (herror : ∀ now, Q (.error ()) now) :
    Safe collation t i Q (generateAccessToken use id roleId) pre := by
  apply sat_issue
  intro now fate hnow _ _
  refine ⟨trivial, fun currentTime _ => ?_⟩
  apply sat_issue
  intro now' fate' hnow' _ hissued
  have hpre : pre <+: now' := hnow.trans ((List.prefix_append _ _).trans hnow')
  refine ⟨hencode now' _ fate' hpre rfl rfl, fun encoded _ => ?_⟩
  show Q (if encoded then _ else _) _
  split
  · exact hok now' _ fate' hpre hissued rfl rfl
  · exact herror _

theorem safe_login (payload : UserLogin) (i : Nat) (pre : List Step) :
    Safe collation t i (fun _ _ => True) (login payload) pre := by
  apply sat_issue
  intro now fate hnow _ hissued
  refine ⟨trivial, fun answer hanswer => ?_⟩
  split
  · exact trivial
  · exact trivial
  · exact trivial
  · exact trivial
  · next user =>
      have hlooked : LookedUp collation t (now ++ [.advance i fate]) i user.id user.roleId := by
        have hfound := reply_eq_answered hanswer.symm
        split at hfound
        · obtain ⟨row, hrow, hread⟩ := AuthTables.userByName_has (Except.ok.inj hfound)
          refine ⟨now, fate, payload.username, List.prefix_refl _, hissued, row, hrow, ?_⟩
          rw [hread]
          rfl
        · cases hfound
      split
      · exact trivial
      · apply sat_bind
        apply safe_generateAccessToken
        · intro now' claims fate' hnow' hid hrole
          rw [← hid, ← hrole] at hlooked
          exact hlooked.later hnow'
        · intro now' claims fate' hnow' hencoded hid hrole
          apply sat_issue
          intro now₂ fate₂ hnow₂ _ _
          refine ⟨trivial, fun refreshToken _ => ?_⟩
          apply sat_issue
          intro now₃ fate₃ hnow₃ _ _
          have hpast := hnow₂.trans ((List.prefix_append _ _).trans hnow₃)
          refine ⟨⟨now', i, fate', claims, hpast, hencoded, hid, hrole, .inl rfl⟩, fun written _ => ?_⟩
          split <;> exact trivial
        · exact fun _ => trivial

/-- What is read from the table is granted. -/
theorem granted_of_found {now : List Step} {fate : Fate} {token : String} {record : RefreshToken}
    (hI : AllGranted collation t now)
    (h : .answered (.ok (some record)) = (perform collation (.findToken token) fate
      (runAuth collation t now).world).2) : Granted collation t now record := by
  have hfound := reply_eq_answered h.symm
  split at hfound
  · exact hI record (AuthTables.tokenByHash_mem (Except.ok.inj hfound))
  · cases hfound

theorem safe_logout (payload : RefreshRequest) (i : Nat) (pre : List Step)
    (hcommand : (commands pre)[i]? = some (.logout payload)) :
    Safe collation t i (fun _ _ => True) (logout payload) pre := by
  apply sat_issue
  intro now fate hnow hI _
  refine ⟨trivial, fun answer hanswer => ?_⟩
  split
  · exact trivial
  · exact trivial
  · exact trivial
  · exact trivial
  · next record =>
      obtain ⟨past, j, fate₀, claims, hpast, hissued, hid, hrole, -⟩ := granted_of_found hI hanswer
      apply sat_issue
      intro now₁ fate₁ hnow₁ _ hclock
      refine ⟨trivial, fun currentTime htime => ?_⟩
      apply sat_issue
      intro now₂ fate₂ hnow₂ _ _
      have hlater : now <+: now₂ :=
        ((List.prefix_append _ _).trans hnow₁).trans ((List.prefix_append _ _).trans hnow₂)
      have hended : EndedByLogout collation t now₂
          { record with createdAt := currentTime, expiresAt := currentTime } :=
        ⟨i, payload, command_later hcommand (hnow.trans hlater), ⟨now₁, fate₁, hnow₂, hclock, htime.symm⟩,
          rfl⟩
      refine ⟨⟨past, j, fate₀, claims, hpast.trans hlater, hissued, hid, hrole, .inr hended⟩,
        fun written _ => ?_⟩
      split <;> exact trivial

theorem safe_refreshToken (payload : RefreshRequest) (i : Nat) (pre : List Step) :
    Safe collation t i (fun _ _ => True) (refreshToken payload) pre := by
  apply sat_issue
  intro now fate hnow hI _
  refine ⟨trivial, fun answer hanswer => ?_⟩
  split
  · exact trivial
  · exact trivial
  · exact trivial
  · exact trivial
  · next record =>
      have hgranted := granted_of_found hI hanswer
      apply sat_issue
      intro now₁ fate₁ hnow₁ _ hclock
      refine ⟨trivial, fun currentTime htime => ?_⟩
      split
      · exact trivial
      · next hfresh =>
          have hnow₁ : now <+: now₁ := (List.prefix_append _ _).trans hnow₁
          apply sat_bind
          apply safe_generateAccessToken
          · intro now₂ claims fate₂ hnow₂ hid hrole
            have hlater := hnow₁.trans ((List.prefix_append _ _).trans hnow₂)
            exact ⟨hgranted.later hlater, hid, hrole, ⟨now₁, fate₁, hnow₂, hclock, htime.symm⟩,
              Int.not_lt.mp hfresh⟩
          · exact fun _ _ _ _ _ _ _ => trivial
          · exact fun _ => trivial

theorem safe_respond {handler : Task Response} {i : Nat} {pre : List Step}
    (h : Safe collation t i (fun _ _ => True) handler pre) :
    Safe collation t i (fun _ _ => True) (respond handler) pre := by
  apply sat_bind
  apply h.imp
  intro response now _
  exact fun _ _ _ _ _ => ⟨trivial, trivial⟩

/-! ## The commands on users -/

section Calls

variable {P : Call → Prop}

theorem foundRoleId_every (roleId : Int) (hrole : P (.roleById roleId)) :
    (foundRoleId roleId).Every P fun _ => True := by
  unfold foundRoleId
  simp only [issue_bind, every_call]
  refine ⟨hrole, fun found => ?_⟩
  split <;> exact trivial

theorem checkDbWriteUserErr_every (result : Except WriteError Unit) :
    (checkDbWriteUserErr result).Every P fun _ => True := by
  unfold checkDbWriteUserErr
  split
  · exact trivial
  · split <;> exact trivial

theorem createUser_every (user : UserCreate) (hrole : P (.roleById user.roleId))
    (hwrite : P (.insertUser user)) : (createUser user).Every P fun _ => True := by
  unfold createUser
  rw [every_bind]
  apply (foundRoleId_every user.roleId hrole).imp (fun _ h => h)
  intro _ _
  exact ⟨hwrite, checkDbWriteUserErr_every⟩

theorem updateUser_every (user : UserUpdate) (hrole : ∀ roleId, P (.roleById roleId))
    (hwrite : P (.updateUser user)) : (updateUser user).Every P fun _ => True := by
  unfold updateUser
  split
  · next roleId _ =>
      rw [every_bind]
      apply (foundRoleId_every roleId (hrole roleId)).imp (fun _ h => h)
      intro _ _
      exact ⟨hwrite, checkDbWriteUserErr_every⟩
  · exact ⟨hwrite, checkDbWriteUserErr_every⟩

theorem deleteUser_every (user : UserDelete) (hwrite : P (.deleteUser user.id)) :
    (deleteUser user).Every P fun _ => True := by
  unfold deleteUser
  simp only [issue_bind, every_call]
  refine ⟨hwrite, fun deleted => ?_⟩
  split <;> exact trivial

end Calls

/-- Calls that guarantee nothing in particular. -/
theorem safe_of_every {p : Task Unit} {i : Nat} {pre : List Step}
    (h : p.Every (fun c => ∀ now fate, Guarantee collation t now i c fate) fun _ => True) :
    Safe collation t i (fun _ _ => True) p pre :=
  sat_of_every h (fun _ now fate hc => hc now fate) fun _ _ => trivial

theorem Request.task_safe (request : Request) (i : Nat) (pre : List Step)
    (hcommand : (commands pre)[i]? = some request) :
    Safe collation t i (fun _ _ => True) request.task pre := by
  cases request with
  | login payload => exact safe_respond (safe_login payload i pre)
  | logout payload => exact safe_respond (safe_logout payload i pre hcommand)
  | refreshToken payload => exact safe_respond (safe_refreshToken payload i pre)
  | userCreate user =>
      exact safe_of_every (createUser_every user (fun _ _ => trivial) fun _ _ => trivial)
  | userUpdate user =>
      exact safe_of_every (updateUser_every user (fun _ _ _ => trivial) fun _ _ => trivial)
  | userDelete user => exact safe_of_every (deleteUser_every user fun _ _ => trivial)

/-! ## The result -/

/-- The row that a token repeats. A token of a login repeats the row that this login looked up. A token
of a refresh repeats what an earlier login repeated. When the refresh checked the record, this login was
at most 31 days ago, or it was at most the time at which a logout ended the record. The token is issued
after the check. -/
def FromUsers (collation : Collation) (t : AuthTables) (now : List Step) (i : Nat)
    (use : TokenUse) (claims : Claims) : Prop :=
  match use with
  | .login => LookedUp collation t now i claims.id claims.roleId
  | .refresh record checkedAt => ∃ past j fate earlier, past ++ [.advance j fate] <+: now ∧
      (runAuth collation t past).issued (.advance j fate : Step) =
        some (.encode .login earlier, fate) ∧
      LookedUp collation t past j earlier.id earlier.roleId ∧
      earlier.id = claims.id ∧ earlier.roleId = claims.roleId ∧
      ReadClock collation t now i checkedAt ∧
      (checkedAt ≤ earlier.iat + 2678400 ∨
        EndedByLogout collation t now record ∧ checkedAt ≤ record.expiresAt)

theorem access_token_from_users (collation : Collation) (t : AuthTables)
    (ht : t.refreshTokens = []) (steps : List Step) (i : Nat) (fate : Fate) (use : TokenUse)
    (claims : Claims) (h : (runAuth collation t steps).issued (.advance i fate : Step) =
      some (.encode use claims, fate)) : FromUsers collation t steps i use claims := by
  have hguarantee {steps : List Step} {i : Nat} {fate : Fate} {c : Call}
      (h : (runAuth collation t steps).issued (.advance i fate : Step) = some (c, fate)) :
      Guarantee collation t steps i c fate :=
    guarantee_of_command (allGranted_keeps ht) Request.task_safe h
  cases use with
  | login => exact hguarantee h
  | refresh record checkedAt =>
      obtain ⟨⟨past, j, fate', earlier, hpast, hissued, hid, hrole, hlife⟩, hid', hrole', hread,
        hchecked⟩ := hguarantee h
      refine ⟨past, j, fate', earlier, hpast, hissued, hguarantee hissued, hid.trans hid'.symm,
        hrole.trans hrole'.symm, hread, ?_⟩
      rcases hlife with hlogin | hlogout
      · exact .inl (hlogin ▸ hchecked)
      · exact .inr ⟨hlogout, hchecked⟩

/-! ## Tokens of users that changed -/

def exact : Collation := ⟨fun a b => a = b⟩

def Fate.success : Fate := ⟨true, true, true, true, true, 1000, "5f2c", ⟨none, ""⟩⟩

/-- One administrator, who has not logged in yet. -/
def oneAdmin : AuthTables where
  users := Table.empty.insert ⟨"admin", "secret", 1, true⟩
  roles := [1, 2, 3, 4]
  refreshTokens := []

def loginAdmin : List Step :=
  [.start (.login ⟨"admin", "secret"⟩), .advance 0 .success, .advance 0 .success,
    .advance 0 .success, .advance 0 .success, .advance 0 .success, .advance 0 .success]

/-- A refresh, up to the token. -/
def refreshAdmin : List Step :=
  [.start (.refreshToken ⟨"5f2c"⟩), .advance 2 .success, .advance 2 .success, .advance 2 .success]

/-- A login, a change of the role, a refresh. -/
def demoted : List Step :=
  loginAdmin ++ [.start (.userUpdate ⟨1, none, none, some 3, none⟩), .advance 1 .success,
    .advance 1 .success] ++ refreshAdmin

def deleted : List Step :=
  loginAdmin ++ [.start (.userDelete ⟨1⟩), .advance 1 .success] ++ refreshAdmin

/-- The user is set inactive, and logs in. -/
def inactive : List Step :=
  [.start (.userUpdate ⟨1, none, none, none, some false⟩), .advance 0 .success,
    .start (.login ⟨"admin", "secret"⟩), .advance 1 .success, .advance 1 .success]

/-- The user is active and has the role. -/
def Current (users : Table UserRow) (claims : Claims) : Prop :=
  ∃ row, users.Has claims.id row ∧ row.isActive = true ∧ row.roleId = claims.roleId

theorem access_token_not_current :
    (∃ record claims, (runAuth exact oneAdmin demoted).issued (.advance 2 .success : Step) =
        some (.encode (.refresh record 1000) claims, .success) ∧
      ¬Current (runAuth exact oneAdmin demoted).world.users claims) ∧
    (∃ record claims, (runAuth exact oneAdmin deleted).issued (.advance 2 .success : Step) =
        some (.encode (.refresh record 1000) claims, .success) ∧
      ¬Current (runAuth exact oneAdmin deleted).world.users claims) ∧
    ∃ claims, (runAuth exact oneAdmin inactive).issued (.advance 1 .success : Step) =
        some (.encode .login claims, .success) ∧
      ¬Current (runAuth exact oneAdmin inactive).world.users claims := by
  refine ⟨⟨⟨1, 1, "5f2c", 1000, 2679400⟩, ⟨1, 1, 1900, 1000⟩, by decide, ?_⟩,
    ⟨⟨1, 1, "5f2c", 1000, 2679400⟩, ⟨1, 1, 1900, 1000⟩, by decide, ?_⟩,
    ⟨1, 1, 1900, 1000⟩, by decide, ?_⟩
  · rintro ⟨row, hrow, -, hrole⟩
    cases List.mem_singleton.mp hrow
    cases hrole
  · rintro ⟨row, hrow, -, -⟩
    cases hrow
  · rintro ⟨row, hrow, hactive, -⟩
    cases List.mem_singleton.mp hrow
    cases hactive

theorem access_token_from_users_demoted :
    FromUsers exact oneAdmin demoted 2 (.refresh ⟨1, 1, "5f2c", 1000, 2679400⟩ 1000)
      ⟨1, 1, 1900, 1000⟩ :=
  access_token_from_users exact oneAdmin rfl demoted 2 .success _ _ (by decide)

end ModbusLogger.Auth
