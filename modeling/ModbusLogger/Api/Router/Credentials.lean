import ModbusLogger.Api.Router.AccessTokens

/-!
# What a token proves

An access token proves that somebody knew a password: it goes back to a login that was sent the name
and the password of a user, and it repeats the id and the role of this user. A refresh has no proof of
its own, it repeats that of the login.
-/

namespace ModbusLogger.Auth

open Db Program Pool

variable {collation : Collation} {t : AuthTables}

/-- A login was sent the name and the password of the user, who had this role. -/
structure Login (collation : Collation) (t : AuthTables) (past : List Step) (i : Nat)
    (payload : UserLogin) (id roleId : Int) : Prop where
  task : (commands past)[i]? = some (.login payload)
  user : ∃ row, (runAuth collation t past).world.users.Has id row ∧
    collation.equal row.username payload.username = true ∧ row.passwordHash = payload.password ∧
      row.roleId = roleId

def Authenticated (collation : Collation) (t : AuthTables) (now : List Step) (id roleId : Int) : Prop :=
  ∃ past i fate payload, past ++ [.advance i fate] <+: now ∧
    Login collation t past i payload id roleId

/-- What the calls of the tasks prove. -/
def Proves (collation : Collation) (t : AuthTables) (now : List Step) (_ : Nat) (c : Call) (_ : Fate) :
    Prop :=
  match c with
  | .encode _ claims => Authenticated collation t now claims.id claims.roleId
  | .writeToken record => Authenticated collation t now record.userId record.userRoleId
  | _ => True

/-- Every stored record goes back to a login. -/
def AllProved (collation : Collation) (t : AuthTables) (now : List Step) : Prop :=
  ∀ record ∈ (runAuth collation t now).world.refreshTokens,
    Authenticated collation t now record.userId record.userRoleId

theorem Authenticated.later {now now' : List Step} {id roleId : Int}
    (h : Authenticated collation t now id roleId) (hnow : now <+: now') :
    Authenticated collation t now' id roleId := by
  obtain ⟨past, i, fate, payload, hpast, hlogin⟩ := h
  exact ⟨past, i, fate, payload, hpast.trans hnow, hlogin⟩

theorem allProved_keeps (ht : t.refreshTokens = []) :
    Keeps Request.task (perform collation) t (AllProved collation t) (Proves collation t) where
  start record hrecord := by
    change record ∈ t.refreshTokens at hrecord
    rw [ht] at hrecord
    cases hrecord
  idle pre s hI hissued record hrecord := by
    unfold runAuth at hrecord
    rw [run_concat, step_world, hissued] at hrecord
    exact (hI record hrecord).later (List.prefix_append pre [s])
  call pre i fate c hI hissued hproves record hrecord := by
    unfold runAuth at hrecord
    rw [run_concat, step_world, hissued] at hrecord
    rcases perform_refreshTokens hrecord with hold | rfl
    · exact (hI record hold).later (List.prefix_append _ _)
    · exact hproves.later (List.prefix_append _ _)

/-! ## The handlers -/

abbrev Proved (collation : Collation) (t : AuthTables) (i : Nat) {α : Type}
    (Q : α → List Step → Prop) (p : Task α) (pre : List Step) : Prop :=
  Sat Request.task (perform collation) t (AllProved collation t) (Proves collation t) i Q p pre

variable {i : Nat} {pre : List Step}

theorem proved_generateAccessToken {use : TokenUse} {id roleId : Int}
    {Q : Except Unit (Claims × Int) → List Step → Prop}
    (h : Authenticated collation t pre id roleId) (hQ : ∀ result now, pre <+: now → Q result now) :
    Proved collation t i Q (generateAccessToken use id roleId) pre := by
  apply sat_issue
  intro now fate hnow _ _
  refine ⟨trivial, fun currentTime _ => ?_⟩
  apply sat_issue
  intro now' fate' hnow' _ _
  have hpre : pre <+: now' := hnow.trans ((List.prefix_append _ _).trans hnow')
  refine ⟨h.later hpre, fun encoded _ => ?_⟩
  show Q (if encoded then _ else _) _
  exact hQ _ _ (hpre.trans (List.prefix_append _ _))

theorem proved_login {payload : UserLogin} (hi : (commands pre)[i]? = some (.login payload)) :
    Proved collation t i (fun _ _ => True) (login payload) pre := by
  apply sat_issue
  intro now fate hnow _ _
  refine ⟨trivial, fun answer hanswer => ?_⟩
  split
  · exact trivial
  · exact trivial
  · exact trivial
  · exact trivial
  · next user =>
      split
      · exact trivial
      · next hpassword =>
          have hauthenticated :
              Authenticated collation t (now ++ [.advance i fate]) user.id user.roleId := by
            have hfound := reply_eq_answered hanswer.symm
            split at hfound
            · obtain ⟨r, hr, rfl⟩ := Option.map_eq_some_iff.mp (Except.ok.inj hfound)
              obtain ⟨hhas, hname⟩ := Table.first?_has hr
              have htask : (commands now)[i]? = some (.login payload) := by
                obtain ⟨post, rfl⟩ := hnow
                rw [commands_append]
                exact List.getElem?_append_left (List.getElem?_eq_some_iff.mp hi).1 ▸ hi
              refine ⟨now, i, fate, payload, List.prefix_refl _, htask, r.2, hhas, hname, ?_, rfl⟩
              exact not_not.mp hpassword
            · cases hfound
          apply sat_bind
          apply proved_generateAccessToken hauthenticated
          intro result now' hnow'
          cases result with
          | error _ => exact trivial
          | ok token =>
              apply sat_issue
              intro now₂ fate₂ hnow₂ _ _
              refine ⟨trivial, fun refreshToken _ => ?_⟩
              apply sat_issue
              intro now₃ fate₃ hnow₃ _ _
              have hlater := hnow'.trans (hnow₂.trans ((List.prefix_append _ _).trans hnow₃))
              refine ⟨hauthenticated.later hlater, fun written _ => ?_⟩
              split <;> exact trivial

/-- What is read from the table is proved. -/
theorem authenticated_of_found {now : List Step} {fate : Fate} {token : String} {record : RefreshToken}
    (hI : AllProved collation t now)
    (h : .answered (.ok (some record)) = (perform collation (.findToken token) fate
      (runAuth collation t now).world).2) :
    Authenticated collation t now record.userId record.userRoleId := by
  have hfound := reply_eq_answered h.symm
  split at hfound
  · exact hI record (AuthTables.tokenByHash_mem (Except.ok.inj hfound))
  · cases hfound

theorem proved_logout (payload : RefreshRequest) :
    Proved collation t i (fun _ _ => True) (logout payload) pre := by
  apply sat_issue
  intro now fate hnow hI _
  refine ⟨trivial, fun answer hanswer => ?_⟩
  split
  · exact trivial
  · exact trivial
  · exact trivial
  · exact trivial
  · next record =>
      have hfound := authenticated_of_found hI hanswer
      apply sat_issue
      intro now₁ fate₁ hnow₁ _ _
      refine ⟨trivial, fun currentTime _ => ?_⟩
      apply sat_issue
      intro now₂ fate₂ hnow₂ _ _
      have hlater : now <+: now₂ :=
        ((List.prefix_append _ _).trans hnow₁).trans ((List.prefix_append _ _).trans hnow₂)
      refine ⟨hfound.later hlater, fun written _ => ?_⟩
      split <;> exact trivial

theorem proved_refreshToken (payload : RefreshRequest) :
    Proved collation t i (fun _ _ => True) (refreshToken payload) pre := by
  apply sat_issue
  intro now fate hnow hI _
  refine ⟨trivial, fun answer hanswer => ?_⟩
  split
  · exact trivial
  · exact trivial
  · exact trivial
  · exact trivial
  · next record =>
      have hfound := authenticated_of_found hI hanswer
      apply sat_issue
      intro now₁ fate₁ hnow₁ _ _
      refine ⟨trivial, fun currentTime _ => ?_⟩
      split
      · exact trivial
      · have hlater : now <+: now₁ ++ [.advance i fate₁] :=
          ((List.prefix_append _ _).trans hnow₁).trans (List.prefix_append _ _)
        apply sat_bind
        apply proved_generateAccessToken (hfound.later hlater)
        intro result now' _
        cases result <;> exact trivial

theorem proved_respond {handler : Task Response}
    (h : Proved collation t i (fun _ _ => True) handler pre) :
    Proved collation t i (fun _ _ => True) (respond handler) pre := by
  apply sat_bind
  apply h.imp
  intro response now _
  exact fun _ _ _ _ _ => ⟨trivial, trivial⟩

/-- The commands on users prove nothing. -/
theorem proved_of_every {p : Task Unit}
    (h : p.Every (fun c => ∀ now fate, Proves collation t now i c fate) fun _ => True) :
    Proved collation t i (fun _ _ => True) p pre :=
  sat_of_every h (fun _ now fate hc => hc now fate) fun _ _ => trivial

theorem Request.task_proved (request : Request) (i : Nat) (pre : List Step)
    (hi : (commands pre)[i]? = some request) :
    Proved collation t i (fun _ _ => True) request.task pre := by
  cases request with
  | login payload => exact proved_respond (proved_login hi)
  | logout payload => exact proved_respond (proved_logout payload)
  | refreshToken payload => exact proved_respond (proved_refreshToken payload)
  | userCreate user =>
      exact proved_of_every (createUser_every user (fun _ _ => trivial) fun _ _ => trivial)
  | userUpdate user =>
      exact proved_of_every (updateUser_every user (fun _ _ _ => trivial) fun _ _ => trivial)
  | userDelete user => exact proved_of_every (deleteUser_every user fun _ _ => trivial)

/-- **Tokens.** Who has an access token has it from somebody who knew the password. -/
theorem encode_authenticated (ht : t.refreshTokens = []) {steps : List Step} {i : Nat} {fate : Fate}
    {use : TokenUse} {claims : Claims}
    (h : (runAuth collation t steps).issued (.advance i fate : Step) = some (.encode use claims, fate)) :
    Authenticated collation t steps claims.id claims.roleId :=
  guarantee_of_command (allProved_keeps ht) Request.task_proved h

end ModbusLogger.Auth
