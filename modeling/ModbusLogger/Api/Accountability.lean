import ModbusLogger.Api.Commands
import ModbusLogger.Api.Router.Credentials
import ModbusLogger.Api.Router.Revocation
import ModbusLogger.Lib.OneFamily

/-!
# Who may change the configuration

The layers of a route look at a token, the token repeats what a login has found, and the login compares
a password. Put together: whatever changes the nodes, devices, values, users, groups, subgroups or
assignments is the task of a request with the token of somebody who knew the password of an
administrator. The server cannot see who calculated a signature, so this is assumed of the tokens.
-/

namespace ModbusLogger.Api

open Db Auth Hasher Families Program Pool

variable {J : Type}

/-! ## The configuration -/

/-- All but the measures and the sessions. -/
structure Configuration (J : Type) where
  nodes : Table NodeRow
  devices : Table DeviceRow
  valueUnits : Table (ValueRow J)
  users : Table UserRow
  roles : List Int
  groups : GroupTables

def configuration (db : Database J) : Configuration J where
  nodes := db.main.nodes
  devices := db.main.devices
  valueUnits := db.main.valueUnits
  users := db.auth.users
  roles := db.auth.roles
  groups := db.groups

/-- The call may change the configuration. -/
def CallConfigures : (k : Family) → k.Call J → Prop
  | .config, _ | .groups, _ => True
  | .users, .insertUser _ | .users, .updateUser _ | .users, .deleteUser _ => True
  | .users, _ | .measures, _ => False

def Configures : (k : Family) × k.Command J → Prop
  | ⟨.config, _⟩ | ⟨.groups, _⟩ => True
  | ⟨.users, .userCreate _⟩ | ⟨.users, .userUpdate _⟩ | ⟨.users, .userDelete _⟩ => True
  | ⟨.users, _⟩ | ⟨.measures, _⟩ => False

theorem Database.withAuth_same {db : Database J} {auth : AuthTables} (h : auth.users = db.auth.users) :
    (db.withAuth auth).groups = db.groups := by
  unfold Database.withAuth Links.cascade
  rw [h]
  simp only [Table.lost_self, Bool.not_false, Bool.and_self, List.filter_true]

theorem configuration_perform {collation : Collation} {k : Family} {c : k.Call J} (fate : k.Fate)
    (db : Database J) (h : ¬CallConfigures k c) :
    configuration (k.perform collation c fate db).1 = configuration db := by
  cases k with
  | config => exact absurd trivial h
  | groups => exact absurd trivial h
  | users =>
      have hkept {auth : AuthTables} (husers : auth.users = db.auth.users)
          (hroles : auth.roles = db.auth.roles) :
          configuration (db.withAuth auth) = configuration db := by
        unfold configuration
        rw [Database.withAuth_same husers]
        show Configuration.mk _ _ _ auth.users auth.roles _ = _
        rw [husers, hroles]
        rfl
      cases c with
      | insertUser user => exact absurd trivial h
      | updateUser user => exact absurd trivial h
      | deleteUser id => exact absurd trivial h
      | writeToken token =>
          apply hkept
          · show (if fate.sent && fate.applied then _ else _ : AuthTables).users = _
            unfold AuthTables.upsertToken
            split <;> (try split) <;> rfl
          · show (if fate.sent && fate.applied then _ else _ : AuthTables).roles = _
            unfold AuthTables.upsertToken
            split <;> (try split) <;> rfl
      | verify | findToken | clock | newUuid | encode | respond | roleById => exact hkept rfl rfl
  | measures =>
      rcases Family.perform_measures collation c fate db with hsame | ⟨main, hinsert, hperform⟩
      · rw [hsame]
      · obtain ⟨-, heq⟩ := Option.ite_none_right_eq_some.mp hinsert
        rw [hperform, ← Option.some.inj heq]
        rfl

/-- A task changes the configuration only if its command may. -/
theorem task_configures (lib : Libraries J) (k : Family) (command : k.Command J) :
    (k.task lib command).Every (fun c => CallConfigures k c → Configures ⟨k, command⟩)
      fun _ => True := by
  cases k with
  | config => exact every_of_forall _ (fun _ _ => trivial) fun _ => trivial
  | groups => exact every_of_forall _ (fun _ _ => trivial) fun _ => trivial
  | measures => exact ⟨False.elim, fun _ => trivial⟩
  | users =>
      cases command with
      | login payload =>
          show Every _ _ (Auth.login payload >>= _)
          rw [every_bind]
          exact login_every payload False.elim False.elim (fun _ => False.elim) False.elim
            (fun _ => False.elim) fun _ => ⟨False.elim, fun _ => trivial⟩
      | logout payload =>
          show Every _ _ (Auth.logout payload >>= _)
          rw [every_bind]
          exact logout_every payload False.elim False.elim (fun _ => False.elim)
            fun _ text => ⟨False.elim, fun _ => trivial⟩
      | refreshToken payload =>
          show Every _ _ (Auth.refreshToken payload >>= _)
          rw [every_bind]
          exact refreshToken_every payload False.elim False.elim (fun _ _ => False.elim)
            fun _ => ⟨False.elim, fun _ => trivial⟩
      | userCreate user => exact every_of_forall _ (fun _ _ => trivial) fun _ => trivial
      | userUpdate user => exact every_of_forall _ (fun _ _ => trivial) fun _ => trivial
      | userDelete user => exact every_of_forall _ (fun _ _ => trivial) fun _ => trivial

/-! ## Handlers -/

theorem changes_of_sends {h : Handler} {ts : Int} {input : h.Input J}
    {command : (k : Family) × k.Command J} (hsends : h.sends ts input = some command)
    (hconfigures : Configures command) : h.changes = true := by
  have hsession {request : Request} (heq : some ⟨.users, request⟩ = some command)
      (hnot : ¬Configures (⟨.users, request⟩ : (k : Family) × k.Command J)) : h.changes = true := by
    obtain rfl := Option.some.inj heq
    exact absurd hconfigures hnot
  cases h with
  | node h => cases h <;> first | rfl | cases hsends
  | device h => cases h <;> first | rfl | cases hsends
  | value h => cases h <;> first | rfl | cases hsends
  | getMeasures => cases hsends
  | user h => cases h <;> first | rfl | cases hsends
  | group h => cases h <;> first | rfl | cases hsends
  | subgroup h => cases h <;> first | rfl | cases hsends
  | assign h => rfl
  | auth h =>
      cases h with
      | login => exact hsession hsends id
      | logout => exact hsession hsends id
      | refreshToken => exact hsession hsends id
      | me => cases hsends
      | bit => cases hsends
  | root h => cases hsends
  | wsHandler => cases hsends

theorem isProtected_of_changes {h : Handler} (hchanges : h.changes = true) : h.isProtected = true := by
  cases h with
  | auth h => cases hchanges
  | root h => cases hchanges
  | wsHandler => cases hchanges
  | node h | device h | value h | getMeasures | user h | group h | subgroup h | assign h => rfl

theorem exists_getElem?_filterMap {α β : Type*} {f : α → Option β} {l : List α} {i : Nat} {b : β}
    (h : (l.filterMap f)[i]? = some b) :
    ∃ m a, l[m]? = some a ∧ f a = some b ∧ ((l.take m).filterMap f).length = i := by
  induction l generalizing i with
  | nil => cases h
  | cons x l ih =>
      cases hx : f x with
      | none =>
          rw [List.filterMap_cons_none hx] at h
          obtain ⟨m, a, ha, hb, hlength⟩ := ih h
          refine ⟨m + 1, a, ha, hb, ?_⟩
          rwa [List.take_succ_cons, List.filterMap_cons_none hx]
      | some y =>
          rw [List.filterMap_cons_some hx] at h
          cases i with
          | zero => exact ⟨0, x, rfl, hx.trans h, rfl⟩
          | succ i =>
              obtain ⟨m, a, ha, hb, hlength⟩ := ih h
              refine ⟨m + 1, a, ha, hb, ?_⟩
              rw [List.take_succ_cons, List.filterMap_cons_some hx, List.length_cons, hlength]

/-! ## Tokens -/

variable (lib : Libraries J) (collation : Collation) (db : Database J)

/-- A request to log in has sent the name and the password of the user, who had this role. -/
def LoggedIn (steps : List (ServerStep J)) (id roleId : Int) : Prop :=
  ∃ before a payload row, before <+: steps ∧ .arrive a ∈ before ∧
    a.command = some ⟨.users, .login payload⟩ ∧
    (runServer lib collation db before).world.auth.users.Has id row ∧
    collation.equal row.username payload.username = true ∧ row.passwordHash = payload.password ∧
    row.roleId = roleId

/-- A task has encoded the claims. -/
def Encoded (steps : List (ServerStep J)) (claims : Claims) : Prop :=
  ∃ before i fate use, before ++ [.advance i fate] <+: steps ∧
    (runServer lib collation db before).issued (.advance i fate : DatabaseStep J) =
      some (⟨.users, .encode use claims⟩, fate)

/-- Nobody else signs tokens. -/
def Unforged (steps : List (ServerStep J)) : Prop :=
  ∀ n a, steps[n]? = some (.arrive a) → ∀ token claims, a.request.Carries token →
    a.jwt.Valid token claims → Encoded lib collation db (steps.take n) claims

variable {lib collation db}

/-- The tasks on users have their tables to themselves. -/
theorem users_separate : Separate Family.users (Family.perform (J := J) collation) (fun db => db.auth)
    (Auth.perform collation) where
  own c fate w := rfl
  others k c fate w hk := by
    cases k with
    | config => rfl
    | users => exact absurd rfl hk
    | groups =>
        refine performGroups_keeps (I := fun w' : Database J => w'.auth = w.auth) ?_ ?_ rfl
        · exact fun write _ w' hauth hexec => (GroupWrite.exec_others hexec).2.trans hauth
        · exact fun _ _ write _ a b hauth hexec => (GroupWrite.exec_others hexec).2.trans hauth
    | measures =>
        rcases Family.perform_measures collation c fate w with hsame | ⟨main, -, hperform⟩
        · rw [hsame]
        · rw [hperform]

theorem runServer_auth (steps : List (ServerStep J)) :
    (runServer lib collation db steps).world.auth =
      (runAuth collation db.auth (ownSteps Family.users (databaseSteps steps))).world := by
  have halike : Alike Family.users (fun db : Database J => db.auth) _
      (Families.run (Family.task lib) (Family.perform collation) db (databaseSteps steps)) _ :=
    alike_run users_separate db (databaseSteps steps)
  exact halike.world.symm

theorem encoded_loggedIn (hdb : db.auth.refreshTokens = []) {steps : List (ServerStep J)}
    {claims : Claims} (h : Encoded lib collation db steps claims) :
    LoggedIn lib collation db steps claims.id claims.roleId := by
  obtain ⟨before, i, fate, use, hbefore, hissued⟩ := h
  have hown := issued_own users_separate hissued
  obtain ⟨past, j, fate', payload, hpast, htask, row, hrow, hname, hpassword, hrole⟩ :=
    encode_authenticated hdb hown
  obtain ⟨pre, j', fates, request, hpre, rfl, hrequest, rfl, -⟩ :=
    exists_step_of_own (K := Family.Command J) (F := Family.Fate) Family.users hpast
  have hlogin : request = .login payload := by
    have hplace := getElem?_place Family.users hrequest
    rw [← commands_ownSteps] at hplace
    exact Option.some.inj (hplace.symm.trans htask)
  subst hlogin
  obtain ⟨server, hserver, rfl⟩ :=
    List.prefix_filterMap_iff.mp ((List.prefix_append _ _).trans hpre)
  have hstarted := List.mem_of_getElem? hrequest
  change _ ∈ commands (databaseSteps server) at hstarted
  rw [commands_databaseSteps] at hstarted
  obtain ⟨s, hs, hstart⟩ := List.mem_filterMap.mp hstarted
  have hstored : (runServer lib collation db server).world.auth.users.Has claims.id row := by
    rw [runServer_auth]
    exact hrow
  have hearlier := hserver.trans ((List.prefix_append _ _).trans hbefore)
  cases s with
  | arrive a => exact ⟨server, a, payload, row, hearlier, hs, hstart, hstored, hname, hpassword, hrole⟩
  | flush rows => cases hstart
  | advance i fate => cases hstart
  | drop i => cases hstart

/-! ## The result -/

theorem runServer_concat {steps : List (ServerStep J)} {s : ServerStep J} {d : DatabaseStep J}
    (hs : s.database = some d) : runServer lib collation db (steps ++ [s]) =
      Pool.step (task (Family.task lib)) (Families.perform (Family.perform collation))
        (runServer lib collation db steps) d := by
  unfold runServer runDatabase Families.run databaseSteps
  rw [List.filterMap_append, List.filterMap_cons_some hs, List.filterMap_nil, Pool.run_concat]

/-- A step changes the configuration by a call of a task whose command may. -/
theorem change_cases {steps : List (ServerStep J)} {s : ServerStep J}
    (hchange : configuration (runServer lib collation db (steps ++ [s])).world ≠
      configuration (runServer lib collation db steps).world) :
    ∃ i fate command, s = .advance i fate ∧
      (steps.filterMap ServerStep.started)[i]? = some command ∧ Configures command := by
  have hidle {d : DatabaseStep J} (hdatabase : s.database = some d)
      (hnone : (runServer lib collation db steps).issued d = none) : False := by
    apply hchange
    rw [runServer_concat hdatabase, step_world, hnone]
  cases s with
  | arrive a =>
      cases hcommand : a.command with
      | none =>
          refine absurd ?_ hchange
          have hnone : (ServerStep.arrive a).database = none := by
            show a.command.map _ = none
            rw [hcommand]
            rfl
          unfold runServer databaseSteps
          rw [List.filterMap_append, List.filterMap_cons_none hnone, List.filterMap_nil,
            List.append_nil]
      | some command =>
          have hstart : (ServerStep.arrive a).database = some (.start command) := by
            show a.command.map _ = _
            rw [hcommand]
            rfl
          exact (hidle hstart rfl).elim
  | flush rows => exact (hidle rfl rfl).elim
  | drop i => exact (hidle rfl rfl).elim
  | advance i fate =>
      cases hissued : (runServer lib collation db steps).issued (.advance i fate : DatabaseStep J) with
      | none => exact (hidle rfl hissued).elim
      | some call =>
          obtain ⟨⟨k, c⟩, fate'⟩ := call
          obtain ⟨j, next, hs, htask⟩ := issued_advance hissued
          cases hs
          have hlength : i < (commands (databaseSteps steps)).length := by
            have hlt := (List.getElem?_eq_some_iff.mp htask).1
            rwa [runServer, runDatabase, Families.run, length_tasks] at hlt
          have hcommand := List.getElem?_eq_getElem hlength
          have hmay : CallConfigures k c → Configures (commands (databaseSteps steps))[i] :=
            issued_of_command (P := fun command c => CallConfigures c.1 c.2 → Configures command)
              (fun command => every_lift.mpr (task_configures lib command.1 command.2))
              hcommand hissued
          refine ⟨i, fate, _, rfl, commands_databaseSteps steps ▸ hcommand, hmay ?_⟩
          by_contra hnot
          apply hchange
          rw [runServer_concat rfl, step_world, hissued]
          exact configuration_perform (fate k) _ hnot

/-- **Accountability.** In every run of requests, flushes and database tasks, a step that changes the
configuration is a call of the task of an earlier request, and this request has a token that somebody
got who logged in with the name and the password of an administrator. -/
theorem changes_accountable (lib : Libraries J) (collation : Collation) (db : Database J)
    (hdb : db.auth.refreshTokens = []) (steps : List (ServerStep J))
    (hunforged : Unforged lib collation db steps) (n : Nat)
    (hchange : configuration (runServer lib collation db (steps.take (n + 1))).world ≠
      configuration (runServer lib collation db (steps.take n)).world) :
    ∃ m a i fate, m < n ∧ steps[n]? = some (.advance i fate) ∧ steps[m]? = some (.arrive a) ∧
      i = (runServer lib collation db (steps.take m)).tasks.length ∧ a.handler.changes = true ∧
        ∃ token claims, a.request.Carries token ∧ a.jwt.Valid token claims ∧ claims.roleId = 1 ∧
          LoggedIn lib collation db (steps.take m) claims.id 1 := by
  -- the call that changes something is one of the task, the task is one of the request
  have hn : n < steps.length := by
    by_contra hge
    rw [List.take_of_length_le (Nat.le_of_not_lt hge), List.take_of_length_le (by omega)] at hchange
    exact hchange rfl
  rw [List.take_add_one, List.getElem?_eq_getElem hn, Option.toList_some] at hchange
  obtain ⟨i, fate, command, hstep, hcommand, hconfigures⟩ := change_cases hchange
  obtain ⟨m, s, hm, hstarted, hlength⟩ := exists_getElem?_filterMap hcommand
  rw [List.getElem?_take] at hm
  obtain ⟨hmn, hm⟩ := Option.ite_none_right_eq_some.mp hm
  rw [List.take_take, Nat.min_eq_left hmn.le] at hlength
  cases s with
  | advance j fate => cases hstarted
  | drop j => cases hstarted
  | flush rows =>
      cases hstarted
      exact hconfigures.elim
  | arrive a =>
      have hchanges := changes_of_sends hstarted hconfigures
      obtain ⟨token, claims, hcarries, hvalid, hrole⟩ :=
        handlers_guarded a.ran (isProtected_of_changes hchanges)
      have hlogged := encoded_loggedIn hdb (hunforged m a hm token claims hcarries hvalid)
      rw [hrole hchanges] at hlogged
      refine ⟨m, a, i, fate, hmn, ?_, hm, ?_, hchanges, token, claims, hcarries, hvalid,
        hrole hchanges, hlogged⟩
      · rw [List.getElem?_eq_getElem hn, hstep]
      · rw [runServer, runDatabase, Families.run, length_tasks, commands_databaseSteps, hlength]

/-! ## A login and a node -/

def loginArrival : Arrival Unit where
  jwt := oneToken
  request := ⟨.post, ["auth", "login"], [], [], .error 400⟩
  handler := .auth .login
  claims := none
  ran := by decide +kernel
  input := ⟨"admin", "secret"⟩
  ts := 1000

/-- The administrator logs in and creates a node. -/
def firstNode : List (ServerStep Unit) :=
  [.arrive loginArrival, .advance 0 allSucceed, .advance 0 allSucceed, .advance 0 allSucceed,
    .arrive createArrival, .advance 1 allSucceed, .advance 1 allSucceed]

def adminOnly : Database Unit := { initDatabase with auth := oneAdmin }

theorem changes_accountable_firstNode : ∃ m a i fate, m < 6 ∧
    firstNode[6]? = some (.advance i fate) ∧ firstNode[m]? = some (.arrive a) ∧
      i = (runServer noSettings exact adminOnly (firstNode.take m)).tasks.length ∧
        a.handler.changes = true ∧ ∃ token claims, a.request.Carries token ∧
          a.jwt.Valid token claims ∧ claims.roleId = 1 ∧
            LoggedIn noSettings exact adminOnly (firstNode.take m) claims.id 1 := by
  refine changes_accountable noSettings exact adminOnly rfl firstNode ?_ 6 ?_
  · intro n a hn token claims hcarries hvalid
    match n, hn with
    | 0, hn =>
        cases hn
        rcases hcarries with hheader | hquery
        · cases hheader
        · cases hquery
    | 4, hn =>
        cases hn
        obtain ⟨-, rfl⟩ := hvalid
        exact ⟨firstNode.take 3, 0, allSucceed, .login, ⟨[], rfl⟩, by rfl⟩
    | 1, hn | 2, hn | 3, hn | 5, hn | 6, hn => cases hn
    | n + 7, hn => cases hn
  · intro heq
    have hnodes := congrArg (fun c : Configuration Unit => c.nodes.rows.length) heq
    revert hnodes
    decide +kernel

end ModbusLogger.Api
