import ModbusLogger.Api.Router.Revocation

/-!
# A logout beside a login of the same user

A user has one record. A login replaces it, and so does a logout, which has read it in an earlier step.
The result says for which orders of these steps the record of the login is the one that stays.
-/

namespace ModbusLogger.Auth

open Db Program Pool

variable {collation : Collation} {t : AuthTables} {now past past' : List Step} {i j : Nat}

/-- A write that changes the table. -/
def Fate.Effective (fate : Fate) : Prop := fate.sent = true ∧ fate.applied = true

instance (fate : Fate) : Decidable fate.Effective := inferInstanceAs (Decidable (_ ∧ _))

/-- The record is the one that its user has. -/
structure HasRecord (t : AuthTables) (record : RefreshToken) : Prop where
  stored : record ∈ t.refreshTokens
  only : ∀ r ∈ t.refreshTokens, r.userId = record.userId → r = record

/-! ## Writes of records -/

/-- What a step does to the records. -/
theorem refreshTokens_step (collation : Collation) (t : AuthTables) (now : List Step) (s : Step) :
    (runAuth collation t (now ++ [s])).world.refreshTokens =
        (runAuth collation t now).world.refreshTokens ∨
      ∃ k record fate, s = .advance k fate ∧ fate.Effective ∧
        Did collation t (now ++ [s]) now k (.writeToken record) fate ∧
        (runAuth collation t (now ++ [s])).world =
          (runAuth collation t now).world.upsertToken record := by
  unfold runAuth
  rw [run_concat, step_world]
  split
  · next c fate hissued =>
      obtain ⟨k, next, rfl, -⟩ := issued_advance hissued
      rcases perform_cases c fate (runAuth collation t now).world with
        hsame | ⟨record, rfl, hsent, hwritten⟩
      · exact .inl hsame
      · exact .inr ⟨k, record, fate, rfl, by simpa [Fate.Effective] using hsent,
          performed_now hissued, hwritten⟩
  · exact .inl rfl

/-- The last write of a user counts. -/
theorem hasRecord_of_last {record : RefreshToken} {fate : Fate}
    (h : Did collation t now past i (.writeToken record) fate) (heffective : fate.Effective)
    (hlast : ∀ past' j record' fate', Did collation t now past' j (.writeToken record') fate' →
      fate'.Effective → record'.userId = record.userId → past'.length ≤ past.length) :
    HasRecord (runAuth collation t now).world record := by
  obtain ⟨post, rfl⟩ := h.before
  induction post using List.reverseRecOn with
  | nil =>
      rw [List.append_nil]
      have hworld : (runAuth collation t (past ++ [.advance i fate])).world =
          (runAuth collation t past).world.upsertToken record := by
        unfold runAuth
        rw [run_concat, step_world, h.issued]
        show (if fate.sent && fate.applied then _ else _ : AuthTables) = _
        rw [if_pos (by simp [heffective.1, heffective.2])]
      rw [hworld]
      constructor
      · exact AuthTables.mem_upsertToken.mpr (.inr rfl)
      · intro r hr huser
        rcases AuthTables.mem_upsertToken.mp hr with ⟨-, hother⟩ | rfl
        · exact absurd huser hother
        · rfl
  | append_singleton post s ih =>
      have hnow : past ++ [.advance i fate] ++ (post ++ [s]) = past ++ [.advance i fate] ++ post ++ [s] :=
        (List.append_assoc _ _ _).symm
      rw [hnow] at hlast ⊢
      have hbefore : past ++ [.advance i fate] ++ post <+: past ++ [.advance i fate] ++ post ++ [s] :=
        List.prefix_append _ _
      obtain ⟨hstored, honly⟩ := ih ⟨List.prefix_append _ _, h.issued⟩
        fun past' j record' fate' hwritten => hlast past' j record' fate' (hwritten.later hbefore)
      rcases refreshTokens_step collation t (past ++ [.advance i fate] ++ post) s with
        hsame | ⟨k, record', fate', -, heffective', hwritten, hworld⟩
      · rw [← hsame] at hstored honly
        exact ⟨hstored, honly⟩
      · rw [hworld]
        have hother : record.userId ≠ record'.userId := by
          intro huser
          have hle := hlast _ _ _ _ hwritten heffective' huser.symm
          simp only [List.length_append] at hle
          simp at hle
          omega
        constructor
        · exact AuthTables.mem_upsertToken.mpr (.inl ⟨hstored, hother⟩)
        · intro r hr huser
          rcases AuthTables.mem_upsertToken.mp hr with ⟨hold, -⟩ | rfl
          · exact honly r hold huser
          · exact absurd huser.symm hother

/-! ## A logout and a login -/

/-- A logout beside a login that was answered with the tokens, and nothing else. -/
structure LogoutBesideLogin (collation : Collation) (t : AuthTables) (steps : List Step) (i j : Nat)
    (request : RefreshRequest) (payload : UserLogin) (auth : AuthResponse) : Prop where
  logout : (commands steps)[i]? = some (.logout request)
  login : (commands steps)[j]? = some (.login payload)
  alone : (commands steps).length = 2
  answered : ∃ past fate, Did collation t steps past j (.respond ⟨200, .auth auth⟩) fate

/-- The logout reads a record of the user before the login writes, and writes after it. -/
def Overtaken (collation : Collation) (t : AuthTables) (steps login : List Step) (i : Nat)
    (request : RefreshRequest) (userId : Int) : Prop :=
  ∃ lookup write found time fate, Found collation t write lookup i request.refreshToken found ∧
    found.userId = userId ∧ lookup.length < login.length ∧ login.length < write.length ∧
    Did collation t steps write i
      (.writeToken { found with createdAt := time, expiresAt := time }) fate ∧ fate.Effective

section Beside

variable {steps : List Step} {request : RefreshRequest} {payload : UserLogin} {auth : AuthResponse}
  (h : LogoutBesideLogin collation t steps i j request payload auth)
include h

theorem LogoutBesideLogin.written :
    ∃ write fate, Did collation t steps write j (.writeToken auth.record) fate := by
  obtain ⟨past, fate, hok⟩ := h.answered
  have hpast : past <+: steps := (List.prefix_append _ _).trans hok.before
  cases kept hok with
  | refused h => cases h
  | login _ hlogin =>
      obtain ⟨auth', write, fate', hauth, hwritten⟩ := hlogin rfl
      cases hauth
      exact ⟨write, fate', hwritten.later hpast⟩
  | unanswered _ _ h => cases h
  | loggedOut hfound hwritten =>
      obtain ⟨⟨_, hasked⟩, -⟩ := hfound.later ((List.prefix_append _ _).trans hwritten.before)
      exact ((hasked.later hpast).of_command Request.task_mayIssue h.login).elim
  | refreshed hfound hasked' =>
      obtain ⟨⟨_, hasked⟩, -⟩ := hfound.later ((List.prefix_append _ _).trans hasked'.before)
      exact ((hasked.later hpast).of_command Request.task_mayIssue h.login).elim

/-- What the logout writes it has found. -/
theorem LogoutBesideLogin.found {record : RefreshToken} {fate : Fate}
    (hwritten : Did collation t steps past i (.writeToken record) fate) :
    ∃ lookup found time, Found collation t past lookup i request.refreshToken found ∧
      record = { found with createdAt := time, expiresAt := time } := by
  have hpast : past <+: steps := (List.prefix_append _ _).trans hwritten.before
  rcases kept hwritten with ⟨_, _, hdrawn, -⟩ | ⟨lookup, token, found, time, hfound, hrecord⟩
  · exact ((hdrawn.later hpast).of_command Request.task_mayIssue h.logout).elim
  · obtain ⟨_, hasked⟩ := hfound.1
    obtain rfl : token = request.refreshToken :=
      (hasked.later hpast).of_command Request.task_mayIssue h.logout
    exact ⟨lookup, found, time, hfound, hrecord⟩

/-- Only the two write, and each of them once. -/
theorem LogoutBesideLogin.writes {write : List Step} {fate : Fate}
    (hlogin : Did collation t steps write j (.writeToken auth.record) fate) {k : Nat}
    {record : RefreshToken} {fate' : Fate}
    (hwritten : Did collation t steps past k (.writeToken record) fate') :
    k = i ∨ past = write ∧ record = auth.record ∧ fate' = fate := by
  have hlt {k : Nat} {c : Call} {fate : Fate} {past : List Step}
      (hdid : Did collation t steps past k c fate) : k < 2 := by
    obtain ⟨post, hpost⟩ := (List.prefix_append _ _).trans hdid.before
    have hstarted := hdid.started
    have hlength := congrArg (fun l => (commands l).length) hpost
    simp only [commands_append, List.length_append, h.alone] at hlength
    omega
  have hij : i ≠ j := by
    rintro rfl
    cases h.logout.symm.trans h.login
  have hi : i < 2 := h.alone ▸ (List.getElem?_eq_some_iff.mp h.logout).1
  have hj := hlt hlogin
  have hk := hlt hwritten
  by_cases hki : k = i
  · exact .inl hki
  · obtain rfl : k = j := by omega
    obtain ⟨hpast, hcall, hfate⟩ := performed_once Request.task_once hwritten trivial hlogin trivial
    exact .inr ⟨hpast, Call.writeToken.inj hcall, hfate⟩

end Beside

/-- A token that no write has stored is not in the table. -/
theorem not_stored {steps : List Step} {request : RefreshRequest} {payload : UserLogin}
    {auth : AuthResponse} (h : LogoutBesideLogin collation t steps i j request payload auth)
    (hfresh : ∀ r ∈ t.refreshTokens, r.tokenHash ≠ auth.refreshToken) {write : List Step}
    {fate : Fate} (hlogin : Did collation t steps write j (.writeToken auth.record) fate)
    (heffective : ¬fate.Effective) (hnow : now <+: steps) :
    ∀ r ∈ (runAuth collation t now).world.refreshTokens, r.tokenHash ≠ auth.refreshToken := by
  induction hlength : now.length using Nat.strongRecOn generalizing now with
  | ind n ih =>
      cases now using List.reverseRecOn with
      | nil => exact hfresh
      | append_singleton now s =>
          have hshorter {past : List Step} (hpast : past <+: now) : ∀ r ∈
              (runAuth collation t past).world.refreshTokens, r.tokenHash ≠ auth.refreshToken := by
            have hle := hpast.length_le
            refine ih past.length ?_ (hpast.trans ((List.prefix_append _ _).trans hnow)) rfl
            rw [← hlength, List.length_append, List.length_singleton]
            omega
          intro r hr
          rcases refreshTokens_step collation t now s with
            hsame | ⟨k, record, fate', -, heffective', hwritten, hworld⟩
          · rw [hsame] at hr
            exact hshorter (List.prefix_refl _) r hr
          · rw [hworld] at hr
            rcases AuthTables.mem_upsertToken.mp hr with ⟨hold, -⟩ | rfl
            · exact hshorter (List.prefix_refl _) r hold
            · have hwritten := hwritten.later hnow
              rcases h.writes hlogin hwritten with rfl | ⟨-, -, rfl⟩
              · obtain ⟨lookup, found, time, hfound, rfl⟩ := h.found hwritten
                obtain ⟨_, hasked⟩ := hfound.1
                exact hshorter ((List.prefix_append _ _).trans hasked.before) found
                  (AuthTables.tokenByHash_mem hfound.2)
              · exact absurd heffective' heffective

/-- The user has the record of the login exactly if its write took effect and no logout that had read an
earlier record of the user wrote after it. -/
theorem new_session_stored_iff (collation : Collation) (t : AuthTables) (steps : List Step)
    (i j : Nat) (request : RefreshRequest) (payload : UserLogin) (auth : AuthResponse)
    (h : LogoutBesideLogin collation t steps i j request payload auth)
    (hfresh : ∀ r ∈ t.refreshTokens, r.tokenHash ≠ auth.refreshToken)
    (hnew : collation.equal auth.refreshToken request.refreshToken = false) :
    HasRecord (runAuth collation t steps).world auth.record ↔
      ∃ write fate, Did collation t steps write j (.writeToken auth.record) fate ∧
        fate.Effective ∧ ¬Overtaken collation t steps write i request auth.accessToken.id := by
  obtain ⟨write, fate, hlogin⟩ := h.written
  by_cases heffective : fate.Effective
  · have hlater {write' : List Step} {record : RefreshToken} {fate' : Fate}
        (hwritten : Did collation t steps write' i (.writeToken record) fate')
        (heffective' : fate'.Effective) (huser : record.userId = auth.accessToken.id)
        (hlt : write.length < write'.length) :
        Overtaken collation t steps write i request auth.accessToken.id := by
      obtain ⟨lookup, found, time, hfound, rfl⟩ := h.found hwritten
      refine ⟨lookup, write', found, time, fate', hfound, huser, ?_, hlt, hwritten, heffective'⟩
      obtain ⟨fate₁, hasked⟩ := hfound.1
      have hbefore : write' <+: steps := (List.prefix_append _ _).trans hwritten.before
      rcases (hasked.later hbefore).order hlogin with hfirst | hsecond | ⟨-, -, hcall, -⟩
      · exact hfirst.length_lt
      · -- the logout would find the new token
        have hrecord := hasRecord_of_last hsecond heffective fun past k record fate₂ hdid _ _ => by
          have hlookup := (List.prefix_append _ _).trans hasked.before
          rcases h.writes hlogin (hdid.later (hlookup.trans hbefore)) with rfl | ⟨rfl, -, -⟩
          · obtain ⟨rfl, -⟩ := performed_once Request.task_once
              (hdid.later (hlookup.trans hbefore)) trivial hwritten trivial
            exact absurd hdid.length_lt (Nat.not_lt.mpr hlookup.length_le)
          · exact Nat.le_refl _
        obtain ⟨hmem, htext⟩ := AuthTables.tokenByHash_eq_some hfound.2
        rw [hrecord.only found hmem huser] at htext
        exact absurd (htext.symm.trans hnew) (by decide)
      · cases hcall
    constructor
    · intro hrecord
      refine ⟨write, fate, hlogin, heffective, ?_⟩
      rintro ⟨lookup, write', found, time, fate', hfound, huser, -, hlt, hwritten, heffective'⟩
      -- the logout has the last word
      have hrevoked := hasRecord_of_last hwritten heffective' ?_
      · have heq := hrevoked.only _ hrecord.stored huser.symm
        have hends := congrArg RefreshToken.expiresAt heq
        have hstarts := congrArg RefreshToken.createdAt heq
        simp only [AuthResponse.record] at hends hstarts
        omega
      · intro past k record fate'' hdid _ _
        rcases h.writes hlogin hdid with rfl | ⟨rfl, -, -⟩
        · obtain ⟨rfl, -⟩ := performed_once Request.task_once hdid trivial hwritten trivial
          exact Nat.le_refl _
        · exact Nat.le_of_lt hlt
    · rintro ⟨write', fate', hlogin', heffective', hnot⟩
      obtain ⟨rfl, -⟩ := performed_once Request.task_once hlogin' trivial hlogin trivial
      refine hasRecord_of_last hlogin heffective fun past k record fate'' hdid hdone huser => ?_
      rcases h.writes hlogin hdid with rfl | ⟨rfl, -, -⟩
      · by_contra hlt
        exact hnot (hlater hdid hdone huser (Nat.lt_of_not_le hlt))
      · exact Nat.le_refl _
  · constructor
    · intro hrecord
      exact absurd rfl (not_stored h hfresh hlogin heffective (List.prefix_refl _) _ hrecord.stored)
    · rintro ⟨write', fate', hlogin', heffective', -⟩
      obtain ⟨-, -, rfl⟩ := performed_once Request.task_once hlogin' trivial hlogin trivial
      exact absurd heffective' heffective

/-! ## Runs of the two -/

/-- The claim, for a run in which both requests are answered. -/
def NewSessionStays (collation : Collation) (t : AuthTables) (steps : List Step) : Prop :=
  ∀ i j request payload auth, LogoutBesideLogin collation t steps i j request payload auth →
    (∃ past response fate, Did collation t steps past i (.respond response) fate) →
    (∀ r ∈ t.refreshTokens, r.tokenHash ≠ auth.refreshToken) →
    collation.equal auth.refreshToken request.refreshToken = false →
      HasRecord (runAuth collation t steps).world auth.record

/-- The administrator has a session. -/
def loggedIn : AuthTables := { oneAdmin with refreshTokens := [⟨1, 1, "91ab", 500, 2678900⟩] }

def newTokens : AuthResponse := ⟨⟨1, 1, 1900, 1000⟩, "5f2c", "Bearer"⟩

/-- The login as the task 1, with the fate of its write. -/
def loginBeside (write : Fate) : List Step :=
  [.advance 1 .success, .advance 1 .success, .advance 1 .success, .advance 1 .success,
    .advance 1 write, .advance 1 .success]

def twoStarts : List Step :=
  [.start (.logout ⟨"91ab"⟩), .start (.login ⟨"admin", "secret"⟩)]

/-- The login runs between the two statements of the logout. -/
def loginBetween : List Step :=
  twoStarts ++ [.advance 0 .success] ++ loginBeside .success ++
    [.advance 0 .success, .advance 0 .success, .advance 0 .success]

/-- The logout runs first, and the write of the login is refused. -/
def loginRefused : List Step :=
  twoStarts ++ List.replicate 4 (.advance 0 .success) ++
    loginBeside { Fate.success with applied := false }

/-- The logout runs first. -/
def loginAfter : List Step :=
  twoStarts ++ List.replicate 4 (.advance 0 .success) ++ loginBeside .success

theorem loginBetween_beside : LogoutBesideLogin exact loggedIn loginBetween 0 1 ⟨"91ab"⟩
    ⟨"admin", "secret"⟩ newTokens :=
  ⟨rfl, rfl, rfl, loginBetween.take 8, .success, mem_calls.mp (by decide +kernel)⟩

theorem loginRefused_beside : LogoutBesideLogin exact loggedIn loginRefused 0 1 ⟨"91ab"⟩
    ⟨"admin", "secret"⟩ newTokens :=
  ⟨rfl, rfl, rfl, loginRefused.take 11, .success, mem_calls.mp (by decide +kernel)⟩

theorem loginAfter_beside : LogoutBesideLogin exact loggedIn loginAfter 0 1 ⟨"91ab"⟩
    ⟨"admin", "secret"⟩ newTokens :=
  ⟨rfl, rfl, rfl, loginAfter.take 11, .success, mem_calls.mp (by decide +kernel)⟩

theorem new_session_not_stays :
    ¬NewSessionStays exact loggedIn loginBetween ∧ ¬NewSessionStays exact loggedIn loginRefused := by
  constructor
  · intro h
    have hrecord := h 0 1 _ _ _ loginBetween_beside ⟨loginBetween.take 11, ⟨200, .text "Ok"⟩, .success,
      mem_calls.mp (by decide +kernel)⟩ (by decide) (by decide)
    exact absurd hrecord.stored (by decide +kernel)
  · intro h
    have hrecord := h 0 1 _ _ _ loginRefused_beside ⟨loginRefused.take 5, ⟨200, .text "Ok"⟩, .success,
      mem_calls.mp (by decide +kernel)⟩ (by decide) (by decide)
    exact absurd hrecord.stored (by decide +kernel)

theorem new_session_stored_iff_after :
    HasRecord (runAuth exact loggedIn loginAfter).world newTokens.record ↔
      ∃ write fate, Did exact loggedIn loginAfter write 1 (.writeToken newTokens.record) fate ∧
        fate.Effective ∧ ¬Overtaken exact loggedIn loginAfter write 0 ⟨"91ab"⟩ 1 :=
  new_session_stored_iff exact loggedIn loginAfter 0 1 _ _ newTokens loginAfter_beside (by decide)
    (by decide)

end ModbusLogger.Auth
