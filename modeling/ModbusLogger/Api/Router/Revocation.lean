import ModbusLogger.Api.Router.AccessTokens

/-!
# What a logout revokes

A logout writes the record of its token again, with the time of the logout as its end. Nobody else
writes a record of this token later, so what a refresh finds is such a record or none. The clock
counts seconds and the comparison is strict, and the handler takes any answer to its write for a
success: these two are the conditions of the result.
-/

namespace ModbusLogger.Auth

open Db Program Pool

variable {collation : Collation} {t : AuthTables} {now past past' : List Step} {i : Nat}

/-! ## What the handlers did before -/

/-- The task `i` issued the call when the run had got to `past`. -/
abbrev Did (collation : Collation) (t : AuthTables) (now past : List Step) (i : Nat) (c : Call)
    (fate : Fate) : Prop :=
  Performed Request.task (perform collation) t now past i c fate

/-- The task drew this text for a token. -/
def Drew (collation : Collation) (t : AuthTables) (now : List Step) (i : Nat) (text : String) :
    Prop :=
  ∃ past fate, Did collation t now past i .newUuid fate ∧ fate.uuid = text

/-- A login wrote the record. -/
structure Stored (collation : Collation) (t : AuthTables) (now past : List Step) (i : Nat)
    (record : RefreshToken) : Prop where
  drawn : Drew collation t past i record.tokenHash
  written : ∃ fate, Did collation t now past i (.writeToken record) fate

/-- A login wrote this token for this user. -/
def HasOrigin (collation : Collation) (t : AuthTables) (now : List Step) (record : RefreshToken) :
    Prop :=
  ∃ past i login, Stored collation t now past i login ∧ login.tokenHash = record.tokenHash ∧
    login.userId = record.userId

/-- The task looked for a token and got the record. -/
def Found (collation : Collation) (t : AuthTables) (now past : List Step) (i : Nat) (token : String)
    (record : RefreshToken) : Prop :=
  (∃ fate, Did collation t now past i (.findToken token) fate) ∧
    (runAuth collation t past).world.tokenByHash collation token = some record

/-- The record of a login that was answered with the tokens. -/
def AuthResponse.record (auth : AuthResponse) : RefreshToken where
  userId := auth.accessToken.id
  userRoleId := auth.accessToken.roleId
  tokenHash := auth.refreshToken
  createdAt := auth.accessToken.iat
  expiresAt := auth.accessToken.iat + 2678400

/-- Where a response comes from. -/
inductive Origin (collation : Collation) (t : AuthTables) (now : List Step) (i : Nat)
    (response : Response) : Prop
  | refused (h : response.status = 401)
  | login {past : List Step} {username : String} {fate : Fate}
    (asked : Did collation t now past i (.verify username) fate)
    (h : response.status = 200 → ∃ auth past fate, response.body = .auth auth ∧
      Did collation t now past i (.writeToken auth.record) fate)
  | unanswered {past : List Step} {token : String} {fate : Fate}
    (asked : Did collation t now past i (.findToken token) fate)
    (hfail : ¬(fate.sent = true ∧ fate.replied = true ∧ fate.confirmed = true))
    (h : response.status = 500)
  | loggedOut {past past' : List Step} {token : String} {record : RefreshToken} {fate : Fate}
    {time : Int} (found : Found collation t past' past i token record)
    (written : Did collation t now past' i
      (.writeToken { record with createdAt := time, expiresAt := time }) fate)
    (h : response.status = 200 → fate.sent = true ∧ fate.replied = true)
  | refreshed {past past' : List Step} {token : String} {record : RefreshToken} {fate : Fate}
    (found : Found collation t past' past i token record)
    (asked : Did collation t now past' i .clock fate) (hlive : fate.time ≤ record.expiresAt)
    (h : response.status = 200 → ∃ auth, response.body = .auth auth)

theorem HasOrigin.later {record : RefreshToken} (h : HasOrigin collation t past record)
    (hnow : past <+: now) : HasOrigin collation t now record := by
  obtain ⟨past', i, login, ⟨hdrawn, fate, hwritten⟩, hsame⟩ := h
  exact ⟨past', i, login, ⟨hdrawn, fate, hwritten.later hnow⟩, hsame⟩

theorem Found.later {token : String} {record : RefreshToken}
    (h : Found collation t past past' i token record) (hnow : past <+: now) :
    Found collation t now past' i token record := by
  obtain ⟨⟨fate, hasked⟩, hfound⟩ := h
  exact ⟨⟨fate, hasked.later hnow⟩, hfound⟩

theorem Origin.later {response : Response} (h : Origin collation t past i response)
    (hnow : past <+: now) : Origin collation t now i response := by
  cases h with
  | refused h => exact .refused h
  | login hasked h =>
      refine .login (hasked.later hnow) fun hstatus => ?_
      obtain ⟨auth, past', fate, hbody, hwritten⟩ := h hstatus
      exact ⟨auth, past', fate, hbody, hwritten.later hnow⟩
  | unanswered hasked hfail h => exact .unanswered (hasked.later hnow) hfail h
  | loggedOut hfound hwritten h => exact .loggedOut hfound (hwritten.later hnow) h
  | refreshed hfound hasked hlive h => exact .refreshed hfound (hasked.later hnow) hlive h

/-! ## The handlers -/

/-- A record is written by the login that drew its token, or by a logout that found it. -/
def Kept (collation : Collation) (t : AuthTables) (now : List Step) (i : Nat) (c : Call)
    (_ : Fate) : Prop :=
  match c with
  | .writeToken record =>
    Drew collation t now i record.tokenHash ∨ ∃ past token found time,
      Found collation t now past i token found ∧
        record = { found with createdAt := time, expiresAt := time }
  | .respond response => Origin collation t now i response
  | _ => True

abbrev Sound (collation : Collation) (t : AuthTables) (i : Nat) {α : Type}
    (Q : α → List Step → Prop) (p : Task α) (pre : List Step) : Prop :=
  Sat Request.task (perform collation) t (fun _ => True) (Kept collation t) i Q p pre

/-- What a lookup that fails or is not answered means. -/
theorem findToken_failed {token : String} {fate : Fate} {world : AuthTables}
    (h : ∀ found, (perform collation (.findToken token) fate world).2 ≠ .answered (.ok found)) :
    ¬(fate.sent = true ∧ fate.replied = true ∧ fate.confirmed = true) := by
  rintro ⟨hsent, hreplied, hconfirmed⟩
  exact h _ (by simp [perform, Fate.reply, hsent, hreplied, hconfirmed]; rfl)

theorem findToken_found {token : String} {fate : Fate} {world : AuthTables}
    {found : Option RefreshToken}
    (h : .answered (.ok found) = (perform collation (.findToken token) fate world).2) :
    world.tokenByHash collation token = found := by
  have hfound := reply_eq_answered h.symm
  split at hfound
  · exact Except.ok.inj hfound
  · cases hfound

theorem sound_respond {handler : Task Response} {pre : List Step}
    (h : Sound collation t i (fun response now => Origin collation t now i response) handler pre) :
    Sound collation t i (fun _ _ => True) (respond handler) pre := by
  apply sat_bind
  apply h.imp
  intro response now horigin
  exact fun now' _ hnow _ _ => ⟨horigin.later hnow, trivial⟩

theorem sound_login (payload : UserLogin) (i : Nat) (pre : List Step) :
    Sound collation t i (fun response now => Origin collation t now i response) (login payload)
      pre := by
  apply sat_issue
  intro now fate _ _ hissued
  have hasked := performed_now hissued
  have hfailed {now' : List Step} (hnow : now ++ [.advance i fate] <+: now') {response : Response}
      (h : response.status = 500) : Origin collation t now' i response :=
    .login (hasked.later hnow) (by simp [h])
  refine ⟨trivial, fun answer _ => ?_⟩
  split
  · exact hfailed (List.prefix_refl _) rfl
  · exact hfailed (List.prefix_refl _) rfl
  · exact hfailed (List.prefix_refl _) rfl
  · exact .refused rfl
  · next user =>
      split
      · exact .refused rfl
      · apply sat_bind
        apply sat_issue
        intro now₁ fate₁ hnow₁ _ _
        refine ⟨trivial, fun currentTime _ => ?_⟩
        apply sat_issue
        intro now₂ fate₂ hnow₂ _ _
        refine ⟨trivial, fun encoded _ => ?_⟩
        have hnow₂ : now ++ [.advance i fate] <+: now₂ ++ [.advance i fate₂] :=
          (hnow₁.trans ((List.prefix_append _ _).trans hnow₂)).trans (List.prefix_append _ _)
        cases encoded with
        | false => exact hfailed hnow₂ rfl
        | true =>
            apply sat_issue
            intro now₃ fate₃ hnow₃ _ hissued₃
            refine ⟨trivial, fun refreshToken huuid => ?_⟩
            apply sat_issue
            intro now₄ fate₄ hnow₄ _ hissued₄
            have hdrawn : Drew collation t now₄ i refreshToken :=
              ⟨now₃, fate₃, (performed_now hissued₃).later hnow₄, huuid.symm⟩
            have hnow₄ : now ++ [.advance i fate] <+: now₄ ++ [.advance i fate₄] :=
              hnow₂.trans ((hnow₃.trans ((List.prefix_append _ _).trans hnow₄)).trans
                (List.prefix_append _ _))
            refine ⟨.inl hdrawn, fun written _ => ?_⟩
            split
            · exact hfailed hnow₄ rfl
            · exact hfailed hnow₄ rfl
            · exact .login (hasked.later hnow₄) fun _ =>
                ⟨_, now₄, fate₄, rfl, performed_now hissued₄⟩

theorem sound_logout (payload : RefreshRequest) (i : Nat) (pre : List Step) :
    Sound collation t i (fun response now => Origin collation t now i response) (logout payload)
      pre := by
  apply sat_issue
  intro now fate _ _ hissued
  have hasked := performed_now hissued
  refine ⟨trivial, fun answer hanswer => ?_⟩
  have hfailed (h : ∀ found, answer ≠ .answered (.ok found)) {response : Response}
      (hstatus : response.status = 500) :
      Origin collation t (now ++ [.advance i fate]) i response :=
    .unanswered hasked (findToken_failed (hanswer ▸ h)) hstatus
  split
  · exact hfailed (by simp) rfl
  · exact hfailed (by simp) rfl
  · exact hfailed (by simp) rfl
  · exact .refused rfl
  · next record =>
      have hrecord := findToken_found hanswer
      apply sat_issue
      intro now₁ fate₁ hnow₁ _ _
      refine ⟨trivial, fun currentTime _ => ?_⟩
      apply sat_issue
      intro now₂ fate₂ hnow₂ _ hissued₂
      have hlater : now ++ [.advance i fate] <+: now₂ :=
        hnow₁.trans ((List.prefix_append _ _).trans hnow₂)
      have hfound : Found collation t now₂ now i payload.refreshToken record :=
        ⟨⟨fate, hasked.later hlater⟩, hrecord⟩
      refine ⟨.inr ⟨now, payload.refreshToken, record, currentTime, hfound, rfl⟩,
        fun written hwritten => ?_⟩
      split
      · exact .loggedOut hfound (performed_now hissued₂) (by simp [sendError])
      · exact .loggedOut hfound (performed_now hissued₂) (by simp)
      · refine .loggedOut hfound (performed_now hissued₂) fun _ => ?_
        change _ = fate₂.reply _ at hwritten
        unfold Fate.reply at hwritten
        split at hwritten
        · next hsent =>
            split at hwritten
            · next hreplied => exact ⟨hsent, hreplied⟩
            · cases hwritten
        · cases hwritten

theorem sound_refreshToken (payload : RefreshRequest) (i : Nat) (pre : List Step) :
    Sound collation t i (fun response now => Origin collation t now i response)
      (refreshToken payload) pre := by
  apply sat_issue
  intro now fate _ _ hissued
  have hasked := performed_now hissued
  refine ⟨trivial, fun answer hanswer => ?_⟩
  have hfailed (h : ∀ found, answer ≠ .answered (.ok found)) {response : Response}
      (hstatus : response.status = 500) :
      Origin collation t (now ++ [.advance i fate]) i response :=
    .unanswered hasked (findToken_failed (hanswer ▸ h)) hstatus
  split
  · exact hfailed (by simp) rfl
  · exact hfailed (by simp) rfl
  · exact hfailed (by simp) rfl
  · exact .refused rfl
  · next record =>
      have hrecord := findToken_found hanswer
      apply sat_issue
      intro now₁ fate₁ hnow₁ _ hissued₁
      refine ⟨trivial, fun currentTime hclock => ?_⟩
      have hfound : Found collation t now₁ now i payload.refreshToken record :=
        ⟨⟨fate, hasked.later hnow₁⟩, hrecord⟩
      split
      · exact .refused rfl
      · next hlive =>
          change currentTime = fate₁.time at hclock
          rw [hclock, Int.not_lt] at hlive
          apply sat_bind
          apply sat_issue
          intro now₂ fate₂ hnow₂ _ _
          refine ⟨trivial, fun currentTime _ => ?_⟩
          apply sat_issue
          intro now₃ fate₃ hnow₃ _ _
          have hnow₃ : now₁ ++ [.advance i fate₁] <+: now₃ ++ [.advance i fate₃] :=
            (hnow₂.trans ((List.prefix_append _ _).trans hnow₃)).trans (List.prefix_append _ _)
          refine ⟨trivial, fun encoded _ => ?_⟩
          have hclocked := (performed_now hissued₁).later hnow₃
          cases encoded with
          | false => exact .refreshed hfound hclocked hlive (by simp)
          | true => exact .refreshed hfound hclocked hlive (by simp)

/-! ## Requests -/

/-- What a request may issue. -/
def Request.MayIssue : Request → Call → Prop
  | login _, .findToken _ => False
  | logout payload, .findToken token => token = payload.refreshToken
  | logout _, .respond response => ∃ text, response.body = .text text
  | logout _, .newUuid => False
  | refreshToken payload, .findToken token => token = payload.refreshToken
  | refreshToken _, .verify _ => False
  | refreshToken _, .writeToken _ => False
  | userCreate _, c | userUpdate _, c | userDelete _, c =>
    (∀ record, c ≠ .writeToken record) ∧ ∀ response, c ≠ .respond response
  | _, _ => True

section Calls

variable {P : Call → Prop} {Q : Response → Prop}

/-! ### The calls of the handlers -/

theorem generateAccessToken_every {use : TokenUse} {id roleId : Int}
    {Q : Except Unit (Claims × Int) → Prop} (hclock : P .clock)
    (hencode : ∀ claims, P (.encode use claims)) (hQ : ∀ result, Q result) :
    (generateAccessToken use id roleId).Every P Q :=
  ⟨hclock, fun _ => ⟨hencode _, fun _ => hQ _⟩⟩

theorem login_every (payload : UserLogin) (hverify : P (.verify payload.username))
    (hclock : P .clock) (hencode : ∀ claims, P (.encode .login claims)) (huuid : P .newUuid)
    (hwrite : ∀ record, P (.writeToken record)) (hQ : ∀ response, Q response) :
    (Auth.login payload).Every P Q := by
  unfold Auth.login
  simp only [issue_bind, every_call]
  refine ⟨hverify, fun user => ?_⟩
  split
  · exact hQ _
  · exact hQ _
  · exact hQ _
  · exact hQ _
  · split
    · exact hQ _
    · rw [every_bind]
      apply generateAccessToken_every hclock hencode
      intro result
      split
      · exact hQ _
      · refine ⟨huuid, fun refreshToken => ⟨hwrite _, fun written => ?_⟩⟩
        dsimp only
        split <;> exact hQ _

theorem logout_every (payload : RefreshRequest) (hfind : P (.findToken payload.refreshToken))
    (hclock : P .clock) (hwrite : ∀ record, P (.writeToken record))
    (hQ : ∀ status text, Q ⟨status, .text text⟩) : (Auth.logout payload).Every P Q := by
  unfold Auth.logout
  simp only [issue_bind, every_call]
  refine ⟨hfind, fun record => ?_⟩
  split
  · exact hQ _ _
  · exact hQ _ _
  · exact hQ _ _
  · exact hQ _ _
  · refine ⟨hclock, fun time => ⟨hwrite _, fun written => ?_⟩⟩
    dsimp only
    split <;> exact hQ _ _

theorem refreshToken_every (payload : RefreshRequest) (hfind : P (.findToken payload.refreshToken))
    (hclock : P .clock) (hencode : ∀ use claims, P (.encode use claims)) (hQ : ∀ response, Q response) :
    (Auth.refreshToken payload).Every P Q := by
  unfold Auth.refreshToken
  simp only [issue_bind, every_call]
  refine ⟨hfind, fun record => ?_⟩
  split
  · exact hQ _
  · exact hQ _
  · exact hQ _
  · exact hQ _
  · refine ⟨hclock, fun time => ?_⟩
    dsimp only
    split
    · exact hQ _
    · rw [every_bind]
      apply generateAccessToken_every hclock (hencode _)
      intro result
      split <;> exact hQ _

end Calls

theorem Request.task_mayIssue (request : Request) :
    request.task.Every request.MayIssue fun _ => True := by
  cases request with
  | login payload =>
      show Every _ _ (Auth.login payload >>= _)
      rw [every_bind]
      exact login_every payload trivial trivial (fun _ => trivial) trivial (fun _ => trivial)
        fun _ => ⟨trivial, fun _ => trivial⟩
  | logout payload =>
      show Every _ _ (Auth.logout payload >>= _)
      rw [every_bind]
      exact logout_every payload rfl trivial (fun _ => trivial)
        fun _ text => ⟨⟨text, rfl⟩, fun _ => trivial⟩
  | refreshToken payload =>
      show Every _ _ (Auth.refreshToken payload >>= _)
      rw [every_bind]
      exact refreshToken_every payload rfl trivial (fun _ _ => trivial)
        fun _ => ⟨trivial, fun _ => trivial⟩
  | userCreate user => exact createUser_every user (by simp [MayIssue]) (by simp [MayIssue])
  | userUpdate user => exact updateUser_every user (by simp [MayIssue]) (by simp [MayIssue])
  | userDelete user => exact deleteUser_every user (by simp [MayIssue])

theorem Request.task_sound (request : Request) (i : Nat) (pre : List Step) :
    Sound collation t i (fun _ _ => True) request.task pre := by
  have hcommand (request : Request) (hcommand : ∀ c, request.MayIssue c →
      (∀ record, c ≠ .writeToken record) ∧ ∀ response, c ≠ .respond response) :
      Sound collation t i (fun _ _ => True) request.task pre := by
    refine sat_of_every request.task_mayIssue (fun c now fate hc => ?_) fun _ _ => trivial
    obtain ⟨hwrite, hrespond⟩ := hcommand c hc
    cases c with
    | writeToken record => exact absurd rfl (hwrite record)
    | respond response => exact absurd rfl (hrespond response)
    | _ => exact trivial
  cases request with
  | login payload => exact sound_respond (sound_login payload i pre)
  | logout payload => exact sound_respond (sound_logout payload i pre)
  | refreshToken payload => exact sound_respond (sound_refreshToken payload i pre)
  | userCreate user => exact hcommand (.userCreate user) fun c hc => hc
  | userUpdate user => exact hcommand (.userUpdate user) fun c hc => hc
  | userDelete user => exact hcommand (.userDelete user) fun c hc => hc

theorem kept {c : Call} {fate : Fate} (h : Did collation t now past i c fate) :
    Kept collation t past i c fate :=
  guarantee (I := fun _ => True) ⟨trivial, fun _ _ _ _ => trivial, fun _ _ _ _ _ _ _ => trivial⟩
    Request.task_sound h.issued

/-- Every record goes back to a login. -/
theorem hasOrigin (ht : t.refreshTokens = []) {record : RefreshToken}
    (hrecord : record ∈ (runAuth collation t now).world.refreshTokens) :
    HasOrigin collation t now record := by
  induction hlength : now.length using Nat.strongRecOn generalizing now record with
  | ind n ih =>
      cases now using List.reverseRecOn with
      | nil =>
          change record ∈ t.refreshTokens at hrecord
          rw [ht] at hrecord
          cases hrecord
      | append_singleton now s =>
          have hbefore : now <+: now ++ [s] := List.prefix_append _ _
          have hshorter {past : List Step} (hpast : past <+: now) : past.length < n := by
            have := hpast.length_le
            rw [← hlength, List.length_append, List.length_singleton]
            omega
          unfold runAuth at hrecord
          rw [run_concat, step_world] at hrecord
          split at hrecord
          · next c fate hissued =>
              rcases perform_refreshTokens hrecord with hold | rfl
              · exact (ih _ (hshorter (List.prefix_refl _)) hold rfl).later hbefore
              · obtain ⟨i, next, rfl, -⟩ := issued_advance hissued
                have hnow := performed_now hissued
                rcases kept hnow with hdrawn | ⟨past, token, found, time, hfound, rfl⟩
                · exact ⟨now, i, record, ⟨hdrawn, fate, hnow⟩, rfl, rfl⟩
                · -- the record that a logout found goes back to the same login
                  obtain ⟨fate', hasked⟩ := hfound.1
                  have hpast : past <+: now := (List.prefix_append _ _).trans hasked.before
                  exact (ih _ (hshorter hpast) (AuthTables.tokenByHash_mem hfound.2) rfl).later
                    (hpast.trans hbefore)
          · exact (ih _ (hshorter (List.prefix_refl _)) hrecord rfl).later hbefore

/-- A task writes one record at most. -/
def Call.WritesToken : Call → Prop
  | writeToken _ => True
  | _ => False

theorem Request.task_once (request : Request) : request.task.Once Call.WritesToken := by
  -- what comes after the write is a response
  have hrespond {handler : Task Response} (h : handler.Once Call.WritesToken) :
      (respond handler).Once Call.WritesToken := h.bind fun _ => ⟨id, fun _ => trivial⟩
  cases request with
  | login payload =>
      apply hrespond
      unfold Auth.login
      simp only [issue_bind]
      refine ⟨False.elim, fun user => ?_⟩
      dsimp only
      split
      · exact trivial
      · exact trivial
      · exact trivial
      · exact trivial
      · split
        · exact trivial
        · apply Every.once_bind
          apply generateAccessToken_every id (fun _ => id)
          intro result
          split
          · exact trivial
          · refine ⟨False.elim, fun refreshToken => ⟨fun _ written => ?_, fun written => ?_⟩⟩
            · dsimp only
              split <;> exact trivial
            · dsimp only
              split <;> exact trivial
  | logout payload =>
      apply hrespond
      unfold Auth.logout
      simp only [issue_bind]
      refine ⟨False.elim, fun record => ?_⟩
      dsimp only
      split
      · exact trivial
      · exact trivial
      · exact trivial
      · exact trivial
      · refine ⟨False.elim, fun time => ⟨fun _ written => ?_, fun written => ?_⟩⟩
        · dsimp only
          split <;> exact trivial
        · dsimp only
          split <;> exact trivial
  | refreshToken payload =>
      apply hrespond
      exact (refreshToken_every payload id id (fun _ _ => id) fun _ => trivial).once
  | userCreate user => exact (createUser_every user id id).once
  | userUpdate user => exact (updateUser_every user (fun _ => id) id).once
  | userDelete user => exact (deleteUser_every user id).once

/-! ## One token, one user -/

/-- `Uuid::new_v4`: no text is taken for two of the tokens that were drawn. -/
def FreshUuids (collation : Collation) (t : AuthTables) (steps : List Step) : Prop :=
  ∀ past i fate past' i' fate' text, Did collation t steps past i .newUuid fate →
    Did collation t steps past' i' .newUuid fate' → collation.equal fate.uuid text = true →
    collation.equal fate'.uuid text = true → past = past'

theorem FreshUuids.init {steps : List Step} (h : FreshUuids collation t steps)
    (hnow : now <+: steps) : FreshUuids collation t now :=
  fun past i fate past' i' fate' text hdrawn hdrawn' =>
    h past i fate past' i' fate' text (hdrawn.later hnow) (hdrawn'.later hnow)

/-- A token is stored by one login, once. -/
theorem Stored.unique (hfresh : FreshUuids collation t now) {i' : Nat}
    {login login' : RefreshToken} {text : String} (h : Stored collation t now past i login)
    (h' : Stored collation t now past' i' login')
    (htext : collation.equal login.tokenHash text = true)
    (htext' : collation.equal login'.tokenHash text = true) : past = past' ∧ login = login' := by
  obtain ⟨⟨drawn, fate, hdrawn, huuid⟩, fate₁, hwritten⟩ := h
  obtain ⟨⟨drawn', fate', hdrawn', huuid'⟩, fate₁', hwritten'⟩ := h'
  have hlater := hdrawn.later ((List.prefix_append _ _).trans hwritten.before)
  have hlater' := hdrawn'.later ((List.prefix_append _ _).trans hwritten'.before)
  obtain rfl := hfresh _ _ _ _ _ _ text hlater hlater' (huuid ▸ htext) (huuid' ▸ htext')
  obtain ⟨rfl, -⟩ := hlater.same hlater'
  obtain ⟨hpast, hcall, -⟩ :=
    performed_once Request.task_once hwritten trivial hwritten' trivial
  exact ⟨hpast, Call.writeToken.inj hcall⟩

/-- After a logout, what is stored of the token has expired with it. -/
theorem revoked (ht : t.refreshTokens = []) (hfresh : FreshUuids collation t now)
    {record : RefreshToken} {fate : Fate} {text : String}
    (hwritten : Did collation t now past i (.writeToken record) fate) (hsent : fate.sent = true)
    (happlied : fate.applied = true) (hexpired : record.expiresAt = record.createdAt)
    (horigin : HasOrigin collation t past record)
    (htext : collation.equal record.tokenHash text = true) :
    ∀ r ∈ (runAuth collation t now).world.refreshTokens, collation.equal r.tokenHash text = true →
      r.expiresAt = r.createdAt := by
  obtain ⟨store, k, login, hstored, hhash, huser⟩ := horigin
  obtain ⟨post, rfl⟩ := hwritten.before
  induction post using List.reverseRecOn with
  | nil =>
      intro r hr hrtext
      rw [List.append_nil] at hr hfresh
      have hpast : past <+: past ++ [.advance i fate] := List.prefix_append _ _
      unfold runAuth at hr
      rw [run_concat, step_world, hwritten.issued] at hr
      change r ∈ (if fate.sent && fate.applied then (runAuth collation t past).world.upsertToken record
        else (runAuth collation t past).world).refreshTokens at hr
      rw [hsent, happlied] at hr
      rcases AuthTables.mem_upsertToken.mp hr with ⟨hold, hother⟩ | rfl
      · -- the token of another user
        obtain ⟨store', k', login', hstored', hhash', huser'⟩ := hasOrigin ht hold
        obtain ⟨-, rfl⟩ := hstored.unique (hfresh.init hpast) hstored' (hhash ▸ htext)
          (hhash' ▸ hrtext)
        exact absurd (huser'.symm.trans huser) hother
      · exact hexpired
  | append_singleton post s ih =>
      intro r hr hrtext
      rw [← List.append_assoc] at hr hfresh
      have hbefore : past ++ [.advance i fate] ++ post <+: past ++ [.advance i fate] ++ post ++ [s] :=
        List.prefix_append _ _
      have hkept := ih (hfresh.init hbefore) ⟨List.prefix_append _ _, hwritten.issued⟩ r
      unfold runAuth at hr
      rw [run_concat, step_world] at hr
      split at hr
      · next c fate' hissued =>
          rcases perform_refreshTokens hr with hold | rfl
          · exact hkept hold hrtext
          · obtain ⟨j, next, rfl, hcall⟩ := issued_advance hissued
            have hnow := performed_now hissued
            rcases kept hnow with hdrawn | ⟨-, -, found, time, -, rfl⟩
            · -- the login that stored the token did so before the logout
              have hpast : past <+: past ++ [.advance i fate] ++ post :=
                (List.prefix_append _ _).trans (List.prefix_append _ _)
              obtain ⟨fate₁, hwritten₁⟩ := hstored.written
              obtain ⟨rfl, -⟩ := Stored.unique (hfresh) ⟨hstored.drawn, fate₁,
                hwritten₁.later (hpast.trans hbefore)⟩ ⟨hdrawn, fate', hnow⟩ (hhash ▸ htext) hrtext
              have hlength := hwritten₁.length_lt
              simp only [List.length_append] at hlength
              omega
            · rfl
      · exact hkept hr hrtext

/-! ## The result -/

/-- A logout that was answered with success, and later a refresh of its token. -/
structure LogoutThenRefresh (collation : Collation) (t : AuthTables) (steps : List Step)
    (i j : Nat) (payload : RefreshRequest) : Prop where
  logout : (commands steps)[i]? = some (.logout payload)
  refresh : (commands steps)[j]? = some (.refreshToken payload)
  later : ∃ past body fate, Did collation t steps past i (.respond ⟨200, body⟩) fate ∧
    (commands past).length ≤ j

/-- The refresh is refused if the answer to the write of the logout was a success, if the lookup of the
refresh is answered, and if its clock has moved on since the logout that ended the record it found. -/
theorem logout_revokes (collation : Collation) (t : AuthTables) (ht : t.refreshTokens = [])
    (steps : List Step) (hfresh : FreshUuids collation t steps) (i j : Nat)
    (payload : RefreshRequest) (h : LogoutThenRefresh collation t steps i j payload)
    (hwrite : ∀ past record fate, Did collation t steps past i (.writeToken record) fate →
      fate.sent = true → fate.replied = true → fate.applied = true)
    (hread : ∀ past token fate, Did collation t steps past j (.findToken token) fate →
      fate.sent = true ∧ fate.replied = true ∧ fate.confirmed = true)
    (hclock : ∀ past past' token record fate, Found collation t past' past j token record →
      record.expiresAt = record.createdAt → Did collation t steps past' j .clock fate →
        record.expiresAt < fate.time) :
    ∀ past response fate, Did collation t steps past j (.respond response) fate →
      response.status = 401 := by
  intro past' response fate' hrespond
  obtain ⟨hlogout, hrefresh, past, body, fate, hok, hlater⟩ := h
  obtain ⟨text, hbody⟩ := hok.of_command Request.task_mayIssue hlogout
  cases kept hok with
  | refused h => cases h
  | login _ h =>
      obtain ⟨auth, _, _, hauth, -⟩ := h rfl
      rw [hbody] at hauth
      cases hauth
  | unanswered _ _ h => cases h
  | refreshed _ _ _ h =>
      obtain ⟨auth, hauth⟩ := h rfl
      rw [hbody] at hauth
      cases hauth
  | @loggedOut lookup write token record _ _ hfound hwritten h =>
      obtain ⟨hsent, hreplied⟩ := h rfl
      have hpast : past <+: steps := (List.prefix_append _ _).trans hok.before
      have happlied := hwrite _ _ _ (hwritten.later hpast) hsent hreplied
      have hwrite : write <+: past := (List.prefix_append _ _).trans hwritten.before
      -- both requests look for the same token
      have htoken : token = payload.refreshToken := by
        obtain ⟨fate₂, hasked⟩ := (hfound.later (hwrite.trans hpast)).1
        exact hasked.of_command Request.task_mayIssue hlogout
      subst htoken
      obtain ⟨hmem, htext⟩ := AuthTables.tokenByHash_eq_some hfound.2
      obtain ⟨fate₂, hasked⟩ := hfound.1
      have horigin : HasOrigin collation t write record :=
        (hasOrigin ht hmem).later ((List.prefix_append _ _).trans hasked.before)
      cases kept hrespond with
      | refused h => exact h
      | login hasked =>
          exact ((hasked.later ((List.prefix_append _ _).trans hrespond.before)).of_command
            Request.task_mayIssue hrefresh).elim
      | unanswered hasked hfail =>
          exact absurd (hread _ _ _ (hasked.later ((List.prefix_append _ _).trans hrespond.before)))
            hfail
      | loggedOut _ hwritten =>
          exact ((hwritten.later ((List.prefix_append _ _).trans hrespond.before)).of_command
            Request.task_mayIssue hrefresh).elim
      | @refreshed lookup' clock token' record' fate₃ hfound' hasked' hlive _ =>
          have hasked' := hasked'.later ((List.prefix_append _ _).trans hrespond.before)
          obtain ⟨fate₄, hlookup⟩ := hfound'.1
          have hlookup := hlookup.later ((List.prefix_append _ _).trans hasked'.before)
          obtain rfl : token' = payload.refreshToken :=
            hlookup.of_command Request.task_mayIssue hrefresh
          obtain ⟨hmem', htext'⟩ := AuthTables.tokenByHash_eq_some hfound'.2
          have hexpired := revoked ht (hfresh.init ((List.prefix_append _ _).trans hlookup.before))
            (hwritten.later (hlookup.after hpast hlater)) hsent happlied rfl horigin htext record'
            hmem' htext'
          have hpassed := hclock _ _ _ _ _ hfound' hexpired hasked'
          omega

/-! ## Refreshes that get through -/

/-- A logout whose write ends as the fate says. -/
def logoutAdmin (write : Fate) : List Step :=
  [.start (.logout ⟨"5f2c"⟩), .advance 1 .success, .advance 1 .success, .advance 1 write,
    .advance 1 .success]

def refreshAt (time : Int) : List Step :=
  .start (.refreshToken ⟨"5f2c"⟩) ::
    List.replicate 5 (.advance 2 { Fate.success with time := time })

/-- The refresh reads the second in which the logout was. -/
def sameSecond : List Step := loginAdmin ++ logoutAdmin .success ++ refreshAt 1000

/-- The database refuses the write of the logout. -/
def writeRefused : List Step :=
  loginAdmin ++ logoutAdmin { Fate.success with applied := false } ++ refreshAt 1500

/-- The refresh comes a second later. -/
def nextSecond : List Step := loginAdmin ++ logoutAdmin .success ++ refreshAt 1001

/-- The claim. -/
def Revokes (collation : Collation) (t : AuthTables) (steps : List Step) : Prop :=
  ∀ i j payload, LogoutThenRefresh collation t steps i j payload → ∀ past response fate,
    Did collation t steps past j (.respond response) fate → response.status = 401

/-- The answer to the refresh. -/
def renewed (time : Int) : Response := ⟨200, .auth ⟨⟨1, 1, time + 900, time⟩, "5f2c", "Bearer"⟩⟩

theorem logout_not_revokes :
    ¬Revokes exact oneAdmin sameSecond ∧ ¬Revokes exact oneAdmin writeRefused := by
  constructor
  · intro h
    have hout : LogoutThenRefresh exact oneAdmin sameSecond 1 2 ⟨"5f2c"⟩ :=
      ⟨rfl, rfl, sameSecond.take 11, .text "Ok", .success, mem_calls.mp (by decide +kernel), by decide⟩
    have hrefused := h 1 2 _ hout (sameSecond.take 17) (renewed 1000)
      { Fate.success with time := 1000 } (mem_calls.mp (by decide +kernel))
    cases hrefused
  · intro h
    have hout : LogoutThenRefresh exact oneAdmin writeRefused 1 2 ⟨"5f2c"⟩ :=
      ⟨rfl, rfl, writeRefused.take 11, .text "Ok", .success, mem_calls.mp (by decide +kernel),
        by decide⟩
    have hrefused := h 1 2 _ hout (writeRefused.take 17) (renewed 1500)
      { Fate.success with time := 1500 } (mem_calls.mp (by decide +kernel))
    cases hrefused

/-- A check of all calls of the run. -/
theorem Did.checked {steps : List Step} {p : List Step × Nat × Call × Fate → Bool}
    (hall : (calls Request.task (perform collation) t steps).all p = true) {c : Call} {fate : Fate}
    (h : Did collation t steps past i c fate) : p (past, i, c, fate) = true :=
  List.all_eq_true.mp hall _ (mem_calls.mpr h)

theorem logout_revokes_nextSecond : LogoutThenRefresh exact oneAdmin nextSecond 1 2 ⟨"5f2c"⟩ ∧
    ∀ past response fate,
      Did exact oneAdmin nextSecond past 2 (.respond response) fate → response.status = 401 := by
  have hout : LogoutThenRefresh exact oneAdmin nextSecond 1 2 ⟨"5f2c"⟩ :=
    ⟨rfl, rfl, nextSecond.take 11, .text "Ok", .success, mem_calls.mp (by decide +kernel), by decide⟩
  have hdrawn {past : List Step} {i : Nat} {fate : Fate}
      (h : Did exact oneAdmin nextSecond past i .newUuid fate) : past = nextSecond.take 4 := by
    have hchecked := Did.checked (p := fun x => x.2.2.1 = .newUuid → x.1 = nextSecond.take 4)
      (by decide +kernel) h
    simpa using hchecked
  have hsent {past : List Step} {i : Nat} {c : Call} {fate : Fate}
      (h : Did exact oneAdmin nextSecond past i c fate) :
      fate.sent = true ∧ fate.replied = true ∧ fate.applied = true ∧ fate.confirmed = true := by
    have hchecked := Did.checked (p := fun x => x.2.2.2.sent ∧ x.2.2.2.replied ∧ x.2.2.2.applied ∧
      x.2.2.2.confirmed) (by decide +kernel) h
    simpa using hchecked
  refine ⟨hout, logout_revokes exact oneAdmin rfl nextSecond ?_ 1 2 ⟨"5f2c"⟩ hout ?_ ?_ ?_⟩
  · intro past i fate past' i' fate' text h h' _ _
    rw [hdrawn h, hdrawn h']
  · exact fun past record fate h _ _ => (hsent h).2.2.1
  · exact fun past token fate h => ⟨(hsent h).1, (hsent h).2.1, (hsent h).2.2.2⟩
  · intro past past' token record fate hfound _ hclock
    have htime := Did.checked (p := fun x => x.2.1 = 2 → x.2.2.2.time = 1001) (by decide +kernel)
      hclock
    obtain ⟨⟨fate', hasked⟩, hrecord⟩ := hfound
    have hasked := hasked.later ((List.prefix_append _ _).trans hclock.before)
    have hended := Did.checked (p := fun x => x.2.1 = 2 → x.2.2.1 = .findToken "5f2c" →
      ((runAuth exact oneAdmin x.1).world.tokenByHash exact "5f2c").all fun r => r.expiresAt = 1000)
      (by decide +kernel) hasked
    obtain rfl : token = "5f2c" := hasked.of_command Request.task_mayIssue hout.refresh
    rw [hrecord] at hended
    simp at htime hended
    omega

end ModbusLogger.Auth
