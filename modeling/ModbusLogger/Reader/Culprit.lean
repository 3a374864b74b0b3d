import ModbusLogger.Reader.NodeLoop
import ModbusLogger.Reader.PollReport

/-!
# Who is charged for a mismatched header

A header that does not match belongs to the late answer to an earlier request, and some device gets
more time. Which one depends on the tries of the current step and on the device polled before; they
name the device of the late answer only under conditions.
-/

namespace ModbusLogger.Reader

open FixedWidth

variable {J : Type*} {env : Environment J}

/-! ## The history of a connection -/

/-- The request ended in a timeout. -/
def isTimeout : ModbusReadResult → Bool
  | .error .timeout => true
  | _ => false

/-- The step is requested again, or given up after enough tries. -/
def triesAgain : ModbusReadResult → Bool
  | .error .timeout => true
  | .error .deviceProtocolError => true
  | _ => false

namespace Poll

/-- Some request of the poll ended in a timeout. -/
def timedOut (p : Poll) : Bool := p.answers.any isTimeout

/-- The id of the device that was polled. -/
def deviceId (p : Poll) : Option Int := p.devices[p.index]?.map (·.id)

end Poll

/-- The device that issued the last request that ended in a timeout. -/
def culprit (polls : List Poll) : Option Int := (polls.filter Poll.timedOut).getLast?.bind Poll.deviceId

/-- The read master has a connection, and the polls were made over it. A poll that is interrupted
ends the connection; the devices may be read again meanwhile. -/
inductive OnConnection (env : Environment J) : ReadMaster → List Poll → Prop where
  | opened {s s' : ReadMaster} : s.createContext env = (s', true) → OnConnection env s' []
  | polled {s s' : ReadMaster} {polls : List Poll} {p : Poll} : OnConnection env s polls →
      s.read env = some s' → s'.polls = s.polls ++ [p] → p.GoesThrough →
      OnConnection env s' (polls ++ [p])
  | skipped {s s' : ReadMaster} {polls : List Poll} : OnConnection env s polls →
      s.read env = some s' → s'.polls = s.polls → OnConnection env s' polls
  | waited {s s' : ReadMaster} {polls : List Poll} {time : Nat} : OnConnection env s polls →
      s.whenNext env = some (s', time) → OnConnection env s' polls
  | reloaded {s s' : ReadMaster} {polls : List Poll} {created : Bool} : OnConnection env s polls →
      s.createDevices env = some (s', created) → OnConnection env s' polls

/-! ## The tries of the current step -/

/-- The tries since the last answer that settled a step. -/
def trailing (answers : List ModbusReadResult) : Nat := (answers.reverse.takeWhile triesAgain).length

/-- The last answer came on a try that was not the first one of its step: a step is given up after
`max 1 retryCount` tries. -/
def Retried (retryCount : Nat) (answers : List ModbusReadResult) : Prop :=
  trailing answers.dropLast % max 1 retryCount ≠ 0

instance (retryCount : Nat) (answers : List ModbusReadResult) :
    Decidable (Retried retryCount answers) :=
  inferInstanceAs (Decidable (_ ≠ _))

theorem trailing_concat (answers : List ModbusReadResult) (result : ModbusReadResult) :
    trailing (answers ++ [result]) = if triesAgain result then trailing answers + 1 else 0 := by
  rw [trailing, List.reverse_concat, List.takeWhile_cons]
  cases triesAgain result <;> rfl

/-- How the tries of a step leave the answers: settled, or interrupted on the first try or a later
one. -/
def Settled (most : Nat) (round : Round) : Prop :=
  match round.flow with
  | .next => trailing round.answers % most = 0
  | .socketFail => True
  | .headerMismatch .increaseCurrent => trailing round.answers.dropLast % most ≠ 0
  | .headerMismatch .increasePrevious => trailing round.answers.dropLast % most = 0

theorem add_one_mod {t n c : Nat} (h : t % n = c) (hlt : c < n) :
    (t + 1) % n = if c + 1 = n then 0 else c + 1 := by
  rw [Nat.add_mod, h]
  split
  · next heq =>
    subst heq
    simp
  · next hne =>
    rw [Nat.mod_eq_of_lt (show 1 < n by omega), Nat.mod_eq_of_lt (by omega)]

/-- A step that is done with an answer. -/
theorem settled_of_answer {most : Nat} {round : Round} {older : List ModbusReadResult}
    {result : ModbusReadResult} (hnext : round.flow = .next)
    (hanswers : round.answers = older ++ [result])
    (hdone : triesAgain result = true → trailing older % most + 1 = most) : Settled most round := by
  rw [Settled, hnext, hanswers]
  show trailing (older ++ [result]) % most = 0
  rw [trailing_concat]
  split
  · next hagain =>
    have hlast := hdone hagain
    rw [add_one_mod rfl (by omega), if_pos hlast]
  · exact Nat.zero_mod most

/-- A step that is interrupted by a mismatched header. -/
theorem settled_of_mismatch {most currTry : Nat} {round : Round}
    (htries : trailing round.answers % most = currTry) :
    Settled most { round.record (.error .headerMisMatch) with
      flow := .headerMismatch (if currTry > 0 then .increaseCurrent else .increasePrevious) } := by
  have hlast : trailing
      (round.answers ++ [Except.error ModbusReadError.headerMisMatch]).dropLast % most =
      currTry := by
    rw [List.dropLast_concat]
    exact htries
  by_cases hpos : currTry > 0
  · rw [if_pos hpos]
    show trailing (round.answers ++ [Except.error ModbusReadError.headerMisMatch]).dropLast % most ≠ 0
    omega
  · rw [if_neg hpos]
    show trailing (round.answers ++ [Except.error ModbusReadError.headerMisMatch]).dropLast % most = 0
    omega

/-- **The tries of a step.** `most` is the number of tries that there can be. -/
theorem tryStep_settled {step step' : ReadStep} {most left currTry : Nat} {round round' : Round}
    (hmost : most = currTry + left + 1) (hnext : round.flow = .next)
    (htries : trailing round.answers % most = currTry)
    (h : tryStep env step left currTry round = some (step', round')) : Settled most round' := by
  -- on the tries that are left
  induction left generalizing currTry round with
  | zero =>
      rw [tryStep.eq_def] at h
      dsimp only at h
      cases hresult : env.request step round.moment with
      | ok words =>
          rw [hresult] at h
          obtain ⟨values, -, h⟩ := Option.map_eq_some_iff.mp h
          obtain ⟨-, rfl⟩ := Prod.mk.inj h
          exact settled_of_answer hnext rfl fun hagain => by cases hagain
      | error e =>
          rw [hresult] at h
          cases e with
          | timeout =>
              obtain ⟨-, rfl⟩ := Prod.mk.inj (Option.some.inj h)
              exact settled_of_answer hnext rfl fun _ => by rw [htries, hmost, Nat.add_zero]
          | deviceProtocolError =>
              obtain ⟨-, rfl⟩ := Prod.mk.inj (Option.some.inj h)
              exact settled_of_answer hnext rfl fun _ => by rw [htries, hmost, Nat.add_zero]
          | removeStep =>
              obtain ⟨-, rfl⟩ := Prod.mk.inj (Option.some.inj h)
              exact settled_of_answer hnext rfl fun hagain => by cases hagain
          | socketFail =>
              obtain ⟨-, rfl⟩ := Prod.mk.inj (Option.some.inj h)
              trivial
          | headerMisMatch =>
              obtain ⟨-, rfl⟩ := Prod.mk.inj (Option.some.inj h)
              exact settled_of_mismatch htries
  | succ left ih =>
      have hagain : ∀ e, triesAgain (.error e) = true →
          tryStep env step left (currTry + 1) (round.record (.error e)) = some (step', round') →
          Settled most round' := by
        intro e he htry
        have hmost' : most = currTry + 1 + left + 1 := by omega
        have hflow : (round.record (.error e)).flow = .next := hnext
        refine ih hmost' hflow ?_ htry
        show trailing (round.answers ++ [.error e]) % most = currTry + 1
        have hlt : currTry < most := by omega
        rw [trailing_concat, if_pos he, add_one_mod htries hlt, if_neg (by omega)]
      rw [tryStep.eq_def] at h
      dsimp only at h
      cases hresult : env.request step round.moment with
      | ok words =>
          rw [hresult] at h
          obtain ⟨values, -, h⟩ := Option.map_eq_some_iff.mp h
          obtain ⟨-, rfl⟩ := Prod.mk.inj h
          exact settled_of_answer hnext rfl fun hagain => by cases hagain
      | error e =>
          rw [hresult] at h
          cases e with
          | timeout => exact hagain _ rfl h
          | deviceProtocolError => exact hagain _ rfl h
          | removeStep =>
              obtain ⟨-, rfl⟩ := Prod.mk.inj (Option.some.inj h)
              exact settled_of_answer hnext rfl fun hagain => by cases hagain
          | socketFail =>
              obtain ⟨-, rfl⟩ := Prod.mk.inj (Option.some.inj h)
              trivial
          | headerMisMatch =>
              obtain ⟨-, rfl⟩ := Prod.mk.inj (Option.some.inj h)
              exact settled_of_mismatch htries

section Loop

variable {retryCount : Nat} {round round' : Round}

theorem pollStep_settled {step step' : ReadStep} (hnext : round.flow = .next)
    (hround : Settled (max 1 retryCount) round)
    (h : pollStep env retryCount step round = some (step', round')) :
    Settled (max 1 retryCount) round' := by
  rw [Settled, hnext] at hround
  rw [pollStep] at h
  split at h
  · obtain ⟨-, rfl⟩ := Prod.mk.inj (Option.some.inj h)
    rw [Settled, hnext]
    exact hround
  · exact tryStep_settled (by omega) hnext hround h

theorem pollSteps_settled {steps steps' : List ReadStep}
    (hround : Settled (max 1 retryCount) round)
    (h : pollSteps env retryCount steps round = some (steps', round')) :
    Settled (max 1 retryCount) round' := by
  induction steps generalizing round steps' with
  | nil =>
      obtain ⟨-, rfl⟩ := Prod.mk.inj (Option.some.inj h)
      exact hround
  | cons step steps ih =>
      rw [pollSteps] at h
      split at h
      · next hnext =>
        obtain ⟨⟨step', mid⟩, hstep, h⟩ := Option.bind_eq_some_iff.mp h
        obtain ⟨⟨rest, last⟩, hrest, h⟩ := Option.bind_eq_some_iff.mp h
        obtain ⟨-, rfl⟩ := Prod.mk.inj (Option.some.inj h)
        exact ih (pollStep_settled hnext hround hstep) hrest
      · obtain ⟨-, rfl⟩ := Prod.mk.inj (Option.some.inj h)
        exact hround

theorem pollPool_settled {pool pool' : PollValueIterator} {m : Nat}
    (h : pollPool env retryCount pool ⟨m, [], 0, [], .next⟩ = some (pool', round')) :
    Settled (max 1 retryCount) round' := by
  obtain ⟨⟨coils, a⟩, hcoils, h⟩ := Option.bind_eq_some_iff.mp h
  obtain ⟨⟨discrete, b⟩, hdiscrete, h⟩ := Option.bind_eq_some_iff.mp h
  obtain ⟨⟨holding, c⟩, hholding, h⟩ := Option.bind_eq_some_iff.mp h
  obtain ⟨⟨input, d⟩, hinput, h⟩ := Option.bind_eq_some_iff.mp h
  obtain ⟨-, rfl⟩ := Prod.mk.inj (Option.some.inj h)
  have hstart : Settled (max 1 retryCount) ⟨m, [], 0, [], .next⟩ := Nat.zero_mod _
  exact pollSteps_settled (pollSteps_settled (pollSteps_settled (pollSteps_settled hstart hcoils)
    hdiscrete) hholding) hinput

/-- The tries decide which device is charged. -/
theorem action_iff {pool pool' : PollValueIterator} {m : Nat} {action : HeaderMismatchAction}
    (h : pollPool env retryCount pool ⟨m, [], 0, [], .next⟩ = some (pool', round'))
    (hflow : round'.flow = .headerMismatch action) :
    action = if Retried retryCount round'.answers then .increaseCurrent else .increasePrevious := by
  have hsettled := pollPool_settled h
  rw [Settled, hflow] at hsettled
  cases action with
  | increaseCurrent =>
      have hretried : Retried retryCount round'.answers := hsettled
      rw [if_pos hretried]
  | increasePrevious =>
      have hfirst : ¬Retried retryCount round'.answers := fun hne => hne hsettled
      rw [if_neg hfirst]

end Loop

/-! ## What a connection remembers -/

namespace ReadMaster

theorem createContext_connected {s s' : ReadMaster} (h : s.createContext env = (s', true)) :
    s'.ctx.isSome := by
  unfold createContext at h
  dsimp only at h
  split at h
  · split at h
    · obtain ⟨rfl, -⟩ := Prod.mk.inj h
      rfl
    · cases (Prod.mk.inj h).2
  · cases (Prod.mk.inj h).2

/-- What a connection and the device polled last are remembered by. -/
structure Remembers (s s' : ReadMaster) : Prop where
  ctx : s'.ctx = s.ctx
  lastest : s'.lastestDeviceIndex = s.lastestDeviceIndex

theorem Reloads.remembers {s s' : ReadMaster} (h : Reloads s s') : Remembers s s' where
  ctx := by rw [h.rest]
  lastest := by rw [h.rest]

end ReadMaster

/-- What a read that went through leaves. -/
theorem read_polled {s s' : ReadMaster} {p : Poll} (h : s.read env = some s')
    (hpolls : s'.polls = s.polls ++ [p]) (hgoes : p.GoesThrough) :
    s'.ctx.isSome ∧ s'.lastestDeviceIndex = some p.index := by
  rcases ReadMaster.read_cases h with
    rfl | ⟨idx, device, pool, round, hcurrent, hdevice, -, hpool, hpoll⟩
  · have := congrArg List.length hpolls
    rw [List.length_append, List.length_singleton] at this
    omega
  · have hpolled := ReadMaster.polled_of_pollPool hdevice hpool hpoll
    obtain rfl : s.record env idx device round = p := by
      rw [hpolled.polls] at hpolls
      exact List.singleton_inj.mp (List.append_cancel_left hpolls)
    have hnext := (ReadMaster.record_goesThrough (pollPool_spec hpool).1).mp hgoes
    rw [ReadMaster.poll_of_pollPool hpool, hnext] at hpoll
    obtain ⟨device', -, rfl⟩ := Option.map_eq_some_iff.mp hpoll
    exact ⟨rfl, hcurrent⟩

/-- **The connection** is there, and the device polled last over it is remembered. -/
theorem OnConnection.spec {s : ReadMaster} {polls : List Poll} (h : OnConnection env s polls) :
    s.ctx.isSome ∧ ∀ p ∈ polls.getLast?, s.lastestDeviceIndex = some p.index := by
  induction h with
  | opened hcreate =>
      refine ⟨ReadMaster.createContext_connected hcreate, fun p hp => ?_⟩
      cases hp
  | polled _ hread hpolls hgoes _ =>
      obtain ⟨hctx, hlatest⟩ := read_polled hread hpolls hgoes
      refine ⟨hctx, fun p hp => ?_⟩
      rw [List.getLast?_concat] at hp
      rw [← Option.some.inj hp]
      exact hlatest
  | skipped _ hread hpolls ih =>
      rcases ReadMaster.read_cases hread with
        rfl | ⟨idx, device, pool, round, -, hdevice, -, hpool, hpoll⟩
      · exact ih
      · have hgrown := (ReadMaster.polled_of_pollPool hdevice hpool hpoll).polls
        rw [hpolls] at hgrown
        have := congrArg List.length hgrown
        rw [List.length_append, List.length_singleton] at this
        omega
  | waited _ hnext ih =>
      have hkeeps := (ReadMaster.whenNext_reloads hnext).remembers
      rw [hkeeps.ctx, hkeeps.lastest]
      exact ih
  | reloaded _ hcreate ih =>
      have hkeeps := (ReadMaster.createDevices_reloads hcreate).remembers
      rw [hkeeps.ctx, hkeeps.lastest]
      exact ih

/-! ## The device that is charged -/

namespace ReadMaster

/-- The devices with their timeouts. -/
def timeouts (s : ReadMaster) : List (Int × Nat) :=
  s.devices.map fun device => (device.id, device.timeout)

/-- The device with this id gets more time, and no other one; without an id, no device does. -/
def Charges (s s' : ReadMaster) : Option Int → Prop
  | none => s'.timeouts = s.timeouts
  | some id => ∃ (i timeout : Nat), s.timeouts[i]? = some (id, timeout) ∧
      s'.timeouts = s.timeouts.set i (id, addU64 timeout 50)

/-- The index is that of the device with this id. -/
def Names (s : ReadMaster) : Option Nat → Option Int → Prop
  | none, id => id = none
  | some i, id => ∃ device, s.devices[i]? = some device ∧ id = some device.id

theorem addU64_ne (timeout : Nat) : addU64 timeout 50 ≠ timeout := by
  unfold addU64
  omega

theorem set_ne {l : List (Int × Nat)} {i timeout : Nat} {id : Int} (h : l[i]? = some (id, timeout)) :
    l.set i (id, addU64 timeout 50) ≠ l := by
  intro heq
  have hset := congrArg (·[i]?) heq
  simp only [List.getElem?_set_self (List.getElem?_eq_some_iff.mp h).1, h] at hset
  exact addU64_ne timeout (Prod.mk.inj (Option.some.inj hset)).2

/-- Only one device can have been charged. -/
theorem set_inj {l : List (Int × Nat)} {i j timeout timeout' : Nat} {id id' : Int}
    (h : l[i]? = some (id, timeout)) (h' : l[j]? = some (id', timeout'))
    (heq : l.set i (id, addU64 timeout 50) = l.set j (id', addU64 timeout' 50)) : id = id' := by
  by_cases hij : i = j
  · subst hij
    exact (Prod.mk.inj (Option.some.inj (h.symm.trans h'))).1
  · have hset := congrArg (·[i]?) heq
    simp only [List.getElem?_set_self (List.getElem?_eq_some_iff.mp h).1,
      List.getElem?_set_ne (Ne.symm hij), h] at hset
    exact absurd (Prod.mk.inj (Option.some.inj hset)).2 (addU64_ne timeout)

theorem disconnecting_timeouts (s : ReadMaster) : (s.disconnecting env).timeouts = s.timeouts := rfl

theorem createContext_timeouts (s : ReadMaster) :
    (s.createContext env).1.timeouts = s.timeouts := by
  unfold createContext
  dsimp only
  split
  · split <;> rfl
  · rfl

theorem getElem?_timeouts {s : ReadMaster} {i : Nat} {device : ModbusDeviceUnit}
    (h : s.devices[i]? = some device) : s.timeouts[i]? = some (device.id, device.timeout) := by
  rw [timeouts, List.getElem?_map, h]
  rfl

/-- A new connection leaves the timeouts. -/
theorem increaseTimeout_timeouts {s s' : ReadMaster} {idx : Option Nat}
    (h : s.increaseTimeout env idx = some s') :
    ∃ b, s.moreTime idx = some b ∧ s'.timeouts = b.timeouts := by
  obtain ⟨b, hb, rfl⟩ := Option.map_eq_some_iff.mp h
  refine ⟨b, hb, ?_⟩
  dsimp only
  split
  · rw [createContext_timeouts, disconnecting_timeouts]
  · rw [disconnecting_timeouts, createContext_timeouts, disconnecting_timeouts]

/-- **More time** goes to the device that the index names. -/
theorem increaseTimeout_charges_iff {s a : ReadMaster} (ha : a.timeouts = s.timeouts)
    (idx : Option Nat) (id : Option Int) :
    (∃ s', a.increaseTimeout env idx = some s' ∧ Charges s s' id) ↔ s.Names idx id := by
  cases idx with
  | none =>
      have hsame : ∀ s', a.increaseTimeout env none = some s' → s'.timeouts = s.timeouts := by
        intro s' hs'
        obtain ⟨b, hb, htimeouts⟩ := increaseTimeout_timeouts hs'
        obtain rfl := Option.some.inj hb
        rw [htimeouts, ha]
      constructor
      · rintro ⟨s', hs', hcharges⟩
        cases id with
        | none => rfl
        | some id =>
            obtain ⟨i, timeout, hi, hset⟩ := hcharges
            rw [hsame s' hs'] at hset
            exact absurd hset.symm (set_ne hi)
      · rintro rfl
        exact ⟨_, rfl, hsame _ rfl⟩
  | some i =>
      cases hdevice : a.devices[i]? with
      | none =>
          have hnone : s.devices[i]? = none := by
            rw [List.getElem?_eq_none_iff] at hdevice ⊢
            have hlength := congrArg List.length ha
            rw [timeouts, timeouts, List.length_map, List.length_map] at hlength
            omega
          constructor
          · rintro ⟨s', hs', -⟩
            rw [increaseTimeout, moreTime, hdevice] at hs'
            cases hs'
          · rintro ⟨device, hsome, -⟩
            rw [hnone] at hsome
            cases hsome
      | some unit =>
          have hunit := getElem?_timeouts hdevice
          rw [ha] at hunit
          have hset : ∀ s', a.increaseTimeout env (some i) = some s' →
              s'.timeouts = s.timeouts.set i (unit.id, addU64 unit.timeout 50) := by
            intro s' hs'
            obtain ⟨b, hb, htimeouts⟩ := increaseTimeout_timeouts hs'
            rw [moreTime, hdevice] at hb
            obtain rfl := Option.some.inj hb
            rw [htimeouts, ← ha]
            exact List.map_set
          obtain ⟨device, hdevice', hsame⟩ : ∃ device, s.devices[i]? = some device ∧
              device.id = unit.id := by
            rw [timeouts, List.getElem?_map] at hunit
            obtain ⟨device, hdevice', heq⟩ := Option.map_eq_some_iff.mp hunit
            exact ⟨device, hdevice', (Prod.mk.inj heq).1⟩
          constructor
          · rintro ⟨s', hs', hcharges⟩
            refine ⟨device, hdevice', ?_⟩
            cases id with
            | none =>
                rw [Charges, hset s' hs'] at hcharges
                exact absurd hcharges (set_ne hunit)
            | some id =>
                obtain ⟨j, timeout, hj, hset'⟩ := hcharges
                rw [hset s' hs'] at hset'
                rw [hsame, set_inj hunit hj hset']
          · rintro ⟨device', hdevice'', rfl⟩
            obtain rfl := Option.some.inj (hdevice'.symm.trans hdevice'')
            obtain ⟨s', hs'⟩ : ∃ s', a.increaseTimeout env (some i) = some s' := by
              rw [increaseTimeout, moreTime, hdevice]
              exact ⟨_, rfl⟩
            rw [hsame]
            exact ⟨s', hs', i, unit.timeout, hunit, hset s' hs'⟩

end ReadMaster

/-! ## The culprit -/

/-- The read ends with more time for the device whose request timed out last, or for no device if
none did. -/
def ChargesCulprit (env : Environment J) (s : ReadMaster) (polls : List Poll) (p : Poll) : Prop :=
  ∃ s', s.read env = some s' ∧ s.Charges s' (culprit (polls ++ [p]))

/-- What makes the culprit the device that is charged. On a retry the poll itself or the last timeout
before it must be that of the device. On a first try, the device that was polled before over the
connection, or is remembered from before it, must be the one that timed out last. -/
def Identified (s : ReadMaster) (polls : List Poll) (device : ModbusDeviceUnit) (p : Poll) : Prop :=
  if Retried (asU64 device.retryCount) p.answers then
    p.timedOut = true ∨ culprit polls = some device.id
  else s.Names ((polls.getLast?.map Poll.index).or s.lastestDeviceIndex)
    (if p.timedOut then some device.id else culprit polls)

theorem culprit_concat (polls : List Poll) (p : Poll) :
    culprit (polls ++ [p]) = if p.timedOut then p.deviceId else culprit polls := by
  rw [culprit, List.filter_append, List.filter_singleton]
  cases p.timedOut with
  | true => simp
  | false => simp [culprit]

/-- On a connection the device polled before is the one that is remembered. -/
theorem OnConnection.before {s : ReadMaster} {polls : List Poll} (h : OnConnection env s polls) :
    (polls.getLast?.map Poll.index).or s.lastestDeviceIndex = s.lastestDeviceIndex := by
  cases hlast : polls.getLast? with
  | none => rfl
  | some p =>
      rw [h.spec.2 p hlast]
      rfl

/-- **A mismatched header** is charged to the device of the late answer exactly if it is identified. -/
theorem mismatch_charges_culprit_iff (env : Environment J) (s : ReadMaster) (polls : List Poll)
    (hconnection : OnConnection env s polls) (idx : Nat) (device : ModbusDeviceUnit) (round : Round)
    (action : HeaderMismatchAction) (hcurrent : s.currentDeviseIndex = some idx)
    (hdevice : s.devices[idx]? = some device) (hactive : device.isActive = true)
    (hpolls : s.PollsWith env device round) (hflow : round.flow = .headerMismatch action) :
    ChargesCulprit env s polls (s.record env idx device round) ↔
      Identified s polls device (s.record env idx device round) := by
  obtain ⟨pool, hpool⟩ := hpolls
  have hread : s.read env = (s.looped env idx device pool round).headerMismatched env action := by
    rw [ReadMaster.read, hcurrent]
    simp only [hdevice, hactive, hconnection.spec.1, and_self, if_true]
    rw [ReadMaster.poll_of_pollPool hpool, hflow]
  have htimeouts : (s.looped env idx device pool round).timeouts = s.timeouts := by
    obtain ⟨hlt, hget⟩ := List.getElem?_eq_some_iff.mp (ReadMaster.getElem?_timeouts hdevice)
    calc (s.looped env idx device pool round).timeouts
        = s.timeouts.set idx (device.id, device.timeout) := List.map_set
      _ = s.timeouts := by rw [← hget, List.set_getElem_self]
  have hculprit : culprit (polls ++ [s.record env idx device round]) =
      if (s.record env idx device round).timedOut then some device.id else culprit polls := by
    have hid : (s.record env idx device round).deviceId = some device.id := by
      show s.devices[idx]?.map (·.id) = some device.id
      rw [hdevice]
      rfl
    rw [culprit_concat, hid]
  have hanswers : (s.record env idx device round).answers = round.answers := rfl
  rw [ChargesCulprit, Identified, hread, hculprit, hconnection.before, hanswers]
  have hremembered : { s.looped env idx device pool round with
      lastestDeviceIndex := s.currentDeviseIndex }.timeouts = s.timeouts := htimeouts
  have haction := action_iff hpool hflow
  by_cases hretried : Retried (asU64 device.retryCount) round.answers
  · rw [if_pos hretried] at haction
    subst haction
    rw [if_pos hretried]
    refine (ReadMaster.increaseTimeout_charges_iff hremembered s.currentDeviseIndex _).trans ?_
    rw [hcurrent]
    cases (s.record env idx device round).timedOut with
    | true => simp [ReadMaster.Names, hdevice]
    | false => simp [ReadMaster.Names, hdevice]
  · rw [if_neg hretried] at haction
    subst haction
    rw [if_neg hretried]
    exact ReadMaster.increaseTimeout_charges_iff hremembered s.lastestDeviceIndex _

/-- The request at moment 3 gets the header of another one, all others time out. -/
def mismatchEnvironment : Environment Unit :=
  { oneWordEnvironment with
    words := fun m => if m = 3 then .error (.protocol .headerMismatch) else .elapsed }

/-- A device with two steps. -/
def twoSteps (retryCount : Int) : ModbusDeviceUnit :=
  ⟨4, 1, 1000, 500, retryCount, true, false, 0,
    ⟨[], [], [⟨[], 5, 1, .holding, false⟩, ⟨[], 9, 1, .holding, false⟩], []⟩⟩

/-- Its read master, which has just connected. -/
def justConnected (retryCount : Int) : ReadMaster :=
  ({ ReadMaster.new ⟨1, "10.0.0.1", none⟩ with
    devices := [twoSteps retryCount], currentDeviseIndex := some 0 }.createContext
      mismatchEnvironment).1

theorem justConnected_onConnection (retryCount : Int) :
    OnConnection mismatchEnvironment (justConnected retryCount) [] := .opened rfl

/-- With three tries the mismatch comes on a retry of the step that timed out. -/
theorem retried_polled : (justConnected 3).PollsWith mismatchEnvironment (twoSteps 3)
    ⟨4, [], 0, [.error .timeout, .error .headerMisMatch], .headerMismatch .increaseCurrent⟩ := by
  refine ⟨(twoSteps 3).valuePool, ?_⟩
  show pollPool mismatchEnvironment 3 (twoSteps 3).valuePool ⟨2, [], 0, [], .next⟩ = _
  simp [pollPool, pollSteps, pollStep, tryStep, twoSteps, mismatchEnvironment, oneWordEnvironment,
    Environment.request, readProcess, Round.record]

theorem mismatch_charges_culprit_retried :
    ChargesCulprit mismatchEnvironment (justConnected 3) []
        ((justConnected 3).record mismatchEnvironment 0 (twoSteps 3)
          ⟨4, [], 0, [.error .timeout, .error .headerMisMatch], .headerMismatch .increaseCurrent⟩) ↔
      Identified (justConnected 3) [] (twoSteps 3)
        ((justConnected 3).record mismatchEnvironment 0 (twoSteps 3)
          ⟨4, [], 0, [.error .timeout, .error .headerMisMatch], .headerMismatch .increaseCurrent⟩) :=
  mismatch_charges_culprit_iff mismatchEnvironment (justConnected 3) []
    (justConnected_onConnection 3) 0 (twoSteps 3) _ .increaseCurrent rfl rfl rfl retried_polled rfl

/-- With one try the first step times out and is given up, and the mismatch comes on the first try of
the second step: no device is charged. -/
theorem mismatch_charges_nobody :
    OnConnection mismatchEnvironment (justConnected 1) [] ∧
    (justConnected 1).PollsWith mismatchEnvironment (twoSteps 1)
      ⟨4, [], 1, [.error .timeout, .error .headerMisMatch], .headerMismatch .increasePrevious⟩ ∧
    ¬ChargesCulprit mismatchEnvironment (justConnected 1) []
      ((justConnected 1).record mismatchEnvironment 0 (twoSteps 1)
        ⟨4, [], 1, [.error .timeout, .error .headerMisMatch], .headerMismatch .increasePrevious⟩) := by
  refine ⟨justConnected_onConnection 1, ⟨(twoSteps 1).valuePool, ?_⟩, ?_⟩
  · show pollPool mismatchEnvironment 1 (twoSteps 1).valuePool ⟨2, [], 0, [], .next⟩ = _
    simp [pollPool, pollSteps, pollStep, tryStep, twoSteps, mismatchEnvironment, oneWordEnvironment,
      Environment.request, readProcess, Round.record, Round.fail, Round.push, ReadStep.fail,
      Environment.seconds]
  · rintro ⟨s', hs', i, timeout, hi, hset⟩
    have hsame : ((justConnected 1).read mismatchEnvironment).map ReadMaster.timeouts =
        some (justConnected 1).timeouts := by decide +kernel
    rw [hs', Option.map_some] at hsame
    exact ReadMaster.set_ne hi (hset.symm.trans (Option.some.inj hsame))

end ModbusLogger.Reader
