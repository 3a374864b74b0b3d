import Mathlib.Data.Int.ConditionallyCompleteOrder
import ModbusLogger.Reader.IndexSafety

/-!
# The pauses between attempts to connect

After an attempt that fails the next one waits for a minute. There is no timer for it: the moment is
kept in `last_connecting_time`, and every message makes the loop of the node work out anew how long to
sleep. Here are all the attempts of a run, in their order, and what they waited for.
-/

namespace ModbusLogger.Reader

open FixedWidth

/-- Who calls `create_context`: `tick`, `update` or `increase_timeout`. -/
inductive Cause where
  | tick
  | update
  | mismatch
  deriving DecidableEq

/-- An attempt starts at a moment. The next moment is that of its failure. -/
structure Attempt where
  moment : Nat
  cause : Cause
  connected : Bool
  deriving DecidableEq

/-! ## The attempts of a run -/

namespace ReadMaster

variable {J : Type*} (env : Environment J)

/-- No attempt is made with an address that is none. -/
def createContextAttempts (s : ReadMaster) (cause : Cause) : List Attempt :=
  if env.parses (s.ip ++ ":" ++ toString s.port) then [⟨s.moment, cause, env.connects s.moment⟩]
  else []

def increaseTimeoutAttempts (s : ReadMaster) (idx : Option Nat) : List Attempt :=
  match s.moreTime idx with
  | some s => (s.disconnecting env).createContextAttempts env .mismatch
  | none => []

def headerMismatchedAttempts (s : ReadMaster) (action : HeaderMismatchAction) : List Attempt :=
  let prev := s.lastestDeviceIndex
  let s := { s with lastestDeviceIndex := s.currentDeviseIndex }
  match action with
  | .increaseCurrent => s.increaseTimeoutAttempts env s.currentDeviseIndex
  | .increasePrevious => s.increaseTimeoutAttempts env prev

def pollAttempts (s : ReadMaster) (idx : Nat) (device : ModbusDeviceUnit) : List Attempt :=
  match pollPool env (asU64 device.retryCount) device.valuePool
    ⟨s.moment + 1, [], 0, [], .next⟩ with
  | none => []
  | some (valuePool, round) =>
    match round.flow with
    | .headerMismatch action =>
      (s.looped env idx device valuePool round).headerMismatchedAttempts env action
    | _ => []

def readAttempts (s : ReadMaster) : List Attempt :=
  match s.currentDeviseIndex with
  | none => []
  | some idx =>
    match s.devices[idx]? with
    | none => []
    | some device => if device.isActive ∧ s.ctx.isSome then s.pollAttempts env idx device else []

def withContextAttempts (s : ReadMaster) : List Attempt :=
  if s.ctx.isNone then s.createContextAttempts env .tick else []

def tickAttempts (s : ReadMaster) : List Attempt :=
  match s.withDevices env with
  | some (a, true) =>
    a.withContextAttempts env ++
      if (a.withContext env).2 then (a.withContext env).1.readAttempts env else []
  | _ => []

/-- An update that keeps the address makes none. -/
def updateAttempts (s : ReadMaster) (conf : NodeRead) : List Attempt :=
  if s.ip ≠ conf.ip ∨ s.port ≠ conf.port.getD 502 then
    { s with ip := conf.ip, port := conf.port.getD 502 }.createContextAttempts env .update
  else []

end ReadMaster

namespace NodeLoop

variable {J : Type*} (env : Environment J)

def reactAttempts (s : ReadMaster) : Wake → List Attempt
  | .message msg =>
    if msg.eventType = .update ∧ msg.data.id = s.id then s.updateAttempts env msg.data else []
  | .lost => []
  | .elapsed => s.tickAttempts env

def turnAttempts (n : NodeLoop) (wake : Wake) : List Attempt :=
  if n.ended then [] else reactAttempts env n.readMaster wake

/-- The attempts of some turns; a panic ends them. -/
def attempts : NodeLoop → List Wake → List Attempt
  | _, [] => []
  | n, wake :: wakes =>
    turnAttempts env n wake ++
      match turn env n wake with
      | some n => attempts n wakes
      | none => []

/-- No sleep is over before its time. A message may come at any time. -/
def Sleeps : NodeLoop → List Wake → Prop
  | _, [] => True
  | n, wake :: wakes =>
    (n.ended = false → wake = .elapsed → Rested env n) ∧ ∀ n' ∈ turn env n wake, Sleeps n' wakes

instance decidableSleeps : ∀ (n : NodeLoop) (wakes : List Wake), Decidable (Sleeps env n wakes)
  | _, [] => isTrue trivial
  | n, wake :: wakes =>
    have := fun n' => decidableSleeps n' wakes
    inferInstanceAs (Decidable ((n.ended = false → wake = .elapsed → Rested env n) ∧
      ∀ n' ∈ turn env n wake, Sleeps env n' wakes))

end NodeLoop

/-! ## What an attempt waited for -/

section Allowed

variable {J : Type*} (env : Environment J)

/-- Each of the attempts that failed did so a minute ago. -/
def Cold (log : List Attempt) (m : Nat) : Prop :=
  ∀ a ∈ log, a.connected = false → env.clock (a.moment + 1) + 60000 ≤ env.clock m

/-- The last connection was made by an update, or in the place of such a connection. -/
def FromUpdate (log : List Attempt) : Prop :=
  ∃ pre c mid, log = pre ++ c :: mid ∧ c.cause = .update ∧ c.connected = true ∧
    ∀ d ∈ mid, d.cause = .mismatch ∧ d.connected = true

/-- An attempt after those of the log. -/
def Allowed (log : List Attempt) (b : Attempt) : Prop :=
  b.cause = .update ∨ Cold env log b.moment ∨ b.cause = .mismatch ∧ FromUpdate log

/-- Some attempts after those of the log. -/
def Spaced : List Attempt → List Attempt → Prop
  | _, [] => True
  | log, b :: rest => Allowed env log b ∧ Spaced (log ++ [b]) rest

variable {env} {log rest : List Attempt} {a b : Attempt} {m m' : Nat}

@[simp] theorem spaced_nil : Spaced env log [] := trivial

theorem spaced_singleton : Spaced env log [b] ↔ Allowed env log b := by
  rw [Spaced, Spaced, and_true]

theorem spaced_append (xs ys : List Attempt) :
    Spaced env log (xs ++ ys) ↔ Spaced env log xs ∧ Spaced env (log ++ xs) ys := by
  induction xs generalizing log with
  | nil => simp
  | cons x xs ih =>
      rw [List.cons_append, Spaced, Spaced, ih, List.append_assoc, List.singleton_append, and_assoc]

theorem Spaced.allowed {xs ys : List Attempt} (h : Spaced env log (xs ++ b :: ys)) :
    Allowed env (log ++ xs) b :=
  ((spaced_append xs (b :: ys)).mp h).2.1

theorem Cold.mono (hmono : Monotone env.clock) (h : Cold env log m) (hle : m ≤ m') :
    Cold env log m' :=
  fun a ha hfail => (h a ha hfail).trans (hmono hle)

theorem Cold.concat (h : Cold env log m) (hb : b.connected = true) : Cold env (log ++ [b]) m := by
  intro a ha hfail
  rcases List.mem_append.mp ha with hold | hnew
  · exact h a hold hfail
  · rw [List.mem_singleton.mp hnew, hb] at hfail
    cases hfail

theorem FromUpdate.concat (h : FromUpdate log) (hcause : b.cause = .mismatch)
    (hb : b.connected = true) : FromUpdate (log ++ [b]) := by
  obtain ⟨pre, c, mid, rfl, hc, hconnected, hmid⟩ := h
  refine ⟨pre, c, mid ++ [b], by simp, hc, hconnected, ?_⟩
  intro d hd
  rcases List.mem_append.mp hd with hold | hnew
  · exact hmid d hold
  · obtain rfl := List.mem_singleton.mp hnew
    exact ⟨hcause, hb⟩

theorem fromUpdate_concat (log : List Attempt) (hcause : b.cause = .update)
    (hb : b.connected = true) : FromUpdate (log ++ [b]) :=
  ⟨log, b, [], rfl, hcause, hb, fun _ h => absurd h List.not_mem_nil⟩

end Allowed

/-! ## The clock -/

section Clock

variable {J : Type*} {env : Environment J} {m : Nat}

/-- The clock and a minute more fit into 64 bits. -/
def ClockFits (env : Environment J) : Prop := ∀ m, env.clock m < 18446744073709551616 - 60000

theorem getTime_eq (hfits : ClockFits env) (m : Nat) : env.getTime m = (env.clock m).toNat := by
  have hlt := hfits m
  unfold Environment.getTime Environment.millis
  split
  · rw [Option.getD_some, asU64]
    omega
  · rw [Option.getD_none]
    omega

theorem minute_later (hfits : ClockFits env) (m : Nat) :
    addU64 (env.getTime m) 60000 = (env.clock m).toNat + 60000 := by
  have hlt := hfits m
  rw [getTime_eq hfits, addU64]
  omega

end Clock

/-! ## What leaves the connection alone -/

/-- The message that `create_context` sends before its attempt. -/
def MainMsg.isConnecting : MainMsg → Bool
  | .event (.nodeEvent ev) => ev.event = .connecting
  | _ => false

namespace ReadMaster

variable {J : Type*} {env : Environment J}

def connectings (s : ReadMaster) : Nat := s.toController.countP MainMsg.isConnecting

theorem connectings_send (s : ReadMaster) {msg : MainMsg} (h : msg.isConnecting = false) :
    (s.send msg).connectings = s.connectings := by
  simp [connectings, send, h]

/-- Neither the connection nor the moment of the next attempt changes, and no attempt is announced. -/
structure SameLine (s s' : ReadMaster) : Prop where
  ctx : s'.ctx.isSome = s.ctx.isSome
  last : s'.lastConnectingTime = s.lastConnectingTime
  moment : s.moment ≤ s'.moment
  connectings : s'.connectings = s.connectings

theorem SameLine.refl (s : ReadMaster) : SameLine s s := ⟨rfl, rfl, le_refl _, rfl⟩

/-- What is asked for announces no attempt. -/
theorem Reloads.sameLine {s s' : ReadMaster} (h : Reloads s s') : SameLine s s' where
  ctx := by rw [h.rest]
  last := by rw [h.rest]
  moment := h.moment
  connectings := by
    obtain ⟨requests, hasked⟩ := h.asked
    have hnone : (requests.map MainMsg.request).countP MainMsg.isConnecting = 0 := by
      rw [List.countP_map, List.countP_eq_zero]
      exact fun _ _ => Bool.false_ne_true
    rw [ReadMaster.connectings, hasked, List.countP_append, hnone, Nat.add_zero]
    rfl

theorem withDevices_sameLine {s s' : ReadMaster} {found : Bool}
    (h : s.withDevices env = some (s', found)) : SameLine s s' := by
  unfold withDevices at h
  split at h
  · exact (createDevices_reloads h).sameLine
  · obtain ⟨rfl, -⟩ := Prod.mk.inj (Option.some.inj h)
    exact .refl s

theorem moreTime_sameLine {s s' : ReadMaster} {idx : Option Nat} (h : s.moreTime idx = some s') :
    SameLine s s' := by
  cases idx with
  | none =>
      obtain rfl := Option.some.inj h
      exact .refl s
  | some idx =>
      obtain ⟨device, -, rfl⟩ := Option.map_eq_some_iff.mp h
      exact ⟨rfl, rfl, le_refl _, rfl⟩

/-- The loop over the steps of a device is left later than it was begun. -/
theorem looped_sameLine {s : ReadMaster} (idx : Nat) (device : ModbusDeviceUnit)
    {pool pool' : PollValueIterator} {round : Round} {retryCount : Nat} (hctx : s.ctx.isSome)
    (hpool : pollPool env retryCount pool ⟨s.moment + 1, [], 0, [], .next⟩ = some (pool', round)) :
    SameLine s (s.looped env idx device pool' round) := by
  have hmoment : s.moment + 1 ≤ round.moment := (pollPool_spec hpool).1.moment
  exact ⟨hctx.symm, rfl, (Nat.le_succ _).trans hmoment, rfl⟩

/-- The attempt of `create_context`: none, one that connects, or one that fails. -/
theorem createContext_cases (env : Environment J) (s : ReadMaster) (cause : Cause) :
    (s.createContextAttempts env cause = [] ∧ (s.createContext env).1.ctx.isSome = false ∧
      (s.createContext env).1.lastConnectingTime = s.lastConnectingTime ∧
      (s.createContext env).1.moment = s.moment) ∨
    (s.createContextAttempts env cause = [⟨s.moment, cause, true⟩] ∧
      (s.createContext env).1.lastConnectingTime = s.lastConnectingTime ∧
      (s.createContext env).1.moment = s.moment + 1) ∨
    (s.createContextAttempts env cause = [⟨s.moment, cause, false⟩] ∧
      (s.createContext env).1.ctx.isSome = false ∧
      (s.createContext env).1.lastConnectingTime =
        addU64 (env.getTime (s.moment + 1)) 60000 ∧
      (s.createContext env).1.moment = s.moment + 2) := by
  have hcreate : s.createContext env =
      let asked := { s with ctx := none }.sendConnectingMsg .connecting
      if env.parses (s.ip ++ ":" ++ toString s.port) then
        if env.connects s.moment then
          ({ asked with ctx := some connected, moment := s.moment + 1 }.sendConnectingMsg
            .connected, true)
        else ({ asked with moment := s.moment + 1 }.disconnecting env, false)
      else (asked, false) := rfl
  rw [hcreate]
  unfold createContextAttempts
  dsimp only
  split
  · next hparses =>
    cases hconnects : env.connects s.moment with
    | true => exact .inr (.inl ⟨rfl, rfl, rfl⟩)
    | false => exact .inr (.inr ⟨rfl, rfl, rfl, rfl⟩)
  · exact .inl ⟨rfl, rfl, rfl, rfl⟩

end ReadMaster

/-! ## Every attempt is announced -/

section Announced

open ReadMaster

variable {J : Type*} {env : Environment J}

theorem disconnecting_connectings (s : ReadMaster) :
    (s.disconnecting env).connectings = s.connectings :=
  connectings_send
    { s with
      lastConnectingTime := addU64 (env.getTime s.moment) 60000, moment := s.moment + 1
      ctxState := .unConnected } rfl

/-- The message that ends the loop makes no attempt. -/
theorem NodeLoop.reactAttempts_ended {s : ReadMaster} {wake : Wake}
    (h : NodeLoop.react env s wake = some none) : NodeLoop.reactAttempts env s wake = [] := by
  cases wake with
  | lost => rfl
  | elapsed =>
      obtain ⟨a, -, hsome⟩ := Option.map_eq_some_iff.mp h
      cases hsome
  | message msg =>
      obtain ⟨type, data⟩ := msg
      cases type with
      | create => rfl
      | delete => rfl
      | update =>
          simp only [NodeLoop.react] at h
          split at h
          · obtain ⟨a, -, hsome⟩ := Option.map_eq_some_iff.mp h
            cases hsome
          · cases h

variable (hparses : ∀ address, env.parses address = true)

include hparses

theorem createContext_connectings (s : ReadMaster) (cause : Cause) :
    (s.createContext env).1.connectings =
      s.connectings + (s.createContextAttempts env cause).length := by
  have hasked : ({ s with ctx := none }.sendConnectingMsg .connecting).connectings =
      s.connectings + 1 := by
    simp [ReadMaster.connectings, sendConnectingMsg, send, MainMsg.isConnecting]
  rw [createContextAttempts, if_pos (hparses _), List.length_singleton, ← hasked]
  unfold createContext
  dsimp only
  rw [if_pos (hparses _)]
  split
  · exact connectings_send _ rfl
  · exact disconnecting_connectings _

theorem increaseTimeout_connectings {s s' : ReadMaster} {idx : Option Nat}
    (h : s.increaseTimeout env idx = some s') :
    s'.connectings = s.connectings + (s.increaseTimeoutAttempts env idx).length := by
  obtain ⟨a, ha, rfl⟩ := Option.map_eq_some_iff.mp h
  have hcreated := createContext_connectings hparses (a.disconnecting env) .mismatch
  rw [disconnecting_connectings, (moreTime_sameLine ha).connectings] at hcreated
  rw [increaseTimeoutAttempts, ha]
  dsimp only
  split
  · exact hcreated
  · rw [disconnecting_connectings]
    exact hcreated

theorem headerMismatched_connectings {s s' : ReadMaster} {action : HeaderMismatchAction}
    (h : s.headerMismatched env action = some s') :
    s'.connectings = s.connectings + (s.headerMismatchedAttempts env action).length := by
  cases action with
  | increaseCurrent => exact increaseTimeout_connectings hparses h
  | increasePrevious => exact increaseTimeout_connectings hparses h

theorem poll_connectings {s s' : ReadMaster} {idx : Nat} {device : ModbusDeviceUnit}
    (hctx : s.ctx.isSome) (h : s.poll env idx device = some s') :
    s'.connectings = s.connectings + (s.pollAttempts env idx device).length := by
  cases hpool : pollPool env (asU64 device.retryCount) device.valuePool
      ⟨s.moment + 1, [], 0, [], .next⟩ with
  | none =>
      rw [poll, hpool] at h
      cases h
  | some r =>
      obtain ⟨pool, round⟩ := r
      have hlooped := (looped_sameLine idx device hctx hpool).connectings
      rw [poll_of_pollPool hpool] at h
      rw [pollAttempts, hpool]
      dsimp only
      cases hflow : round.flow with
      | next =>
          rw [hflow] at h
          obtain ⟨finished, -, rfl⟩ := Option.map_eq_some_iff.mp h
          exact (connectings_send _ rfl).trans hlooped
      | socketFail =>
          rw [hflow] at h
          obtain rfl := Option.some.inj h
          exact (disconnecting_connectings _).trans hlooped
      | headerMismatch action =>
          rw [hflow] at h
          rw [← hlooped]
          exact headerMismatched_connectings hparses h

theorem read_connectings {s s' : ReadMaster} (h : s.read env = some s') :
    s'.connectings = s.connectings + (s.readAttempts env).length := by
  unfold ReadMaster.read at h
  unfold readAttempts
  cases hidx : s.currentDeviseIndex with
  | none =>
      rw [hidx] at h
      obtain rfl := Option.some.inj h
      rfl
  | some idx =>
      rw [hidx] at h
      cases hdevice : s.devices[idx]? with
      | none => simp [hdevice] at h
      | some device =>
          simp only [hdevice] at h ⊢
          by_cases hready : device.isActive = true ∧ s.ctx.isSome = true
          · rw [if_pos hready] at h ⊢
            exact poll_connectings hparses hready.2 h
          · rw [if_neg hready] at h ⊢
            obtain rfl := Option.some.inj h
            rfl

theorem withContext_connectings (s : ReadMaster) :
    (s.withContext env).1.connectings = s.connectings + (s.withContextAttempts env).length := by
  unfold withContext withContextAttempts
  split
  · exact createContext_connectings hparses s .tick
  · rfl

theorem tick_connectings {s s' : ReadMaster} (h : s.tick env = some s') :
    s'.connectings = s.connectings + (s.tickAttempts env).length := by
  obtain ⟨⟨a, found⟩, hdevices, h⟩ := Option.bind_eq_some_iff.mp h
  have ha := (withDevices_sameLine hdevices).connectings
  have hopened := withContext_connectings hparses a
  rw [tickAttempts, hdevices, ← ha]
  cases found with
  | false =>
      obtain rfl := Option.some.inj h
      rfl
  | true =>
      dsimp only at h ⊢
      rw [if_pos rfl] at h
      cases hconnected : (a.withContext env).2 with
      | true =>
          rw [hconnected, if_pos rfl] at h
          rw [if_pos rfl, List.length_append, ← Nat.add_assoc, ← hopened]
          exact read_connectings hparses h
      | false =>
          rw [hconnected, if_neg Bool.false_ne_true] at h
          obtain rfl := Option.some.inj h
          rw [if_neg Bool.false_ne_true, List.append_nil]
          exact hopened

theorem update_connectings {s s' : ReadMaster} {conf : NodeRead} (h : s.update env conf = some s') :
    s'.connectings = s.connectings + (s.updateAttempts env conf).length := by
  obtain ⟨⟨a, created⟩, ha, h⟩ := Option.bind_eq_some_iff.mp h
  obtain rfl := Option.some.inj h
  rw [(createDevices_reloads ha).sameLine.connectings, updateAttempts]
  split
  · exact createContext_connectings hparses { s with ip := conf.ip, port := conf.port.getD 502 } .update
  · rfl

namespace NodeLoop

theorem react_connectings {s s' : ReadMaster} {wake : Wake} (h : react env s wake = some (some s')) :
    s'.connectings = s.connectings + (reactAttempts env s wake).length := by
  have hnothing (h : some (some s) = some (some s')) : s'.connectings = s.connectings := by
    obtain rfl := Option.some.inj (Option.some.inj h)
    rfl
  cases wake with
  | lost => exact hnothing h
  | elapsed =>
      obtain ⟨a, ha, hsome⟩ := Option.map_eq_some_iff.mp h
      obtain rfl := Option.some.inj hsome
      exact tick_connectings hparses ha
  | message msg =>
      obtain ⟨type, data⟩ := msg
      cases type with
      | create => exact hnothing h
      | delete =>
          simp only [react] at h
          split at h
          · cases h
          · exact hnothing h
      | update =>
          simp only [react] at h
          simp only [reactAttempts, true_and]
          by_cases hid : data.id = s.id
          · rw [if_pos hid] at h ⊢
            obtain ⟨a, ha, hsome⟩ := Option.map_eq_some_iff.mp h
            obtain rfl := Option.some.inj hsome
            exact update_connectings hparses ha
          · rw [if_neg hid] at h ⊢
            exact hnothing h

theorem turn_connectings {n n' : NodeLoop} {wake : Wake} (h : turn env n wake = some n') :
    n'.readMaster.connectings =
      n.readMaster.connectings + (turnAttempts env n wake).length := by
  unfold turn at h
  unfold turnAttempts
  cases hended : n.ended with
  | true =>
      rw [hended, if_pos rfl] at h
      obtain rfl := Option.some.inj h
      rfl
  | false =>
      rw [hended, if_neg Bool.false_ne_true] at h
      rw [if_neg Bool.false_ne_true]
      obtain ⟨reacted, hreacted, h⟩ := Option.bind_eq_some_iff.mp h
      cases reacted with
      | none =>
          obtain rfl := Option.some.inj h
          rw [reactAttempts_ended hreacted]
          rfl
      | some s =>
          obtain ⟨⟨s', time⟩, hnext, rfl⟩ := Option.map_eq_some_iff.mp h
          exact (whenNext_reloads hnext).sameLine.connectings.trans (react_connectings hparses hreacted)

/-- **The attempts of a run are those it announced.** -/
theorem attempts_announced {n n' : NodeLoop} {wakes : List Wake}
    (h : wakes.foldlM (turn env) n = some n') :
    n'.readMaster.connectings =
      n.readMaster.connectings + (attempts env n wakes).length := by
  induction wakes generalizing n with
  | nil =>
      obtain rfl := Option.some.inj h
      rfl
  | cons wake wakes ih =>
      rw [List.foldlM_cons] at h
      obtain ⟨a, ha, h⟩ := Option.bind_eq_some_iff.mp h
      rw [attempts, ha, List.length_append, ← Nat.add_assoc, ← turn_connectings hparses ha]
      exact ih h

end NodeLoop

end Announced

/-! ## What the source keeps -/

/-- After each failure the next attempt is put off, and a connection that is there was made in time or
goes back to an update. -/
structure Cooling {J : Type*} (env : Environment J) (log : List Attempt) (s : ReadMaster) : Prop where
  failed : ∀ a ∈ log, a.connected = false → a.moment + 1 < s.moment ∧ 60000 ≤ s.lastConnectingTime ∧
    env.clock (a.moment + 1) + 60000 ≤ s.lastConnectingTime
  line : s.ctx.isSome → FromUpdate log ∨ Cold env log s.moment

namespace Cooling

open ReadMaster

variable {J : Type*} {env : Environment J} {log : List Attempt} {s s' : ReadMaster}

theorem sameLine (hmono : Monotone env.clock) (h : Cooling env log s) (hsame : SameLine s s') :
    Cooling env log s' where
  failed a ha hfail := by
    obtain ⟨hmoment, hminute, hlast⟩ := h.failed a ha hfail
    rw [hsame.last]
    exact ⟨hmoment.trans_le hsame.moment, hminute, hlast⟩
  line hctx := (h.line (hsame.ctx ▸ hctx)).imp_right fun hcold => hcold.mono hmono hsame.moment

/-- A line that is closed puts the next attempt off. -/
theorem disconnecting (hmono : Monotone env.clock) (hfits : ClockFits env) (h : Cooling env log s) :
    Cooling env log (s.disconnecting env) where
  failed a ha hfail := by
    obtain ⟨hmoment, -, -⟩ := h.failed a ha hfail
    have hclock : env.clock (a.moment + 1) ≤ env.clock s.moment := hmono hmoment.le
    show a.moment + 1 < s.moment + 1 ∧ 60000 ≤ addU64 (env.getTime s.moment) 60000 ∧
      _ ≤ (addU64 (env.getTime s.moment) 60000 : Int)
    rw [minute_later hfits]
    refine ⟨Nat.lt_succ_of_lt hmoment, by omega, by omega⟩
  line hctx := by cases hctx

/-- An attempt that fails puts the next one off, too. -/
theorem createContext (hmono : Monotone env.clock) (hfits : ClockFits env) (h : Cooling env log s)
    (cause : Cause)
    (hallowed : cause = .update ∨ Cold env log s.moment ∨ cause = .mismatch ∧ FromUpdate log) :
    Spaced env log (s.createContextAttempts env cause) ∧
      Cooling env (log ++ s.createContextAttempts env cause) (s.createContext env).1 := by
  rcases createContext_cases env s cause with
    ⟨hnone, hctx, hlast, hmoment⟩ | ⟨hone, hlast, hmoment⟩ | ⟨hone, hctx, hlast, hmoment⟩
  · rw [hnone, List.append_nil]
    refine ⟨trivial, ?_, fun hsome => ?_⟩
    · rw [hlast, hmoment]
      exact h.failed
    · rw [hctx] at hsome
      cases hsome
  · rw [hone]
    refine ⟨spaced_singleton.mpr hallowed, ?_, fun _ => ?_⟩
    · intro a ha hfail
      rw [hlast, hmoment]
      rcases List.mem_append.mp ha with hold | hnew
      · obtain ⟨hbefore, hput⟩ := h.failed a hold hfail
        exact ⟨Nat.lt_succ_of_lt hbefore, hput⟩
      · rw [List.mem_singleton.mp hnew] at hfail
        cases hfail
    · rw [hmoment]
      rcases hallowed with hupdate | hcold | ⟨hmismatch, hfrom⟩
      · exact .inl (fromUpdate_concat log hupdate rfl)
      · exact .inr ((hcold.mono hmono (Nat.le_succ _)).concat rfl)
      · exact .inl (hfrom.concat hmismatch rfl)
  · rw [hone]
    refine ⟨spaced_singleton.mpr hallowed, ?_, fun hsome => ?_⟩
    · intro a ha hfail
      rw [hlast, hmoment, minute_later hfits]
      have hbefore : a.moment ≤ s.moment := by
        rcases List.mem_append.mp ha with hold | hnew
        · exact (Nat.le_succ _).trans (h.failed a hold hfail).1.le
        · rw [List.mem_singleton.mp hnew]
      have hclock : env.clock (a.moment + 1) ≤ env.clock (s.moment + 1) :=
        hmono (Nat.succ_le_succ hbefore)
      refine ⟨by omega, by omega, by omega⟩
    · rw [hctx] at hsome
      cases hsome

/-- A mismatched header opens the line anew. -/
theorem increaseTimeout (hmono : Monotone env.clock) (hfits : ClockFits env) (h : Cooling env log s)
    (hctx : s.ctx.isSome) (idx : Option Nat) :
    Spaced env log (s.increaseTimeoutAttempts env idx) ∧
      ∀ s', s.increaseTimeout env idx = some s' →
        Cooling env (log ++ s.increaseTimeoutAttempts env idx) s' := by
  unfold increaseTimeoutAttempts ReadMaster.increaseTimeout
  cases hmore : s.moreTime idx with
  | none => exact ⟨trivial, fun s' h => by cases h⟩
  | some a =>
      have hsame := moreTime_sameLine hmore
      have hclosed := (h.sameLine hmono hsame).disconnecting hmono hfits
      have hallowed : Cause.mismatch = .update ∨ Cold env log (a.disconnecting env).moment ∨
          Cause.mismatch = .mismatch ∧ FromUpdate log := by
        rcases h.line hctx with hfrom | hcold
        · exact .inr (.inr ⟨rfl, hfrom⟩)
        · exact .inr (.inl (hcold.mono hmono (hsame.moment.trans (Nat.le_succ _))))
      obtain ⟨hspaced, hcreated⟩ := hclosed.createContext hmono hfits .mismatch hallowed
      refine ⟨hspaced, ?_⟩
      intro s' hs'
      obtain rfl := Option.some.inj hs'
      dsimp only
      split
      · exact hcreated
      · exact hcreated.disconnecting hmono hfits

theorem headerMismatched (hmono : Monotone env.clock) (hfits : ClockFits env)
    (h : Cooling env log s) (hctx : s.ctx.isSome) (action : HeaderMismatchAction) :
    Spaced env log (s.headerMismatchedAttempts env action) ∧
      ∀ s', s.headerMismatched env action = some s' →
        Cooling env (log ++ s.headerMismatchedAttempts env action) s' := by
  have hsame : SameLine s { s with lastestDeviceIndex := s.currentDeviseIndex } :=
    ⟨rfl, rfl, le_refl _, rfl⟩
  have hlatest := h.sameLine hmono hsame
  cases action with
  | increaseCurrent => exact hlatest.increaseTimeout hmono hfits hctx _
  | increasePrevious => exact hlatest.increaseTimeout hmono hfits hctx _

theorem poll (hmono : Monotone env.clock) (hfits : ClockFits env) (h : Cooling env log s)
    (hctx : s.ctx.isSome) (idx : Nat) (device : ModbusDeviceUnit) :
    Spaced env log (s.pollAttempts env idx device) ∧
      ∀ s', s.poll env idx device = some s' →
        Cooling env (log ++ s.pollAttempts env idx device) s' := by
  unfold pollAttempts
  cases hpool : pollPool env (asU64 device.retryCount) device.valuePool
      ⟨s.moment + 1, [], 0, [], .next⟩ with
  | none =>
      refine ⟨trivial, fun s' hs' => ?_⟩
      rw [ReadMaster.poll, hpool] at hs'
      cases hs'
  | some r =>
      obtain ⟨pool, round⟩ := r
      have hlooped := h.sameLine hmono (looped_sameLine idx device hctx hpool)
      rw [poll_of_pollPool hpool]
      dsimp only
      cases hflow : round.flow with
      | next =>
          refine ⟨trivial, fun s' hs' => ?_⟩
          rw [List.append_nil]
          obtain ⟨finished, -, rfl⟩ := Option.map_eq_some_iff.mp hs'
          exact hlooped.sameLine hmono ⟨rfl, rfl, Nat.le_succ _, connectings_send _ rfl⟩
      | socketFail =>
          refine ⟨trivial, fun s' hs' => ?_⟩
          rw [List.append_nil]
          obtain rfl := Option.some.inj hs'
          exact hlooped.disconnecting hmono hfits
      | headerMismatch action =>
          exact hlooped.headerMismatched hmono hfits rfl action

theorem read (hmono : Monotone env.clock) (hfits : ClockFits env) (h : Cooling env log s) :
    Spaced env log (s.readAttempts env) ∧
      ∀ s', s.read env = some s' → Cooling env (log ++ s.readAttempts env) s' := by
  have hnothing (s' : ReadMaster) (hs' : some s = some s') : Cooling env (log ++ []) s' := by
    obtain rfl := Option.some.inj hs'
    rwa [List.append_nil]
  unfold readAttempts ReadMaster.read
  cases s.currentDeviseIndex with
  | none => exact ⟨trivial, hnothing⟩
  | some idx =>
      cases hdevice : s.devices[idx]? with
      | none => exact ⟨by simp [hdevice], fun s' hs' => by simp [hdevice] at hs'⟩
      | some device =>
          simp only [hdevice]
          by_cases hready : device.isActive = true ∧ s.ctx.isSome = true
          · rw [if_pos hready, if_pos hready]
            exact h.poll hmono hfits hready.2 idx device
          · rw [if_neg hready, if_neg hready]
            exact ⟨trivial, hnothing⟩

/-- A tick opens a closed line when the last failure was a minute ago. -/
theorem withContext (hmono : Monotone env.clock) (hfits : ClockFits env) (h : Cooling env log s)
    (hwaited : s.ctx.isSome = false → Cold env log s.moment) :
    Spaced env log (s.withContextAttempts env) ∧
      Cooling env (log ++ s.withContextAttempts env) (s.withContext env).1 := by
  unfold withContextAttempts ReadMaster.withContext
  split
  · next hnone =>
    exact h.createContext hmono hfits .tick (.inr (.inl (hwaited (by simpa using hnone))))
  · refine ⟨trivial, ?_⟩
    rwa [List.append_nil]

theorem tick (hmono : Monotone env.clock) (hfits : ClockFits env) (h : Cooling env log s)
    (hwaited : s.ctx.isSome = false → Cold env log s.moment) :
    Spaced env log (s.tickAttempts env) ∧
      ∀ s', s.tick env = some s' → Cooling env (log ++ s.tickAttempts env) s' := by
  unfold tickAttempts ReadMaster.tick
  cases hdevices : s.withDevices env with
  | none => exact ⟨trivial, fun s' hs' => by cases hs'⟩
  | some r =>
      obtain ⟨a, found⟩ := r
      have hsame := withDevices_sameLine hdevices
      have ha := h.sameLine hmono hsame
      rw [Option.bind_some]
      cases found with
      | false =>
          refine ⟨trivial, fun s' hs' => ?_⟩
          obtain rfl := Option.some.inj hs'
          rwa [List.append_nil]
      | true =>
          obtain ⟨hspaced, hline⟩ := ha.withContext hmono hfits fun hctx =>
            (hwaited (hsame.ctx ▸ hctx)).mono hmono hsame.moment
          dsimp only
          rw [if_pos rfl, spaced_append]
          cases hconnected : (a.withContext env).2 with
          | true =>
              obtain ⟨hread, hcooling⟩ := hline.read hmono hfits
              refine ⟨⟨hspaced, hread⟩, fun s' hs' => ?_⟩
              rw [if_pos rfl, ← List.append_assoc]
              exact hcooling s' hs'
          | false =>
              refine ⟨⟨hspaced, trivial⟩, fun s' hs' => ?_⟩
              obtain rfl := Option.some.inj hs'
              rwa [if_neg Bool.false_ne_true, List.append_nil]

theorem update (hmono : Monotone env.clock) (hfits : ClockFits env) (h : Cooling env log s)
    (conf : NodeRead) :
    Spaced env log (s.updateAttempts env conf) ∧
      ∀ s', s.update env conf = some s' → Cooling env (log ++ s.updateAttempts env conf) s' := by
  have hloaded {a : ReadMaster} {log' : List Attempt} (ha : Cooling env log' a) (s' : ReadMaster)
      (hs' : (a.createDevices env).bind (fun r => some r.1) = some s') : Cooling env log' s' := by
    obtain ⟨⟨b, created⟩, hb, hs'⟩ := Option.bind_eq_some_iff.mp hs'
    obtain rfl := Option.some.inj hs'
    exact ha.sameLine hmono (createDevices_reloads hb).sameLine
  unfold updateAttempts ReadMaster.update
  by_cases hmoved : s.ip ≠ conf.ip ∨ s.port ≠ conf.port.getD 502
  · rw [if_pos hmoved]
    have hmoving : Cooling env log { s with ip := conf.ip, port := conf.port.getD 502 } :=
      h.sameLine hmono ⟨rfl, rfl, le_refl _, rfl⟩
    obtain ⟨hspaced, hcreated⟩ := hmoving.createContext hmono hfits .update (.inl rfl)
    refine ⟨hspaced, fun s' hs' => hloaded hcreated s' ?_⟩
    rwa [if_pos hmoved] at hs'
  · rw [if_neg hmoved]
    refine ⟨trivial, fun s' hs' => ?_⟩
    rw [List.append_nil]
    refine hloaded h s' ?_
    rwa [if_neg hmoved] at hs'

end Cooling

/-! ## The loop of the node -/

/-- What a turn leaves: over a closed line, the sleep lasts until the last failure was a minute ago. -/
structure Waiting {J : Type*} (env : Environment J) (log : List Attempt) (n : NodeLoop) : Prop where
  cooling : Cooling env log n.readMaster
  sleeping : n.readMaster.ctx.isSome = false → ∀ a ∈ log, a.connected = false →
    env.clock (a.moment + 1) + 60000 ≤ env.clock (n.readMaster.moment - 1) + n.sleepTime

section Loop

open ReadMaster

variable {J : Type*} {env : Environment J} {log : List Attempt}

/-- When the sleep is over, a tick may open the line. -/
theorem Waiting.cold {n : NodeLoop} (h : Waiting env log n) (hrest : NodeLoop.Rested env n)
    (hctx : n.readMaster.ctx.isSome = false) : Cold env log n.readMaster.moment :=
  fun a ha hfail => (h.sleeping hctx a ha hfail).trans hrest

/-- Over a closed line the sleep is a minute, or lasts until the next attempt. -/
theorem whenNext_closed {s s' : ReadMaster} {time : Nat} (h : s.whenNext env = some (s', time))
    (hctx : s.ctx.isSome = false) :
    s'.moment = s.moment + 1 ∧
      (time = 60000 ∨ time = s.lastConnectingTime - env.getTime s.moment) := by
  unfold whenNext at h
  dsimp only at h
  split at h
  · obtain ⟨rfl, rfl⟩ := Prod.mk.inj (Option.some.inj h)
    exact ⟨rfl, .inl rfl⟩
  · rw [if_pos (by simpa using hctx)] at h
    obtain ⟨rfl, rfl⟩ := Prod.mk.inj (Option.some.inj h)
    exact ⟨rfl, .inr rfl⟩

/-- The end of a turn. -/
theorem Cooling.waiting (hmono : Monotone env.clock) (hfits : ClockFits env) {s s' : ReadMaster}
    (h : Cooling env log s) {time : Nat} (hnext : s.whenNext env = some (s', time)) :
    Waiting env log ⟨s', max time 20, false⟩ where
  cooling := h.sameLine hmono (whenNext_reloads hnext).sameLine
  sleeping hctx a ha hfail := by
    have hclosed : s.ctx.isSome = false := (whenNext_reloads hnext).sameLine.ctx ▸ hctx
    obtain ⟨hmoment, htime⟩ := whenNext_closed hnext hclosed
    obtain ⟨hbefore, hminute, hlast⟩ := h.failed a ha hfail
    have hclock : env.clock (a.moment + 1) ≤ env.clock s.moment := hmono hbefore.le
    have hmax : time ≤ max time 20 := Nat.le_max_left _ _
    show _ ≤ env.clock (s'.moment - 1) + ((max time 20 : Nat) : Int)
    rw [hmoment, Nat.add_sub_cancel]
    rcases htime with htime | htime
    · omega
    · rw [getTime_eq hfits] at htime
      omega

namespace NodeLoop

theorem react_cooling (hmono : Monotone env.clock) (hfits : ClockFits env) {s : ReadMaster}
    (h : Cooling env log s) (wake : Wake)
    (hwaited : wake = .elapsed → s.ctx.isSome = false → Cold env log s.moment) :
    Spaced env log (reactAttempts env s wake) ∧ ∀ s', react env s wake = some (some s') →
      Cooling env (log ++ reactAttempts env s wake) s' := by
  have hnothing (s' : ReadMaster) (hs' : some (some s) = some (some s')) :
      Cooling env (log ++ []) s' := by
    obtain rfl := Option.some.inj (Option.some.inj hs')
    rwa [List.append_nil]
  cases wake with
  | lost => exact ⟨trivial, hnothing⟩
  | elapsed =>
      obtain ⟨hspaced, hcooling⟩ := h.tick hmono hfits (hwaited rfl)
      refine ⟨hspaced, fun s' hs' => ?_⟩
      obtain ⟨a, ha, hsome⟩ := Option.map_eq_some_iff.mp hs'
      obtain rfl := Option.some.inj hsome
      exact hcooling a ha
  | message msg =>
      show Spaced env log (if msg.eventType = .update ∧ msg.data.id = s.id then
        s.updateAttempts env msg.data else []) ∧ _
      by_cases hupdate : msg.eventType = .update ∧ msg.data.id = s.id
      · obtain ⟨hspaced, hcooling⟩ := h.update hmono hfits msg.data
        rw [if_pos hupdate]
        refine ⟨hspaced, fun s' hs' => ?_⟩
        rw [react, hupdate.1] at hs'
        dsimp only at hs'
        rw [if_pos hupdate.2] at hs'
        obtain ⟨a, ha, hsome⟩ := Option.map_eq_some_iff.mp hs'
        obtain rfl := Option.some.inj hsome
        rw [reactAttempts, if_pos hupdate]
        exact hcooling a ha
      · rw [if_neg hupdate]
        refine ⟨trivial, fun s' hs' => ?_⟩
        rw [reactAttempts, if_neg hupdate]
        rw [react] at hs'
        cases htype : msg.eventType with
        | create =>
            rw [htype] at hs'
            exact hnothing s' hs'
        | delete =>
            rw [htype] at hs'
            dsimp only at hs'
            split at hs'
            · cases hs'
            · exact hnothing s' hs'
        | update =>
            rw [htype] at hs'
            dsimp only at hs'
            rw [if_neg fun hid => hupdate ⟨htype, hid⟩] at hs'
            exact hnothing s' hs'

/-- **One turn.** -/
theorem turn_waiting (hmono : Monotone env.clock) (hfits : ClockFits env) {n : NodeLoop} {wake : Wake}
    (h : n.ended = false → Waiting env log n)
    (hrest : n.ended = false → wake = .elapsed → Rested env n) :
    Spaced env log (turnAttempts env n wake) ∧ ∀ n', turn env n wake = some n' →
      n'.ended = false → Waiting env (log ++ turnAttempts env n wake) n' := by
  unfold turnAttempts turn
  cases hended : n.ended with
  | true =>
      refine ⟨trivial, fun n' hn' hgoes => ?_⟩
      obtain rfl := Option.some.inj hn'
      rw [hended] at hgoes
      cases hgoes
  | false =>
      have hwaiting := h hended
      obtain ⟨hspaced, hcooling⟩ := react_cooling hmono hfits hwaiting.cooling wake
        fun hwake hctx => hwaiting.cold (hrest hended hwake) hctx
      refine ⟨hspaced, fun n' hn' hgoes => ?_⟩
      rw [if_neg Bool.false_ne_true] at hn' ⊢
      obtain ⟨reacted, hreacted, hn'⟩ := Option.bind_eq_some_iff.mp hn'
      cases reacted with
      | none =>
          obtain rfl := Option.some.inj hn'
          cases hgoes
      | some s =>
          obtain ⟨⟨s', time⟩, hnext, rfl⟩ := Option.map_eq_some_iff.mp hn'
          exact (hcooling s hreacted).waiting hmono hfits hnext

/-- **A run**, from any turn on. -/
theorem attempts_spaced (hmono : Monotone env.clock) (hfits : ClockFits env) {n : NodeLoop}
    {wakes : List Wake} (h : n.ended = false → Waiting env log n) (hsleeps : Sleeps env n wakes) :
    Spaced env log (attempts env n wakes) := by
  induction wakes generalizing n log with
  | nil => trivial
  | cons wake wakes ih =>
      obtain ⟨hrest, hnext⟩ := hsleeps
      obtain ⟨hspaced, hwaiting⟩ := turn_waiting hmono hfits h hrest
      rw [attempts, spaced_append]
      refine ⟨hspaced, ?_⟩
      cases hturn : turn env n wake with
      | none => trivial
      | some n' => exact ih (hwaiting n' hturn) (hnext n' hturn)

end NodeLoop

end Loop

/-! ## The result -/

/-- An attempt comes a minute after every failure before it, unless an update makes it, or a mismatched
header over a connection that goes back to an update. -/
theorem reconnects_after_a_minute {J : Type*} (env : Environment J) (hmono : Monotone env.clock)
    (hfits : ClockFits env) (conf : NodeRead) (wakes : List Wake)
    (hsleeps : NodeLoop.Sleeps env (.start conf) wakes) (pre post : List Attempt) (b : Attempt)
    (hlog : NodeLoop.attempts env (.start conf) wakes = pre ++ b :: post) :
    b.cause = .update ∨ (b.cause = .mismatch ∧ FromUpdate pre) ∨
      ∀ a ∈ pre, a.connected = false → env.clock (a.moment + 1) + 60000 ≤ env.clock b.moment := by
  have hstart : Waiting env [] (.start conf) :=
    ⟨⟨fun _ h => absurd h List.not_mem_nil, fun h => by cases h⟩,
      fun _ _ h => absurd h List.not_mem_nil⟩
  have hspaced := NodeLoop.attempts_spaced hmono hfits (fun _ => hstart) hsleeps
  rw [hlog] at hspaced
  rcases hspaced.allowed with hupdate | hcold | hmismatch
  · exact .inl hupdate
  · exact .inr (.inr hcold)
  · exact .inr (.inl hmismatch)

/-! ## Attempts that come sooner -/

/-- A node with one device. What is asked over a connection is answered with another header. -/
def oneDevice (clock : Nat → Int) (connects : Nat → Bool) : Environment (Int × Int) :=
  { sampleEnvironment clock fun _ => .error (.protocol .headerMismatch) with
    connects := connects
    devices := fun _ => (0, [⟨1, 1, 100000, 500, 1, true, true⟩]) }

/-- The first attempt fails. -/
def movedEnvironment : Environment (Int × Int) :=
  oneDevice (fun m => 1000 * min m 100) fun m => decide (3 < m)

/-- An update moves the node a second later. -/
def movedWakes : List Wake := [.elapsed, .message ⟨.update, ⟨1, "10.0.0.2", none⟩⟩, .elapsed]

/-- No attempt succeeds, and the clock comes to the end of its 64 bits. -/
def lastEnvironment : Environment (Int × Int) :=
  oneDevice (fun m => 18446744073709551000 + 20 * m) fun _ => false

/-- A mismatched header makes an attempt before the minute is over; and where the minute does not fit
into 64 bits, every tick makes one. -/
theorem reconnects_too_soon :
    (Monotone movedEnvironment.clock ∧
      NodeLoop.Sleeps movedEnvironment (.start ⟨1, "10.0.0.1", none⟩) movedWakes ∧
      NodeLoop.attempts movedEnvironment (.start ⟨1, "10.0.0.1", none⟩) movedWakes =
        [⟨3, .tick, false⟩, ⟨6, .update, true⟩, ⟨14, .mismatch, true⟩] ∧
      movedEnvironment.clock 14 < movedEnvironment.clock (3 + 1) + 60000) ∧
    Monotone lastEnvironment.clock ∧
      NodeLoop.Sleeps lastEnvironment (.start ⟨1, "10.0.0.1", none⟩) [.elapsed, .elapsed] ∧
      NodeLoop.attempts lastEnvironment (.start ⟨1, "10.0.0.1", none⟩) [.elapsed, .elapsed] =
        [⟨3, .tick, false⟩, ⟨6, .tick, false⟩] ∧
      lastEnvironment.clock 6 < lastEnvironment.clock (3 + 1) + 60000 := by
  refine ⟨⟨?_, ?_, ?_, ?_⟩, ?_, ?_, ?_, ?_⟩
  · intro m m' hle
    show (1000 * (min m 100 : Nat) : Int) ≤ 1000 * (min m' 100 : Nat)
    omega
  · decide +kernel
  · decide +kernel
  · decide
  · intro m m' hle
    show (18446744073709551000 + 20 * m : Int) ≤ 18446744073709551000 + 20 * m'
    omega
  · decide +kernel
  · decide +kernel
  · decide

/-- The second attempt, more than a minute after the first one. -/
def patientEnvironment : Environment (Int × Int) :=
  oneDevice (fun m => if m < 6 then 1000 * m else 100000) fun m => decide (3 < m)

theorem reconnects_after_a_minute_patient :
    Cause.tick = .update ∨ (Cause.tick = .mismatch ∧ FromUpdate [⟨3, .tick, false⟩]) ∨
      ∀ a ∈ [(⟨3, .tick, false⟩ : Attempt)], a.connected = false →
        patientEnvironment.clock (a.moment + 1) + 60000 ≤ patientEnvironment.clock 6 := by
  refine reconnects_after_a_minute patientEnvironment ?_ ?_ ⟨1, "10.0.0.1", none⟩
    [.elapsed, .elapsed] ?_ [⟨3, .tick, false⟩] [⟨10, .mismatch, true⟩] ⟨6, .tick, true⟩ ?_
  · intro m m' hle
    show (if m < 6 then (1000 * m : Int) else 100000) ≤ if m' < 6 then (1000 * m' : Int) else 100000
    split <;> split <;> omega
  · intro m
    show (if m < 6 then (1000 * m : Int) else 100000) < _
    split <;> omega
  · decide +kernel
  · decide +kernel

end ModbusLogger.Reader
