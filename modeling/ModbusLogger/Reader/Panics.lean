import ModbusLogger.Reader.IndexSafety
import ModbusLogger.Reader.PollReport
import ModbusLogger.Reader.ReadPlan

/-!
# What ends the task of a node

A reload panics if the clock cannot be read or if no device comes out of it, a poll for a response that
is too short, for a device that is gone, or for the clock at its end. That is all, so whether a call
comes back can be told from what the world answers.
-/

namespace ModbusLogger.Reader

open FixedWidth

variable {J : Type*} {env : Environment J}

/-! ## Reloads -/

/-- The answers to what a reload of these devices asks for from the moment on: the clock for each
device, and the values of one of them at least. -/
structure ReloadSafe (env : Environment J) (m : Nat) (configs : List DeviceRead) : Prop where
  clock : ∀ k < configs.length, 0 ≤ env.clock (m + 2 * k)
  values : configs ≠ [] → ∃ k < configs.length, (env.values (m + 2 * k + 1)).isSome

theorem Environment.millis_isSome {m : Nat} : (env.millis m).isSome ↔ 0 ≤ env.clock m := by
  simp [millis]

namespace ReadMaster

/-- Only an unreadable clock makes the request for the values panic. -/
theorem getDeviceFromDb_of_clock {s : ReadMaster} (h : 0 ≤ env.clock s.moment) (config : DeviceRead) :
    ∃ s' device, s.getDeviceFromDb env config = some (s', device) ∧ s'.moment = s.moment + 2 := by
  obtain ⟨time, htime⟩ := Option.isSome_iff_exists.mp (Environment.millis_isSome.mpr h)
  rw [getDeviceFromDb, htime]
  cases hvalues : env.values (s.moment + 1) with
  | none => simp [ModbusDeviceUnit.new, hvalues, send]
  | some values =>
      simp [ModbusDeviceUnit.new, hvalues, send, ModbusDeviceUnit.setValues, init_eq]

theorem createUnits_isSome_iff (configs : List DeviceRead) (s : ReadMaster) :
    (s.createUnits env configs).isSome ↔ ∀ k < configs.length, 0 ≤ env.clock (s.moment + 2 * k) := by
  induction configs generalizing s with
  | nil => simp [createUnits]
  | cons config configs ih =>
      rw [List.length_cons, Nat.forall_lt_succ_left]
      have hrest : (∀ k < configs.length, 0 ≤ env.clock (s.moment + 2 * (k + 1))) ↔
          ∀ k < configs.length, 0 ≤ env.clock (s.moment + 2 + 2 * k) := by
        simp only [Nat.mul_add, Nat.mul_one, Nat.add_assoc, Nat.add_comm 2]
      rw [hrest, createUnits]
      by_cases hclock : 0 ≤ env.clock s.moment
      · obtain ⟨s', device, hdevice, hmoment⟩ := getDeviceFromDb_of_clock hclock config
        rw [hdevice, ← hmoment, ← ih s']
        cases hunits : s'.createUnits env configs <;> simp [hclock, hunits]
      · have hnone : env.millis s.moment = none := by
          rwa [← Option.not_isSome_iff_eq_none, Environment.millis_isSome]
        simp [getDeviceFromDb, hnone, ModbusDeviceUnit.new, hclock]

/-- **A reload** comes back if the clock can be read, and if it does not come out empty of a list that
is not. -/
theorem reload_isSome_iff {configs : List DeviceRead} (hne : configs ≠ []) (s : ReadMaster) :
    ((s.createUnits env configs).bind fun r => { r.1 with devices := r.2 }.whenNextDevice).isSome ↔
      ReloadSafe env s.moment configs := by
  have hclock : (s.createUnits env configs).isSome ↔ _ := createUnits_isSome_iff configs s
  have hnil : (∃ s', s.createUnits env configs = some (s', [])) ↔ _ := createUnits_nil_iff configs s
  cases hunits : s.createUnits env configs with
  | none =>
      rw [hunits] at hclock
      simp only [Option.bind_none, Option.isSome_none, Bool.false_eq_true, false_iff] at hclock ⊢
      exact fun h => hclock h.clock
  | some r =>
      rw [hunits] at hclock hnil
      have hread := hclock.mp rfl
      rw [Option.bind_some, whenNextDevice_isSome]
      show r.2 ≠ [] ↔ _
      have hempty : r.2 = [] ↔ ∀ k < configs.length, env.values (s.moment + 2 * k + 1) = none := by
        constructor
        · intro h k hk
          exact (hnil.mp ⟨r.1, by rw [← h]⟩ k hk).2
        · intro h
          obtain ⟨s', heq⟩ := hnil.mpr fun k hk => ⟨Environment.millis_isSome.mpr (hread k hk), h k hk⟩
          rw [Option.some.inj heq]
      rw [ne_eq, hempty]
      push Not
      simp only [ne_eq, ← Option.isSome_iff_ne_none]
      exact ⟨fun h => ⟨hread, fun _ => h⟩, fun h => h.values hne⟩

end ReadMaster

/-! ## What a poll asks -/

section Asks

variable {retryCount : Nat} {round round' : Round}

theorem pollSteps_asks {steps steps' : List ReadStep} (hnext : round.flow = .next)
    (h : pollSteps env retryCount steps round = some (steps', round')) :
    let requests := requestsOf env retryCount round.moment steps
    round'.moment = round.moment + requests.length ∧
      round'.answers = round.answers ++ requests.map fun r => env.request r.1 r.2 := by
  induction steps generalizing round steps' with
  | nil =>
      obtain ⟨-, rfl⟩ := Prod.mk.inj (Option.some.inj h)
      exact ⟨rfl, (List.append_nil _).symm⟩
  | cons step steps ih =>
      rw [pollSteps, hnext] at h
      obtain ⟨⟨step', mid⟩, hstep, h⟩ := Option.bind_eq_some_iff.mp h
      obtain ⟨⟨rest, last⟩, hrest, h⟩ := Option.bind_eq_some_iff.mp h
      obtain ⟨-, rfl⟩ := Prod.mk.inj (Option.some.inj h)
      obtain ⟨hmoment, hanswers⟩ := pollStep_asks hstep
      have hown (n : Nat) : ((List.range n).map fun i => (step, round.moment + i)).map
          (fun r => env.request r.1 r.2) = attempts env step round.moment n := by
        rw [List.map_map]
        rfl
      have hgoes := pollStep_flow hnext hstep
      rw [requestsOf]
      dsimp only
      rw [List.map_append, List.length_append, hown, List.length_map, List.length_range]
      by_cases hmid : mid.flow = .next
      · obtain ⟨hmoment', hanswers'⟩ := ih hmid hrest
        rw [hgoes.mp hmid, if_neg Bool.false_ne_true, ← hmoment]
        exact ⟨by rw [hmoment', hmoment, Nat.add_assoc], by
          rw [hanswers', hanswers, List.append_assoc]⟩
      · rw [pollSteps_stopped steps hmid] at hrest
        obtain ⟨-, rfl⟩ := Prod.mk.inj (Option.some.inj hrest)
        rw [hgoes, Bool.not_eq_false] at hmid
        rw [hmid, if_pos rfl]
        exact ⟨hmoment, by rw [hanswers, List.map_nil, List.append_nil]⟩

theorem pollPool_asks {pool pool' : PollValueIterator} (hnext : round.flow = .next)
    (h : pollPool env retryCount pool round = some (pool', round')) :
    let requests := requestsOf env retryCount round.moment pool.steps
    round'.moment = round.moment + requests.length ∧
      round'.answers = round.answers ++ requests.map fun r => env.request r.1 r.2 := by
  have hsteps : (pollSteps env retryCount pool.steps round).map Prod.snd = some round' := by
    rw [← pollPool_steps, h]
    rfl
  obtain ⟨⟨steps', last⟩, hpolled, rfl⟩ := Option.map_eq_some_iff.mp hsteps
  exact pollSteps_asks hnext hpolled

end Asks

/-! ## Reads -/

namespace ReadMaster

/-- The requests of a poll of the device. -/
def requests (s : ReadMaster) (env : Environment J) (device : ModbusDeviceUnit) :
    List (ReadStep × Nat) :=
  requestsOf env (asU64 device.retryCount) (s.moment + 1) device.valuePool.steps

/-- A poll of the device comes back: its responses are long enough, the device that it turns to after a
mismatched header is in the list, and the clock can be read when it is over. -/
structure PollSafe (s : ReadMaster) (env : Environment J) (device : ModbusDeviceUnit) : Prop where
  answers : s.PollSuffices env device
  remembered : MismatchesAtOnce env s device → ∀ prev ∈ s.lastestDeviceIndex, prev < s.devices.length
  clock : (∀ r ∈ s.requests env device, interrupts (env.request r.1 r.2) = false) →
    0 ≤ env.clock (s.moment + 1 + (s.requests env device).length)

/-- The same for the read of the current device, if it is to be polled. -/
def ReadSafe (s : ReadMaster) (env : Environment J) : Prop :=
  ∀ idx ∈ s.currentDeviseIndex, ∃ device, s.devices[idx]? = some device ∧
    (device.isActive = true → s.ctx.isSome = true → s.PollSafe env device)

variable {s : ReadMaster} {idx : Nat} {device : ModbusDeviceUnit}

theorem increaseTimeout_isSome (idx : Option Nat) :
    (s.increaseTimeout env idx).isSome ↔ ∀ i ∈ idx, i < s.devices.length := by
  rw [increaseTimeout, Option.isSome_map]
  cases idx <;> simp [moreTime]

theorem poll_isSome_iff (hcurrent : s.currentDeviseIndex = some idx)
    (hlt : idx < s.devices.length) : (s.poll env idx device).isSome ↔ s.PollSafe env device := by
  by_cases hsuffices : s.PollSuffices env device
  · obtain ⟨round, pool, hpool⟩ := pollsWith_iff.mpr hsuffices
    have hmismatch : MismatchesAtOnce env s device ↔
        round.flow = .headerMismatch .increasePrevious := by
      simp [MismatchesAtOnce, hpool]
    obtain ⟨hmoment, hanswers⟩ := pollPool_asks rfl hpool
    have hgoes : (∀ r ∈ s.requests env device, interrupts (env.request r.1 r.2) = false) ↔
        round.flow = .next := by
      have hthrough : (s.record env idx device round).GoesThrough ↔ round.flow = .next :=
        record_goesThrough (pollPool_spec hpool).1
      rw [← hthrough]
      show _ ↔ ∀ answer ∈ round.answers, interrupts answer = false
      rw [hanswers, List.nil_append, List.forall_mem_map]
      rfl
    have hmoment : round.moment = s.moment + 1 + (s.requests env device).length := hmoment
    have hsafe : s.PollSafe env device ↔
        (round.flow = .headerMismatch .increasePrevious →
          ∀ prev ∈ s.lastestDeviceIndex, prev < s.devices.length) ∧
        (round.flow = .next → 0 ≤ env.clock round.moment) := by
      rw [← hmismatch, ← hgoes, hmoment]
      exact ⟨fun h => ⟨h.remembered, h.clock⟩, fun h => ⟨hsuffices, h.1, h.2⟩⟩
    rw [hsafe, poll_of_pollPool hpool]
    cases hflow : round.flow with
    | socketFail => simp
    | next => simp [finished, ModbusDeviceUnit.finished, Environment.millis_isSome, looped]
    | headerMismatch action =>
        cases action with
        | increaseCurrent =>
            simp [headerMismatched, increaseTimeout_isSome, looped, hcurrent, hlt]
        | increasePrevious => simp [headerMismatched, increaseTimeout_isSome, looped]
  · have hnone : s.poll env idx device = none := (not_reportsOnce hsuffices).2
    rw [hnone]
    exact iff_of_false Bool.false_ne_true fun h => hsuffices h.answers

theorem read_isSome_iff (s : ReadMaster) : (s.read env).isSome ↔ s.ReadSafe env := by
  rw [read, ReadSafe]
  cases hcurrent : s.currentDeviseIndex with
  | none => simp
  | some idx =>
      cases hdevice : s.devices[idx]? with
      | none => simp [hdevice]
      | some device =>
          have hlt := (List.getElem?_eq_some_iff.mp hdevice).1
          have hpoll : (s.poll env idx device).isSome ↔ _ := poll_isSome_iff hcurrent hlt
          by_cases hready : device.isActive = true ∧ s.ctx.isSome = true
          · simp [hdevice, hready, hpoll]
          · simp only [hdevice, if_neg hready, Option.isSome_some, Option.mem_some_iff, true_iff]
            rintro _ rfl
            exact ⟨device, hdevice, fun hactive hctx => absurd ⟨hactive, hctx⟩ hready⟩

end ReadMaster

end ModbusLogger.Reader
