import ModbusLogger.Reader.ReadMaster

/-!
# What a poll does

Whether the loop over the steps goes through depends on the answers alone: a lost socket or a
mismatched header ends it, and nothing else does. If it goes through, every step that is not broken
delivers a measure for each of its plugins, read or failed.
-/

namespace ModbusLogger.Reader

open FixedWidth

variable {J : Type*} {env : Environment J}

/-! ## The measures of a step -/

def RegisterDecodingPlugin.isLogging : RegisterDecodingPlugin → Bool
  | .bit p => p.isLogging
  | .satec p => p.isLogging
  | .shift p => p.isLogging

/-- The measure belongs to the value of the plugin. -/
def IsMeasureOf (plugin : RegisterDecodingPlugin) (x : ModbusMeasure) : Prop :=
  x.valueId = asU32 plugin.getId ∧ x.isLogging = plugin.isLogging

theorem RegisterDecodingPlugin.fail_spec (plugin : RegisterDecodingPlugin) (timestamp : Int) :
    IsMeasureOf plugin (plugin.fail timestamp) ∧ (plugin.fail timestamp).measureTime = timestamp := by
  cases plugin <;> exact ⟨⟨rfl, rfl⟩, rfl⟩

theorem RegisterDecodingPlugin.getValue_spec {plugin : RegisterDecodingPlugin} {words : List Word}
    {timestamp : Int} {x : ModbusMeasure} (h : plugin.getValue words timestamp = some x) :
    IsMeasureOf plugin x ∧ x.measureTime = timestamp := by
  cases plugin with
  | bit p =>
      obtain ⟨word, -, hx⟩ := Option.bind_eq_some_iff.mp h
      obtain rfl := Option.some.inj hx
      exact ⟨⟨rfl, rfl⟩, rfl⟩
  | satec p =>
      obtain ⟨hiWord, -, hx⟩ := Option.bind_eq_some_iff.mp h
      obtain ⟨loWord, -, hx⟩ := Option.bind_eq_some_iff.mp hx
      obtain rfl := Option.some.inj hx
      exact ⟨⟨rfl, rfl⟩, rfl⟩
  | shift p =>
      obtain ⟨word, -, hx⟩ := Option.bind_eq_some_iff.mp h
      obtain rfl := Option.some.inj hx
      exact ⟨⟨rfl, rfl⟩, rfl⟩

/-- Measures taken of a step when the clock read `now`: one for each plugin, and nothing if the clock
was unreadable. -/
structure TakenOf (step : ReadStep) (now : Option Int) (measures : List ModbusMeasure) : Prop where
  time : ∀ x ∈ measures, now = some x.measureTime
  own : ∀ x ∈ measures, ∃ plugin ∈ step.values, IsMeasureOf plugin x
  each : now.isSome → ∀ plugin ∈ step.values, ∃ x ∈ measures, IsMeasureOf plugin x

theorem ReadStep.fail_taken (step : ReadStep) (now : Option Int) :
    TakenOf step now (step.fail now) := by
  cases now with
  | none => exact ⟨nofun, nofun, nofun⟩
  | some ts =>
      refine ⟨?_, ?_, ?_⟩
      · intro x hx
        obtain ⟨plugin, -, rfl⟩ := List.mem_map.mp hx
        rw [(plugin.fail_spec ts).2]
      · intro x hx
        obtain ⟨plugin, hplugin, rfl⟩ := List.mem_map.mp hx
        exact ⟨plugin, hplugin, (plugin.fail_spec ts).1⟩
      · intro _ plugin hplugin
        exact ⟨_, List.mem_map_of_mem hplugin, (plugin.fail_spec ts).1⟩

theorem mapM_getValue {words : List Word} {ts : Int} {values : List RegisterDecodingPlugin}
    {measures : List ModbusMeasure}
    (h : values.mapM (fun value => value.getValue words ts) = some measures) :
    (∀ x ∈ measures, x.measureTime = ts) ∧
      (∀ x ∈ measures, ∃ plugin ∈ values, IsMeasureOf plugin x) ∧
      ∀ plugin ∈ values, ∃ x ∈ measures, IsMeasureOf plugin x := by
  induction values generalizing measures with
  | nil =>
      obtain rfl := Option.some.inj h
      simp
  | cons plugin values ih =>
      rw [List.mapM_cons] at h
      obtain ⟨x, hx, h⟩ := Option.bind_eq_some_iff.mp h
      obtain ⟨rest, hrest, h⟩ := Option.bind_eq_some_iff.mp h
      obtain rfl := Option.some.inj h
      obtain ⟨hown, htime⟩ := RegisterDecodingPlugin.getValue_spec hx
      obtain ⟨htimes, howns, heach⟩ := ih hrest
      refine ⟨List.forall_mem_cons.mpr ⟨htime, htimes⟩, List.forall_mem_cons.mpr ⟨?_, ?_⟩,
        List.forall_mem_cons.mpr ⟨?_, ?_⟩⟩
      · exact ⟨plugin, List.mem_cons_self, hown⟩
      · intro y hy
        obtain ⟨plugin', hplugin', hy'⟩ := howns y hy
        exact ⟨plugin', List.mem_cons_of_mem _ hplugin', hy'⟩
      · exact ⟨x, List.mem_cons_self, hown⟩
      · intro plugin' hplugin'
        obtain ⟨y, hy, hy'⟩ := heach plugin' hplugin'
        exact ⟨y, List.mem_cons_of_mem _ hy, hy'⟩

theorem ReadStep.getValue_taken {step : ReadStep} {words : List Word} {now : Option Int}
    {measures : List ModbusMeasure} (h : step.getValue words now = some measures) :
    TakenOf step now measures := by
  cases now with
  | none =>
      obtain rfl := Option.some.inj h
      exact ⟨nofun, nofun, nofun⟩
  | some ts =>
      obtain ⟨htimes, howns, heach⟩ := mapM_getValue h
      exact ⟨fun x hx => by rw [htimes x hx], howns, fun _ => heach⟩

/-! ## The loop over the steps -/

/-- The answer ends the loop over the steps. -/
def interrupts : ModbusReadResult → Bool
  | .error .socketFail => true
  | .error .headerMisMatch => true
  | _ => false

/-- How the variables of the loop move: time passes, measures are added that were taken meanwhile,
and the loop goes on as long as no answer interrupts it. -/
structure Progress (env : Environment J) (round round' : Round) : Prop where
  moment : round.moment ≤ round'.moment
  flow : ∃ answers, round'.answers = round.answers ++ answers ∧
    (round'.flow = .next ↔ round.flow = .next ∧ ∀ answer ∈ answers, interrupts answer = false)
  taken : ∃ measures, round'.totalResult = round.totalResult ++ measures ∧
    ∀ x ∈ measures, ∃ m, round.moment ≤ m ∧ m < round'.moment ∧
      env.seconds m = some x.measureTime

namespace Progress

theorem refl (round : Round) : Progress env round round :=
  ⟨le_refl _, ⟨[], by simp⟩, ⟨[], by simp⟩⟩

theorem trans {a b c : Round} (h : Progress env a b) (h' : Progress env b c) :
    Progress env a c := by
  obtain ⟨answers, hanswers, hflow⟩ := h.flow
  obtain ⟨answers', hanswers', hflow'⟩ := h'.flow
  obtain ⟨measures, hmeasures, htaken⟩ := h.taken
  obtain ⟨measures', hmeasures', htaken'⟩ := h'.taken
  refine ⟨h.moment.trans h'.moment, ⟨answers ++ answers', ?_, ?_⟩, ⟨measures ++ measures', ?_, ?_⟩⟩
  · rw [hanswers', hanswers, List.append_assoc]
  · rw [hflow', hflow, and_assoc]
    simp only [List.forall_mem_append]
  · rw [hmeasures', hmeasures, List.append_assoc]
  · intro x hx
    rcases List.mem_append.mp hx with hx | hx
    · obtain ⟨m, hlo, hhi, hm⟩ := htaken x hx
      exact ⟨m, hlo, lt_of_lt_of_le hhi h'.moment, hm⟩
    · obtain ⟨m, hlo, hhi, hm⟩ := htaken' x hx
      exact ⟨m, h.moment.trans hlo, hhi, hm⟩

/-- One answer, and the measures that it brings. -/
theorem of_answer {round round' : Round} {result : ModbusReadResult}
    {measures : List ModbusMeasure} (hnext : round.flow = .next)
    (hmoment : round'.moment = round.moment + 1)
    (hanswers : round'.answers = round.answers ++ [result])
    (hflow : round'.flow = .next ↔ interrupts result = false)
    (htotal : round'.totalResult = round.totalResult ++ measures)
    (htime : ∀ x ∈ measures, env.seconds round.moment = some x.measureTime) :
    Progress env round round' := by
  refine ⟨by omega, ⟨[result], hanswers, ?_⟩, ⟨measures, htotal, ?_⟩⟩
  · rw [hflow, List.forall_mem_singleton]
    exact ⟨fun h => ⟨hnext, h⟩, fun h => h.2⟩
  · intro x hx
    exact ⟨round.moment, le_refl _, by omega, htime x hx⟩

end Progress

/-- Among the measures are those taken of the step at some moment. -/
def Sampled (env : Environment J) (step : ReadStep) (total : List ModbusMeasure) : Prop :=
  ∃ m measures, (∀ x ∈ measures, x ∈ total) ∧ TakenOf step (env.seconds m) measures

theorem Sampled.mono {step : ReadStep} {total total' : List ModbusMeasure}
    (h : Sampled env step total) (hsub : ∀ x ∈ total, x ∈ total') : Sampled env step total' := by
  obtain ⟨m, measures, hmem, htaken⟩ := h
  exact ⟨m, measures, fun x hx => hsub x (hmem x hx), htaken⟩

section Step

variable {step step' : ReadStep} {round round' : Round} {result : ModbusReadResult}

theorem fail_spec (hnext : round.flow = .next) (hresult : interrupts result = false) :
    let failed := (round.record result).fail (step.fail (env.seconds round.moment))
    Progress env round failed ∧ Sampled env step failed.totalResult := by
  have htaken := step.fail_taken (env.seconds round.moment)
  refine ⟨.of_answer hnext rfl rfl ⟨fun _ => hresult, fun _ => hnext⟩ rfl htaken.time, ?_⟩
  exact ⟨_, _, fun x hx => List.mem_append_right _ hx, htaken⟩

theorem push_spec {words : List Word} {values : List ModbusMeasure} (hnext : round.flow = .next)
    (h : step.getValue words (env.seconds round.moment) = some values) :
    let read := (round.record (.ok words)).push values
    Progress env round read ∧ Sampled env step read.totalResult := by
  have htaken := ReadStep.getValue_taken h
  refine ⟨.of_answer hnext rfl rfl ⟨fun _ => rfl, fun _ => hnext⟩ rfl htaken.time, ?_⟩
  exact ⟨_, _, fun x hx => List.mem_append_right _ hx, htaken⟩

theorem interrupted_spec {flow : Flow} (hnext : round.flow = .next)
    (hresult : interrupts result = true) (hflow : flow ≠ .next) :
    Progress env round { round.record result with flow } := by
  refine .of_answer hnext rfl rfl ?_ (List.append_nil _).symm fun x hx => absurd hx List.not_mem_nil
  rw [hresult]
  exact ⟨fun h => absurd h hflow, fun h => by cases h⟩

theorem retry_spec (hnext : round.flow = .next) (hresult : interrupts result = false) :
    Progress env round (round.record result) :=
  .of_answer hnext rfl rfl ⟨fun _ => hresult, fun _ => hnext⟩ (List.append_nil _).symm
    fun _ hx => absurd hx List.not_mem_nil

/-- What one try can do: read the step, fail it for good, interrupt the loop, or try again. -/
inductive Tried (env : Environment J) (step : ReadStep) (left currTry : Nat) (round : Round) :
    ReadStep → Round → Prop where
  | read {words : List Word} {values : List ModbusMeasure} :
      env.request step round.moment = .ok words →
      step.getValue words (env.seconds round.moment) = some values →
      Tried env step left currTry round step ((round.record (.ok words)).push values)
  | failed {result : ModbusReadResult} {step' : ReadStep} : interrupts result = false →
      step' = step ∨ step' = step.markBroken →
      Tried env step left currTry round step'
        ((round.record result).fail (step.fail (env.seconds round.moment)))
  | interrupted {result : ModbusReadResult} {flow : Flow} : interrupts result = true →
      flow ≠ .next →
      Tried env step left currTry round step { round.record result with flow }
  | again {result : ModbusReadResult} {step' : ReadStep} {round' : Round} :
      interrupts result = false → 0 < left →
      tryStep env step (left - 1) (currTry + 1) (round.record result) = some (step', round') →
      Tried env step left currTry round step' round'

/-- The two errors after which a step is tried again. -/
theorem tried_again {left currTry : Nat} (hgoes : interrupts result = false)
    (h : (match left with
      | 0 => some (step, (round.record result).fail (step.fail (env.seconds round.moment)))
      | left + 1 => tryStep env step left (currTry + 1) (round.record result)) =
        some (step', round')) :
    Tried env step left currTry round step' round' := by
  cases left with
  | zero =>
      obtain ⟨rfl, rfl⟩ := Prod.mk.inj (Option.some.inj h)
      exact .failed hgoes (.inl rfl)
  | succ left => exact .again hgoes (Nat.succ_pos left) h

theorem tryStep_cases {left currTry : Nat}
    (h : tryStep env step left currTry round = some (step', round')) :
    Tried env step left currTry round step' round' := by
  rw [tryStep.eq_def] at h
  dsimp only at h
  cases hresult : env.request step round.moment with
  | ok words =>
      rw [hresult] at h
      obtain ⟨values, hvalues, h⟩ := Option.map_eq_some_iff.mp h
      obtain ⟨rfl, rfl⟩ := Prod.mk.inj h
      exact .read hresult hvalues
  | error e =>
      rw [hresult] at h
      cases e with
      | timeout => exact tried_again rfl h
      | deviceProtocolError => exact tried_again rfl h
      | socketFail =>
          obtain ⟨rfl, rfl⟩ := Prod.mk.inj (Option.some.inj h)
          exact .interrupted rfl (by decide)
      | removeStep =>
          obtain ⟨rfl, rfl⟩ := Prod.mk.inj (Option.some.inj h)
          exact .failed rfl (.inr rfl)
      | headerMisMatch =>
          obtain ⟨rfl, rfl⟩ := Prod.mk.inj (Option.some.inj h)
          exact .interrupted rfl (by simp)

/-- **One step**: it interrupts the loop, or is sampled. -/
theorem tryStep_spec {left currTry : Nat} (hnext : round.flow = .next)
    (h : tryStep env step left currTry round = some (step', round')) :
    Progress env round round' ∧ (round'.flow = .next → Sampled env step round'.totalResult) := by
  -- on the tries that are left; a step that is tried again is sampled by a later try
  induction left using Nat.strong_induction_on generalizing currTry round with
  | h left ih =>
      cases tryStep_cases h with
      | read _ hvalues =>
          obtain ⟨hprogress, hsampled⟩ := push_spec hnext hvalues
          exact ⟨hprogress, fun _ => hsampled⟩
      | failed hgoes _ =>
          obtain ⟨hprogress, hsampled⟩ := fail_spec hnext hgoes
          exact ⟨hprogress, fun _ => hsampled⟩
      | interrupted hstop hflow =>
          exact ⟨interrupted_spec hnext hstop hflow, fun h => absurd h hflow⟩
      | @again result _ _ hgoes hleft htry =>
          have hagain : (round.record result).flow = .next := hnext
          obtain ⟨hprogress, hsampled⟩ := ih (left - 1) (by omega) hagain htry
          exact ⟨(retry_spec hnext hgoes).trans hprogress, hsampled⟩

end Step

/-! ## Whose measures are added -/

/-- Every measure that is added belongs to a plugin of a step of `steps` that is not broken. -/
def AddsOf (steps : List ReadStep) (round round' : Round) : Prop :=
  ∀ x ∈ round'.totalResult, x ∈ round.totalResult ∨
    ∃ step ∈ steps, step.broken = false ∧ ∃ plugin ∈ step.values, IsMeasureOf plugin x

theorem AddsOf.refl (steps : List ReadStep) (round : Round) : AddsOf steps round round :=
  fun _ hx => .inl hx

theorem AddsOf.trans {steps steps' : List ReadStep} {a b c : Round} (h : AddsOf steps a b)
    (h' : AddsOf steps' b c) : AddsOf (steps ++ steps') a c := by
  intro x hx
  rcases h' x hx with hb | ⟨step, hstep, hown⟩
  · rcases h x hb with ha | ⟨step, hstep, hown⟩
    · exact .inl ha
    · exact .inr ⟨step, List.mem_append_left _ hstep, hown⟩
  · exact .inr ⟨step, List.mem_append_right _ hstep, hown⟩

theorem AddsOf.of_taken {step : ReadStep} {now : Option Int} {measures : List ModbusMeasure}
    {round round' : Round} (htaken : TakenOf step now measures) (hbroken : step.broken = false)
    (htotal : round'.totalResult = round.totalResult ++ measures) :
    AddsOf [step] round round' := by
  intro x hx
  rw [htotal] at hx
  rcases List.mem_append.mp hx with hold | hnew
  · exact .inl hold
  · exact .inr ⟨step, List.mem_singleton_self step, hbroken, htaken.own x hnew⟩

theorem tryStep_adds {step step' : ReadStep} {left currTry : Nat} {round round' : Round}
    (hbroken : step.broken = false)
    (h : tryStep env step left currTry round = some (step', round')) :
    AddsOf [step] round round' := by
  induction left using Nat.strong_induction_on generalizing currTry round with
  | h left ih =>
      cases tryStep_cases h with
      | read _ hvalues => exact .of_taken (ReadStep.getValue_taken hvalues) hbroken rfl
      | failed => exact .of_taken (step.fail_taken _) hbroken rfl
      | interrupted => exact .refl _ _
      | @again result _ _ _ hleft htry =>
          have hadds : AddsOf [step] (round.record result) round' := ih (left - 1) (by omega) htry
          exact hadds

/-! ## The loop over the steps of a device -/

section Steps

variable {retryCount : Nat} {round round' : Round}

theorem pollStep_spec {step step' : ReadStep} (hnext : round.flow = .next)
    (h : pollStep env retryCount step round = some (step', round')) :
    Progress env round round' ∧
      (round'.flow = .next → step.broken = false → Sampled env step round'.totalResult) := by
  rw [pollStep] at h
  split at h
  · next hbroken =>
    obtain ⟨rfl, rfl⟩ := Prod.mk.inj (Option.some.inj h)
    refine ⟨⟨le_refl _, ⟨[], by simp⟩, ⟨[], by simp⟩⟩, fun _ hnot => ?_⟩
    rw [hbroken] at hnot
    cases hnot
  · obtain ⟨hprogress, hsampled⟩ := tryStep_spec hnext h
    exact ⟨hprogress, fun hflow _ => hsampled hflow⟩

theorem pollStep_adds {step step' : ReadStep}
    (h : pollStep env retryCount step round = some (step', round')) :
    AddsOf [step] round round' := by
  rw [pollStep] at h
  split at h
  · obtain ⟨-, rfl⟩ := Prod.mk.inj (Option.some.inj h)
    exact .refl _ _
  · next hbroken => exact tryStep_adds (Bool.eq_false_iff.mpr hbroken) h

theorem Progress.mem {a b : Round} (h : Progress env a b) :
    ∀ x ∈ a.totalResult, x ∈ b.totalResult := by
  obtain ⟨measures, heq, -⟩ := h.taken
  intro x hx
  rw [heq]
  exact List.mem_append_left _ hx

theorem Progress.flow_before {a b : Round} (h : Progress env a b) (hnext : b.flow = .next) :
    a.flow = .next := by
  obtain ⟨answers, -, hiff⟩ := h.flow
  exact (hiff.mp hnext).1

/-- **The steps of one register type.** -/
theorem pollSteps_spec {steps steps' : List ReadStep}
    (h : pollSteps env retryCount steps round = some (steps', round')) :
    Progress env round round' ∧ (round'.flow = .next →
      ∀ step ∈ steps, step.broken = false → Sampled env step round'.totalResult) := by
  induction steps generalizing round steps' with
  | nil =>
      obtain ⟨-, rfl⟩ := Prod.mk.inj (Option.some.inj h)
      exact ⟨.refl _, fun _ step hstep => absurd hstep List.not_mem_nil⟩
  | cons step steps ih =>
      rw [pollSteps] at h
      split at h
      · next hnext =>
        obtain ⟨⟨step', mid⟩, hstep, h⟩ := Option.bind_eq_some_iff.mp h
        obtain ⟨⟨rest, last⟩, hrest, h⟩ := Option.bind_eq_some_iff.mp h
        obtain ⟨-, rfl⟩ := Prod.mk.inj (Option.some.inj h)
        obtain ⟨hfirst, hsampled⟩ := pollStep_spec hnext hstep
        obtain ⟨hlater, hsampledRest⟩ := ih hrest
        -- nothing after the first step interrupted the loop, so it did not either
        refine ⟨hfirst.trans hlater, fun hflow => List.forall_mem_cons.mpr ⟨?_, hsampledRest hflow⟩⟩
        exact fun hbroken => (hsampled (hlater.flow_before hflow) hbroken).mono hlater.mem
      · next hstop =>
        obtain ⟨-, rfl⟩ := Prod.mk.inj (Option.some.inj h)
        exact ⟨.refl _, fun hflow => absurd hflow hstop⟩

theorem pollSteps_adds {steps steps' : List ReadStep}
    (h : pollSteps env retryCount steps round = some (steps', round')) :
    AddsOf steps round round' := by
  induction steps generalizing round steps' with
  | nil =>
      obtain ⟨-, rfl⟩ := Prod.mk.inj (Option.some.inj h)
      exact .refl _ _
  | cons step steps ih =>
      rw [pollSteps] at h
      split at h
      · obtain ⟨⟨step', mid⟩, hstep, h⟩ := Option.bind_eq_some_iff.mp h
        obtain ⟨⟨rest, last⟩, hrest, h⟩ := Option.bind_eq_some_iff.mp h
        obtain ⟨-, rfl⟩ := Prod.mk.inj (Option.some.inj h)
        exact (pollStep_adds hstep).trans (ih hrest)
      · obtain ⟨-, rfl⟩ := Prod.mk.inj (Option.some.inj h)
        exact .refl _ _

theorem pollPool_adds {pool pool' : PollValueIterator}
    (h : pollPool env retryCount pool round = some (pool', round')) :
    AddsOf pool.steps round round' := by
  obtain ⟨⟨coils, a⟩, hcoils, h⟩ := Option.bind_eq_some_iff.mp h
  obtain ⟨⟨discrete, b⟩, hdiscrete, h⟩ := Option.bind_eq_some_iff.mp h
  obtain ⟨⟨holding, c⟩, hholding, h⟩ := Option.bind_eq_some_iff.mp h
  obtain ⟨⟨input, d⟩, hinput, h⟩ := Option.bind_eq_some_iff.mp h
  obtain ⟨-, rfl⟩ := Prod.mk.inj (Option.some.inj h)
  exact (((pollSteps_adds hcoils).trans (pollSteps_adds hdiscrete)).trans
    (pollSteps_adds hholding)).trans (pollSteps_adds hinput)

/-- **The steps of a device.** -/
theorem pollPool_spec {pool pool' : PollValueIterator}
    (h : pollPool env retryCount pool round = some (pool', round')) :
    Progress env round round' ∧ (round'.flow = .next →
      ∀ step ∈ pool.steps, step.broken = false → Sampled env step round'.totalResult) := by
  obtain ⟨⟨coils, a⟩, hcoils, h⟩ := Option.bind_eq_some_iff.mp h
  obtain ⟨⟨discrete, b⟩, hdiscrete, h⟩ := Option.bind_eq_some_iff.mp h
  obtain ⟨⟨holding, c⟩, hholding, h⟩ := Option.bind_eq_some_iff.mp h
  obtain ⟨⟨input, d⟩, hinput, h⟩ := Option.bind_eq_some_iff.mp h
  obtain ⟨-, rfl⟩ := Prod.mk.inj (Option.some.inj h)
  obtain ⟨ha, hsampledCoils⟩ := pollSteps_spec hcoils
  obtain ⟨hb, hsampledDiscrete⟩ := pollSteps_spec hdiscrete
  obtain ⟨hc, hsampledHolding⟩ := pollSteps_spec hholding
  obtain ⟨hd, hsampledInput⟩ := pollSteps_spec hinput
  refine ⟨((ha.trans hb).trans hc).trans hd, ?_⟩
  intro hflow step hstep hbroken
  rw [PollValueIterator.steps] at hstep
  simp only [List.mem_append] at hstep
  have hflowC := hd.flow_before hflow
  have hflowB := hc.flow_before hflowC
  rcases hstep with ((hstep | hstep) | hstep) | hstep
  · have hsampled := hsampledCoils (hb.flow_before hflowB) step hstep hbroken
    exact hsampled.mono ((hb.trans hc).trans hd).mem
  · exact (hsampledDiscrete hflowB step hstep hbroken).mono (hc.trans hd).mem
  · exact (hsampledHolding hflowC step hstep hbroken).mono hd.mem
  · exact hsampledInput hflow step hstep hbroken

end Steps

/-! ## What else the read master does -/

namespace ReadMaster

/-- The device events sent so far. -/
def deviceEvents (s : ReadMaster) : List DeviceEvent :=
  s.toController.filterMap MainMsg.deviceEvent?

/-- What the choice of the next device depends on. -/
def entries (s : ReadMaster) : List (Nat × Bool) :=
  s.devices.map fun device => (device.whenNext, device.isActive)

/-- No poll, and no device event. -/
structure Quiet (s s' : ReadMaster) : Prop where
  id : s'.id = s.id
  polls : s'.polls = s.polls
  events : s'.deviceEvents = s.deviceEvents
  moment : s.moment ≤ s'.moment

/-- Nothing that the choice of the next device depends on. -/
structure Keeps (s s' : ReadMaster) : Prop extends Quiet s s' where
  entries : s'.entries = s.entries
  current : s'.currentDeviseIndex = s.currentDeviseIndex

theorem Quiet.refl (s : ReadMaster) : Quiet s s := ⟨rfl, rfl, rfl, le_refl _⟩

theorem Quiet.trans {a b c : ReadMaster} (h : Quiet a b) (h' : Quiet b c) : Quiet a c :=
  ⟨h'.id.trans h.id, h'.polls.trans h.polls, h'.events.trans h.events, h.moment.trans h'.moment⟩

theorem Keeps.refl (s : ReadMaster) : Keeps s s := ⟨.refl s, rfl, rfl⟩

theorem Keeps.trans {a b c : ReadMaster} (h : Keeps a b) (h' : Keeps b c) : Keeps a c :=
  ⟨h.toQuiet.trans h'.toQuiet, h'.entries.trans h.entries, h'.current.trans h.current⟩

theorem send_deviceEvents (s : ReadMaster) {msg : MainMsg} (h : msg.deviceEvent? = none) :
    (s.send msg).deviceEvents = s.deviceEvents := by
  simp [send, deviceEvents, h]

theorem disconnecting_keeps (s : ReadMaster) : Keeps s (s.disconnecting env) :=
  ⟨⟨rfl, rfl, send_deviceEvents _ rfl, Nat.le_succ _⟩, rfl, rfl⟩

theorem createContext_keeps (s : ReadMaster) : Keeps s (s.createContext env).1 := by
  have hconnecting : Keeps s ({ s with ctx := none }.sendConnectingMsg .connecting) :=
    ⟨⟨rfl, rfl, send_deviceEvents _ rfl, le_refl _⟩, rfl, rfl⟩
  unfold createContext
  dsimp only
  split
  · split
    · exact hconnecting.trans ⟨⟨rfl, rfl, send_deviceEvents _ rfl, Nat.le_succ _⟩, rfl, rfl⟩
    · refine hconnecting.trans (.trans ?_ (disconnecting_keeps _))
      exact ⟨⟨rfl, rfl, rfl, Nat.le_succ _⟩, rfl, rfl⟩
  · exact hconnecting

/-- A device that is due when it was, and active if it was, changes no entry. -/
theorem set_entry {s : ReadMaster} {idx : Nat} {device device' : ModbusDeviceUnit}
    (hdevice : s.devices[idx]? = some device) (hnext : device'.whenNext = device.whenNext)
    (hactive : device'.isActive = device.isActive) :
    { s with devices := s.devices.set idx device' }.entries = s.entries := by
  have hentry : s.entries[idx]? = some (device.whenNext, device.isActive) := by
    rw [entries, List.getElem?_map, hdevice, Option.map_some]
  obtain ⟨hlt, hget⟩ := List.getElem?_eq_some_iff.mp hentry
  calc { s with devices := s.devices.set idx device' }.entries
      = s.entries.set idx (device'.whenNext, device'.isActive) := List.map_set
    _ = s.entries := by rw [hnext, hactive, ← hget, List.set_getElem_self]

theorem moreTime_keeps {s s' : ReadMaster} {idx : Option Nat} (h : s.moreTime idx = some s') :
    Keeps s s' := by
  cases idx with
  | none =>
      obtain rfl := Option.some.inj h
      exact .refl s
  | some idx =>
      obtain ⟨device, hdevice, rfl⟩ := Option.map_eq_some_iff.mp h
      exact ⟨⟨rfl, rfl, rfl, le_refl _⟩, set_entry hdevice rfl rfl, rfl⟩

theorem increaseTimeout_keeps {s s' : ReadMaster} {idx : Option Nat}
    (h : s.increaseTimeout env idx = some s') : Keeps s s' := by
  obtain ⟨a, ha, rfl⟩ := Option.map_eq_some_iff.mp h
  have hcreate : Keeps s ((a.disconnecting env).createContext env).1 :=
    ((moreTime_keeps ha).trans (disconnecting_keeps a)).trans (createContext_keeps _)
  dsimp only
  split
  · exact hcreate
  · exact hcreate.trans (disconnecting_keeps _)

end ReadMaster

/-! ## A poll -/

namespace Poll

/-- No answer interrupted the poll. -/
def GoesThrough (p : Poll) : Prop := ∀ answer ∈ p.answers, interrupts answer = false

instance (p : Poll) : Decidable p.GoesThrough := inferInstanceAs (Decidable (∀ _ ∈ _, _))

/-- When the device is due after a poll that went through. -/
def renewed (p : Poll) (device : ModbusDeviceUnit) : Nat :=
  addU64 (asU64 p.finish) (asU64 device.timeForRecall)

end Poll

/-- Everything that a poll of the device `device` at `idx` does to the read master. -/
structure Polled (env : Environment J) (s : ReadMaster) (idx : Nat) (device : ModbusDeviceUnit)
    (p : Poll) (s' : ReadMaster) : Prop where
  id : s'.id = s.id
  index : p.index = idx
  devices : p.devices = s.devices
  polls : s'.polls = s.polls ++ [p]
  events : s'.deviceEvents = s.deviceEvents ++ p.event.toList
  current : s'.currentDeviseIndex = s.currentDeviseIndex
  start : p.start = env.clock s.moment
  /-- The poll ends at a moment `m`, and its measures were taken before. -/
  finish : ∃ m, s.moment < m ∧ m ≤ s'.moment ∧ p.finish = env.clock m ∧
    ∀ ev ∈ p.event, ∀ x ∈ ev.measures, ∃ k, s.moment < k ∧ k < m ∧
      env.seconds k = some x.measureTime
  sampled : p.GoesThrough → ∃ ev, p.event = some ev ∧
    ∀ step ∈ device.valuePool.steps, step.broken = false → Sampled env step ev.measures
  /-- A poll that is interrupted sends nothing, and no poll sends measures of a broken step. -/
  own : ∀ ev ∈ p.event, p.GoesThrough ∧ ∀ x ∈ ev.measures, ∃ step ∈ device.valuePool.steps,
    step.broken = false ∧ ∃ plugin ∈ step.values, IsMeasureOf plugin x
  after : (p.GoesThrough ∧ s'.ctx.isSome ∧
      s'.entries = s.entries.set idx (p.renewed device, device.isActive)) ∨
    (¬p.GoesThrough ∧ s'.entries = s.entries)

namespace ReadMaster

theorem headerMismatched_keeps {s s' : ReadMaster} {action : HeaderMismatchAction}
    (h : s.headerMismatched env action = some s') : Keeps s s' := by
  have hlatest : Keeps s { s with lastestDeviceIndex := s.currentDeviseIndex } :=
    ⟨⟨rfl, rfl, rfl, le_refl _⟩, rfl, rfl⟩
  cases action with
  | increaseCurrent => exact hlatest.trans (increaseTimeout_keeps h)
  | increasePrevious => exact hlatest.trans (increaseTimeout_keeps h)

/-- The state in which the loop over the steps leaves the read master. -/
def looped (s : ReadMaster) (env : Environment J) (idx : Nat) (device : ModbusDeviceUnit)
    (valuePool : PollValueIterator) (round : Round) : ReadMaster :=
  { s with
    ctx := some ⟨device.slave⟩
    devices := s.devices.set idx { device with valuePool }
    moment := round.moment
    polls := s.polls ++ [s.record env idx device round] }

section Looped

variable {s s' : ReadMaster} {idx : Nat} {device : ModbusDeviceUnit} {pool : PollValueIterator}
  {round : Round}

theorem record_goesThrough
    (hprogress : Progress env ⟨s.moment + 1, [], 0, [], .next⟩ round) :
    (s.record env idx device round).GoesThrough ↔ round.flow = .next := by
  obtain ⟨answers, hanswers, hflow⟩ := hprogress.flow
  obtain rfl : round.answers = answers := hanswers
  exact ⟨fun h => hflow.mpr ⟨rfl, h⟩, fun h => (hflow.mp h).2⟩

/-- An interrupted poll sends nothing and renews nothing. -/
theorem interrupted_polled (hdevice : s.devices[idx]? = some device)
    (hprogress : Progress env ⟨s.moment + 1, [], 0, [], .next⟩ round)
    (hstop : round.flow ≠ .next) (hkeeps : Keeps (s.looped env idx device pool round) s') :
    Polled env s idx device (s.record env idx device round) s' := by
  have hentries : (s.looped env idx device pool round).entries = s.entries :=
    set_entry hdevice rfl rfl
  have hnot : ¬(s.record env idx device round).GoesThrough := by
    rwa [record_goesThrough hprogress]
  have hevent : (s.record env idx device round).event = none := by
    unfold record
    split
    · next hnext => exact absurd hnext hstop
    · rfl
  exact
    { id := hkeeps.id
      index := rfl
      devices := rfl
      polls := hkeeps.polls
      events := by rw [hevent, Option.toList_none, List.append_nil]; exact hkeeps.events
      current := hkeeps.current
      start := rfl
      finish := ⟨round.moment, hprogress.moment, hkeeps.moment, rfl, by simp [hevent]⟩
      sampled := fun hgoes => absurd hgoes hnot
      own := by simp [hevent]
      after := .inr ⟨hnot, hkeeps.entries.trans hentries⟩ }

/-- A poll that went through sends its report, and the device gets a new deadline. -/
theorem finished_polled (hprogress : Progress env ⟨s.moment + 1, [], 0, [], .next⟩ round)
    (hnext : round.flow = .next)
    (hsampled : ∀ step ∈ device.valuePool.steps, step.broken = false →
      Sampled env step round.totalResult)
    (hadds : AddsOf device.valuePool.steps ⟨s.moment + 1, [], 0, [], .next⟩ round)
    (h : (s.looped env idx device pool round).finished env idx { device with valuePool := pool }
      (report device round) = some s') :
    Polled env s idx device (s.record env idx device round) s' := by
  obtain ⟨measures, hmeasures, htaken⟩ := hprogress.taken
  obtain rfl : round.totalResult = measures := hmeasures
  obtain ⟨device', hdevice', rfl⟩ := Option.map_eq_some_iff.mp h
  obtain ⟨time, htime, rfl⟩ := Option.map_eq_some_iff.mp hdevice'
  have htime : time = asU64 (env.clock round.moment) := by
    unfold Environment.millis at htime
    split at htime
    · exact (Option.some.inj htime).symm
    · cases htime
  have hevent : (s.record env idx device round).event = some (report device round) := by
    unfold record
    rw [hnext]
  exact
    { id := rfl
      index := rfl
      devices := rfl
      polls := rfl
      events := by
        rw [hevent]
        simp [looped, send, deviceEvents, MainMsg.deviceEvent?]
      current := rfl
      start := rfl
      finish := ⟨round.moment, hprogress.moment, Nat.le_succ _, rfl, by
        intro ev hev x hx
        obtain rfl := Option.some.inj (hevent.symm.trans hev)
        exact htaken x hx⟩
      sampled := fun _ => ⟨_, hevent, hsampled⟩
      own := by
        intro ev hev
        obtain rfl := Option.some.inj (hevent.symm.trans hev)
        exact ⟨(record_goesThrough hprogress).mpr hnext, fun x hx =>
          (hadds x hx).resolve_left List.not_mem_nil⟩
      after := .inl ⟨(record_goesThrough hprogress).mpr hnext, rfl, by
        simp [looped, send, entries, List.map_set, ModbusDeviceUnit.whenNext, Poll.renewed, record,
          htime]⟩ }

/-- How the read master goes on when the loop over the steps is over. -/
theorem poll_of_pollPool
    (hpool : pollPool env (asU64 device.retryCount) device.valuePool
      ⟨s.moment + 1, [], 0, [], .next⟩ = some (pool, round)) :
    s.poll env idx device =
      match round.flow with
      | .socketFail => some ((s.looped env idx device pool round).disconnecting env)
      | .headerMismatch action => (s.looped env idx device pool round).headerMismatched env action
      | .next => (s.looped env idx device pool round).finished env idx
          { device with valuePool := pool } (report device round) := by
  unfold poll
  rw [hpool]
  rfl

theorem polled_of_pollPool (hdevice : s.devices[idx]? = some device)
    (hpool : pollPool env (asU64 device.retryCount) device.valuePool
      ⟨s.moment + 1, [], 0, [], .next⟩ = some (pool, round))
    (h : s.poll env idx device = some s') :
    Polled env s idx device (s.record env idx device round) s' := by
  rw [poll_of_pollPool hpool] at h
  obtain ⟨hprogress, hsampled⟩ := pollPool_spec hpool
  cases hround : round.flow with
  | socketFail =>
      rw [hround] at h
      obtain rfl := Option.some.inj h
      apply interrupted_polled hdevice hprogress
      · rw [hround]
        decide
      · exact disconnecting_keeps (s.looped env idx device pool round)
  | headerMismatch action =>
      rw [hround] at h
      apply interrupted_polled hdevice hprogress
      · simp [hround]
      · exact headerMismatched_keeps h
  | next =>
      rw [hround] at h
      exact finished_polled hprogress hround (hsampled hround) (pollPool_adds hpool) h

/-- **One poll.** -/
theorem poll_spec (hdevice : s.devices[idx]? = some device)
    (h : s.poll env idx device = some s') : ∃ p, Polled env s idx device p s' := by
  obtain ⟨⟨pool, round⟩, hpool, -⟩ := Option.bind_eq_some_iff.mp h
  exact ⟨_, polled_of_pollPool hdevice hpool h⟩

end Looped

end ReadMaster

end ModbusLogger.Reader
