import ModbusLogger.Reader.Polling

/-!
# The report on a poll

A poll that no answer interrupts reports on each step of the pool in turn: nothing for a broken
step, decoded measures if some try succeeded, failed measures otherwise. The event is classified by
the steps that failed. The length of a response is not checked, and one without the words that the
plugins look at panics.
-/

namespace ModbusLogger.Reader

open FixedWidth

variable {J : Type*} {env : Environment J}

/-! ## The report on one step -/

/-- What a poll makes of one step. -/
structure StepReport where
  answers : List ModbusReadResult
  measures : List ModbusMeasure
  failed : Bool

/-- The answers to `n` requests of the step from the moment `m` on. -/
def attempts (env : Environment J) (step : ReadStep) (m n : Nat) : List ModbusReadResult :=
  (List.range n).map fun i => env.request step (m + i)

/-- A report on a step as it should be: one measure for each plugin, read or failed, after at least
one and at most `max 1 retryCount` tries, and nothing for a step that was broken. -/
inductive Reported (env : Environment J) (retryCount : Nat) (step : ReadStep) (m : Nat) :
    StepReport → Prop where
  | skipped : step.broken = true → Reported env retryCount step m ⟨[], [], true⟩
  | decoded {n : Nat} {words : List Word} {ts : Int} {measures : List ModbusMeasure} :
      step.broken = false → 1 ≤ n → n ≤ max 1 retryCount →
      .ok words ∈ attempts env step m n →
      List.Forall₂ (fun plugin x => plugin.getValue words ts = some x) step.values measures →
      Reported env retryCount step m ⟨attempts env step m n, measures, false⟩
  | failed {n : Nat} {ts : Int} {measures : List ModbusMeasure} :
      step.broken = false → 1 ≤ n → n ≤ max 1 retryCount →
      (∀ words, .ok words ∉ attempts env step m n) →
      List.Forall₂ (fun plugin x => x = plugin.fail ts) step.values measures →
      Reported env retryCount step m ⟨attempts env step m n, measures, true⟩

/-- Reports on steps in their order. Each answer takes a moment. -/
inductive ReportedAll (env : Environment J) (retryCount : Nat) :
    Nat → List ReadStep → List StepReport → Prop where
  | nil {m : Nat} : ReportedAll env retryCount m [] []
  | cons {m : Nat} {step : ReadStep} {r : StepReport} {steps : List ReadStep}
      {reports : List StepReport} : Reported env retryCount step m r →
      ReportedAll env retryCount (m + r.answers.length) steps reports →
      ReportedAll env retryCount m (step :: steps) (r :: reports)

def answersOf (reports : List StepReport) : List ModbusReadResult := reports.flatMap (·.answers)

def measuresIn (reports : List StepReport) : List ModbusMeasure := reports.flatMap (·.measures)

def failures (reports : List StepReport) : Nat := reports.countP (·.failed)

@[simp] theorem answersOf_append (reports reports' : List StepReport) :
    answersOf (reports ++ reports') = answersOf reports ++ answersOf reports' :=
  List.flatMap_append

@[simp] theorem measuresIn_append (reports reports' : List StepReport) :
    measuresIn (reports ++ reports') = measuresIn reports ++ measuresIn reports' :=
  List.flatMap_append

@[simp] theorem failures_append (reports reports' : List StepReport) :
    failures (reports ++ reports') = failures reports + failures reports' :=
  List.countP_append

theorem attempts_succ (step : ReadStep) (m n : Nat) :
    attempts env step m (n + 1) = env.request step m :: attempts env step (m + 1) n := by
  rw [attempts, List.range_succ_eq_map, List.map_cons, List.map_map, Nat.add_zero, attempts]
  refine congrArg _ (List.map_congr_left fun i _ => ?_)
  show env.request step (m + (i + 1)) = env.request step (m + 1 + i)
  rw [Nat.add_assoc, Nat.add_comm 1 i]

theorem ReportedAll.length {retryCount m : Nat} {steps : List ReadStep} {reports : List StepReport}
    (h : ReportedAll env retryCount m steps reports) : reports.length = steps.length := by
  induction h with
  | nil => rfl
  | cons _ _ ih => rw [List.length_cons, List.length_cons, ih]

theorem ReportedAll.append {retryCount m : Nat} {steps steps' : List ReadStep}
    {reports reports' : List StepReport} (h : ReportedAll env retryCount m steps reports)
    (h' : ReportedAll env retryCount (m + (answersOf reports).length) steps' reports') :
    ReportedAll env retryCount m (steps ++ steps') (reports ++ reports') := by
  induction h with
  | nil => exact h'
  | cons hstep _ ih =>
      refine .cons hstep (ih ?_)
      rwa [answersOf, List.flatMap_cons, List.length_append, ← Nat.add_assoc] at h'

/-! ## The words that a poll needs -/

/-- The positions in a response at which the plugin looks. -/
def RegisterDecodingPlugin.positions : RegisterDecodingPlugin → List Nat
  | .bit p => [p.posInList]
  | .satec p => [asU64 p.hiPosRegister, asU64 p.loPosRegister]
  | .shift p => [p.posInList]

/-- The response has a word wherever a plugin of the step looks. -/
def Suffices (step : ReadStep) (words : List Word) : Prop :=
  ∀ plugin ∈ step.values, ∀ i ∈ plugin.positions, i < words.length

/-- After these two errors a step is tried again. -/
def retries : ModbusReadResult → Bool
  | .error .timeout => true
  | .error .deviceProtocolError => true
  | _ => false

/-- How often the step is tried from the moment on, with `left` tries after the first one. -/
def tries (env : Environment J) (step : ReadStep) : Nat → Nat → Nat
  | 0, _ => 1
  | left + 1, m => if retries (env.request step m) then tries env step left (m + 1) + 1 else 1

/-- How often a poll requests the step. -/
def requestCount (env : Environment J) (retryCount : Nat) (step : ReadStep) (m : Nat) : Nat :=
  if step.broken then 0 else tries env step (retryCount - 1) m

/-- The requests of a poll, each with its moment. They depend on how the requests end, and not on what
is made of the words. -/
def requestsOf (env : Environment J) (retryCount : Nat) : Nat → List ReadStep → List (ReadStep × Nat)
  | _, [] => []
  | m, step :: steps =>
    let n := requestCount env retryCount step m
    (List.range n).map (fun i => (step, m + i)) ++
      if (attempts env step m n).any interrupts then []
      else requestsOf env retryCount (m + n) steps

/-- Every successful answer to a request of the poll has the words that the plugins of its step look
at. If the clock cannot be read nothing is decoded. -/
def AnswersSuffice (env : Environment J) (retryCount m : Nat) (steps : List ReadStep) : Prop :=
  ∀ request ∈ requestsOf env retryCount m steps, ∀ words,
    env.request request.1 request.2 = .ok words → (env.seconds request.2).isSome →
      Suffices request.1 words

/-- The same for the first `n` requests of one step. -/
def TriesSuffice (env : Environment J) (step : ReadStep) (m n : Nat) : Prop :=
  ∀ i < n, ∀ words, env.request step (m + i) = .ok words → (env.seconds (m + i)).isSome →
    Suffices step words

theorem triesSuffice_zero (step : ReadStep) (m : Nat) : TriesSuffice env step m 0 :=
  fun i hi => absurd hi (Nat.not_lt_zero i)

theorem triesSuffice_succ {step : ReadStep} {m n : Nat} : TriesSuffice env step m (n + 1) ↔
    (∀ words, env.request step m = .ok words → (env.seconds m).isSome → Suffices step words) ∧
      TriesSuffice env step (m + 1) n := by
  rw [TriesSuffice, Nat.forall_lt_succ_left, TriesSuffice]
  simp only [Nat.add_zero, Nat.add_assoc, Nat.add_comm 1]

/-- An index that is out of bounds is a panic. -/
theorem RegisterDecodingPlugin.getValue_isSome_iff (plugin : RegisterDecodingPlugin)
    (words : List Word) (ts : Int) :
    (plugin.getValue words ts).isSome ↔ ∀ i ∈ plugin.positions, i < words.length := by
  cases plugin with
  | bit p => simp [getValue, BitInWord.getValue, positions, Option.isSome_bind]
  | satec p =>
      have hlt (i : Nat) : i < words.length ↔ words[i]?.isSome := by simp
      simp only [getValue, SatecDoubleRegistersInt32.getValue, positions, List.forall_mem_cons, hlt]
      cases words[asU64 p.hiPosRegister]? <;> cases words[asU64 p.loPosRegister]? <;> simp
  | shift p => simp [getValue, ComaShift.getValue, positions, Option.isSome_bind]

theorem mapM_isSome_iff {α β : Type*} (f : α → Option β) (l : List α) :
    (l.mapM f).isSome ↔ ∀ a ∈ l, (f a).isSome := by
  induction l with
  | nil => simp
  | cons a l ih =>
      rw [List.mapM_cons, List.forall_mem_cons, ← ih]
      cases f a <;> cases l.mapM f <;> simp

theorem ReadStep.getValue_isSome_iff (step : ReadStep) (words : List Word) (now : Option Int) :
    (step.getValue words now).isSome ↔ (now.isSome → Suffices step words) := by
  cases now with
  | none => simp [getValue]
  | some ts =>
      rw [getValue, mapM_isSome_iff]
      simp only [RegisterDecodingPlugin.getValue_isSome_iff, Option.isSome_some, forall_const]
      rfl

/-! ### One try more, or the last one -/

/-- The answer to the first try is not followed by another one. -/
def LastTry (env : Environment J) (step : ReadStep) (left m : Nat) : Prop :=
  left = 0 ∨ retries (env.request step m) = false

theorem tries_last {step : ReadStep} {left m : Nat} (h : LastTry env step left m) :
    tries env step left m = 1 := by
  cases left with
  | zero => rfl
  | succ left =>
      rcases h with h | h
      · cases h
      · rw [tries, h, if_neg Bool.false_ne_true]

theorem tries_again {step : ReadStep} {left m : Nat} (h : retries (env.request step m) = true) :
    tries env step (left + 1) m = tries env step left (m + 1) + 1 := by
  rw [tries, if_pos h]

theorem tryStep_again {step : ReadStep} {left currTry : Nat} {round : Round}
    (h : retries (env.request step round.moment) = true) :
    tryStep env step (left + 1) currTry round =
      tryStep env step left (currTry + 1) (round.record (env.request step round.moment)) := by
  rw [tryStep.eq_def]
  dsimp only
  cases hresult : env.request step round.moment with
  | ok words => rw [hresult] at h; cases h
  | error e =>
      rw [hresult] at h
      cases e with
      | timeout => rfl
      | deviceProtocolError => rfl
      | socketFail => cases h
      | removeStep => cases h
      | headerMisMatch => cases h

/-- What the last try makes of its answer. -/
inductive Settles (env : Environment J) (step : ReadStep) (round : Round) :
    ModbusReadResult → Option (ReadStep × Round) → Prop where
  | read (words : List Word) : Settles env step round (.ok words)
      ((step.getValue words (env.seconds round.moment)).map fun values =>
        (step, (round.record (.ok words)).push values))
  | failed (e : ModbusReadError) (step' : ReadStep) : Settles env step round (.error e)
      (some (step', (round.record (.error e)).fail (step.fail (env.seconds round.moment))))
  | interrupted (e : ModbusReadError) {flow : Flow} : flow ≠ .next →
      Settles env step round (.error e) (some (step, { round.record (.error e) with flow }))

theorem tryStep_last {step : ReadStep} {left : Nat} {round : Round}
    (h : LastTry env step left round.moment) (currTry : Nat) :
    Settles env step round (env.request step round.moment)
      (tryStep env step left currTry round) := by
  rw [tryStep.eq_def]
  dsimp only
  cases hresult : env.request step round.moment with
  | ok words => exact .read words
  | error e =>
      have hagain : retries (.error e) = true → left = 0 := by
        intro hretries
        rcases h with h | h
        · exact h
        · rw [hresult, hretries] at h
          cases h
      cases e with
      | timeout => rw [hagain rfl]; exact .failed .timeout step
      | deviceProtocolError => rw [hagain rfl]; exact .failed .deviceProtocolError step
      | socketFail => exact .interrupted .socketFail (by simp)
      | removeStep => exact .failed .removeStep step.markBroken
      | headerMisMatch => exact .interrupted .headerMisMatch (by simp)

/-! ### Responses that are too short -/

theorem Settles.isSome_iff {step : ReadStep} {round : Round} {result : ModbusReadResult}
    {tried : Option (ReadStep × Round)} (h : Settles env step round result tried)
    (hresult : env.request step round.moment = result) :
    tried.isSome ↔ TriesSuffice env step round.moment 1 := by
  rw [triesSuffice_succ, hresult, and_iff_left (triesSuffice_zero step _)]
  cases h with
  | read words => simp [ReadStep.getValue_isSome_iff]
  | failed e step' => simp
  | interrupted e hflow => simp

/-- **The tries of a step** panic for a response that is too short, and for nothing else. -/
theorem tryStep_isSome_iff (step : ReadStep) (left currTry : Nat) (round : Round) :
    (tryStep env step left currTry round).isSome ↔
      TriesSuffice env step round.moment (tries env step left round.moment) := by
  induction left generalizing currTry round with
  | zero => exact (tryStep_last (.inl rfl) currTry).isSome_iff rfl
  | succ left ih =>
      cases hretries : retries (env.request step round.moment) with
      | false =>
          rw [tries_last (.inr hretries)]
          exact (tryStep_last (.inr hretries) currTry).isSome_iff rfl
      | true =>
          rw [tryStep_again hretries, ih, tries_again hretries, triesSuffice_succ]
          refine ⟨fun h => ⟨fun words hwords => ?_, h⟩, fun h => h.2⟩
          rw [hwords] at hretries
          cases hretries

/-! ### What is asked -/

/-- A try asks once, whatever comes of it. -/
theorem Settles.asks {step step' : ReadStep} {round round' : Round} {result : ModbusReadResult}
    {tried : Option (ReadStep × Round)} (h : Settles env step round result tried)
    (htried : tried = some (step', round')) :
    round'.moment = round.moment + 1 ∧ round'.answers = round.answers ++ [result] := by
  cases h with
  | read words =>
      obtain ⟨values, -, htried⟩ := Option.map_eq_some_iff.mp htried
      obtain ⟨-, rfl⟩ := Prod.mk.inj htried
      exact ⟨rfl, rfl⟩
  | failed e step' =>
      obtain ⟨-, rfl⟩ := Prod.mk.inj (Option.some.inj htried)
      exact ⟨rfl, rfl⟩
  | interrupted e hflow =>
      obtain ⟨-, rfl⟩ := Prod.mk.inj (Option.some.inj htried)
      exact ⟨rfl, rfl⟩

/-- **The tries of a step** are as many as its answers call for. -/
theorem tryStep_asks {step step' : ReadStep} {left currTry : Nat} {round round' : Round}
    (h : tryStep env step left currTry round = some (step', round')) :
    let n := tries env step left round.moment
    round'.moment = round.moment + n ∧
      round'.answers = round.answers ++ attempts env step round.moment n := by
  induction left generalizing currTry round with
  | zero => exact (tryStep_last (.inl rfl) currTry).asks h
  | succ left ih =>
      cases hretries : retries (env.request step round.moment) with
      | false =>
          rw [tries_last (.inr hretries)]
          exact (tryStep_last (.inr hretries) currTry).asks h
      | true =>
          rw [tryStep_again hretries] at h
          obtain ⟨hmoment, hanswers⟩ := ih h
          rw [tries_again hretries]
          dsimp only
          rw [attempts_succ]
          constructor
          · rw [hmoment]
            show round.moment + 1 + _ = _
            rw [Nat.add_assoc, Nat.add_comm 1]
            rfl
          · rw [hanswers]
            exact List.append_assoc _ _ _

/-! ### The loop over the steps -/

section Steps

variable (retryCount : Nat)

theorem pollStep_isSome_iff (step : ReadStep) (round : Round) :
    (pollStep env retryCount step round).isSome ↔
      TriesSuffice env step round.moment (requestCount env retryCount step round.moment) := by
  rw [pollStep, requestCount]
  split
  · exact iff_of_true rfl (triesSuffice_zero step _)
  · exact tryStep_isSome_iff step (retryCount - 1) 0 round

variable {retryCount}

theorem pollStep_asks {step step' : ReadStep} {round round' : Round}
    (h : pollStep env retryCount step round = some (step', round')) :
    let n := requestCount env retryCount step round.moment
    round'.moment = round.moment + n ∧
      round'.answers = round.answers ++ attempts env step round.moment n := by
  rw [pollStep] at h
  rw [requestCount]
  split at h
  · next hbroken =>
    obtain ⟨-, rfl⟩ := Prod.mk.inj (Option.some.inj h)
    rw [if_pos hbroken]
    exact ⟨rfl, (List.append_nil _).symm⟩
  · next hbroken =>
    rw [if_neg hbroken]
    exact tryStep_asks h

/-- Only an answer that interrupts the loop keeps the next step from being polled. -/
theorem pollStep_flow {step step' : ReadStep} {round round' : Round} (hnext : round.flow = .next)
    (h : pollStep env retryCount step round = some (step', round')) :
    round'.flow = .next ↔
      (attempts env step round.moment (requestCount env retryCount step round.moment)).any interrupts =
        false := by
  obtain ⟨answers, hanswers, hflow⟩ := (pollStep_spec hnext h).1.flow
  rw [(pollStep_asks h).2, List.append_cancel_left_eq] at hanswers
  rw [hflow, hanswers, List.any_eq_false]
  simp [hnext]

theorem answersSuffice_cons {step : ReadStep} {steps : List ReadStep} {m : Nat} :
    AnswersSuffice env retryCount m (step :: steps) ↔
      TriesSuffice env step m (requestCount env retryCount step m) ∧
        ((attempts env step m (requestCount env retryCount step m)).any interrupts = false →
          AnswersSuffice env retryCount (m + requestCount env retryCount step m) steps) := by
  rw [AnswersSuffice, requestsOf, List.forall_mem_append, List.forall_mem_map]
  apply and_congr
  · simp only [List.mem_range, TriesSuffice]
  · cases (attempts env step m (requestCount env retryCount step m)).any interrupts with
    | true => simp
    | false => simp [AnswersSuffice]

theorem pollSteps_stopped (steps : List ReadStep) {round : Round} (h : round.flow ≠ .next) :
    pollSteps env retryCount steps round = some (steps, round) := by
  cases steps with
  | nil => rfl
  | cons step steps =>
      rw [pollSteps]
      split
      · next hnext => exact absurd hnext h
      · rfl

/-- **The loop over the steps** panics for a response that is too short, and for nothing else. -/
theorem pollSteps_isSome_iff (steps : List ReadStep) {round : Round} (hnext : round.flow = .next) :
    (pollSteps env retryCount steps round).isSome ↔
      AnswersSuffice env retryCount round.moment steps := by
  induction steps generalizing round with
  | nil => exact iff_of_true rfl fun request hrequest => absurd hrequest List.not_mem_nil
  | cons step steps ih =>
      rw [answersSuffice_cons, ← pollStep_isSome_iff, pollSteps, hnext]
      cases hstep : pollStep env retryCount step round with
      | none => simp
      | some r =>
          obtain ⟨step', mid⟩ := r
          rw [← pollStep_flow hnext hstep, ← (pollStep_asks hstep).1]
          by_cases hmid : mid.flow = .next
          · rw [← ih hmid]
            cases hrest : pollSteps env retryCount steps mid <;> simp [hmid, hrest]
          · simp [pollSteps_stopped steps hmid, hmid]

theorem pollSteps_append (steps steps' : List ReadStep) (round : Round) :
    pollSteps env retryCount (steps ++ steps') round =
      (pollSteps env retryCount steps round).bind fun r =>
        (pollSteps env retryCount steps' r.2).map fun r' => (r.1 ++ r'.1, r'.2) := by
  induction steps generalizing round with
  | nil => simp [pollSteps]
  | cons step steps ih =>
      by_cases hnext : round.flow = .next
      · rw [List.cons_append, pollSteps, pollSteps, hnext]
        cases pollStep env retryCount step round with
        | none => rfl
        | some r =>
            simp only [Option.bind_eq_bind, Option.bind_some, ih]
            cases pollSteps env retryCount steps r.2 with
            | none => rfl
            | some mid =>
                simp only [Option.bind_some, Option.pure_def]
                cases pollSteps env retryCount steps' mid.2 <;> rfl
      · simp [pollSteps_stopped _ hnext]

/-- The four lists of the pool are gone through like one. -/
theorem pollPool_steps (pool : PollValueIterator) (round : Round) :
    (pollPool env retryCount pool round).map Prod.snd =
      (pollSteps env retryCount pool.steps round).map Prod.snd := by
  rw [pollPool, PollValueIterator.steps, pollSteps_append, pollSteps_append, pollSteps_append]
  simp [Option.bind_assoc, Option.map_eq_bind]

theorem pollPool_isSome_iff (pool : PollValueIterator) {round : Round} (hnext : round.flow = .next) :
    (pollPool env retryCount pool round).isSome ↔
      AnswersSuffice env retryCount round.moment pool.steps := by
  rw [← pollSteps_isSome_iff _ hnext, ← Option.isSome_map, pollPool_steps, Option.isSome_map]

end Steps

/-! ## What is reported -/

/-- What is read of a response is one measure for each plugin. -/
theorem ReadStep.getValue_each {step : ReadStep} {words : List Word} {ts : Int}
    {measures : List ModbusMeasure} (h : step.getValue words (some ts) = some measures) :
    List.Forall₂ (fun plugin x => plugin.getValue words ts = some x) step.values measures := by
  have hvalues : step.values.mapM (fun value => value.getValue words ts) = some measures := h
  clear h
  generalize step.values = values at hvalues
  induction values generalizing measures with
  | nil =>
      obtain rfl := Option.some.inj hvalues
      exact .nil
  | cons plugin values ih =>
      rw [List.mapM_cons] at hvalues
      obtain ⟨x, hx, hvalues⟩ := Option.bind_eq_some_iff.mp hvalues
      obtain ⟨rest, hrest, hvalues⟩ := Option.bind_eq_some_iff.mp hvalues
      obtain rfl := Option.some.inj hvalues
      exact .cons hx (ih hrest)

theorem ReadStep.fail_each (step : ReadStep) (ts : Int) :
    List.Forall₂ (fun plugin x => x = plugin.fail ts) step.values (step.fail (some ts)) := by
  show List.Forall₂ _ step.values (step.values.map fun value => value.fail ts)
  induction step.values with
  | nil => exact .nil
  | cons plugin values ih => exact .cons rfl ih

/-- What is added to the variables of the loop over the steps. -/
structure Adds (round round' : Round) (reports : List StepReport) : Prop where
  moment : round'.moment = round.moment + (answersOf reports).length
  answers : round'.answers = round.answers ++ answersOf reports
  measures : round'.totalResult = round.totalResult ++ measuresIn reports
  failures : round'.failedSteps = round.failedSteps + failures reports

theorem Adds.nil (round : Round) : Adds round round [] := by
  refine ⟨rfl, ?_, ?_, rfl⟩
  · exact (List.append_nil _).symm
  · exact (List.append_nil _).symm

theorem Adds.append {a b c : Round} {reports reports' : List StepReport} (h : Adds a b reports)
    (h' : Adds b c reports') : Adds a c (reports ++ reports') where
  moment := by rw [h'.moment, h.moment, answersOf_append, List.length_append, Nat.add_assoc]
  answers := by rw [h'.answers, h.answers, answersOf_append, List.append_assoc]
  measures := by rw [h'.measures, h.measures, measuresIn_append, List.append_assoc]
  failures := by rw [h'.failures, h.failures, failures_append, Nat.add_assoc]

theorem Adds.read (round : Round) (result : ModbusReadResult) (measures : List ModbusMeasure) :
    Adds round ((round.record result).push measures) [⟨[result], measures, false⟩] :=
  ⟨rfl, rfl, by simp [Round.push, Round.record, measuresIn], rfl⟩

theorem Adds.fail (round : Round) (result : ModbusReadResult) (measures : List ModbusMeasure) :
    Adds round ((round.record result).fail measures) [⟨[result], measures, true⟩] :=
  ⟨rfl, rfl, by simp [Round.fail, Round.push, Round.record, measuresIn], rfl⟩

theorem Adds.again {round round' : Round} {result : ModbusReadResult} {r : StepReport}
    (h : Adds (round.record result) round' [r]) :
    Adds round round' [{ r with answers := result :: r.answers }] where
  moment := by
    rw [h.moment]
    simp [answersOf, Round.record, Nat.add_assoc, Nat.add_comm]
  answers := by
    rw [h.answers]
    simp [answersOf, Round.record]
  measures := h.measures
  failures := h.failures

/-- One more try in front. -/
theorem Reported.again {left m : Nat} {step : ReadStep} {r : StepReport}
    (hbroken : step.broken = false) (hfailed : ∀ words, env.request step m ≠ .ok words)
    (h : Reported env (left + 1) step (m + 1) r) :
    Reported env (left + 2) step m { r with answers := env.request step m :: r.answers } := by
  cases h with
  | skipped hskipped => rw [hbroken] at hskipped; cases hskipped
  | decoded _ hpos hle hok hmeasures =>
      rw [← attempts_succ]
      refine .decoded hbroken (by omega) (by omega) ?_ hmeasures
      rw [attempts_succ]
      exact List.mem_cons_of_mem _ hok
  | failed _ hpos hle hnone hmeasures =>
      rw [← attempts_succ]
      refine .failed hbroken (by omega) (by omega) (fun words hok => ?_) hmeasures
      rw [attempts_succ] at hok
      rcases List.mem_cons.mp hok with heq | hok
      · exact hfailed words heq.symm
      · exact hnone words hok

theorem Reported.mono {a b m : Nat} {step : ReadStep} {r : StepReport} (h : Reported env a step m r)
    (hle : max 1 a ≤ max 1 b) : Reported env b step m r := by
  cases h with
  | skipped hskipped => exact .skipped hskipped
  | decoded hbroken hpos hn hok hmeasures => exact .decoded hbroken hpos (hn.trans hle) hok hmeasures
  | failed hbroken hpos hn hnone hmeasures => exact .failed hbroken hpos (hn.trans hle) hnone hmeasures

theorem ReportedAll.mono {a b m : Nat} {steps : List ReadStep} {reports : List StepReport}
    (h : ReportedAll env a m steps reports) (hle : max 1 a ≤ max 1 b) :
    ReportedAll env b m steps reports := by
  induction h with
  | nil => exact .nil
  | cons hstep _ ih => exact .cons (hstep.mono hle) ih

section Reports

variable (hclock : ∀ m, 0 ≤ env.clock m)

include hclock

theorem seconds_eq (m : Nat) : env.seconds m = some (env.clock m / 1000) := by
  rw [Environment.seconds, if_pos (hclock m)]

/-- The last try reports on the step. -/
theorem Settles.reported {step step' : ReadStep} {round round' : Round} {result : ModbusReadResult}
    {tried : Option (ReadStep × Round)} (h : Settles env step round result tried)
    (hbroken : step.broken = false) (left : Nat)
    (hresult : env.request step round.moment = result) (htried : tried = some (step', round'))
    (hnext : round'.flow = .next) :
    ∃ r, Reported env (left + 1) step round.moment r ∧ Adds round round' [r] := by
  have hone : attempts env step round.moment 1 = [result] := by
    rw [attempts_succ, hresult]
    rfl
  cases h with
  | read words =>
      obtain ⟨measures, hvalue, htried⟩ := Option.map_eq_some_iff.mp htried
      obtain ⟨-, rfl⟩ := Prod.mk.inj htried
      rw [seconds_eq hclock] at hvalue
      have hok : .ok words ∈ attempts env step round.moment 1 := by
        rw [hone]
        exact List.mem_cons_self
      have hreported : Reported env (left + 1) step round.moment
          ⟨attempts env step round.moment 1, measures, false⟩ :=
        .decoded hbroken (le_refl 1) (by omega) hok (ReadStep.getValue_each hvalue)
      rw [hone] at hreported
      exact ⟨_, hreported, .read round _ measures⟩
  | failed e step' =>
      obtain ⟨-, rfl⟩ := Prod.mk.inj (Option.some.inj htried)
      have hfailed (words : List Word) : .ok words ∉ attempts env step round.moment 1 := by
        rw [hone, List.mem_singleton]
        exact nofun
      have hreported : Reported env (left + 1) step round.moment
          ⟨attempts env step round.moment 1, step.fail (env.seconds round.moment), true⟩ := by
        rw [seconds_eq hclock]
        exact .failed hbroken (le_refl 1) (by omega) hfailed (step.fail_each _)
      rw [hone] at hreported
      exact ⟨_, hreported, .fail round _ _⟩
  | interrupted e hflow =>
      obtain ⟨-, rfl⟩ := Prod.mk.inj (Option.some.inj htried)
      exact absurd hnext hflow

/-- The tries of a step report on it, unless they interrupt the loop. -/
theorem tryStep_reported {step step' : ReadStep} (hbroken : step.broken = false) {left currTry : Nat}
    {round round' : Round} (h : tryStep env step left currTry round = some (step', round'))
    (hnext : round'.flow = .next) :
    ∃ r, Reported env (left + 1) step round.moment r ∧ Adds round round' [r] := by
  induction left generalizing currTry round with
  | zero => exact (tryStep_last (.inl rfl) currTry).reported hclock hbroken 0 rfl h hnext
  | succ left ih =>
      cases hretries : retries (env.request step round.moment) with
      | false =>
          exact (tryStep_last (.inr hretries) currTry).reported hclock hbroken (left + 1) rfl h hnext
      | true =>
          rw [tryStep_again hretries] at h
          obtain ⟨r, hreported, hadds⟩ := ih h
          have hfailed (words : List Word) : env.request step round.moment ≠ .ok words := by
            intro hwords
            rw [hwords] at hretries
            cases hretries
          exact ⟨_, hreported.again hbroken hfailed, hadds.again⟩

variable {retryCount : Nat}

theorem pollStep_reported {step step' : ReadStep} {round round' : Round}
    (h : pollStep env retryCount step round = some (step', round')) (hnext : round'.flow = .next) :
    ∃ r, Reported env retryCount step round.moment r ∧ Adds round round' [r] := by
  rw [pollStep] at h
  cases hbroken : step.broken with
  | true =>
      rw [if_pos hbroken] at h
      obtain ⟨-, rfl⟩ := Prod.mk.inj (Option.some.inj h)
      refine ⟨_, .skipped hbroken, ?_⟩
      exact ⟨rfl, (List.append_nil _).symm, (List.append_nil _).symm, rfl⟩
  | false =>
      rw [if_neg (by simp [hbroken])] at h
      obtain ⟨r, hreported, hadds⟩ := tryStep_reported hclock hbroken h hnext
      -- `left` is one less than the tries that there are in any case
      exact ⟨r, hreported.mono (by omega), hadds⟩

/-- **The loop over the steps** reports on all steps, unless an answer interrupts it. -/
theorem pollSteps_reported {steps steps' : List ReadStep} {round round' : Round}
    (h : pollSteps env retryCount steps round = some (steps', round'))
    (hnext : round'.flow = .next) :
    ∃ reports, ReportedAll env retryCount round.moment steps reports ∧ Adds round round' reports := by
  induction steps generalizing round steps' with
  | nil =>
      obtain ⟨-, rfl⟩ := Prod.mk.inj (Option.some.inj h)
      exact ⟨[], .nil, .nil round⟩
  | cons step steps ih =>
      have hstart : round.flow = .next := (pollSteps_spec h).1.flow_before hnext
      rw [pollSteps, hstart] at h
      obtain ⟨⟨step', mid⟩, hstep, h⟩ := Option.bind_eq_some_iff.mp h
      obtain ⟨⟨rest, last⟩, hrest, h⟩ := Option.bind_eq_some_iff.mp h
      obtain ⟨-, rfl⟩ := Prod.mk.inj (Option.some.inj h)
      -- the steps that follow did not interrupt the loop, so this one did not either
      have hmid := (pollSteps_spec hrest).1.flow_before hnext
      obtain ⟨r, hreported, hadds⟩ := pollStep_reported hclock hstep hmid
      obtain ⟨reports, hall, haddsRest⟩ := ih hrest
      refine ⟨r :: reports, .cons hreported ?_, hadds.append haddsRest⟩
      have hmoment := hadds.moment
      rw [answersOf, List.flatMap_cons, List.flatMap_nil, List.append_nil] at hmoment
      rwa [← hmoment]

theorem pollPool_reported {pool pool' : PollValueIterator} {round round' : Round}
    (h : pollPool env retryCount pool round = some (pool', round')) (hnext : round'.flow = .next) :
    ∃ reports, ReportedAll env retryCount round.moment pool.steps reports ∧
      Adds round round' reports := by
  have hsteps : (pollSteps env retryCount pool.steps round).map Prod.snd = some round' := by
    rw [← pollPool_steps, h]
    rfl
  obtain ⟨⟨steps', last⟩, hpolled, rfl⟩ := Option.map_eq_some_iff.mp hsteps
  exact pollSteps_reported hclock hpolled hnext

end Reports

/-! ## The event -/

/-- The event tells what the reports on the steps of the device tell. -/
structure EventOf (device : ModbusDeviceUnit) (reports : List StepReport) (event : DeviceEvent) :
    Prop where
  id : event.id = device.id
  measures : event.measures = measuresIn reports
  full : event.event = .full ↔ ∀ r ∈ reports, r.failed = false
  failed : event.event = .failed ↔ reports ≠ [] ∧ ∀ r ∈ reports, r.failed = true

theorem length_steps (pool : PollValueIterator) : pool.steps.length = pool.totalSteps := by
  simp [PollValueIterator.steps, PollValueIterator.totalSteps, Nat.add_assoc]

theorem report_eventOf {retryCount m : Nat} {device : ModbusDeviceUnit} {round : Round}
    {reports : List StepReport}
    (hall : ReportedAll env retryCount m device.valuePool.steps reports)
    (hadds : Adds ⟨m, [], 0, [], .next⟩ round reports) :
    EventOf device reports (ReadMaster.report device round) := by
  have hfailed : round.failedSteps = failures reports := by
    rw [hadds.failures, Nat.zero_add]
  have htotal : device.totalSteps = reports.length := by
    rw [hall.length, length_steps]
    rfl
  have hnone : failures reports = 0 ↔ ∀ r ∈ reports, r.failed = false := by
    rw [failures, List.countP_eq_zero]
    simp
  have hevery : failures reports = reports.length ↔ ∀ r ∈ reports, r.failed = true := by
    rw [failures, List.countP_eq_length]
  refine ⟨rfl, by rw [ReadMaster.report, hadds.measures, List.nil_append], ?_, ?_⟩
  · rw [← hnone, ReadMaster.report, hfailed]
    dsimp only
    split
    · next h => simp [h]
    · next h => split <;> simp [h]
  · rw [← hevery, ReadMaster.report, hfailed, htotal]
    dsimp only
    split
    · next h =>
      cases reports with
      | nil => simp
      | cons r reports => simp [h]
    · next h =>
      have hne : reports ≠ [] := by
        rintro rfl
        exact h rfl
      split
      · next h' => simp [hne, h']
      · next h' => simp [h']

theorem asU64_le {x : Int} (h : 0 ≤ x) : asU64 x ≤ x.toNat := by
  unfold asU64
  omega

/-- The loop over the steps of the device ends with `round`. -/
def ReadMaster.PollsWith (s : ReadMaster) (env : Environment J) (device : ModbusDeviceUnit)
    (round : Round) : Prop :=
  ∃ pool, pollPool env (asU64 device.retryCount) device.valuePool
    ⟨s.moment + 1, [], 0, [], .next⟩ = some (pool, round)

/-- If no answer interrupts the poll, it sends one event, with the reports on the steps of the pool;
otherwise it sends none. -/
def ReadMaster.ReportsOnce (s : ReadMaster) (env : Environment J) (idx : Nat)
    (device : ModbusDeviceUnit) : Prop :=
  ∃ round, s.PollsWith env device round ∧
    ((s.record env idx device round).GoesThrough → ∃ s' reports event, s.read env = some s' ∧
      s'.deviceEvents = s.deviceEvents ++ [event] ∧ round.answers = answersOf reports ∧
      ReportedAll env device.retryCount.toNat (s.moment + 1) device.valuePool.steps reports ∧
      EventOf device reports event) ∧
    (¬(s.record env idx device round).GoesThrough →
      ∀ s', s.read env = some s' → s'.deviceEvents = s.deviceEvents)

namespace ReadMaster

variable {s : ReadMaster} {idx : Nat} {device : ModbusDeviceUnit}

/-- The requests of the poll of the device are answered with the words that are looked at. -/
def PollSuffices (s : ReadMaster) (env : Environment J) (device : ModbusDeviceUnit) : Prop :=
  AnswersSuffice env (asU64 device.retryCount) (s.moment + 1) device.valuePool.steps

theorem pollsWith_iff : (∃ round, s.PollsWith env device round) ↔ s.PollSuffices env device := by
  have hstart : (⟨s.moment + 1, [], 0, [], .next⟩ : Round).flow = .next := rfl
  rw [PollSuffices, ← pollPool_isSome_iff device.valuePool hstart, Option.isSome_iff_exists,
    Prod.exists, exists_comm]
  rfl

/-- The read of an active device over a connection is a poll. -/
theorem read_eq_poll (hcurrent : s.currentDeviseIndex = some idx)
    (hdevice : s.devices[idx]? = some device) (hactive : device.isActive = true)
    (hctx : s.ctx.isSome) : s.read env = s.poll env idx device := by
  rw [read, hcurrent]
  simp only [hdevice, hactive, hctx, and_self, if_true]

/-- After a response that is too short nothing is reported, as the task of the node is gone. -/
theorem not_reportsOnce (h : ¬s.PollSuffices env device) :
    ¬s.ReportsOnce env idx device ∧ s.poll env idx device = none := by
  have hpool : ∀ pool round, pollPool env (asU64 device.retryCount) device.valuePool
      ⟨s.moment + 1, [], 0, [], .next⟩ ≠ some (pool, round) :=
    fun pool round hpool => h (pollsWith_iff.mp ⟨round, pool, hpool⟩)
  constructor
  · rintro ⟨round, ⟨pool, hround⟩, -⟩
    exact hpool pool round hround
  · rw [poll]
    cases hround : pollPool env (asU64 device.retryCount) device.valuePool
        ⟨s.moment + 1, [], 0, [], .next⟩ with
    | none => rfl
    | some r => exact absurd hround (hpool r.1 r.2)

end ReadMaster

/-- **One poll** of an active device over a connection. -/
theorem poll_reports_once_iff (env : Environment J) (s : ReadMaster) (idx : Nat)
    (device : ModbusDeviceUnit) (hcurrent : s.currentDeviseIndex = some idx)
    (hdevice : s.devices[idx]? = some device) (hactive : device.isActive = true)
    (hctx : s.ctx.isSome) (hretry : 0 ≤ device.retryCount) (hclock : ∀ m, 0 ≤ env.clock m) :
    s.ReportsOnce env idx device ↔ s.PollSuffices env device := by
  rw [← ReadMaster.pollsWith_iff]
  constructor
  · rintro ⟨round, hpolls, -⟩
    exact ⟨round, hpolls⟩
  · rintro ⟨round, pool, hpool⟩
    have hread : s.read env = s.poll env idx device :=
      ReadMaster.read_eq_poll hcurrent hdevice hactive hctx
    have hthrough : (s.record env idx device round).GoesThrough ↔ round.flow = .next :=
      ReadMaster.record_goesThrough (pollPool_spec hpool).1
    refine ⟨round, ⟨pool, hpool⟩, fun hgoes => ?_, fun hgoes s' hs' => ?_⟩
    · have hnext := hthrough.mp hgoes
      obtain ⟨reports, hall, hadds⟩ := pollPool_reported hclock hpool hnext
      have hfinished : ∃ s', s.poll env idx device = some s' := by
        rw [ReadMaster.poll_of_pollPool hpool, hnext]
        simp only [ReadMaster.finished, ModbusDeviceUnit.finished, Environment.millis,
          if_pos (hclock _), Option.map_some]
        exact ⟨_, rfl⟩
      obtain ⟨s', hs'⟩ := hfinished
      have hpolled := ReadMaster.polled_of_pollPool hdevice hpool hs'
      refine ⟨s', reports, ReadMaster.report device round, hread.trans hs', ?_, hadds.answers,
        hall.mono (max_le_max (le_refl _) (asU64_le hretry)), report_eventOf hall hadds⟩
      rw [hpolled.events, ReadMaster.record, hnext]
      rfl
    · rw [hread] at hs'
      have hpolled := ReadMaster.polled_of_pollPool hdevice hpool hs'
      have hstop : round.flow ≠ .next := fun h => hgoes (hthrough.mpr h)
      have hnone : (s.record env idx device round).event = none := by
        unfold ReadMaster.record
        split
        · next h => exact absurd h hstop
        · rfl
      rw [hpolled.events, hnone]
      exact List.append_nil _

/-- Every request is answered with one word, at the epoch. -/
def oneWordEnvironment : Environment Unit :=
  ⟨⟨fun _ => none, fun _ => none, fun _ => none, fun _ _ => default⟩, fun _ => 0, fun _ => .data [7],
    fun _ => .elapsed, fun _ => true, fun _ => true, fun _ => (0, []), fun _ => none⟩

/-- A device with a step that can be read and a broken one. -/
def halfBroken : ModbusDeviceUnit :=
  ⟨4, 1, 1000, 500, 3, true, false, 0, ⟨[], [], [⟨[.shift { addr := 5, isInit := true }], 5, 1,
    .holding, false⟩, ⟨[], 9, 1, .holding, true⟩], []⟩⟩

/-- The read master of one device, connected and about to poll it. -/
def aboutToPoll (device : ModbusDeviceUnit) : ReadMaster :=
  { ReadMaster.new ⟨1, "10.0.0.1", none⟩ with
    devices := [device], ctx := some ReadMaster.connected, currentDeviseIndex := some 0 }

theorem poll_reports_once_halfBroken :
    (aboutToPoll halfBroken).ReportsOnce oneWordEnvironment 0 halfBroken := by
  apply (poll_reports_once_iff oneWordEnvironment (aboutToPoll halfBroken) 0 halfBroken rfl rfl rfl rfl
    (by decide) fun _ => le_refl _).mpr
  have hrequests : requestsOf oneWordEnvironment 3 1 halfBroken.valuePool.steps =
      [(⟨[.shift { addr := 5, isInit := true }], 5, 1, .holding, false⟩, 1)] := rfl
  intro request hrequest words hwords _ plugin hplugin i hi
  obtain rfl := List.mem_singleton.mp (hrequests ▸ hrequest)
  obtain rfl := Except.ok.inj hwords
  obtain rfl := List.mem_singleton.mp hplugin
  obtain rfl := List.mem_singleton.mp hi
  decide

/-- Every request is answered without a word. -/
def noWordEnvironment : Environment Unit := { oneWordEnvironment with words := fun _ => .data [] }

/-- The step for a run of all registers, as `group_sort` makes it. -/
def allRegisters : ReadStep := (ReadStep.new 0 65536 .holding).addUnit (.shift { isInit := true })

/-- A device with this step. -/
def wholeRange : ModbusDeviceUnit := { halfBroken with valuePool := ⟨[], [], [allRegisters], []⟩ }

/-- A response that is too short ends the task of the node without a report. For the step of a full
range, whose length is 0, a response with the words that were asked for is too short. -/
theorem short_answer_not_reported :
    (¬(aboutToPoll halfBroken).ReportsOnce noWordEnvironment 0 halfBroken ∧
      (aboutToPoll halfBroken).read noWordEnvironment = none) ∧
    allRegisters.length = 0 ∧
    ¬(aboutToPoll wholeRange).ReportsOnce noWordEnvironment 0 wholeRange ∧
    (aboutToPoll wholeRange).read noWordEnvironment = none := by
  have hhalf : ¬(aboutToPoll halfBroken).PollSuffices noWordEnvironment halfBroken := by
    intro h
    have hshort := h (_, 1) List.mem_cons_self [] rfl rfl _ List.mem_cons_self 0 List.mem_cons_self
    exact absurd hshort (Nat.not_lt_zero 0)
  have hwhole : ¬(aboutToPoll wholeRange).PollSuffices noWordEnvironment wholeRange := by
    intro h
    have hshort := h (allRegisters, 1) List.mem_cons_self [] rfl rfl _ List.mem_cons_self 0
      List.mem_cons_self
    exact absurd hshort (Nat.not_lt_zero 0)
  refine ⟨⟨?_, ?_⟩, rfl, ?_, ?_⟩
  · exact (ReadMaster.not_reportsOnce hhalf).1
  · exact (ReadMaster.read_eq_poll rfl rfl rfl rfl).trans (ReadMaster.not_reportsOnce hhalf).2
  · exact (ReadMaster.not_reportsOnce hwhole).1
  · exact (ReadMaster.read_eq_poll rfl rfl rfl rfl).trans (ReadMaster.not_reportsOnce hwhole).2

end ModbusLogger.Reader
