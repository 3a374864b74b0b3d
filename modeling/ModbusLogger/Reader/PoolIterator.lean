import ModbusLogger.Reader.Plugins
import Mathlib.Data.List.Sort

/-!
# The read plan of a device (`modbus_device/pool_iterator.rs`, `read_steps.rs`)

The values of a device are turned into plugins, and the plugins are distributed over the requests
that will be sent: one request for each register, or one for each run of consecutive registers.
-/

namespace ModbusLogger.Reader

open FixedWidth

/-- The columns of a row of `value_units` that the planner reads. -/
structure ValueRead (J : Type*) where
  id : Int
  decodingType : Int
  settings : J
  isLogging : Bool

/-! ## Read steps -/

/-- One request and the plugins that decode its response. -/
structure ReadStep where
  values : List RegisterDecodingPlugin
  start : Nat
  length : Nat
  regType : RegType
  broken : Bool
  deriving DecidableEq

namespace ReadStep

def new (start length : Int) (regType : RegType) : ReadStep where
  values := []
  start := asU16 start
  length := asU16 length
  regType := regType
  broken := false

def getValuesId (s : ReadStep) : List Int := s.values.map (·.getId)

def addUnit (s : ReadStep) (unit : RegisterDecodingPlugin) : ReadStep :=
  { s with values := s.values ++ [unit] }

/-- `sysTime` is the wall clock, which is unreadable before the epoch. -/
def getValue (s : ReadStep) (regList : List Word) (sysTime : Option Int) :
    Option (List ModbusMeasure) :=
  match sysTime with
  | some ts => s.values.mapM fun value => value.getValue regList ts
  | none => some []

def fail (s : ReadStep) (sysTime : Option Int) : List ModbusMeasure :=
  match sysTime with
  | some ts => s.values.map fun value => value.fail ts
  | none => []

def markBroken (s : ReadStep) : ReadStep := { s with broken := true }

end ReadStep

/-! ## Plugins by register type -/

structure InitPlugins where
  values : List RegisterDecodingPlugin
  registers : List Int
  regType : RegType

def InitPlugins.push (units : InitPlugins) (plugin : RegisterDecodingPlugin) (addrs : List Int) :
    InitPlugins :=
  { units with values := units.values ++ [plugin], registers := units.registers ++ addrs }

section Plan

variable {J : Type*} (env : Settings J)

/-- The plugin of a value, with the registers that it asked for. Settings that cannot be read leave
a plugin in its default state, without registers. -/
def loadPlugin (value : ValueRead J) : Option (RegisterDecodingPlugin × List Int) :=
  match getPlugin value.decodingType with
  | .ok plugin => some (plugin.init env value.settings value.id value.isLogging)
  | .error _ => none

/-- One list of plugins for each register type. -/
def initPlugins (values : List (ValueRead J)) : RegType → InitPlugins :=
  values.foldl
    (fun units value =>
      match loadPlugin env value with
      | none => units
      | some (plugin, addrs) =>
        Function.update units plugin.getType ((units plugin.getType).push plugin addrs))
    fun regType => ⟨[], [], regType⟩

/-! ## Distribution over the steps -/

/-- `inexes`: the plugins that accept the registers `reg`. -/
def indexes (found : List (RegisterDecodingPlugin × Bool)) : List Nat :=
  found.zipIdx.filterMap fun entry => if entry.1.2 then some entry.2 else none

/-- `step.add_unit(values.remove(i))` -/
def moveUnit (s : ReadStep × List RegisterDecodingPlugin) (i : Nat) :
    Option (ReadStep × List RegisterDecodingPlugin) := do
  let value ← s.2[i]?
  return (s.1.addUnit value, s.2.eraseIdx i)

/-- One turn of the loops of `single_sort` and `group_sort`: every plugin that is left looks for its
registers in `reg`, and those that find them move to the step, the last first. -/
def fillStep (step : ReadStep) (reg : List Int) (values : List RegisterDecodingPlugin) :
    Option (ReadStep × List RegisterDecodingPlugin) :=
  let found := values.map fun value => value.findYourRegisters reg
  -- from the last index down, so that no removal moves an index that follows
  ((indexes found).mergeSort (· ≤ ·)).reverse.foldlM moveUnit (step, found.map (·.1))

/-- The loop of `single_sort` over the registers. -/
def singleSteps (regType : RegType) :
    List Int → List RegisterDecodingPlugin → Option (List ReadStep)
  | [], _ => some []
  | reg :: registers, values => do
    let (step, values) ← fillStep (.new reg 1 regType) [reg] values
    let res ← singleSteps regType registers values
    return step :: res

def singleSort (units : InitPlugins) : Option (List ReadStep) :=
  singleSteps units.regType units.registers units.values

/-- One turn of the loop of `reg_sort`: `group` is the run being built, `res` the finished runs. -/
def extendRun (s : List (List Int) × List Int) (reg : Int) : List (List Int) × List Int :=
  match s.2.getLast? with
  | none => (s.1, [reg])
  | some last => if reg = asI32 (last + 1) then (s.1, s.2 ++ [reg]) else (s.1 ++ [s.2], [reg])

def regSort (registers : List Int) : List (List Int) :=
  let (res, group) := (registers.mergeSort (· ≤ ·)).foldl extendRun ([], [])
  if group.isEmpty then res else res ++ [group]

/-- The loop of `group_sort` over the runs. -/
def groupSteps (regType : RegType) :
    List (List Int) → List RegisterDecodingPlugin → Option (List ReadStep)
  | [], _ => some []
  | reg :: registers, values => do
    let first ← reg.head?
    -- `ReadStep::new` makes a `u16` of the length
    let (step, values) ← fillStep (.new first (asI32 reg.length) regType) reg values
    let res ← groupSteps regType registers values
    return step :: res

def groupSort (units : InitPlugins) : Option (List ReadStep) :=
  groupSteps units.regType (regSort units.registers) units.values

/-! ## The pool -/

structure PollValueIterator where
  coils : List ReadStep
  discrete : List ReadStep
  holding : List ReadStep
  input : List ReadStep
  deriving DecidableEq

namespace PollValueIterator

def new : PollValueIterator := ⟨[], [], [], []⟩

/-- The steps of one register type. -/
def ofType (pool : PollValueIterator) : RegType → List ReadStep
  | .coils => pool.coils
  | .discrete => pool.discrete
  | .holding => pool.holding
  | .input => pool.input

def totalSteps (pool : PollValueIterator) : Nat :=
  pool.coils.length + pool.discrete.length + pool.holding.length + pool.input.length

/-- `sort` distributes the plugins of each register type. -/
def createBy (sort : InitPlugins → Option (List ReadStep)) (values : List (ValueRead J)) :
    Option PollValueIterator := do
  let units := initPlugins env values
  let coils ← sort (units .coils)
  let discrete ← sort (units .discrete)
  let holding ← sort (units .holding)
  let input ← sort (units .input)
  return ⟨coils, discrete, holding, input⟩

def singleCreate (values : List (ValueRead J)) : Option PollValueIterator :=
  createBy env singleSort values

def groupCreate (values : List (ValueRead J)) : Option PollValueIterator :=
  createBy env groupSort values

def createUnits (values : List (ValueRead J)) (byGroup : Bool) : Option PollValueIterator :=
  if byGroup then groupCreate env values else singleCreate env values

/-- The pool is replaced as a whole. -/
def init (values : List (ValueRead J)) (readByGroup : Bool) : Option PollValueIterator :=
  createUnits env values readByGroup

end PollValueIterator

end Plan

/-! ## Iteration -/

/-- `PoolValueRefIterator`: the list being read and the position in it. -/
structure PoolValueRefIterator where
  pool : PollValueIterator
  currType : RegType
  currIndex : Nat

namespace PoolValueRefIterator

/-- The list that follows, or `none` after the last one. -/
def following : RegType → Option RegType
  | .coils => some .discrete
  | .discrete => some .holding
  | .holding => some .input
  | .input => none

/-- The number of lists that follow. -/
def remaining : RegType → Nat
  | .coils => 3
  | .discrete => 2
  | .holding => 1
  | .input => 0

def next (it : PoolValueRefIterator) : PoolValueRefIterator × Option ReadStep :=
  match (it.pool.ofType it.currType)[it.currIndex]? with
  | some step => ({ it with currIndex := it.currIndex + 1 }, some step)
  | none =>
    match _h : following it.currType with
    | some regType => next { it with currIndex := 0, currType := regType }
    | none => (it, none)
termination_by remaining it.currType
decreasing_by
  cases ht : it.currType <;> rw [ht] at _h <;> cases _h <;> decide

end PoolValueRefIterator

/-- `into_iter` -/
def PollValueIterator.intoIter (pool : PollValueIterator) : PoolValueRefIterator := ⟨pool, .coils, 0⟩

/-- The steps in the order in which they are polled. -/
def PollValueIterator.steps (pool : PollValueIterator) : List ReadStep :=
  pool.coils ++ pool.discrete ++ pool.holding ++ pool.input

namespace PoolValueRefIterator

/-- The lists behind the one of `regType`. -/
def behind (pool : PollValueIterator) : RegType → List ReadStep
  | .coils => pool.discrete ++ pool.holding ++ pool.input
  | .discrete => pool.holding ++ pool.input
  | .holding => pool.input
  | .input => []

/-- The steps that the iterator has not given out yet. -/
def rest (it : PoolValueRefIterator) : List ReadStep :=
  (it.pool.ofType it.currType).drop it.currIndex ++ behind it.pool it.currType

/-- At the end of a list the iterator goes on with the one behind it. -/
theorem behind_eq (pool : PollValueIterator) (regType : RegType) :
    behind pool regType =
      (following regType).elim [] fun next => pool.ofType next ++ behind pool next := by
  cases regType <;> simp [behind, following, PollValueIterator.ofType]

/-- **The iterator** gives out the steps one by one. -/
theorem next_spec (it : PoolValueRefIterator) :
    it.next.2 = it.rest.head? ∧ it.next.1.rest = it.rest.tail := by
  fun_induction PoolValueRefIterator.next it with
  | case1 it step hstep =>
      obtain ⟨hlt, rfl⟩ := List.getElem?_eq_some_iff.mp hstep
      rw [rest, rest, List.drop_eq_getElem_cons hlt]
      exact ⟨rfl, rfl⟩
  | case2 it hend regType hfollowing ih =>
      have hsame : it.rest = rest { it with currIndex := 0, currType := regType } := by
        rw [rest, rest, List.drop_eq_nil_of_le (List.getElem?_eq_none_iff.mp hend), behind_eq,
          hfollowing]
        rfl
      rw [hsame]
      exact ih
  | case3 it hend hfollowing =>
      have hnil : it.rest = [] := by
        rw [rest, List.drop_eq_nil_of_le (List.getElem?_eq_none_iff.mp hend), behind_eq, hfollowing]
        rfl
      rw [hnil]
      exact ⟨rfl, rfl⟩

theorem rest_intoIter (pool : PollValueIterator) : pool.intoIter.rest = pool.steps := by
  show pool.coils ++ (pool.discrete ++ pool.holding ++ pool.input) = pool.steps
  simp [PollValueIterator.steps]

/-! ### Runs of the iterator -/

/-- One turn of the `loop` in `next`: it goes on with another list, or returns. -/
def turn (it : PoolValueRefIterator) :
    PoolValueRefIterator ⊕ (PoolValueRefIterator × Option ReadStep) :=
  match (it.pool.ofType it.currType)[it.currIndex]? with
  | some step => .inr ({ it with currIndex := it.currIndex + 1 }, some step)
  | none =>
    match following it.currType with
    | some regType => .inl { it with currIndex := 0, currType := regType }
    | none => .inr (it, none)

/-- What `next` returns if its loop is left within `turns` turns. -/
def nextWithin : Nat → PoolValueRefIterator → Option (PoolValueRefIterator × Option ReadStep)
  | 0, _ => none
  | turns + 1, it =>
    match it.turn with
    | .inl it => nextWithin turns it
    | .inr result => some result

/-- The iterator after `calls` calls of `next`. -/
def after (it : PoolValueRefIterator) : Nat → PoolValueRefIterator
  | 0 => it
  | calls + 1 => it.next.1.after calls

/-- The steps that a `for` loop is given, if `next` says within `calls` calls that there are no
more. -/
def forLoop : Nat → PoolValueRefIterator → Option (List ReadStep)
  | 0, _ => none
  | calls + 1, it =>
    match it.next with
    | (it, some step) => (forLoop calls it).map (step :: ·)
    | (_, none) => some []

/-- **The inner loop** ends: it looks at the list of the iterator and at most at those behind. -/
theorem nextWithin_eq {turns : Nat} (it : PoolValueRefIterator) (h : remaining it.currType < turns) :
    nextWithin turns it = some it.next := by
  fun_induction PoolValueRefIterator.next it generalizing turns with
  | case1 it step hstep =>
      cases turns with
      | zero => cases h
      | succ turns => simp only [nextWithin, turn, hstep]
  | case2 it hend regType hfollowing ih =>
      cases turns with
      | zero => cases h
      | succ turns =>
          simp only [nextWithin, turn, hend, hfollowing]
          apply ih
          have hless : remaining regType < remaining it.currType := by
            cases htype : it.currType <;> rw [htype] at hfollowing <;> cases hfollowing <;> decide
          exact Nat.lt_of_lt_of_le hless (Nat.le_of_lt_succ h)
  | case3 it hend hfollowing =>
      cases turns with
      | zero => cases h
      | succ turns => simp only [nextWithin, turn, hend, hfollowing]

theorem rest_after (it : PoolValueRefIterator) (calls : Nat) :
    (it.after calls).rest = it.rest.drop calls := by
  induction calls generalizing it with
  | zero => rfl
  | succ calls ih => rw [after, ih, it.next_spec.2, List.drop_tail]

/-- What the call after `calls` calls gives. -/
theorem next_after (it : PoolValueRefIterator) (calls : Nat) :
    (it.after calls).next.2 = it.rest[calls]? := by
  rw [(next_spec _).1, rest_after, List.head?_drop]

/-- **The outer loop** ends, and it is given every step. -/
theorem forLoop_eq {calls : Nat} (it : PoolValueRefIterator) (h : it.rest.length < calls) :
    forLoop calls it = some it.rest := by
  induction calls generalizing it with
  | zero => cases h
  | succ calls ih =>
      obtain ⟨hstep, hrest⟩ := it.next_spec
      rw [forLoop]
      split
      · next it' step hnext =>
        rw [hnext] at hstep hrest
        obtain ⟨steps, hsteps⟩ := List.head?_eq_some_iff.mp hstep.symm
        have hlength : it'.rest.length < calls := by
          rw [hrest, List.length_tail]
          rw [hsteps, List.length_cons] at h ⊢
          omega
        rw [ih it' hlength, hrest, hsteps]
        rfl
      · next it' hnext =>
        rw [hnext] at hstep
        rw [List.head?_eq_none_iff.mp hstep.symm]

/-- **Pool iteration is complete.** `next` returns, the `for` loop ends and is given the steps of the
four lists in their order, as many as `total_steps` counts, and after the last one `next` gives nothing
for ever. -/
theorem pool_iteration_complete (pool : PollValueIterator) :
    (∀ it : PoolValueRefIterator, nextWithin 4 it = some it.next) ∧
      forLoop (pool.totalSteps + 1) pool.intoIter =
        some (pool.coils ++ pool.discrete ++ pool.holding ++ pool.input) ∧
      (pool.coils ++ pool.discrete ++ pool.holding ++ pool.input).length = pool.totalSteps ∧
      ∀ calls, (pool.intoIter.after calls).next.2 =
        (pool.coils ++ pool.discrete ++ pool.holding ++ pool.input)[calls]? := by
  have hlength : pool.steps.length = pool.totalSteps := by
    simp [PollValueIterator.steps, PollValueIterator.totalSteps, Nat.add_assoc]
  refine ⟨fun it => nextWithin_eq it ?_, ?_, hlength, fun calls => ?_⟩
  · cases it.currType <;> decide
  · rw [forLoop_eq _ (by rw [rest_intoIter, hlength]; exact Nat.lt_succ_self _), rest_intoIter]
    rfl
  · rw [next_after, rest_intoIter]
    rfl

end PoolValueRefIterator

end ModbusLogger.Reader
