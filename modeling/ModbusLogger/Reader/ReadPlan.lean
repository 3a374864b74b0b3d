import ModbusLogger.Reader.Distribution

/-!
# The steps of a device

The pool of a device in closed form: which plugins the steps hold, by the first-fit rules, and which
registers a step asks for. Planning never panics.
-/

namespace ModbusLogger.Reader

open FixedWidth RegisterDecodingPlugin

variable {J : Type*} (env : Settings J) (values : List (ValueRead J))

/-! ## Loading -/

/-- The plugins of a device with the registers that they asked for, in the order of the values. -/
def loaded : List (RegisterDecodingPlugin × List Int) := values.filterMap (loadPlugin env)

/-- The plugins of one register type. -/
def pluginsOf (regType : RegType) : List RegisterDecodingPlugin :=
  ((loaded env values).filter fun r => decide (r.1.getType = regType)).map Prod.fst

/-- The registers of one register type, with repetitions. -/
def registersOf (regType : RegType) : List Int :=
  ((loaded env values).filter fun r => decide (r.1.getType = regType)).flatMap Prod.snd

/-- The decoding type of the value is known and its settings can be read. -/
def Loads (value : ValueRead J) (plugin : RegisterDecodingPlugin) : Prop :=
  loadPlugin env value = some (plugin, plugin.needs)

variable {env values}

theorem getPlugin_cases {id : Int} {plugin : RegisterDecodingPlugin}
    (h : getPlugin id = .ok plugin) :
    (id = 1 ∧ plugin = .shift {}) ∨ (id = 2 ∧ plugin = .satec {}) ∨ (id = 3 ∧ plugin = .bit {}) := by
  unfold getPlugin at h
  split at h
  · exact .inl ⟨rfl, (Except.ok.inj h).symm⟩
  · exact .inr (.inl ⟨rfl, (Except.ok.inj h).symm⟩)
  · exact .inr (.inr ⟨rfl, (Except.ok.inj h).symm⟩)
  · cases h

/-- A plugin that was loaded has not looked for its registers yet. -/
theorem loadPlugin_spec {value : ValueRead J} {plugin : RegisterDecodingPlugin} {addrs : List Int}
    (h : loadPlugin env value = some (plugin, addrs)) :
    plugin.isInit = false ∧ plugin.config = plugin ∧ (addrs = plugin.needs ∨ addrs = []) := by
  unfold loadPlugin at h
  cases hget : getPlugin value.decodingType with
  | error e =>
      rw [hget] at h
      cases h
  | ok fresh =>
      rw [hget] at h
      obtain ⟨rfl, rfl⟩ := Prod.mk.inj (Option.some.inj h)
      rcases getPlugin_cases hget with ⟨-, rfl⟩ | ⟨-, rfl⟩ | ⟨-, rfl⟩
      · simp only [ComaShift.init]
        cases env.comaShift value.settings with
        | none => exact ⟨rfl, rfl, .inr rfl⟩
        | some s => exact ⟨rfl, rfl, .inl rfl⟩
      · simp only [SatecDoubleRegistersInt32.init]
        cases env.satec value.settings with
        | none => exact ⟨rfl, rfl, .inr rfl⟩
        | some s => exact ⟨rfl, rfl, .inl rfl⟩
      · simp only [BitInWord.init]
        cases env.bitInWord value.settings with
        | none => exact ⟨rfl, rfl, .inr rfl⟩
        | some s => exact ⟨rfl, rfl, .inl rfl⟩

theorem mem_loaded {r : RegisterDecodingPlugin × List Int} (h : r ∈ loaded env values) :
    ∃ value ∈ values, loadPlugin env value = some r := List.mem_filterMap.mp h

theorem mem_pluginsOf {regType : RegType} {plugin : RegisterDecodingPlugin}
    (h : plugin ∈ pluginsOf env values regType) :
    plugin.getType = regType ∧ ∃ value ∈ values, ∃ addrs,
      loadPlugin env value = some (plugin, addrs) := by
  rw [pluginsOf, List.mem_map] at h
  obtain ⟨⟨plugin', addrs⟩, hr, rfl⟩ := h
  rw [List.mem_filter, decide_eq_true_eq] at hr
  obtain ⟨value, hvalue, hload⟩ := mem_loaded hr.1
  exact ⟨hr.2, value, hvalue, addrs, hload⟩

theorem pluginsOf_free {regType : RegType} :
    ∀ plugin ∈ pluginsOf env values regType, plugin.isInit = false := by
  intro plugin h
  obtain ⟨-, value, -, addrs, hload⟩ := mem_pluginsOf h
  exact (loadPlugin_spec hload).1

theorem pluginsOf_config (regType : RegType) :
    (pluginsOf env values regType).map config = pluginsOf env values regType := by
  conv_rhs => rw [← List.map_id (pluginsOf env values regType)]
  refine List.map_congr_left fun plugin h => ?_
  obtain ⟨-, value, -, addrs, hload⟩ := mem_pluginsOf h
  exact (loadPlugin_spec hload).2.1

theorem mem_registersOf {regType : RegType} {a : Int} :
    a ∈ registersOf env values regType ↔ ∃ value ∈ values, ∃ plugin addrs,
      loadPlugin env value = some (plugin, addrs) ∧ plugin.getType = regType ∧ a ∈ addrs := by
  rw [registersOf, List.mem_flatMap]
  constructor
  · rintro ⟨⟨plugin, addrs⟩, hr, ha⟩
    rw [List.mem_filter, decide_eq_true_eq] at hr
    obtain ⟨value, hvalue, hload⟩ := mem_loaded hr.1
    exact ⟨value, hvalue, plugin, addrs, hload, hr.2, ha⟩
  · rintro ⟨value, hvalue, plugin, addrs, hload, htype, ha⟩
    refine ⟨(plugin, addrs), ?_, ha⟩
    rw [List.mem_filter, decide_eq_true_eq]
    exact ⟨List.mem_filterMap.mpr ⟨value, hvalue, hload⟩, htype⟩

theorem Loads.mem {value : ValueRead J} {plugin : RegisterDecodingPlugin}
    (h : Loads env value plugin) (hvalue : value ∈ values) :
    plugin ∈ pluginsOf env values plugin.getType ∧
      ∀ a ∈ plugin.needs, a ∈ registersOf env values plugin.getType := by
  refine ⟨?_, fun a ha => mem_registersOf.mpr ⟨value, hvalue, plugin, _, h, rfl, ha⟩⟩
  rw [pluginsOf, List.mem_map]
  refine ⟨(plugin, plugin.needs), ?_, rfl⟩
  rw [List.mem_filter, decide_eq_true_eq]
  exact ⟨List.mem_filterMap.mpr ⟨value, hvalue, h⟩, rfl⟩

/-- `init_plugins` sorts the loaded plugins by register type. -/
theorem initPlugins_eq (regType : RegType) :
    initPlugins env values regType =
      ⟨pluginsOf env values regType, registersOf env values regType, regType⟩ := by
  induction values using List.reverseRecOn with
  | nil => rfl
  | append_singleton values value ih =>
      have hloaded : loaded env (values ++ [value]) =
          loaded env values ++ (loadPlugin env value).toList := by
        rw [loaded, List.filterMap_append]
        cases hload : loadPlugin env value <;> simp [hload, loaded]
      rw [pluginsOf, registersOf, hloaded, List.filter_append, List.map_append, List.flatMap_append]
      cases hload : loadPlugin env value with
      | none =>
          have hfold : initPlugins env (values ++ [value]) = initPlugins env values := by
            simp [initPlugins, hload]
          rw [hfold]
          simpa [pluginsOf, registersOf] using ih
      | some r =>
          obtain ⟨plugin, addrs⟩ := r
          have hfold : initPlugins env (values ++ [value]) =
              Function.update (initPlugins env values) plugin.getType
                ((initPlugins env values plugin.getType).push plugin addrs) := by
            simp [initPlugins, hload]
          rw [hfold]
          by_cases htype : plugin.getType = regType
          · subst htype
            simp [Function.update_self, ih, InitPlugins.push, pluginsOf, registersOf]
          · simp [Function.update_of_ne (Ne.symm htype), ih, htype, pluginsOf, registersOf]

/-! ## The pool -/

/-- The bins of one register type. -/
def binsOf (env : Settings J) (values : List (ValueRead J)) (readByGroup : Bool)
    (regType : RegType) : List (List Int) :=
  if readByGroup then regSort (registersOf env values regType)
  else (registersOf env values regType).map fun reg => [reg]

def stepsOf (env : Settings J) (values : List (ValueRead J)) (readByGroup : Bool)
    (regType : RegType) : List ReadStep :=
  planSteps regType (binsOf env values readByGroup regType) (pluginsOf env values regType)

/-- Planning succeeds, and the steps are those of first fit. -/
theorem init_eq (readByGroup : Bool) :
    PollValueIterator.init env values readByGroup = some
      { coils := stepsOf env values readByGroup .coils
        discrete := stepsOf env values readByGroup .discrete
        holding := stepsOf env values readByGroup .holding
        input := stepsOf env values readByGroup .input } := by
  cases readByGroup with
  | false =>
      simp only [PollValueIterator.init, PollValueIterator.createUnits, Bool.false_eq_true, if_false,
        PollValueIterator.singleCreate, PollValueIterator.createBy, singleSort, singleSteps_eq,
        initPlugins_eq, Option.bind_eq_bind, Option.bind_some, stepsOf, binsOf]
      rfl
  | true =>
      simp only [PollValueIterator.init, PollValueIterator.createUnits, if_true,
        PollValueIterator.groupCreate, PollValueIterator.createBy, groupSort,
        groupSteps_eq _ (nil_notMem_regSort _), initPlugins_eq, Option.bind_eq_bind,
        Option.bind_some, stepsOf, binsOf]
      rfl

section Steps

variable {readByGroup : Bool} {regType : RegType}

theorem ofType_eq {pool : PollValueIterator}
    (h : PollValueIterator.init env values readByGroup = some pool) (regType : RegType) :
    pool.ofType regType = stepsOf env values readByGroup regType := by
  rw [init_eq] at h
  obtain rfl := Option.some.inj h
  cases regType <;> rfl

/-- A step and its bin. -/
theorem getElem?_stepsOf {k : Nat} {step : ReadStep}
    (h : (stepsOf env values readByGroup regType)[k]? = some step) :
    ∃ bin content, (binsOf env values readByGroup regType)[k]? = some bin ∧
      (FirstFit.fill (fun reg plugin => plugin.findYourRegisters reg)
        (binsOf env values readByGroup regType) (pluginsOf env values regType))[k]? = some content ∧
      step = stepOf regType bin content := by
  rw [stepsOf, planSteps, List.getElem?_zipWith] at h
  split at h
  · next bin content hbin hcontent =>
    exact ⟨bin, content, hbin, hcontent, (Option.some.inj h).symm⟩
  · cases h

/-- There is a step for each bin. -/
theorem exists_step {k : Nat} {bin : List Int}
    (h : (binsOf env values readByGroup regType)[k]? = some bin) :
    ∃ content, (FirstFit.fill (fun reg plugin => plugin.findYourRegisters reg)
        (binsOf env values readByGroup regType) (pluginsOf env values regType))[k]? = some content ∧
      (stepsOf env values readByGroup regType)[k]? = some (stepOf regType bin content) := by
  have hlt := (List.getElem?_eq_some_iff.mp h).1
  obtain ⟨content, hcontent⟩ : ∃ content,
      (FirstFit.fill (fun reg plugin => plugin.findYourRegisters reg)
        (binsOf env values readByGroup regType) (pluginsOf env values regType))[k]? =
          some content := by
    refine ⟨_, List.getElem?_eq_getElem ?_⟩
    rw [FirstFit.length_fill]
    exact hlt
  refine ⟨content, hcontent, ?_⟩
  rw [stepsOf, planSteps, List.getElem?_zipWith, h, hcontent]

/-- How often a plugin is in a step: all its copies are in the step of the first bin that accepts
it. -/
theorem count_step (plugin : RegisterDecodingPlugin) {k : Nat} {step : ReadStep}
    (h : (stepsOf env values readByGroup regType)[k]? = some step) :
    (step.values.map config).count plugin =
      if (binsOf env values readByGroup regType).findIdx? (fun bin => accepts bin plugin) = some k
      then (pluginsOf env values regType).count plugin else 0 := by
  obtain ⟨bin, content, hbin, hcontent, rfl⟩ := getElem?_stepsOf h
  have hfree : ∀ p ∈ pluginsOf env values regType, p.isInit = false := pluginsOf_free
  have hkeys := findYourRegisters_lawful.fill_keys (binsOf env values readByGroup regType) hfree
  rw [pluginsOf_config] at hkeys
  have hcount := FirstFit.count_assign accepts (binsOf env values readByGroup regType)
    (pluginsOf env values regType) plugin k
  rw [← hkeys, List.getElem?_map, hcontent, Option.map_some, Option.getD_some] at hcount
  rw [← hcount, stepOf, List.map_reverse, List.count_reverse]

/-- What a step holds was found in its bin. -/
theorem mem_step {k : Nat} {step : ReadStep}
    (h : (stepsOf env values readByGroup regType)[k]? = some step)
    {plugin : RegisterDecodingPlugin} (hplugin : plugin ∈ step.values) :
    ∃ bin, (binsOf env values readByGroup regType)[k]? = some bin ∧
      (∃ content, step = stepOf regType bin content) ∧
      (∃ free : RegisterDecodingPlugin, free.isInit = false ∧
        free.findYourRegisters bin = (plugin, true)) ∧
      plugin.config ∈ pluginsOf env values regType := by
  have hcount := count_step plugin.config h
  have hpos : 0 < (step.values.map config).count plugin.config :=
    List.count_pos_iff.mpr (List.mem_map_of_mem hplugin)
  obtain ⟨bin, content, hbin, hcontent, rfl⟩ := getElem?_stepsOf h
  have hfound := findYourRegisters_lawful.fill_found pluginsOf_free hbin hcontent plugin
    (by simpa [stepOf] using hplugin)
  refine ⟨bin, hbin, ⟨content, rfl⟩, hfound, ?_⟩
  split at hcount
  · exact List.count_pos_iff.mp (by omega)
  · grind

end Steps

/-! ## The bins -/

/-- Without an overflow of the successor the bins of group reading are the runs. -/
theorem regSort_eq_runs_of_lt {registers : List Int}
    (h : ∀ a ∈ registers, 0 ≤ a ∧ a < 2147483647) :
    regSort registers = Runs.runs (registers.mergeSort (· ≤ ·)) := by
  rw [regSort_eq]
  refine Runs.splitBy_eq_runs (List.pairwise_mergeSort' (· ≤ ·) registers) fun a ha b _ => ?_
  obtain ⟨hlo, hhi⟩ := h a (List.mem_mergeSort.mp ha)
  rw [asI32_of_lt (by omega) (by omega), Runs.follows]

/-- An overflow only cuts a run. -/
theorem consecutive_of_mem_regSort {registers g : List Int} (hg : g ∈ regSort registers)
    (hin : ∀ a ∈ g, 0 ≤ a) : Runs.Consecutive g := by
  have hsorted := List.pairwise_mergeSort' (· ≤ ·) registers
  rw [regSort_eq] at hg
  rw [← List.flatten_splitBy (fun a b => decide (b = asI32 (a + 1)))
    (registers.mergeSort (· ≤ ·)), List.pairwise_flatten] at hsorted
  refine Runs.consecutive_of_isChain ?_
  refine (Runs.isChain_and_pairwise (List.isChain_of_mem_splitBy hg)
    (hsorted.1 g hg)).imp_of_mem_imp fun a b ha _ h => ?_
  obtain ⟨hnext, hle⟩ := h
  have hpos := hin a ha
  rw [decide_eq_true_eq] at hnext
  rw [Runs.follows, decide_eq_true_eq]
  by_cases hlt : a + 1 < 2147483648
  · rwa [asI32_of_lt (by omega) hlt] at hnext
  · -- a successor that overflows is less than what follows in the order
    have hcast : asI32 (a + 1) < 2147483648 := by
      unfold asI32
      exact Int.bmod_lt (by decide)
    obtain rfl : a = 2147483647 := by omega
    have hmin : asI32 (2147483647 + 1) = -2147483648 := by decide
    omega

theorem flatten_regSort (registers : List Int) :
    (regSort registers).flatten = registers.mergeSort (· ≤ ·) := by
  rw [regSort_eq, List.flatten_splitBy]

theorem mem_flatten_regSort {registers : List Int} {a : Int} :
    a ∈ (regSort registers).flatten ↔ a ∈ registers := by
  rw [flatten_regSort, List.mem_mergeSort]

/-- Together the bins have the registers. -/
theorem mem_binsOf {readByGroup : Bool} {regType : RegType} {a : Int} :
    a ∈ (binsOf env values readByGroup regType).flatten ↔ a ∈ registersOf env values regType := by
  cases readByGroup with
  | false =>
      rw [binsOf, if_neg Bool.false_ne_true]
      simp
  | true =>
      rw [binsOf, if_pos rfl]
      exact mem_flatten_regSort

/-- All registers that the values ask for are addresses. -/
def AddressesInRange (env : Settings J) (values : List (ValueRead J)) : Prop :=
  ∀ value ∈ values, ∀ r ∈ loadPlugin env value, ∀ a ∈ r.2, 0 ≤ a ∧ a ≤ 65535

section Bins

variable (hrange : AddressesInRange env values) {readByGroup : Bool} {regType : RegType}

include hrange

theorem registersOf_inRange : ∀ a ∈ registersOf env values regType, 0 ≤ a ∧ a ≤ 65535 := by
  intro a ha
  obtain ⟨value, hvalue, plugin, addrs, hload, -, ha⟩ := mem_registersOf.mp ha
  exact hrange value hvalue (plugin, addrs) hload a ha

/-- For addresses the bins of group reading are the runs. -/
theorem regSort_eq_runs :
    regSort (registersOf env values regType) =
      Runs.runs ((registersOf env values regType).mergeSort (· ≤ ·)) :=
  regSort_eq_runs_of_lt fun a ha => by have := registersOf_inRange hrange a ha; omega

/-- A bin is a list of consecutive addresses. -/
theorem bin_spec {bin : List Int} (h : bin ∈ binsOf env values readByGroup regType) :
    bin ≠ [] ∧ Runs.Consecutive bin ∧ ∀ a ∈ bin, 0 ≤ a ∧ a ≤ 65535 := by
  cases readByGroup with
  | false =>
      rw [binsOf, if_neg Bool.false_ne_true, List.mem_map] at h
      obtain ⟨reg, hreg, rfl⟩ := h
      refine ⟨List.cons_ne_nil _ _, ?_, ?_⟩
      · intro i hi
        obtain rfl : i = 0 := by simpa using hi
        simp
      · intro a ha
        rw [List.mem_singleton.mp ha]
        exact registersOf_inRange hrange reg hreg
  | true =>
      rw [binsOf, if_pos rfl, regSort_eq_runs hrange] at h
      refine ⟨Runs.ne_nil_of_mem_runs h, Runs.consecutive_of_mem h, fun a ha => ?_⟩
      exact registersOf_inRange hrange a (List.mem_mergeSort.mp (Runs.mem_of_mem_runs h ha))

/-- The request of a step: it starts at the first register of the bin and has its length, unless
that is all of the address space, whose size does not fit a `u16`. -/
theorem step_range {bin : List Int} (h : bin ∈ binsOf env values readByGroup regType)
    (content : List RegisterDecodingPlugin) (hpos : 0 < bin.length) :
    (((stepOf regType bin content).start : Int) = bin[0]) ∧ bin.length ≤ 65536 ∧
      (stepOf regType bin content).length = if bin.length = 65536 then 0 else bin.length := by
  obtain ⟨hne, hcons, hin⟩ := bin_spec hrange h
  have hfirst := hin bin[0] (List.getElem_mem hpos)
  have hlast := hin (bin[bin.length - 1]) (List.getElem_mem (by omega))
  rw [hcons _ (by omega)] at hlast
  have hlen : asI32 bin.length = bin.length := asI32_of_lt (by omega) (by omega)
  have hhead : bin.headD 0 = bin[0] := by
    obtain ⟨a, rest, rfl⟩ := List.exists_cons_of_ne_nil hne
    rfl
  refine ⟨?_, by omega, ?_⟩
  · simp only [stepOf, ReadStep.new, hhead, asU16]
    grind
  · simp only [stepOf, ReadStep.new, hlen, asU16]
    split <;> omega

/-- A bin has all addresses exactly if it has the first and the last. -/
theorem bin_full_iff {bin : List Int} (h : bin ∈ binsOf env values readByGroup regType) :
    bin.length = 65536 ↔ 0 ∈ bin ∧ 65535 ∈ bin := by
  obtain ⟨hne, hcons, hin⟩ := bin_spec hrange h
  have hpos := List.length_pos_iff.mpr hne
  have hfirst := hin bin[0] (List.getElem_mem hpos)
  have hlast := hin (bin[bin.length - 1]) (List.getElem_mem (by omega))
  rw [hcons _ (by omega)] at hlast
  rw [hcons.mem_iff hpos, hcons.mem_iff hpos]
  grind

/-- Every address of the type is asked for, and those between the first and the last once. -/
def FullRange (env : Settings J) (values : List (ValueRead J)) (regType : RegType) : Prop :=
  Runs.FullRange 0 65535 (registersOf env values regType)

/-- When the first run that has the registers of a plugin is the whole address space. -/
theorem first_bin_full_iff {plugin : RegisterDecodingPlugin} {k : Nat} {bin : List Int}
    (hfirst : (binsOf env values true regType).findIdx? (fun bin => accepts bin plugin) = some k)
    (hbin : (binsOf env values true regType)[k]? = some bin) :
    bin.length = 65536 ↔ FullRange env values regType ∧
      ¬((∀ a ∈ plugin.needs, a = 0) ∧ 2 ≤ (registersOf env values regType).count 0) := by
  rw [bin_full_iff hrange (List.mem_of_getElem? hbin)]
  obtain ⟨hlt, hacc, hbefore⟩ := List.findIdx?_eq_some_iff_getElem.mp hfirst
  obtain rfl : (binsOf env values true regType)[k] = bin := by
    rw [List.getElem?_eq_getElem hlt] at hbin
    exact Option.some.inj hbin
  have hperm := List.mergeSort_perm (registersOf env values regType) (· ≤ ·)
  have hruns : Runs.runs ((registersOf env values regType).mergeSort (· ≤ ·)) =
      (binsOf env values true regType).take k ++
        (binsOf env values true regType)[k] :: (binsOf env values true regType).drop (k + 1) := by
    rw [List.cons_getElem_drop_succ, List.take_append_drop, binsOf, if_pos rfl,
      regSort_eq_runs hrange]
  have hiff := Runs.first_run_full_iff
    (List.pairwise_mergeSort' (· ≤ ·) (registersOf env values regType))
    (fun a ha => registersOf_inRange hrange a (List.mem_mergeSort.mp ha)) (by decide) hruns
    (accepts_iff.mp hacc) (fun g hg => ?_)
  · rw [hiff, hperm.count_eq, Runs.FullRange, FullRange, Runs.FullRange]
    simp only [hperm.mem_iff, hperm.count_eq]
  · obtain ⟨j, hj, rfl⟩ := List.mem_iff_getElem.mp hg
    rw [List.length_take] at hj
    have hnot := hbefore j (by omega)
    rw [accepts_iff] at hnot
    push Not at hnot
    rw [List.getElem_take]
    exact hnot

end Bins

end ModbusLogger.Reader
