import ModbusLogger.Reader.ReadPlan
import Mathlib.Algebra.Order.Group.Unbundled.Abs

/-!
# Which values a plan reads

Group reading serves every value whose registers are neighbours, because neighbours always meet in
some run. The exception is the run of the whole address space, whose length does not fit a `u16`.
Single reading has bins of one register, so it never serves a value that needs two.
-/

namespace ModbusLogger.Reader

open RegisterDecodingPlugin

variable {J : Type*} {env : Settings J} {values : List (ValueRead J)}

/-! ## Group reading -/

/-- The registers of the plugin are equal or neighbours. -/
def Contiguous (plugin : RegisterDecodingPlugin) : Prop :=
  ∀ a ∈ plugin.needs, ∀ b ∈ plugin.needs, |a - b| ≤ 1

/-- All copies of the plugin are in one step, which has the type of the plugin and asks for its
registers, and no other step has one. -/
def Served (pool : PollValueIterator) (plugin : RegisterDecodingPlugin) (copies : Nat) : Prop :=
  ∃ (k : Nat) (step : ReadStep), (pool.ofType plugin.getType)[k]? = some step ∧
    step.regType = plugin.getType ∧
    (step.values.map config).count plugin = copies ∧
    (∀ (regType' : RegType) (k' : Nat) (step' : ReadStep), (pool.ofType regType')[k']? =
      some step' → (regType', k') ≠ (plugin.getType, k) → plugin ∉ step'.values.map config) ∧
    ∀ a ∈ plugin.needs, (step.start : Int) ≤ a ∧ a < step.start + step.length

/-- The value is served by the plan for group reading, as often as its plugin was loaded. -/
def ServedInGroup (env : Settings J) (values : List (ValueRead J))
    (plugin : RegisterDecodingPlugin) : Prop :=
  ∃ pool, PollValueIterator.init env values true = some pool ∧
    Served pool plugin (((loaded env values).map Prod.fst).count plugin)

/-- Neighbouring registers meet in a run. -/
theorem exists_bin (hrange : AddressesInRange env values) {plugin : RegisterDecodingPlugin}
    (hneeds : ∀ a ∈ plugin.needs, a ∈ registersOf env values plugin.getType)
    (hcontiguous : Contiguous plugin) :
    ∃ bin ∈ binsOf env values true plugin.getType, accepts bin plugin = true := by
  have hsorted := List.pairwise_mergeSort' (· ≤ ·) (registersOf env values plugin.getType)
  have hmem : ∀ a ∈ plugin.needs,
      a ∈ (registersOf env values plugin.getType).mergeSort (· ≤ ·) :=
    fun a ha => List.mem_mergeSort.mpr (hneeds a ha)
  rw [binsOf, if_pos rfl, regSort_eq_runs hrange]
  have hone : ∀ a, plugin.needs = [a] → ∃ bin ∈
      Runs.runs ((registersOf env values plugin.getType).mergeSort (· ≤ ·)),
        accepts bin plugin = true := by
    intro a ha
    obtain ⟨bin, hbin, hin⟩ := Runs.exists_run (hmem a (by simp [ha]))
    exact ⟨bin, hbin, accepts_iff.mpr (by simp [ha, hin])⟩
  cases plugin with
  | bit p => exact hone p.addr rfl
  | shift p => exact hone p.addr rfl
  | satec p =>
      have hdist : |p.hiRegister - p.loRegister| ≤ 1 :=
        hcontiguous _ List.mem_cons_self _ (by simp [needs])
      have hhi := hmem p.hiRegister List.mem_cons_self
      have hlo := hmem p.loRegister (by simp [needs])
      rw [abs_le] at hdist
      obtain heq | hlt | hgt : p.hiRegister = p.loRegister ∨ p.loRegister = p.hiRegister + 1 ∨
          p.hiRegister = p.loRegister + 1 := by omega
      · obtain ⟨bin, hbin, hin⟩ := Runs.exists_run hhi
        refine ⟨bin, hbin, accepts_iff.mpr ?_⟩
        simp only [needs, List.forall_mem_cons]
        exact ⟨hin, heq ▸ hin, by simp⟩
      · rw [hlt] at hlo
        obtain ⟨bin, hbin, hin, hin'⟩ := Runs.exists_run_pair hsorted hhi hlo
        refine ⟨bin, hbin, accepts_iff.mpr ?_⟩
        simp only [needs, List.forall_mem_cons]
        exact ⟨hin, hlt ▸ hin', by simp⟩
      · rw [hgt] at hhi
        obtain ⟨bin, hbin, hin, hin'⟩ := Runs.exists_run_pair hsorted hlo hhi
        refine ⟨bin, hbin, accepts_iff.mpr ?_⟩
        simp only [needs, List.forall_mem_cons]
        exact ⟨hgt ▸ hin', hin, by simp⟩

theorem needs_ne_nil (plugin : RegisterDecodingPlugin) : plugin.needs ≠ [] := by
  cases plugin <;> exact List.cons_ne_nil _ _

/-- The copies of a plugin are all of its type. -/
theorem count_loaded (plugin : RegisterDecodingPlugin) :
    ((loaded env values).map Prod.fst).count plugin =
      (pluginsOf env values plugin.getType).count plugin := by
  rw [pluginsOf]
  induction loaded env values with
  | nil => rfl
  | cons r l ih =>
      rw [List.map_cons, List.filter_cons, List.count_cons]
      by_cases htype : r.1.getType = plugin.getType
      · have hkeep : decide (r.1.getType = plugin.getType) = true := by simpa using htype
        rw [hkeep, ite_cond_eq_true _ _ (eq_self true), List.map_cons, List.count_cons, ih]
      · have hdrop : decide (r.1.getType = plugin.getType) = false := by simpa using htype
        have hne : (r.1 == plugin) = false := by
          rw [beq_eq_false_iff_ne]
          exact fun h => htype (congrArg getType h)
        rw [hdrop, hne, ih]
        simp

section FirstBin

variable {plugin : RegisterDecodingPlugin} {k : Nat} {bin : List Int}

/-- The step of the first bin serves the plugin, if its length is not the whole address space. -/
theorem served_of_short (hrange : AddressesInRange env values)
    (hfirst : (binsOf env values true plugin.getType).findIdx?
      (fun bin => accepts bin plugin) = some k)
    (hbin : (binsOf env values true plugin.getType)[k]? = some bin) (hshort : bin.length ≠ 65536) :
    ServedInGroup env values plugin := by
  have hmem := List.mem_of_getElem? hbin
  obtain ⟨hne, hcons, -⟩ := bin_spec hrange hmem
  have hpos := List.length_pos_iff.mpr hne
  have haccepts : ∀ a ∈ plugin.needs, a ∈ bin := by
    obtain ⟨hlt, hacc, -⟩ := List.findIdx?_eq_some_iff_getElem.mp hfirst
    rw [List.getElem?_eq_getElem hlt] at hbin
    obtain rfl := Option.some.inj hbin
    exact accepts_iff.mp hacc
  obtain ⟨content, -, hstep⟩ := exists_step hbin
  obtain ⟨hstart, -, hlength⟩ := step_range hrange hmem content hpos
  rw [if_neg hshort] at hlength
  refine ⟨_, init_eq true, k, stepOf plugin.getType bin content, ?_, rfl, ?_, ?_, ?_⟩
  · rw [ofType_eq (init_eq true)]
    exact hstep
  · rw [count_loaded, count_step plugin hstep, if_pos hfirst]
  · intro regType' k' step' hstep' hother hin
    rw [ofType_eq (init_eq true)] at hstep'
    have hcount := List.count_pos_iff.mpr hin
    rw [count_step plugin hstep'] at hcount
    by_cases htype : regType' = plugin.getType
    · -- a later bin of the same type
      subst htype
      rw [hfirst, if_neg fun h => hother (by rw [Option.some.inj h])] at hcount
      exact Nat.lt_irrefl 0 hcount
    · have hnone : plugin ∉ pluginsOf env values regType' :=
        fun h => htype (mem_pluginsOf h).1.symm
      rw [List.count_eq_zero.mpr hnone, ite_self] at hcount
      exact Nat.lt_irrefl 0 hcount
  · intro a ha
    rw [hstart, hlength]
    exact (hcons.mem_iff hpos).mp (haccepts a ha)

/-- The step of the whole address space asks for nothing, and the plugin is in no other step. -/
theorem not_served_of_full (hrange : AddressesInRange env values)
    (hplugin : plugin ∈ pluginsOf env values plugin.getType)
    (hfirst : (binsOf env values true plugin.getType).findIdx?
      (fun bin => accepts bin plugin) = some k)
    (hbin : (binsOf env values true plugin.getType)[k]? = some bin) (hfull : bin.length = 65536) :
    ¬ServedInGroup env values plugin := by
  rintro ⟨pool, hpool, k', step, hstep, -, hcount, -, hin⟩
  rw [ofType_eq hpool] at hstep
  rw [count_loaded, count_step plugin hstep, hfirst] at hcount
  obtain rfl : k = k' := by
    by_contra hother
    rw [if_neg (fun h => hother (Option.some.inj h))] at hcount
    exact absurd (List.count_pos_iff.mpr hplugin) (hcount ▸ Nat.lt_irrefl 0)
  obtain ⟨bin', content, hbin', -, rfl⟩ := getElem?_stepsOf hstep
  obtain rfl := Option.some.inj (hbin.symm.trans hbin')
  obtain ⟨-, -, hlength⟩ := step_range hrange (List.mem_of_getElem? hbin) content (by omega)
  obtain ⟨a, ha⟩ := List.exists_mem_of_ne_nil _ (needs_ne_nil plugin)
  have := hin a ha
  rw [hlength, if_pos hfull] at this
  grind

end FirstBin

/-- A contiguous value is not served exactly if its run is the whole address space. -/
theorem servedInGroup_iff (hrange : AddressesInRange env values) {value : ValueRead J}
    (hvalue : value ∈ values) {plugin : RegisterDecodingPlugin} (hload : Loads env value plugin)
    (hcontiguous : Contiguous plugin) :
    ServedInGroup env values plugin ↔ ¬(FullRange env values plugin.getType ∧
      ¬((∀ a ∈ plugin.needs, a = 0) ∧
        2 ≤ (registersOf env values plugin.getType).count 0)) := by
  obtain ⟨hplugin, hneeds⟩ := hload.mem hvalue
  obtain ⟨bin, hbin, hacc⟩ := exists_bin hrange hneeds hcontiguous
  obtain ⟨k, hfirst⟩ : ∃ k, (binsOf env values true plugin.getType).findIdx?
      (fun bin => accepts bin plugin) = some k := by
    rw [← Option.isSome_iff_exists, List.findIdx?_isSome, List.any_eq_true]
    exact ⟨bin, hbin, hacc⟩
  obtain ⟨hlt, -⟩ := List.findIdx?_eq_some_iff_getElem.mp hfirst
  have hget := List.getElem?_eq_getElem hlt
  rw [← first_bin_full_iff hrange hfirst hget]
  constructor
  · intro hserved hfull
    exact not_served_of_full hrange hplugin hfirst hget hfull hserved
  · exact served_of_short hrange hfirst hget

/-- **Group reading serves every contiguous value, unless the whole address space is one run.** -/
theorem group_plan_covers (env : Settings J) (values : List (ValueRead J))
    (hrange : AddressesInRange env values) (value : ValueRead J) (hvalue : value ∈ values)
    (plugin : RegisterDecodingPlugin) (hload : Loads env value plugin)
    (hcontiguous : Contiguous plugin) :
    ServedInGroup env values plugin ↔ ¬(FullRange env values plugin.getType ∧
      ¬((∀ a ∈ plugin.needs, a = 0) ∧
        2 ≤ (registersOf env values plugin.getType).count 0)) :=
  servedInGroup_iff hrange hvalue hload hcontiguous

/-- Settings given by two numbers, for holding registers and the exponent 0, at which `powf` is 1. -/
def pairSettings : Settings (Int × Int) where
  comaShift := fun j => some ⟨"U", j.1, "holding", 0⟩
  satec := fun j => some ⟨"P", "holding", false, j.1, j.2, 0⟩
  bitInWord := fun j => some ⟨"S", j.1, j.2, "holding"⟩
  powf := fun _ _ => Binary64.ofInt 1

/-- The plugin of a `ComaShift` value under `pairSettings`. -/
def pairShift (id addr : Int) : RegisterDecodingPlugin :=
  .shift
    { id := id
      tag := "U"
      addr := addr
      multiplier := Binary64.ofInt 1
      mType := .holding
      isLogging := true }

theorem pairShift_loads (id addr : Int) :
    Loads pairSettings ⟨id, 1, (addr, 0), true⟩ (pairShift id addr) := rfl

theorem pairShift_contiguous (id addr : Int) : Contiguous (pairShift id addr) := by
  intro a ha b hb
  rw [List.mem_singleton.mp ha, List.mem_singleton.mp hb]
  simp

/-- A value on one half of a pair, whose other value shares the run. -/
theorem group_plan_covers_pair :
    ServedInGroup pairSettings [⟨1, 1, (5, 0), true⟩, ⟨2, 2, (6, 5), true⟩] (pairShift 1 5) ↔
      ¬(FullRange pairSettings [⟨1, 1, (5, 0), true⟩, ⟨2, 2, (6, 5), true⟩] .holding ∧
        ¬((∀ a ∈ (pairShift 1 5).needs, a = 0) ∧ 2 ≤ (registersOf pairSettings
          [⟨1, 1, (5, 0), true⟩, ⟨2, 2, (6, 5), true⟩] .holding).count 0)) :=
  group_plan_covers pairSettings _ (by unfold AddressesInRange; decide) ⟨1, 1, (5, 0), true⟩ (by simp)
    (pairShift 1 5) (pairShift_loads 1 5) (pairShift_contiguous 1 5)

/-- A `ComaShift` value for each of the first `n` addresses. -/
def firstAddresses (n : Nat) : List (ValueRead (Int × Int)) :=
  (List.range n).map fun i : Nat => ⟨i, 1, (i, 0), true⟩

theorem registersOf_firstAddresses (n : Nat) :
    registersOf pairSettings (firstAddresses n) .holding =
      (List.range n).map fun i : Nat => (i : Int) := by
  have hload : ∀ i : Int, loadPlugin pairSettings ⟨i, 1, (i, 0), true⟩ =
      some (pairShift i i, [i]) := fun i => pairShift_loads i i
  rw [registersOf, loaded, firstAddresses, List.filterMap_map]
  induction n with
  | zero => rfl
  | succ n ih =>
      rw [List.range_succ, List.filterMap_append, List.filter_append, List.flatMap_append, ih,
        List.map_append]
      simp only [List.filterMap_cons, Function.comp_apply, hload, List.filterMap_nil,
        List.map_singleton]
      rfl

theorem firstAddresses_fullRange (n : Nat) :
    Runs.FullRange 0 (n - 1) (registersOf pairSettings (firstAddresses n) .holding) := by
  have hnodup : ((List.range n).map fun i : Nat => (i : Int)).Nodup :=
    List.nodup_range.map fun a b h => by simpa using h
  have hmem : ∀ a : Int, 0 ≤ a → a ≤ n - 1 → a ∈ (List.range n).map fun i : Nat => (i : Int) := by
    intro a h h'
    rw [List.mem_map]
    refine ⟨a.toNat, ?_, by omega⟩
    rw [List.mem_range]
    omega
  rw [registersOf_firstAddresses]
  exact ⟨hmem, fun a h h' =>
    List.count_eq_one_of_mem hnodup (hmem a (le_of_lt h) (le_of_lt h'))⟩

theorem firstAddresses_full : FullRange pairSettings (firstAddresses 65536) .holding :=
  firstAddresses_fullRange 65536

theorem firstAddresses_inRange (n : Nat) (hn : n ≤ 65536) :
    AddressesInRange pairSettings (firstAddresses n) := by
  intro value hvalue r hr a ha
  rw [firstAddresses, List.mem_map] at hvalue
  obtain ⟨i, hi, rfl⟩ := hvalue
  rw [List.mem_range] at hi
  obtain rfl := Option.some.inj hr
  rw [List.mem_singleton.mp ha]
  dsimp only
  grind

/-- With a value on every address the request of the only step has length zero. -/
theorem group_plan_misses_full_range :
    AddressesInRange pairSettings (firstAddresses 65536) ∧
      ¬∀ value ∈ firstAddresses 65536, ∀ plugin, Loads pairSettings value plugin →
        Contiguous plugin → ServedInGroup pairSettings (firstAddresses 65536) plugin := by
  refine ⟨firstAddresses_inRange 65536 (le_refl _), fun h => ?_⟩
  have hvalue : (⟨5, 1, (5, 0), true⟩ : ValueRead (Int × Int)) ∈ firstAddresses 65536 := by
    rw [firstAddresses, List.mem_map]
    exact ⟨5, List.mem_range.mpr (by omega), rfl⟩
  have hserved := h _ hvalue _ (pairShift_loads 5 5) (pairShift_contiguous 5 5)
  rw [servedInGroup_iff (firstAddresses_inRange 65536 (le_refl _)) hvalue (pairShift_loads 5 5)
    (pairShift_contiguous 5 5)] at hserved
  refine hserved ⟨firstAddresses_full, ?_⟩
  rintro ⟨hzero, -⟩
  exact absurd (hzero 5 List.mem_cons_self) (by decide)

/-! ## Single and group reading -/

/-- The ids of the values that the steps serve. -/
def PollValueIterator.valueIds (pool : PollValueIterator) : List Int :=
  pool.steps.flatMap ReadStep.getValuesId

/-- Some bin accepts the plugin. -/
def attached (env : Settings J) (values : List (ValueRead J)) (readByGroup : Bool)
    (plugin : RegisterDecodingPlugin) : Bool :=
  (binsOf env values readByGroup plugin.getType).any fun bin => accepts bin plugin

/-- The ids of the steps for some bins. -/
theorem planSteps_ids (regType : RegType) (bins : List (List Int))
    {plugins : List RegisterDecodingPlugin} (hfree : ∀ p ∈ plugins, p.isInit = false)
    (hconfig : plugins.map config = plugins) :
    ((planSteps regType bins plugins).flatMap ReadStep.getValuesId).Perm
      ((plugins.filter fun p => bins.any fun bin => accepts bin p).map getId) := by
  have hfill : ((planSteps regType bins plugins).flatMap ReadStep.getValuesId).Perm
      ((FirstFit.fill (fun reg plugin => plugin.findYourRegisters reg) bins plugins).flatten.map
        getId) := by
    clear hfree hconfig
    induction bins generalizing plugins with
    | nil => exact List.Perm.refl _
    | cons bin bins ih =>
        rw [planSteps, FirstFit.fill, List.zipWith_cons_cons, List.flatMap_cons, List.flatten_cons,
          List.map_append]
        refine List.Perm.append ?_ ih
        rw [ReadStep.getValuesId, stepOf]
        exact (List.reverse_perm _).map _
  have hkeys := findYourRegisters_lawful.fill_keys bins hfree
  have hids : ∀ L : List (List RegisterDecodingPlugin),
      L.flatten.map getId = (L.map fun content => content.map config).flatten.map getId := by
    intro L
    rw [← List.map_flatten, List.map_map]
    exact List.map_congr_left fun p _ => (config_getId p).symm
  rw [hids, hkeys, hconfig] at hfill
  exact hfill.trans ((FirstFit.assign_flatten_perm accepts bins plugins).map _)

/-- Sorting by register type keeps the plugins. -/
theorem perm_by_type (l : List RegisterDecodingPlugin) :
    (l.filter (fun p => decide (p.getType = .coils)) ++
      l.filter (fun p => decide (p.getType = .discrete)) ++
      l.filter (fun p => decide (p.getType = .holding)) ++
      l.filter (fun p => decide (p.getType = .input))).Perm l := by
  rw [List.perm_iff_count]
  intro p
  simp only [List.count_append]
  have hcount : ∀ regType, (l.filter fun p => decide (p.getType = regType)).count p =
      if p.getType = regType then l.count p else 0 := by
    intro regType
    by_cases h : p.getType = regType
    · rw [if_pos h, List.count_filter (by simpa using h)]
    · rw [if_neg h, List.count_eq_zero, List.mem_filter]
      rintro ⟨-, h'⟩
      exact h (by simpa using h')
  rw [hcount, hcount, hcount, hcount]
  cases p.getType <;> simp

/-- The ids of a plan are those of the plugins that some bin accepts. -/
theorem valueIds_perm {readByGroup : Bool} {pool : PollValueIterator}
    (h : PollValueIterator.init env values readByGroup = some pool) :
    pool.valueIds.Perm
      ((((loaded env values).map Prod.fst).filter (attached env values readByGroup)).map getId) := by
  have htype : ∀ regType, ((pool.ofType regType).flatMap ReadStep.getValuesId).Perm
      (((((loaded env values).map Prod.fst).filter (attached env values readByGroup)).filter
        fun p => decide (p.getType = regType)).map getId) := by
    intro regType
    rw [ofType_eq h, stepsOf]
    apply (planSteps_ids regType _ pluginsOf_free (pluginsOf_config regType)).trans
    have hmap : pluginsOf env values regType =
        ((loaded env values).map Prod.fst).filter fun p => decide (p.getType = regType) := by
      rw [pluginsOf, List.filter_map]
      rfl
    rw [hmap, List.filter_filter, List.filter_filter]
    refine List.Perm.of_eq (congrArg _ (List.filter_congr fun p _ => ?_))
    by_cases hp : p.getType = regType
    · subst hp
      simp [attached]
    · simp [hp]
  rw [PollValueIterator.valueIds, PollValueIterator.steps]
  simp only [List.flatMap_append]
  refine ((((htype .coils).append (htype .discrete)).append (htype .holding)).append
    (htype .input)).trans ?_
  rw [← List.map_append, ← List.map_append, ← List.map_append]
  exact (perm_by_type _).map _

/-- A plugin has the id of its value, and its registers are those of the settings. -/
theorem Loads.spec {value : ValueRead J} {plugin : RegisterDecodingPlugin}
    (h : Loads env value plugin) :
    plugin.getId = value.id ∧
      ((∃ a, plugin.needs = [a]) ∧ value.decodingType ≠ 2 ∨
        ∃ s, value.decodingType = 2 ∧ env.satec value.settings = some s ∧
          plugin.needs = [s.hiRegister, s.loRegister]) := by
  unfold Loads loadPlugin at h
  cases hget : getPlugin value.decodingType with
  | error e =>
      rw [hget] at h
      cases h
  | ok fresh =>
      rw [hget] at h
      obtain ⟨rfl, haddrs⟩ := Prod.mk.inj (Option.some.inj h)
      rcases getPlugin_cases hget with ⟨hid, rfl⟩ | ⟨hid, rfl⟩ | ⟨hid, rfl⟩
      · simp only [ComaShift.init] at haddrs ⊢
        cases hread : env.comaShift value.settings with
        | none =>
            rw [hread] at haddrs
            cases haddrs
        | some s => exact ⟨rfl, .inl ⟨⟨_, rfl⟩, by omega⟩⟩
      · simp only [SatecDoubleRegistersInt32.init] at haddrs ⊢
        cases hread : env.satec value.settings with
        | none =>
            rw [hread] at haddrs
            cases haddrs
        | some s => exact ⟨rfl, .inr ⟨s, hid, rfl, rfl⟩⟩
      · simp only [BitInWord.init] at haddrs ⊢
        cases hread : env.bitInWord value.settings with
        | none =>
            rw [hread] at haddrs
            cases haddrs
        | some s => exact ⟨rfl, .inl ⟨⟨_, rfl⟩, by omega⟩⟩

/-- In either mode a plugin is attached if it needs a single register that was asked for. -/
theorem attached_single {plugin : RegisterDecodingPlugin} {a : Int}
    (ha : a ∈ registersOf env values plugin.getType) (hneeds : ∀ b ∈ plugin.needs, b = a)
    (readByGroup : Bool) : attached env values readByGroup plugin = true := by
  rw [attached, List.any_eq_true]
  cases readByGroup with
  | false =>
      refine ⟨[a], ?_, accepts_iff.mpr fun b hb => by rw [hneeds b hb]; simp⟩
      rw [binsOf, if_neg Bool.false_ne_true, List.mem_map]
      exact ⟨a, ha, rfl⟩
  | true =>
      rw [binsOf, if_pos rfl, regSort_eq]
      have hflat := List.flatten_splitBy (fun a b => decide (b = FixedWidth.asI32 (a + 1)))
        ((registersOf env values plugin.getType).mergeSort (· ≤ ·))
      replace ha := (List.mergeSort_perm _ (· ≤ ·)).mem_iff.mpr ha
      rw [← hflat, List.mem_flatten] at ha
      obtain ⟨bin, hbin, hin⟩ := ha
      exact ⟨bin, hbin, accepts_iff.mpr fun b hb => by rw [hneeds b hb]; exact hin⟩

/-- A step for one register has no plugin that needs two. -/
theorem eq_of_attached {plugin : RegisterDecodingPlugin}
    (h : attached env values false plugin = true) :
    ∀ a ∈ plugin.needs, ∀ b ∈ plugin.needs, a = b := by
  rw [attached, List.any_eq_true] at h
  obtain ⟨bin, hbin, hacc⟩ := h
  rw [binsOf, if_neg Bool.false_ne_true, List.mem_map] at hbin
  obtain ⟨reg, -, rfl⟩ := hbin
  intro a ha b hb
  rw [List.mem_singleton.mp (accepts_iff.mp hacc a ha),
    List.mem_singleton.mp (accepts_iff.mp hacc b hb)]

/-- Both reading modes serve the values of the list, each as often as it is there. -/
def SameValues (env : Settings J) (values : List (ValueRead J)) : Prop :=
  ∃ single group, PollValueIterator.init env values false = some single ∧
    PollValueIterator.init env values true = some group ∧
    single.valueIds.Perm group.valueIds ∧ single.valueIds.Perm (values.map ValueRead.id) ∧
    group.valueIds.Perm (values.map ValueRead.id)

/-- All values load, so the ids of the plugins are those of the values. -/
theorem loaded_ids (hload : ∀ value ∈ values, ∃ plugin, Loads env value plugin) :
    ((loaded env values).map Prod.fst).map getId = values.map ValueRead.id := by
  induction values with
  | nil => rfl
  | cons value values ih =>
      obtain ⟨plugin, hplugin⟩ := hload value List.mem_cons_self
      have hrest := ih fun value h => hload value (List.mem_cons_of_mem _ h)
      have hsome : loadPlugin env value = some (plugin, plugin.needs) := hplugin
      rw [loaded, List.filterMap_cons_some hsome, List.map_cons, List.map_cons, hplugin.spec.1]
      exact congrArg (value.id :: ·) hrest

/-- **The reading mode does not change what is measured, as long as no value needs two different
registers.** -/
theorem reading_modes_agree (env : Settings J) (values : List (ValueRead J))
    (hload : ∀ value ∈ values, ∃ plugin, Loads env value plugin) :
    SameValues env values ↔ ∀ value ∈ values, value.decodingType = 2 →
      ∀ s ∈ env.satec value.settings, s.hiRegister = s.loRegister := by
  have hids := loaded_ids hload
  constructor
  · rintro ⟨single, group, hsingle, -, -, hperm, -⟩ value hvalue htype s hs
    -- nothing was filtered out
    have hlen := ((valueIds_perm hsingle).symm.trans hperm).length_eq
    rw [← hids, List.length_map, List.length_map, List.length_filter_eq_length_iff] at hlen
    obtain ⟨plugin, hplugin⟩ := hload value hvalue
    have hmem : plugin ∈ (loaded env values).map Prod.fst :=
      List.mem_map_of_mem (List.mem_filterMap.mpr ⟨value, hvalue, hplugin⟩)
    have heq := eq_of_attached (hlen plugin hmem)
    rcases hplugin.spec.2 with ⟨-, hother⟩ | ⟨s', -, hs', hneeds⟩
    · exact absurd htype hother
    · obtain rfl := Option.some.inj (hs.symm.trans hs')
      exact heq _ (by simp [hneeds]) _ (by simp [hneeds])
  · intro hequal
    have hall : ∀ readByGroup, ((loaded env values).map Prod.fst).filter
        (attached env values readByGroup) = (loaded env values).map Prod.fst := by
      intro readByGroup
      rw [List.filter_eq_self]
      intro plugin hplugin
      obtain ⟨⟨plugin', addrs⟩, hr, rfl⟩ := List.mem_map.mp hplugin
      obtain ⟨value, hvalue, hsome⟩ := mem_loaded hr
      obtain ⟨plugin, hloads⟩ := hload value hvalue
      obtain ⟨rfl, -⟩ := Prod.mk.inj (Option.some.inj (hsome.symm.trans hloads))
      have hregisters := (hloads.mem hvalue).2
      rcases hloads.spec.2 with ⟨⟨a, hneeds⟩, -⟩ | ⟨s, htype, hs, hneeds⟩
      · exact attached_single (hregisters a (by simp [hneeds])) (by simp [hneeds]) readByGroup
      · have hsame := hequal value hvalue htype s hs
        exact attached_single (hregisters s.hiRegister (by simp [hneeds]))
          (by simp [hneeds, hsame]) readByGroup
    have hperm : ∀ {readByGroup pool}, PollValueIterator.init env values readByGroup = some pool →
        pool.valueIds.Perm (values.map ValueRead.id) := by
      intro readByGroup pool hpool
      have h := valueIds_perm hpool
      rwa [hall, hids] at h
    exact ⟨_, _, init_eq false, init_eq true,
      (hperm (init_eq false)).trans (hperm (init_eq true)).symm, hperm (init_eq false),
      hperm (init_eq true)⟩

/-- One-register values and a pair on one register. -/
theorem reading_modes_agree_pair :
    SameValues pairSettings [⟨1, 1, (5, 0), true⟩, ⟨2, 2, (6, 6), true⟩] ↔
      ∀ value ∈ [(⟨1, 1, (5, 0), true⟩ : ValueRead (Int × Int)), ⟨2, 2, (6, 6), true⟩],
        value.decodingType = 2 → ∀ s ∈ pairSettings.satec value.settings,
          s.hiRegister = s.loRegister :=
  reading_modes_agree pairSettings _ (by
    simp only [List.forall_mem_cons, List.not_mem_nil, false_implies, implies_true, and_true]
    exact ⟨⟨_, rfl⟩, ⟨_, rfl⟩⟩)

/-- A double register is never attached when the device is read register by register. -/
theorem single_reading_drops_pair :
    (∀ value ∈ [(⟨7, 2, (5, 6), true⟩ : ValueRead (Int × Int))],
        ∃ plugin, Loads pairSettings value plugin) ∧
      ¬SameValues pairSettings [⟨7, 2, (5, 6), true⟩] := by
  refine ⟨?_, ?_⟩
  · intro value hvalue
    obtain rfl := List.mem_singleton.mp hvalue
    exact ⟨_, rfl⟩
  rintro ⟨single, -, hsingle, -, -, hperm, -⟩
  have hnone : PollValueIterator.init pairSettings [⟨7, 2, (5, 6), true⟩] false = some
      ⟨[], [], [⟨[], 5, 1, .holding, false⟩, ⟨[], 6, 1, .holding, false⟩], []⟩ := by
    decide +kernel
  obtain rfl := Option.some.inj (hsingle.symm.trans hnone)
  exact absurd hperm.length_eq (by decide)

end ModbusLogger.Reader
