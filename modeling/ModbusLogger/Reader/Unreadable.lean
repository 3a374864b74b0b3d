import ModbusLogger.Reader.PlanCoverage

/-!
# Values with unreadable settings

A value whose settings cannot be read gets a plugin in its default state, which asks for no
registers but stays among the plugins. The default plugin looks for register 0 among the holding
registers, so it is attached to a step exactly if another value asks for that register.
-/

namespace ModbusLogger.Reader

open RegisterDecodingPlugin

variable {J : Type*} {env : Settings J} {values : List (ValueRead J)}

/-! ## Default plugins -/

/-- The settings fail to deserialize for the decoding type of the value. -/
def ValueRead.unreadable (env : Settings J) (value : ValueRead J) : Bool :=
  match value.decodingType with
  | 1 => (env.comaShift value.settings).isNone
  | 2 => (env.satec value.settings).isNone
  | 3 => (env.bitInWord value.settings).isNone
  | _ => false

/-- The values whose settings can be read. -/
def readableValues (env : Settings J) (values : List (ValueRead J)) : List (ValueRead J) :=
  values.filter fun value => !value.unreadable env

/-- The plugin was never initialised. -/
def IsDefault (plugin : RegisterDecodingPlugin) : Prop :=
  plugin = .shift {} ∨ plugin = .satec {} ∨ plugin = .bit {}

theorem IsDefault.getType {plugin : RegisterDecodingPlugin} (h : IsDefault plugin) :
    plugin.getType = .holding := by
  rcases h with rfl | rfl | rfl <;> rfl

theorem IsDefault.free {plugin : RegisterDecodingPlugin} (h : IsDefault plugin) :
    plugin.isInit = false ∧ plugin.config = plugin := by
  rcases h with rfl | rfl | rfl <;> exact ⟨rfl, rfl⟩

/-- A default plugin looks for register 0. -/
theorem IsDefault.accepts_iff {plugin : RegisterDecodingPlugin} (h : IsDefault plugin)
    {reg : List Int} : accepts reg plugin = true ↔ 0 ∈ reg := by
  rw [RegisterDecodingPlugin.accepts_iff]
  rcases h with rfl | rfl | rfl <;> simp [needs]

theorem loadPlugin_unreadable {value : ValueRead J} (h : value.unreadable env = true) :
    ∃ plugin, IsDefault plugin ∧ loadPlugin env value = some (plugin, []) := by
  obtain ⟨id, decodingType, settings, isLogging⟩ := value
  unfold ValueRead.unreadable at h
  split at h
  · next htype =>
    dsimp only at htype
    subst htype
    refine ⟨.shift {}, .inl rfl, ?_⟩
    rw [Option.isNone_iff_eq_none] at h
    simp [loadPlugin, getPlugin, RegisterDecodingPlugin.init, ComaShift.init, h]
  · next htype =>
    dsimp only at htype
    subst htype
    refine ⟨.satec {}, .inr (.inl rfl), ?_⟩
    rw [Option.isNone_iff_eq_none] at h
    simp [loadPlugin, getPlugin, RegisterDecodingPlugin.init, SatecDoubleRegistersInt32.init, h]
  · next htype =>
    dsimp only at htype
    subst htype
    refine ⟨.bit {}, .inr (.inr rfl), ?_⟩
    rw [Option.isNone_iff_eq_none] at h
    simp [loadPlugin, getPlugin, RegisterDecodingPlugin.init, BitInWord.init, h]
  · cases h

/-! ## The registers and the plugins without them -/

theorem loaded_cons (value : ValueRead J) :
    loaded env (value :: values) = (loadPlugin env value).toList ++ loaded env values := by
  rw [loaded, List.filterMap_cons]
  cases loadPlugin env value <;> rfl

theorem registersOf_cons (value : ValueRead J) (regType : RegType) :
    registersOf env (value :: values) regType =
      registersOf env [value] regType ++ registersOf env values regType := by
  simp only [registersOf, loaded_cons, List.filter_append, List.flatMap_append]
  simp [loaded]

theorem pluginsOf_cons (value : ValueRead J) (regType : RegType) :
    pluginsOf env (value :: values) regType =
      pluginsOf env [value] regType ++ pluginsOf env values regType := by
  simp only [pluginsOf, loaded_cons, List.filter_append, List.map_append]
  simp [loaded]

/-- A value with unreadable settings has a default plugin and no registers. -/
theorem unreadable_single {value : ValueRead J} (h : value.unreadable env = true)
    (regType : RegType) : registersOf env [value] regType = [] ∧
      ∃ plugin, IsDefault plugin ∧
        pluginsOf env [value] regType = if regType = .holding then [plugin] else [] := by
  obtain ⟨plugin, hdefault, hload⟩ := loadPlugin_unreadable h
  have hloaded : loaded env [value] = [(plugin, [])] := by
    simp [loaded, hload]
  refine ⟨?_, plugin, hdefault, ?_⟩
  · rw [registersOf, hloaded, List.filter_singleton]
    by_cases htype : plugin.getType = regType <;> simp [htype]
  · rw [pluginsOf, hloaded, List.filter_singleton, hdefault.getType]
    by_cases htype : regType = .holding
    · subst htype
      rfl
    · rw [if_neg htype, decide_eq_false (Ne.symm htype)]
      rfl

theorem readableValues_cons (value : ValueRead J) :
    readableValues env (value :: values) =
      if value.unreadable env then readableValues env values
      else value :: readableValues env values := by
  rw [readableValues, List.filter_cons]
  cases value.unreadable env <;> rfl

/-- The registers are those of the readable values. -/
theorem registersOf_readable (regType : RegType) :
    registersOf env (readableValues env values) regType = registersOf env values regType := by
  induction values with
  | nil => rfl
  | cons value values ih =>
      rw [readableValues_cons, registersOf_cons value]
      split
      · next h => rw [(unreadable_single h regType).1, ih, List.nil_append]
      · rw [registersOf_cons, ih]

/-- The plugins are those of the readable values and default plugins for holding registers. -/
theorem pluginsOf_drops (regType : RegType) :
    FirstFit.Drops (fun plugin => regType = .holding ∧ IsDefault plugin)
      (pluginsOf env values regType) (pluginsOf env (readableValues env values) regType) := by
  induction values with
  | nil => exact .nil
  | cons value values ih =>
      rw [readableValues_cons, pluginsOf_cons value]
      split
      · next h =>
        obtain ⟨-, plugin, hdefault, hplugins⟩ := unreadable_single h regType
        rw [hplugins]
        split
        · next htype => exact .drop ⟨htype, hdefault⟩ ih
        · exact ih
      · have hcons := @pluginsOf_cons J env (readableValues env values) value regType
        rw [hcons]
        induction pluginsOf env [value] regType with
        | nil => exact ih
        | cons plugin plugins ih => exact .keep ih

theorem binsOf_readable (readByGroup : Bool) (regType : RegType) :
    binsOf env (readableValues env values) readByGroup regType =
      binsOf env values readByGroup regType := by
  rw [binsOf, binsOf, registersOf_readable]

/-! ## Whether the default plugins are attached -/

/-- The values with unreadable settings contribute nothing: the pool is that of the others. -/
def ContributeNothing (env : Settings J) (values : List (ValueRead J)) (readByGroup : Bool) : Prop :=
  ∃ pool, PollValueIterator.init env values readByGroup = some pool ∧
    PollValueIterator.init env (readableValues env values) readByGroup = some pool

theorem contributeNothing_iff_steps {readByGroup : Bool} :
    ContributeNothing env values readByGroup ↔ ∀ regType,
      stepsOf env values readByGroup regType =
        stepsOf env (readableValues env values) readByGroup regType := by
  constructor
  · rintro ⟨pool, hpool, hpool'⟩ regType
    rw [← ofType_eq hpool, ← ofType_eq hpool']
  · intro h
    refine ⟨_, init_eq readByGroup, ?_⟩
    rw [init_eq]
    simp only [h]

/-- Without register 0 no bin accepts a default plugin. -/
theorem stepsOf_readable {readByGroup : Bool} {regType : RegType}
    (h : regType = .holding → 0 ∉ (binsOf env values readByGroup regType).flatten) :
    stepsOf env values readByGroup regType =
      stepsOf env (readableValues env values) readByGroup regType := by
  rw [stepsOf, stepsOf, binsOf_readable, planSteps, planSteps]
  congr 1
  refine findYourRegisters_lawful.fill_drops ?_
  refine (pluginsOf_drops regType).mono ?_
  rintro plugin ⟨htype, hdefault⟩
  refine ⟨hdefault.free.1, fun bin hbin => ?_⟩
  rw [hdefault.free.2, Bool.eq_false_iff, Ne, hdefault.accepts_iff]
  exact fun hzero => h htype (List.mem_flatten_of_mem hbin hzero)

/-- The default plugin of an unreadable value is one more copy. -/
theorem count_readable_lt {value : ValueRead J} (hvalue : value ∈ values)
    (hunreadable : value.unreadable env = true) {plugin : RegisterDecodingPlugin}
    (hdefault : IsDefault plugin) (hload : loadPlugin env value = some (plugin, [])) :
    (pluginsOf env (readableValues env values) .holding).count plugin <
      (pluginsOf env values .holding).count plugin := by
  induction values with
  | nil => cases hvalue
  | cons value' values ih =>
      rw [readableValues_cons, pluginsOf_cons value', List.count_append]
      rcases List.mem_cons.mp hvalue with rfl | hvalue
      · have hplugins : pluginsOf env [value] .holding = [plugin] := by
          simp [pluginsOf, loaded, hload, hdefault.getType]
        have hdrops : FirstFit.Drops _ (pluginsOf env values .holding)
            (pluginsOf env (readableValues env values) .holding) := pluginsOf_drops .holding
        have hle := hdrops.sublist.count_le plugin
        rw [if_pos hunreadable, hplugins, List.count_singleton_self]
        omega
      · have hlt := ih hvalue
        split
        · omega
        · have hcons := @pluginsOf_cons J env (readableValues env values) value' .holding
          rw [hcons, List.count_append]
          omega

/-- A default plugin is attached to the first step with register 0. -/
theorem not_contributeNothing {readByGroup : Bool} {value : ValueRead J} (hvalue : value ∈ values)
    (hunreadable : value.unreadable env = true) (hzero : 0 ∈ registersOf env values .holding) :
    ¬ContributeNothing env values readByGroup := by
  rw [contributeNothing_iff_steps]
  intro h
  obtain ⟨plugin, hdefault, hload⟩ := loadPlugin_unreadable hunreadable
  have hflat : 0 ∈ (binsOf env values readByGroup .holding).flatten := mem_binsOf.mpr hzero
  obtain ⟨bin, hbin, hzero⟩ := List.mem_flatten.mp hflat
  obtain ⟨k, hk⟩ : ∃ k, (binsOf env values readByGroup .holding).findIdx?
      (fun bin => accepts bin plugin) = some k := by
    rw [← Option.isSome_iff_exists, List.findIdx?_isSome, List.any_eq_true]
    exact ⟨bin, hbin, hdefault.accepts_iff.mpr hzero⟩
  obtain ⟨hlt, -, -⟩ := List.findIdx?_eq_some_iff_getElem.mp hk
  obtain ⟨content, -, hstep⟩ := exists_step (List.getElem?_eq_getElem hlt)
  have hcount := count_step plugin hstep
  rw [h .holding] at hstep
  have hcount' := count_step plugin hstep
  rw [hk, if_pos rfl] at hcount
  rw [binsOf_readable, hk, if_pos rfl, hcount] at hcount'
  have := count_readable_lt hvalue hunreadable hdefault hload
  omega

/-- **Unreadable settings** contribute nothing exactly if there are none, or nobody asks for holding
register 0. -/
theorem unreadable_contribute_nothing_iff (env : Settings J) (values : List (ValueRead J))
    (readByGroup : Bool) : ContributeNothing env values readByGroup ↔
      (∀ value ∈ values, value.unreadable env = false) ∨
        0 ∉ (initPlugins env values .holding).registers := by
  rw [initPlugins_eq]
  constructor
  · intro h
    by_contra hnot
    push Not at hnot
    obtain ⟨⟨value, hvalue, hunreadable⟩, hzero⟩ := hnot
    exact not_contributeNothing hvalue (by simpa using hunreadable) hzero h
  · rintro (hall | hzero)
    · have hsame : readableValues env values = values := by
        rw [readableValues, List.filter_eq_self]
        intro value hvalue
        rw [hall value hvalue]
        rfl
      refine ⟨_, init_eq readByGroup, ?_⟩
      rw [hsame]
      exact init_eq readByGroup
    · refine contributeNothing_iff_steps.mpr fun regType => stepsOf_readable ?_
      rintro rfl
      rwa [mem_binsOf]

/-- `pairSettings`, of which some cannot be read. -/
def someSettings : Settings (Option (Int × Int)) where
  comaShift := fun j => j.bind pairSettings.comaShift
  satec := fun j => j.bind pairSettings.satec
  bitInWord := fun j => j.bind pairSettings.bitInWord
  powf := pairSettings.powf

/-- A value with unreadable settings beside a value on register 0. -/
def besideZero : List (ValueRead (Option (Int × Int))) :=
  [⟨1, 1, none, true⟩, ⟨2, 1, some (0, 0), true⟩]

/-- The poll of the device emits measures of a value with id 0 and without a tag. -/
theorem default_plugin_polled :
    ¬ContributeNothing someSettings besideZero false ∧
    ¬ContributeNothing someSettings besideZero true ∧
    ∃ pool, PollValueIterator.init someSettings besideZero false = some pool ∧
      ∃ step ∈ pool.steps, ∃ x ∈ step.fail (some 0), x.valueId = 0 ∧ x.tag = "" := by
  have hvalue : (⟨1, 1, none, true⟩ : ValueRead (Option (Int × Int))) ∈ besideZero :=
    List.mem_cons_self
  refine ⟨not_contributeNothing hvalue rfl (by decide), not_contributeNothing hvalue rfl (by decide),
    _, init_eq false, ?_⟩
  decide +kernel

end ModbusLogger.Reader
