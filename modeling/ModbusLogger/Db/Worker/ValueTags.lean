import ModbusLogger.Db.Worker.ValueSettings
import ModbusLogger.Reader.Decode

/-!
# The two tags of a value

A value is stored with its tag in `value_tag`, by which the clients subscribe, and once more in its
settings, from which its plugin takes the tag of the measures. The first one is under a unique key. No
command compares the two, and an update may send one of them alone.
-/

namespace ModbusLogger.Reader

variable {J : Type}

/-! ## What a plugin publishes -/

namespace RegisterDecodingPlugin

def tag : RegisterDecodingPlugin → String
  | .bit p => p.tag
  | .satec p => p.tag
  | .shift p => p.tag

@[simp] theorem config_tag (plugin : RegisterDecodingPlugin) : plugin.config.tag = plugin.tag := by
  cases plugin <;> rfl

@[simp] theorem fail_tag (plugin : RegisterDecodingPlugin) (timestamp : Int) :
    (plugin.fail timestamp).tag = plugin.tag := by
  cases plugin <;> rfl

theorem getValue_tag {plugin : RegisterDecodingPlugin} {regList : List Word} {timestamp : Int}
    {m : ModbusMeasure} (h : plugin.getValue regList timestamp = some m) : m.tag = plugin.tag := by
  cases plugin with
  | bit p =>
      obtain ⟨word, -, hm⟩ := Option.bind_eq_some_iff.mp h
      obtain rfl := Option.some.inj hm
      rfl
  | satec p =>
      obtain ⟨hiWord, -, h⟩ := Option.bind_eq_some_iff.mp h
      obtain ⟨loWord, -, hm⟩ := Option.bind_eq_some_iff.mp h
      obtain rfl := Option.some.inj hm
      rfl
  | shift p =>
      obtain ⟨word, -, hm⟩ := Option.bind_eq_some_iff.mp h
      obtain rfl := Option.some.inj hm
      rfl

/-- The measure is one of the plugin, wherever its search for the registers has led it. -/
def Measures (plugin : RegisterDecodingPlugin) (m : ModbusMeasure) : Prop :=
  ∃ found : RegisterDecodingPlugin, found.config = plugin.config ∧
    ((∃ regList timestamp, found.getValue regList timestamp = some m) ∨
      ∃ timestamp, m = found.fail timestamp)

theorem Measures.tag {plugin : RegisterDecodingPlugin} {m : ModbusMeasure} (h : plugin.Measures m) :
    m.tag = plugin.tag := by
  obtain ⟨found, hconfig, hm⟩ := h
  have hfound : found.tag = plugin.tag := by rw [← config_tag, hconfig, config_tag]
  rw [← hfound]
  rcases hm with ⟨regList, timestamp, hvalue⟩ | ⟨timestamp, rfl⟩
  · exact getValue_tag hvalue
  · exact fail_tag found timestamp

theorem measures_of_mapM {plugins : List RegisterDecodingPlugin} {regList : List Word}
    {timestamp : Int} {measures : List ModbusMeasure}
    (h : plugins.mapM (fun plugin => plugin.getValue regList timestamp) = some measures) :
    ∀ m ∈ measures, ∃ plugin ∈ plugins, plugin.Measures m := by
  induction plugins generalizing measures with
  | nil =>
      obtain rfl := Option.some.inj h
      intro m hm
      cases hm
  | cons plugin plugins ih =>
      rw [List.mapM_cons] at h
      obtain ⟨x, hx, h⟩ := Option.bind_eq_some_iff.mp h
      obtain ⟨rest, hrest, h⟩ := Option.bind_eq_some_iff.mp h
      obtain rfl := Option.some.inj h
      intro m hm
      rcases List.mem_cons.mp hm with rfl | hm
      · exact ⟨plugin, List.mem_cons_self, plugin, rfl, .inl ⟨regList, timestamp, hx⟩⟩
      · obtain ⟨other, hother, hmeasures⟩ := ih hrest m hm
        exact ⟨other, List.mem_cons_of_mem plugin hother, hmeasures⟩

theorem measures_fail (plugin : RegisterDecodingPlugin) (timestamp : Int) :
    plugin.Measures (plugin.fail timestamp) :=
  ⟨plugin, rfl, .inr ⟨timestamp, rfl⟩⟩

end RegisterDecodingPlugin

open RegisterDecodingPlugin

/-! ## The tag in the settings -/

/-- The settings of all types have their tag under one key. -/
structure TagField (env : Settings J) where
  tag : J → Option String
  comaShift : ∀ settings initData, env.comaShift settings = some initData →
    tag settings = some initData.tag
  satec : ∀ settings initData, env.satec settings = some initData →
    tag settings = some initData.tag
  bitInWord : ∀ settings initData, env.bitInWord settings = some initData →
    tag settings = some initData.tag

variable {env : Settings J} {serdeError : J → String}

/-- A plugin has the tag of the settings, or the empty one if it cannot read them. -/
theorem loadPlugin_tag (T : TagField env) {value : ValueRead J} {plugin : RegisterDecodingPlugin}
    {addrs : List Int} (h : loadPlugin env value = some (plugin, addrs)) :
    checkJson env serdeError value.decodingType value.settings = .ok () ∧
        T.tag value.settings = some plugin.tag ∨
      checkJson env serdeError value.decodingType value.settings ≠ .ok () ∧ plugin.tag = "" := by
  unfold loadPlugin at h
  unfold checkJson
  split at h
  · next fresh hget =>
      have hplugin := congrArg Prod.fst (Option.some.inj h)
      unfold getPlugin at hget
      split at hget
      · obtain rfl := Except.ok.inj hget
        subst hplugin
        cases hread : env.comaShift value.settings with
        | none => simp [RegisterDecodingPlugin.init, ComaShift.init, hread, RegisterDecodingPlugin.tag]
        | some initData =>
            simp [RegisterDecodingPlugin.init, ComaShift.init, hread, RegisterDecodingPlugin.tag,
              T.comaShift _ _ hread]
      · obtain rfl := Except.ok.inj hget
        subst hplugin
        cases hread : env.satec value.settings with
        | none =>
            simp [RegisterDecodingPlugin.init, SatecDoubleRegistersInt32.init, hread,
              RegisterDecodingPlugin.tag]
        | some initData =>
            simp [RegisterDecodingPlugin.init, SatecDoubleRegistersInt32.init, hread,
              RegisterDecodingPlugin.tag, T.satec _ _ hread]
      · obtain rfl := Except.ok.inj hget
        subst hplugin
        cases hread : env.bitInWord value.settings with
        | none => simp [RegisterDecodingPlugin.init, BitInWord.init, hread, RegisterDecodingPlugin.tag]
        | some initData =>
            simp [RegisterDecodingPlugin.init, BitInWord.init, hread, RegisterDecodingPlugin.tag,
              T.bitInWord _ _ hread]
      · cases hget
  · cases h

/-- A value of a known type has a plugin. -/
theorem loadPlugin_isSome {value : ValueRead J} (h : value.decodingType ∈ Db.decodingTypes) :
    ∃ plugin addrs, loadPlugin env value = some (plugin, addrs) := by
  unfold loadPlugin
  simp only [Db.decodingTypes, List.mem_cons, List.not_mem_nil, or_false] at h
  rcases h with h | h | h <;> exact ⟨_, _, by rw [h]; rfl⟩

end ModbusLogger.Reader

namespace ModbusLogger.Db

open Reader RegisterDecodingPlugin

variable {J : Type} {lib : Libraries J} {T : TagField lib.settings} {t t' : Tables J}
  {values : Table (ValueRow J)}

/-! ## The rows -/

/-- What the planner reads of a row. -/
def ValueRow.planned (id : Int) (row : ValueRow J) : Reader.ValueRead J :=
  ⟨id, row.decodingType, row.settings, row.isLogging⟩

/-- The measure is one of the plugin of the row. -/
def ValueRow.Publishes (env : Settings J) (id : Int) (row : ValueRow J) (m : ModbusMeasure) : Prop :=
  ∃ plugin addrs, loadPlugin env (row.planned id) = some (plugin, addrs) ∧ plugin.Measures m

/-- What the steps of a plan measure are measures of the rows that it was made for. -/
theorem plan_publishes {env : Settings J} {rows : List (Int × ValueRow J)} {readByGroup : Bool}
    {pool : PollValueIterator}
    (hpool : PollValueIterator.init env (rows.map fun r => r.2.planned r.1) readByGroup = some pool)
    {step : ReadStep} (hstep : step ∈ pool.steps) {sysTime : Option Int} {m : ModbusMeasure}
    (hm : (∃ regList measures, step.getValue regList sysTime = some measures ∧ m ∈ measures) ∨
      m ∈ step.fail sysTime) : ∃ r ∈ rows, r.2.Publishes env r.1 m := by
  obtain ⟨plugin, hplugin, found, hfound, hm⟩ : ∃ plugin ∈ step.values, plugin.Measures m := by
    cases sysTime with
    | none =>
        rcases hm with ⟨regList, measures, hvalue, hm⟩ | hm
        · obtain rfl := Option.some.inj hvalue
          cases hm
        · cases hm
    | some ts =>
        rcases hm with ⟨regList, measures, hvalue, hm⟩ | hm
        · exact measures_of_mapM hvalue m hm
        · obtain ⟨plugin, hplugin, rfl⟩ := List.mem_map.mp hm
          exact ⟨plugin, hplugin, plugin.measures_fail ts⟩
  obtain ⟨regType, k, hk⟩ := (mem_steps hpool).mp hstep
  obtain ⟨-, -, -, -, hconfig⟩ := mem_step hk hplugin
  -- what the search has added does not belong to the configuration of the plugin
  obtain ⟨-, value, hvalue, addrs, hload⟩ := mem_pluginsOf hconfig
  obtain ⟨r, hr, rfl⟩ := List.mem_map.mp hvalue
  have hfound : found.config = plugin.config.config := by rw [hfound, (loadPlugin_spec hload).2.1]
  exact ⟨r, hr, plugin.config, addrs, hload, found, hfound, hm⟩

/-- A row whose settings have its tag publishes under it exactly if they can be read, or the tag is
the one of a plugin that cannot read its settings. -/
theorem ValueRow.publishes_own_iff {row : ValueRow J} (id : Int)
    (htype : row.decodingType ∈ decodingTypes) (hstored : T.tag row.settings = some row.valueTag) :
    (∀ m, row.Publishes lib.settings id m → m.tag = row.valueTag) ↔
      row.valueTag = "" ∨ lib.checkJson row.decodingType row.settings = .ok () := by
  have hplanned : (row.planned id).decodingType ∈ decodingTypes := htype
  obtain ⟨plugin, addrs, hload⟩ := loadPlugin_isSome hplanned
  have htag : lib.checkJson row.decodingType row.settings = .ok () ∧
        T.tag row.settings = some plugin.tag ∨
      lib.checkJson row.decodingType row.settings ≠ .ok () ∧ plugin.tag = "" :=
    loadPlugin_tag T hload
  constructor
  · intro hown
    have hplugin := hown _ ⟨plugin, addrs, hload, plugin.measures_fail 0⟩
    rw [fail_tag] at hplugin
    rcases htag with ⟨hread, -⟩ | ⟨-, hempty⟩
    · exact .inr hread
    · exact .inl (hplugin.symm.trans hempty)
  · rintro hread m ⟨plugin', addrs', hload', hm⟩
    rw [hload] at hload'
    obtain ⟨rfl, -⟩ := Prod.mk.inj (Option.some.inj hload')
    rw [hm.tag]
    rcases htag with ⟨-, htag⟩ | ⟨hunread, htag⟩
    · exact Option.some.inj (htag.symm.trans hstored)
    · rw [htag]
      exact (hread.resolve_right hunread).symm

/-! ## The tables -/

/-- Each value publishes under its `value_tag` alone, and no other value does. -/
structure PublishedTags (T : TagField lib.settings) (values : Table (ValueRow J)) : Prop where
  stored : ∀ id row, values.Has id row → T.tag row.settings = some row.valueTag
  unique : ∀ id row id' row', values.Has id row → values.Has id' row' →
    row.valueTag = row'.valueTag → id = id'
  published : ∀ id row, values.Has id row → ∀ m, row.Publishes lib.settings id m →
    m.tag = row.valueTag
  distinct : ∀ id row id' row', values.Has id row → values.Has id' row' → ∀ m m',
    row.Publishes lib.settings id m → row'.Publishes lib.settings id' m' → m.tag = m'.tag → id = id'

theorem PublishedTags.of
    (hstored : ∀ id row, values.Has id row → T.tag row.settings = some row.valueTag)
    (hunique : ∀ id row id' row', values.Has id row → values.Has id' row' →
      row.valueTag = row'.valueTag → id = id')
    (hpublished : ∀ id row, values.Has id row → ∀ m, row.Publishes lib.settings id m →
      m.tag = row.valueTag) : PublishedTags T values where
  stored := hstored
  unique := hunique
  published := hpublished
  distinct := by
    intro id row id' row' hrow hrow' m m' hm hm' htag
    apply hunique id row id' row' hrow hrow'
    rw [← hpublished id row hrow m hm, htag, hpublished id' row' hrow' m' hm']

theorem PublishedTags.delete (h : PublishedTags T values) (p : Int → ValueRow J → Bool) :
    PublishedTags T (values.delete p) := by
  have hold : ∀ id row, (values.delete p).Has id row → values.Has id row :=
    fun id row hrow => (Table.has_delete.mp hrow).1
  apply PublishedTags.of
  · exact fun id row hrow => h.stored id row (hold id row hrow)
  · exact fun id row id' row' hrow hrow' => h.unique id row id' row' (hold _ _ hrow) (hold _ _ hrow')
  · exact fun id row hrow => h.published id row (hold id row hrow)

/-! ## What an update finds -/

/-- The copies that the update sends are the same, and the same as one that it leaves alone. A type or
settings that are sent alone fit the other column. -/
def ValueUpdate.TagFits (T : TagField lib.settings) (value : ValueUpdate J) (row : ValueRow J) : Prop :=
  match value.settings with
  | none =>
    (∀ tag ∈ value.valueTag, tag = row.valueTag) ∧
      ∀ decodingType ∈ value.decodingType,
        row.valueTag = "" ∨ lib.checkJson decodingType row.settings = .ok ()
  | some settings =>
    T.tag settings = some (value.valueTag.getD row.valueTag) ∧
      (value.decodingType = none →
        value.valueTag.getD row.valueTag = "" ∨ lib.checkJson row.decodingType settings = .ok ())

def Write.TagsFit (T : TagField lib.settings) (t : Tables J) : Write J → Prop
  | insertValue value => T.tag value.settings = some value.valueTag
  | updateValue value => ∀ row, t.valueUnits.Has value.id row → value.TagFits T row
  | _ => True

theorem Write.Removes.tagsFit {w : Write J} (h : w.Removes) : w.TagsFit T t := by
  cases w with
  | insertValue | updateValue => exact h.elim
  | _ => exact trivial

/-- The unique key. -/
theorem allowsValue_unique {self : Option Int} {row : ValueRow J}
    (h : t.allowsValue self row = true) {key : Int} {other : ValueRow J}
    (hother : t.valueUnits.Has key other) (htag : other.valueTag = row.valueTag) :
    some key = self := by
  simp only [Tables.allowsValue, Option.isNone_iff_eq_none, decide_eq_true_eq] at h
  have hnot := Table.first?_eq_none.mp h.2.2 key other hother
  simpa [htag] using hnot

theorem allowsValue_type {self : Option Int} {row : ValueRow J}
    (h : t.allowsValue self row = true) : row.decodingType ∈ decodingTypes := by
  simp only [Tables.allowsValue, decide_eq_true_eq] at h
  exact h.2.1

/-! ## Writes -/

theorem PublishedTags.insert_iff (h : PublishedTags T t.valueUnits) {value : ValueCreate J}
    (hcheck : lib.checkJson value.decodingType value.settings = .ok ())
    (hallows : t.allowsValue none value.row = true) :
    PublishedTags T (t.valueUnits.insert value.row) ↔ T.tag value.settings = some value.valueTag := by
  constructor
  · intro hnew
    exact hnew.stored _ value.row (Table.has_insert.mpr (.inr ⟨rfl, rfl⟩))
  · intro htag
    -- no row has the tag of the new one
    have hfresh : ∀ key other, t.valueUnits.Has key other → other.valueTag ≠ value.row.valueTag :=
      fun key other hother heq => absurd (allowsValue_unique hallows hother heq) (by simp)
    apply PublishedTags.of
    · intro id row hrow
      rcases Table.has_insert.mp hrow with hold | ⟨-, rfl⟩
      · exact h.stored id row hold
      · exact htag
    · intro id row id' row' hrow hrow' heq
      rcases Table.has_insert.mp hrow with hold | ⟨hid, rfl⟩
      · rcases Table.has_insert.mp hrow' with hold' | ⟨-, rfl⟩
        · exact h.unique id row id' row' hold hold' heq
        · exact absurd heq (hfresh id row hold)
      · rcases Table.has_insert.mp hrow' with hold' | ⟨hid', -⟩
        · exact absurd heq.symm (hfresh id' row' hold')
        · exact hid.trans hid'.symm
    · intro id row hrow
      rcases Table.has_insert.mp hrow with hold | ⟨-, rfl⟩
      · exact h.published id row hold
      · exact (value.row.publishes_own_iff id (allowsValue_type hallows) htag).mpr (.inr hcheck)

/-- The changed row has its own tag in its settings, and can be read, exactly if the update fits. -/
theorem ValueUpdate.set_own_iff {value : ValueUpdate J} {row : ValueRow J}
    (hcheck : (Write.updateValue value).Checked lib)
    (hstored : T.tag row.settings = some row.valueTag)
    (hread : value.decodingType = none →
      row.valueTag = "" ∨ lib.checkJson row.decodingType row.settings = .ok ()) :
    (T.tag (value.set row).settings = some (value.set row).valueTag ∧
        ((value.set row).valueTag = "" ∨
          lib.checkJson (value.set row).decodingType (value.set row).settings = .ok ())) ↔
      value.TagFits T row := by
  have hboth := hcheck
  unfold Write.Checked at hboth
  unfold ValueUpdate.TagFits
  cases hsettings : value.settings with
  | none =>
      -- the tag in the settings stays
      have htag : some row.valueTag = some (value.valueTag.getD row.valueTag) ↔
          ∀ tag ∈ value.valueTag, tag = row.valueTag := by
        cases value.valueTag <;> simp [eq_comm]
      simp only [ValueUpdate.set, hsettings, Option.getD_none, hstored, htag]
      refine and_congr_right fun hsame => ?_
      have hkept : value.valueTag.getD row.valueTag = row.valueTag :=
        (Option.some.inj (htag.mpr hsame)).symm
      rw [hkept]
      cases htype : value.decodingType with
      | none => simpa using hread htype
      | some decodingType => simp
  | some settings =>
      simp only [ValueUpdate.set, hsettings, Option.getD_some]
      refine and_congr_right fun _ => ?_
      cases htype : value.decodingType with
      | none => simp
      | some decodingType => simp [hboth decodingType htype settings hsettings]

theorem PublishedTags.update_iff (h : PublishedTags T t.valueUnits) {value : ValueUpdate J}
    {row : ValueRow J} (hcheck : (Write.updateValue value).Checked lib)
    (hrow : t.valueUnits.Has value.id row)
    (hallows : t.allowsValue (some value.id) (value.set row) = true) :
    PublishedTags T (t.valueUnits.modify (fun key _ => key = value.id) value.set) ↔
      value.TagFits T row := by
  have htype := allowsValue_type hallows
  -- a type that is not sent is known, so the old settings are read or the tag is empty
  have hread : value.decodingType = none →
      row.valueTag = "" ∨ lib.checkJson row.decodingType row.settings = .ok () := by
    intro hnone
    have hold : (value.set row).decodingType = row.decodingType := by simp [ValueUpdate.set, hnone]
    exact (row.publishes_own_iff value.id (hold ▸ htype) (h.stored _ _ hrow)).mp
      (h.published _ _ hrow)
  rw [← value.set_own_iff hcheck (h.stored _ _ hrow) hread]
  constructor
  · intro hnew
    have hset : (t.valueUnits.modify (fun key _ => key = value.id) value.set).Has value.id
        (value.set row) := Table.has_modify.mpr ⟨row, hrow, by simp⟩
    have hstored := hnew.stored _ _ hset
    exact ⟨hstored, ((value.set row).publishes_own_iff value.id htype hstored).mp
      (hnew.published _ _ hset)⟩
  · rintro ⟨hstored, hsettings⟩
    have hcases : ∀ id row', (t.valueUnits.modify (fun key _ => key = value.id) value.set).Has id row' →
        id = value.id ∧ row' = value.set row ∨ t.valueUnits.Has id row' ∧ id ≠ value.id := by
      intro id row' hrow'
      obtain ⟨old, hold, rfl⟩ := Table.has_modify.mp hrow'
      by_cases hid : id = value.id
      · subst hid
        obtain rfl := hold.unique hrow
        exact .inl ⟨rfl, by simp⟩
      · exact .inr ⟨by simpa [hid] using hold, hid⟩
    apply PublishedTags.of
    · intro id row' hrow'
      rcases hcases id row' hrow' with ⟨-, rfl⟩ | ⟨hold, -⟩
      · exact hstored
      · exact h.stored id row' hold
    · intro id row' id' row'' hrow' hrow'' heq
      rcases hcases id row' hrow' with ⟨hid, rfl⟩ | ⟨hold, hid⟩
      · rcases hcases id' row'' hrow'' with ⟨hid', -⟩ | ⟨hold', hid'⟩
        · exact hid.trans hid'.symm
        · exact absurd (Option.some.inj (allowsValue_unique hallows hold' heq.symm)) hid'
      · rcases hcases id' row'' hrow'' with ⟨-, rfl⟩ | ⟨hold', -⟩
        · exact absurd (Option.some.inj (allowsValue_unique hallows hold heq)) hid
        · exact h.unique id row' id' row'' hold hold' heq
    · intro id row' hrow'
      rcases hcases id row' hrow' with ⟨hid, rfl⟩ | ⟨hold, -⟩
      · exact ((value.set row).publishes_own_iff id htype hstored).mpr hsettings
      · exact h.published id row' hold

/-- A write keeps the tags exactly if it fits. -/
theorem Write.exec_publishedTags {w : Write J} (hcheck : w.Checked lib)
    (h : PublishedTags T t.valueUnits) (hexec : w.exec t = some t') :
    PublishedTags T t'.valueUnits ↔ w.TagsFit T t := by
  have hafter := Write.valuesAfter hexec
  generalize t'.valueUnits = values at hafter ⊢
  cases hafter with
  | kept hinsert habsent =>
      refine iff_of_true h ?_
      cases w with
      | insertValue value => exact absurd rfl (hinsert value)
      | updateValue value => exact fun row hrow => absurd hrow (habsent value rfl row)
      | _ => exact trivial
  | inserted value hallows => exact h.insert_iff hcheck hallows
  | updated value hrow hallows =>
      refine (h.update_iff hcheck hrow hallows).trans ⟨?_, fun hfits => hfits _ hrow⟩
      intro hfits other hother
      rwa [hother.unique hrow]
  | deleted hw p => exact iff_of_true (h.delete p) hw.tagsFit

/-! ## The result -/

/-- In a run of the commands, with their statements in any order, each value publishes under its own
tag after every step exactly if every create and every update that takes effect has the same tag in
both places. -/
theorem published_tags_iff (lib : Libraries J) (T : TagField lib.settings) (t : Tables J)
    (ht : PublishedTags T t.valueUnits) (steps : List (DbStep J)) :
    (∀ pre post, steps = pre ++ post → PublishedTags T (runDb lib t pre).world.valueUnits) ↔
      ∀ pre s post, steps = pre ++ s :: post → ∀ c fate,
        (runDb lib t pre).issued s = some (c, fate) →
          c.Meets (Write.TagsFit T) fate (runDb lib t pre).world := by
  apply runDb_invariant_iff (I := fun t => PublishedTags T t.valueUnits) (G := Write.TagsFit T)
  · exact fun w t t' hcheck h hexec => Write.exec_publishedTags hcheck h hexec
  · exact fun w t hw => hw.tagsFit
  · exact ht

/-! ## Runs in which the tags part -/

/-- Settings that are a tag and nothing else. -/
def bareTags : Libraries String where
  settings := {
    comaShift := fun j => some ⟨j, 10, "holding", 1⟩
    satec := fun _ => none
    bitInWord := fun _ => none
    powf := fun x _ => x }
  serdeError _ := ""
  debug _ := ""
  backlog := 128

def bareTag : TagField bareTags.settings where
  tag := some
  comaShift settings initData h := by
    obtain rfl := Option.some.inj h
    rfl
  satec settings initData h := by cases h
  bitInWord settings initData h := by cases h

/-- A database with the device 1. -/
def oneDeviceOnly : Tables String :=
  { Tables.empty with
    nodes := Table.empty.insert ⟨"10.0.0.5", some 502, some ""⟩
    devices := Table.empty.insert newRow }

theorem oneDeviceOnly_tags : PublishedTags bareTag oneDeviceOnly.valueUnits where
  stored _ _ h := absurd h Table.not_has_empty
  unique _ _ _ _ h := absurd h Table.not_has_empty
  published _ _ h := absurd h Table.not_has_empty
  distinct _ _ _ _ h := absurd h Table.not_has_empty

def createTagged (i : Nat) (valueTag settings : String) : List (DbStep String) :=
  [.start (.valueCreate ⟨1, "U", valueTag, none, 1, settings, true⟩), .advance i .success,
    .advance i .success]

/-- Two values have the tag `L1` in their settings. -/
def sameSettings : List (DbStep String) := createTagged 0 "L1" "L1" ++ createTagged 1 "L2" "L1"

/-- The tag of a value is changed alone. -/
def tagAlone : List (DbStep String) :=
  createTagged 0 "L1" "L1" ++
    [.start (.valueUpdate ⟨1, none, none, some "L2", none, none, none, none⟩), .advance 1 .success,
      .advance 1 .success, .advance 1 .success]

theorem published_tags_part :
    ¬PublishedTags bareTag (runDb bareTags oneDeviceOnly tagAlone).world.valueUnits ∧
      ∃ row row', (runDb bareTags oneDeviceOnly sameSettings).world.valueUnits.Has 1 row ∧
        (runDb bareTags oneDeviceOnly sameSettings).world.valueUnits.Has 2 row' ∧
        row'.valueTag = "L2" ∧ ∃ m m', row.Publishes bareTags.settings 1 m ∧
          row'.Publishes bareTags.settings 2 m' ∧ m.tag = "L1" ∧ m'.tag = "L1" := by
  refine ⟨?_, ⟨1, some "U", "L1", none, 1, "L1", true⟩, ⟨1, some "U", "L2", none, 1, "L1", true⟩,
    List.mem_of_elem_eq_true (by decide), List.mem_of_elem_eq_true (by decide), rfl, ?_⟩
  · intro h
    have hrow : (runDb bareTags oneDeviceOnly tagAlone).world.valueUnits.Has 1
        ⟨1, some "U", "L2", none, 1, "L1", true⟩ := List.mem_of_elem_eq_true (by decide)
    exact absurd (h.stored 1 _ hrow) (by decide)
  · exact ⟨_, _, ⟨_, _, rfl, measures_fail _ 0⟩, ⟨_, _, rfl, measures_fail _ 0⟩, rfl, rfl⟩

theorem published_tags_iff_tagAlone :
    (∀ pre post, tagAlone = pre ++ post →
      PublishedTags bareTag (runDb bareTags oneDeviceOnly pre).world.valueUnits) ↔
      ∀ pre s post, tagAlone = pre ++ s :: post → ∀ c fate,
        (runDb bareTags oneDeviceOnly pre).issued s = some (c, fate) →
          c.Meets (Write.TagsFit bareTag) fate (runDb bareTags oneDeviceOnly pre).world :=
  published_tags_iff bareTags bareTag oneDeviceOnly oneDeviceOnly_tags tagAlone

end ModbusLogger.Db
