import ModbusLogger.Db.Worker.DeviceTable

/-!
# The settings of the values

The settings of a row have to be readable for the decoding type of the row. An update may send one of
the two columns alone. Then nothing checks the new type against the settings that are stored, and the
new settings are checked for a type that another update may replace before they are written.
-/

namespace ModbusLogger.Db

variable {J : Type} {lib : Libraries J} {t t' : Tables J} {values : Table (ValueRow J)}

def SettingsMatch (lib : Libraries J) (values : Table (ValueRow J)) : Prop :=
  ∀ id row, values.Has id row → lib.checkJson row.decodingType row.settings = .ok ()

/-- The plugin of a stored value reads its settings. -/
theorem SettingsMatch.init (h : SettingsMatch lib values) {id : Int} {row : ValueRow J}
    (hrow : values.Has id row) : ∃ plugin, Reader.getPlugin row.decodingType = .ok plugin ∧
      (plugin.init lib.settings row.settings id row.isLogging).2 ≠ [] :=
  Reader.checkJson_ok (h id row hrow) id row.isLogging

/-! ## What an update finds -/

/-- A new type fits the settings that are stored, and new settings fit the type that is stored. -/
def Write.SettingsFit (lib : Libraries J) (t : Tables J) : Write J → Prop
  | updateValue value => ∀ row, t.valueUnits.Has value.id row →
      (∀ decodingType ∈ value.decodingType, value.settings = none →
        lib.checkJson decodingType row.settings = .ok ()) ∧
      ∀ settings ∈ value.settings, value.decodingType = none →
        lib.checkJson row.decodingType settings = .ok ()
  | _ => True

/-! ## Rows -/

theorem SettingsMatch.delete (h : SettingsMatch lib values) (p : Int → ValueRow J → Bool) :
    SettingsMatch lib (values.delete p) :=
  fun id row hrow => h id row (Table.has_delete.mp hrow).1

theorem SettingsMatch.insert (h : SettingsMatch lib values) {value : ValueCreate J}
    (hcheck : lib.checkJson value.decodingType value.settings = .ok ()) :
    SettingsMatch lib (values.insert value.row) := by
  intro id row hrow
  rcases Table.has_insert.mp hrow with hold | ⟨-, rfl⟩
  · exact h id row hold
  · exact hcheck

/-- A changed row matches exactly if the columns that the update leaves alone match the new ones. -/
theorem ValueUpdate.set_matches {value : ValueUpdate J} {row : ValueRow J}
    (hcheck : (Write.updateValue value).Checked lib)
    (hrow : lib.checkJson row.decodingType row.settings = .ok ()) :
    lib.checkJson (value.set row).decodingType (value.set row).settings = .ok () ↔
      (∀ decodingType ∈ value.decodingType, value.settings = none →
        lib.checkJson decodingType row.settings = .ok ()) ∧
      ∀ settings ∈ value.settings, value.decodingType = none →
        lib.checkJson row.decodingType settings = .ok () := by
  have hboth := hcheck
  unfold Write.Checked at hboth
  cases htype : value.decodingType with
  | none =>
      cases hsettings : value.settings with
      | none => simpa [ValueUpdate.set, htype, hsettings] using hrow
      | some settings => simp [ValueUpdate.set, htype, hsettings]
  | some decodingType =>
      cases hsettings : value.settings with
      | none => simp [ValueUpdate.set, htype, hsettings]
      | some settings =>
          simpa [ValueUpdate.set, htype, hsettings] using hboth decodingType htype settings hsettings

theorem SettingsMatch.update_iff (h : SettingsMatch lib values) {value : ValueUpdate J}
    (hcheck : (Write.updateValue value).Checked lib) :
    SettingsMatch lib (values.modify (fun key _ => key = value.id) value.set) ↔
      ∀ row, values.Has value.id row →
        (∀ decodingType ∈ value.decodingType, value.settings = none →
          lib.checkJson decodingType row.settings = .ok ()) ∧
        ∀ settings ∈ value.settings, value.decodingType = none →
          lib.checkJson row.decodingType settings = .ok () := by
  constructor
  · intro hmatch row hrow
    apply (value.set_matches hcheck (h _ row hrow)).mp
    exact hmatch value.id _ (Table.has_modify.mpr ⟨row, hrow, by simp⟩)
  · intro hfits id row' hrow'
    obtain ⟨row, hrow, rfl⟩ := Table.has_modify.mp hrow'
    split
    · next hid =>
        obtain rfl := of_decide_eq_true hid
        exact (value.set_matches hcheck (h _ row hrow)).mpr (hfits row hrow)
    · exact h id row hrow

/-! ## Writes and transactions -/

theorem Write.Removes.settingsFit {w : Write J} (h : w.Removes) : w.SettingsFit lib t := by
  cases w with
  | updateValue => exact h.elim
  | _ => exact trivial

/-- A write keeps the settings readable exactly if it fits. -/
theorem Write.exec_settingsMatch {w : Write J} (hcheck : w.Checked lib)
    (h : SettingsMatch lib t.valueUnits) (hexec : w.exec t = some t') :
    SettingsMatch lib t'.valueUnits ↔ w.SettingsFit lib t := by
  have hafter := Write.valuesAfter hexec
  generalize t'.valueUnits = values at hafter ⊢
  cases hafter with
  | kept _ habsent =>
      refine iff_of_true h ?_
      cases w with
      | updateValue value => exact fun row hrow => absurd hrow (habsent value rfl row)
      | _ => exact trivial
  | inserted value _ => exact iff_of_true (h.insert hcheck) trivial
  | updated value _ _ => exact h.update_iff hcheck
  | deleted hw p => exact iff_of_true (h.delete p) hw.settingsFit

/-! ## The result -/

/-- In a run of the commands, with their statements in any order, the settings of every value can be
read for its type after every step exactly if every update that takes effect fits the row that it
finds. -/
theorem stored_settings_match_iff (lib : Libraries J) (t : Tables J)
    (ht : SettingsMatch lib t.valueUnits) (steps : List (DbStep J)) :
    (∀ pre post, steps = pre ++ post → SettingsMatch lib (runDb lib t pre).world.valueUnits) ↔
      ∀ pre s post, steps = pre ++ s :: post → ∀ c fate,
        (runDb lib t pre).issued s = some (c, fate) →
          c.Meets (Write.SettingsFit lib) fate (runDb lib t pre).world := by
  apply runDb_invariant_iff (I := fun t => SettingsMatch lib t.valueUnits)
    (G := Write.SettingsFit lib)
  · exact fun w t t' hcheck h hexec => Write.exec_settingsMatch hcheck h hexec
  · exact fun w t hw => hw.settingsFit
  · exact ht

/-! ## Runs that mix the types -/

/-- `true` stands for settings of a `ComaShift`, `false` for those of a `SatecDoubleRegistersInt32`. -/
def twoKinds : Libraries Bool where
  settings := {
    comaShift := fun j => if j then some ⟨"T", 10, "holding", 1⟩ else none
    satec := fun j => if j then none else some ⟨"T", "holding", true, 10, 11, 1⟩
    bitInWord := fun _ => none
    powf := fun x _ => x }
  serdeError _ := ""
  debug _ := ""
  backlog := 128

/-- A database with the device 1. -/
def oneDevice : Tables Bool :=
  { Tables.empty with
    nodes := Table.empty.insert ⟨"10.0.0.5", some 502, some ""⟩
    devices := Table.empty.insert newRow }

theorem oneDevice_matches : SettingsMatch twoKinds oneDevice.valueUnits :=
  fun _ _ h => absurd h Table.not_has_empty

def createShift : List (DbStep Bool) :=
  [.start (.valueCreate ⟨1, "U", "T", none, 1, true, true⟩), .advance 0 .success,
    .advance 0 .success]

/-- The type is changed alone. -/
def typeAlone : List (DbStep Bool) :=
  createShift ++ [.start (.valueUpdate ⟨1, none, none, none, none, some 2, none, none⟩),
    .advance 1 .success, .advance 1 .success, .advance 1 .success]

/-- New settings are checked for the old type, then another update changes both, then the settings are
written. -/
def settingsBehindType : List (DbStep Bool) :=
  createShift ++ [.start (.valueUpdate ⟨1, none, none, none, none, none, some true, none⟩),
    .advance 1 .success, .advance 1 .success,
    .start (.valueUpdate ⟨1, none, none, none, none, some 2, some false, none⟩),
    .advance 2 .success, .advance 2 .success, .advance 2 .success, .advance 1 .success]

theorem stored_settings_mismatch :
    ¬SettingsMatch twoKinds (runDb twoKinds oneDevice typeAlone).world.valueUnits ∧
      ¬SettingsMatch twoKinds (runDb twoKinds oneDevice settingsBehindType).world.valueUnits := by
  constructor
  · intro h
    have hrow : (runDb twoKinds oneDevice typeAlone).world.valueUnits.Has 1
        ⟨1, some "U", "T", none, 2, true, true⟩ := List.mem_singleton.mpr rfl
    exact absurd (h 1 _ hrow) (by decide)
  · intro h
    have hrow : (runDb twoKinds oneDevice settingsBehindType).world.valueUnits.Has 1
        ⟨1, some "U", "T", none, 2, true, true⟩ := List.mem_singleton.mpr rfl
    exact absurd (h 1 _ hrow) (by decide)

theorem stored_settings_match_iff_alone :
    (∀ pre post, typeAlone = pre ++ post →
      SettingsMatch twoKinds (runDb twoKinds oneDevice pre).world.valueUnits) ↔
      ∀ pre s post, typeAlone = pre ++ s :: post → ∀ c fate,
        (runDb twoKinds oneDevice pre).issued s = some (c, fate) →
          c.Meets (Write.SettingsFit twoKinds) fate (runDb twoKinds oneDevice pre).world :=
  stored_settings_match_iff twoKinds oneDevice oneDevice_matches typeAlone

end ModbusLogger.Db
