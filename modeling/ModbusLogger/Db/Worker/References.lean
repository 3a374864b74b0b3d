import ModbusLogger.Db.Worker.DbMaster

/-!
# What refers to what

Devices refer to nodes, values to devices, measures to values. A statement that would break a
reference is refused, so the references hold in every run. A key never comes back, so a value that is
gone stays away.
-/

namespace ModbusLogger.Db

variable {J : Type} {t t' : Tables J}

/-- The foreign keys of `init_database`. -/
structure Referential (t : Tables J) : Prop where
  nodes : ∀ id row, t.devices.Has id row → ∀ nodeId, row.parentNodeId = some nodeId →
    t.nodes.contains nodeId = true
  devices : ∀ id row, t.valueUnits.Has id row → t.devices.contains row.parentDeviceId = true
  values : ∀ id row, t.measures.Has id row → t.valueUnits.contains row.valueId = true

theorem referential_empty : Referential (Tables.empty : Tables J) where
  nodes _ _ h := absurd h Table.not_has_empty
  devices _ _ h := absurd h Table.not_has_empty
  values _ _ h := absurd h Table.not_has_empty

/-! ## Statements -/

/-- No value stands on a device that goes. -/
theorem allowsDeviceDelete_iff {p : Int → DeviceRow → Bool} :
    t.allowsDeviceDelete p = true ↔ ∀ id value, t.valueUnits.Has id value →
      ∀ row, t.devices.Has value.parentDeviceId row → p value.parentDeviceId row = false := by
  unfold Tables.allowsDeviceDelete
  exact Table.unreferenced_iff

/-- No measure stands on a value that goes. -/
theorem allowsValueDelete_iff {p : Int → ValueRow J → Bool} :
    t.allowsValueDelete p = true ↔ ∀ id measure, t.measures.Has id measure →
      ∀ row, t.valueUnits.Has measure.valueId row → p measure.valueId row = false := by
  unfold Tables.allowsValueDelete
  exact Table.unreferenced_iff

/-! ## Values and measures -/

/-- What a write does to the values. -/
theorem Write.exec_valueUnits {w : Write J} (h : w.exec t = some t') :
    t'.valueUnits = t.valueUnits ∨
      (∃ value, w = .insertValue value ∧ t'.valueUnits = t.valueUnits.insert value.row) ∨
      (∃ value, w = .updateValue value ∧
        t'.valueUnits = t.valueUnits.modify (fun key _ => key = value.id) value.set) ∨
      ∃ p, t'.valueUnits = t.valueUnits.delete p := by
  have hafter := Write.valuesAfter h
  generalize t'.valueUnits = values at hafter ⊢
  cases hafter with
  | kept => exact .inl rfl
  | inserted value _ => exact .inr (.inl ⟨value, rfl, rfl⟩)
  | updated value _ _ => exact .inr (.inr (.inl ⟨value, rfl, rfl⟩))
  | deleted _ p => exact .inr (.inr (.inr ⟨p, rfl⟩))

/-- Only one statement deletes measures. -/
theorem Write.exec_measures {w : Write J} (h : w.exec t = some t') :
    t'.measures = t.measures ∨ ∃ valueId, w = .deleteMeasures valueId ∧
      t'.measures = t.measures.delete fun _ row => row.valueId = valueId := by
  cases w with
  | deleteMeasures valueId =>
      cases h
      exact .inr ⟨valueId, rfl, rfl⟩
  | insertNode | updateNode | markDevicesDeleted | deleteNode =>
      cases h
      exact .inl rfl
  | insertDevice | updateDevice | insertValue =>
      obtain ⟨-, heq⟩ := Option.ite_none_right_eq_some.mp h
      cases heq
      exact .inl rfl
  | updateValue value =>
      simp only [Write.exec] at h
      split at h
      · obtain ⟨-, heq⟩ := Option.ite_none_right_eq_some.mp h
        cases heq
        exact .inl rfl
      · cases h
        exact .inl rfl
  | deleteValue | deleteNodeValues =>
      obtain ⟨-, rfl⟩ := deleteValues_eq h
      exact .inl rfl
  | deleteDevice | deleteNodeDevices =>
      obtain ⟨-, rfl⟩ := deleteDevices_eq h
      exact .inl rfl

/-! ## The references hold -/

/-- Deletions that the references allow. -/
theorem Referential.deleteDevices (h : Referential t) {p : Int → DeviceRow → Bool}
    (hexec : t.deleteDevices p = some t') : Referential t' := by
  obtain ⟨hallows, rfl⟩ := deleteDevices_eq hexec
  refine ⟨fun id row hrow => h.nodes id row (Table.has_delete.mp hrow).1, ?_, h.values⟩
  intro id value hvalue
  obtain ⟨row, hrow⟩ := Table.contains_iff.mp (h.devices id value hvalue)
  exact Table.contains_delete.mpr ⟨row, hrow, allowsDeviceDelete_iff.mp hallows id value hvalue row hrow⟩

theorem Referential.deleteValues (h : Referential t) {p : Int → ValueRow J → Bool}
    (hexec : t.deleteValues p = some t') : Referential t' := by
  obtain ⟨hallows, rfl⟩ := deleteValues_eq hexec
  refine ⟨h.nodes, fun id row hrow => h.devices id row (Table.has_delete.mp hrow).1, ?_⟩
  intro id measure hmeasure
  obtain ⟨row, hrow⟩ := Table.contains_iff.mp (h.values id measure hmeasure)
  exact Table.contains_delete.mpr
    ⟨row, hrow, allowsValueDelete_iff.mp hallows id measure hmeasure row hrow⟩

theorem Write.exec_referential {w : Write J} (h : Referential t) (hexec : w.exec t = some t') :
    Referential t' := by
  cases w with
  | insertNode ip port description =>
      cases hexec
      exact ⟨fun id row hrow nodeId hparent =>
        Table.contains_insert.mpr (.inl (h.nodes id row hrow nodeId hparent)), h.devices, h.values⟩
  | updateNode id ip port description =>
      cases hexec
      exact ⟨fun id row hrow nodeId hparent =>
        Table.contains_modify.mpr (h.nodes id row hrow nodeId hparent), h.devices, h.values⟩
  | insertDevice device description =>
      obtain ⟨hparent, heq⟩ := Option.ite_none_right_eq_some.mp hexec
      cases heq
      refine ⟨fun id row hrow nodeId hnode => ?_,
        fun id row hrow => Table.contains_insert.mpr (.inl (h.devices id row hrow)), h.values⟩
      rcases Table.has_insert.mp hrow with hold | ⟨-, rfl⟩
      · exact h.nodes id row hold nodeId hnode
      · cases hnode
        exact hparent
  | updateDevice device =>
      obtain ⟨hparent, heq⟩ := Option.ite_none_right_eq_some.mp hexec
      cases heq
      refine ⟨fun id row hrow nodeId hnode => ?_,
        fun id row hrow => Table.contains_modify.mpr (h.devices id row hrow), h.values⟩
      obtain ⟨old, hold, rfl⟩ := Table.has_modify.mp hrow
      split at hnode
      · next hid =>
          obtain rfl := of_decide_eq_true hid
          have hexists : device.parentNodeId.all t.nodes.contains = true :=
            hparent.resolve_right fun hnone => hnone hold.contains
          cases hsent : device.parentNodeId with
          | none =>
              simp only [DeviceUpdate.set, hsent] at hnode
              exact h.nodes _ old hold nodeId hnode
          | some parent =>
              simp only [DeviceUpdate.set, hsent] at hnode
              rw [hsent] at hexists
              cases hnode
              exact hexists
      · exact h.nodes id old hold nodeId hnode
  | insertValue value =>
      obtain ⟨hallows, heq⟩ := Option.ite_none_right_eq_some.mp hexec
      cases heq
      refine ⟨h.nodes, fun id row hrow => ?_,
        fun id row hrow => Table.contains_insert.mpr (.inl (h.values id row hrow))⟩
      rcases Table.has_insert.mp hrow with hold | ⟨-, rfl⟩
      · exact h.devices id row hold
      · exact (of_decide_eq_true hallows).1
  | updateValue value =>
      simp only [Write.exec] at hexec
      split at hexec
      · next row hget =>
          obtain ⟨hallows, heq⟩ := Option.ite_none_right_eq_some.mp hexec
          cases heq
          refine ⟨h.nodes, fun id row' hrow' => ?_,
            fun id row hrow => Table.contains_modify.mpr (h.values id row hrow)⟩
          obtain ⟨old, hold, rfl⟩ := Table.has_modify.mp hrow'
          split
          · next hid =>
              obtain rfl := of_decide_eq_true hid
              obtain rfl := hold.unique (Table.get?_eq_some.mp hget)
              exact (of_decide_eq_true hallows).1
          · exact h.devices id old hold
      · cases hexec
        exact h
  | deleteMeasures valueId =>
      cases hexec
      exact ⟨h.nodes, h.devices, fun id row hrow => h.values id row (Table.has_delete.mp hrow).1⟩
  | markDevicesDeleted ts nodeId =>
      cases hexec
      refine ⟨fun id row hrow nodeId hparent => ?_,
        fun id row hrow => Table.contains_modify.mpr (h.devices id row hrow), h.values⟩
      obtain ⟨old, hold, rfl⟩ := Table.has_modify.mp hrow
      apply h.nodes id old hold
      split at hparent <;> exact hparent
  | deleteNode nodeId =>
      cases hexec
      refine ⟨fun id row hrow parent hparent => ?_,
        fun id row hrow => Table.contains_modify.mpr (h.devices id row hrow), h.values⟩
      obtain ⟨old, hold, rfl⟩ := Table.has_modify.mp hrow
      split at hparent
      · cases hparent
      · next hother =>
          obtain ⟨node, hnode⟩ := Table.contains_iff.mp (h.nodes id old hold parent hparent)
          refine Table.contains_delete.mpr ⟨node, hnode, decide_eq_false ?_⟩
          rintro rfl
          exact hother (decide_eq_true hparent)
  | deleteValue | deleteNodeValues => exact h.deleteValues hexec
  | deleteDevice | deleteNodeDevices => exact h.deleteDevices hexec

theorem execAll_referential {ws : List (Write J)} (h : Referential t)
    (hexec : execAll t ws = .ok t') : Referential t' :=
  execAll_keeps (fun _ _ _ _ ha hw => Write.exec_referential ha hw) h hexec

/-! ## Keys of values -/

/-- Nothing comes back. -/
structure NoReturn (t t' : Tables J) : Prop where
  next : t.valueUnits.next ≤ t'.valueUnits.next
  old : ∀ id, id < t.valueUnits.next → t'.valueUnits.contains id = true →
    t.valueUnits.contains id = true

theorem NoReturn.refl (t : Tables J) : NoReturn t t := ⟨Int.le_refl _, fun _ _ h => h⟩

theorem NoReturn.trans {t'' : Tables J} (h : NoReturn t t') (h' : NoReturn t' t'') :
    NoReturn t t'' :=
  ⟨h.next.trans h'.next, fun id hid hcontains =>
    h.old id hid (h'.old id (hid.trans_le h.next) hcontains)⟩

theorem NoReturn.of_eq (h : t'.valueUnits = t.valueUnits) : NoReturn t t' := by
  constructor
  · rw [h]
  · intro id _ hcontains
    rwa [h] at hcontains

theorem Write.exec_noReturn {w : Write J} (h : w.exec t = some t') : NoReturn t t' := by
  rcases Write.exec_valueUnits h with
    hsame | ⟨value, -, hinsert⟩ | ⟨value, -, hmodify⟩ | ⟨p, hdelete⟩
  · exact .of_eq hsame
  · constructor
    · rw [hinsert]
      exact Int.le_of_lt (Int.lt_succ _)
    · intro id hid hcontains
      rw [hinsert] at hcontains
      rcases Table.contains_insert.mp hcontains with hold | rfl
      · exact hold
      · exact absurd hid (Int.lt_irrefl _)
  · constructor
    · rw [hmodify]
      exact Int.le_refl _
    · intro id _ hcontains
      rw [hmodify] at hcontains
      exact Table.contains_modify.mp hcontains
  · constructor
    · rw [hdelete]
      exact Int.le_refl _
    · intro id _ hcontains
      rw [hdelete] at hcontains
      obtain ⟨row, hrow, -⟩ := Table.contains_delete.mp hcontains
      exact hrow.contains

theorem execAll_noReturn {ws : List (Write J)} (h : execAll t ws = .ok t') : NoReturn t t' :=
  execAll_keeps (I := NoReturn t) (fun _ _ _ _ ha hw => ha.trans (Write.exec_noReturn hw)) (.refl t) h

/-- A value that a transaction deletes is gone after it. -/
theorem execAll_deleted {ws : List (Write J)} (hws : ∀ w ∈ ws, w.Removes) {id : Int}
    (hmem : .deleteValue id ∈ ws) (h : execAll t ws = .ok t') :
    t'.valueUnits.contains id = false := by
  have hstays {ws : List (Write J)} (hws : ∀ w ∈ ws, w.Removes) {t t' : Tables J}
      (h : execAll t ws = .ok t') (hgone : t.valueUnits.contains id = false) :
      t'.valueUnits.contains id = false := by
    refine execAll_keeps (I := fun a => a.valueUnits.contains id = false)
      (fun w hmem a b hgone hw => ?_) hgone h
    have hw' := hws w hmem
    rcases Write.exec_valueUnits hw with hsame | ⟨value, rfl, -⟩ | ⟨value, rfl, -⟩ | ⟨p, hdelete⟩
    · rw [hsame, hgone]
    · exact hw'.elim
    · exact hw'.elim
    · rw [hdelete, Bool.eq_false_iff]
      intro hcontains
      obtain ⟨row, hrow, -⟩ := Table.contains_delete.mp hcontains
      rw [hrow.contains] at hgone
      cases hgone
  induction ws generalizing t with
  | nil => cases hmem
  | cons w ws ih =>
      have hrest : ∀ w' ∈ ws, w'.Removes := fun w' hw' => hws w' (List.mem_cons_of_mem w hw')
      obtain ⟨next, hw, hnext⟩ := execAll_cons.mp h
      rcases List.mem_cons.mp hmem with rfl | hlater
      · apply hstays hrest hnext
        obtain ⟨-, rfl⟩ := deleteValues_eq hw
        rw [Bool.eq_false_iff]
        intro hcontains
        obtain ⟨row, -, hother⟩ := Table.contains_delete.mp hcontains
        simp at hother
      · exact ih hrest hlater hnext

/-- A measure that a transaction loses belongs to a value whose measures it deletes. -/
theorem execAll_measures {ws : List (Write J)} {key : Int} {row : MeasureRow}
    (hws : .deleteMeasures row.valueId ∉ ws) (h : execAll t ws = .ok t')
    (hrow : t.measures.Has key row) : t'.measures.Has key row := by
  refine execAll_keeps (I := fun a => a.measures.Has key row) (fun w hmem a b hrow hw => ?_) hrow h
  rcases Write.exec_measures hw with hsame | ⟨valueId, rfl, hdelete⟩
  · rwa [hsame]
  · rw [hdelete, Table.has_delete]
    refine ⟨hrow, decide_eq_false ?_⟩
    rintro rfl
    exact hws hmem

/-! ## The calls of the commands -/

/-- The transaction of a deletion of a node. -/
def deleteNodeStatements (ts nodeId : Int) : List (Write J) :=
  [.markDevicesDeleted ts nodeId, .deleteNodeValues nodeId, .deleteNodeDevices nodeId,
    .deleteNode nodeId]

/-- The transaction of a deletion of a device, with the values that were read before. -/
def deleteDeviceStatements (ids : List Int) (deviceId : Int) : List (Write J) :=
  ids.flatMap deleteValueStatements ++ [.deleteDevice deviceId]

/-- The calls that there are: an insertion or an update alone, or one of three transactions. -/
inductive Call.Formed : Call J → Prop
  | read (r : Read) : (Call.read r).Formed
  | send (event : ConfigEvent) : (Call.send event).Formed
  | write {w : Write J} (h : ¬w.Removes) : (Call.write w).Formed
  | deleteNode (ts nodeId : Int) : (Call.transaction (deleteNodeStatements ts nodeId)).Formed
  | deleteValue (id : Int) : (Call.transaction (deleteValueStatements id)).Formed
  | deleteDevice (ids : List Int) (deviceId : Int) :
    (Call.transaction (deleteDeviceStatements ids deviceId)).Formed

theorem Command.task_formed (lib : Libraries J) (command : Command J) :
    (command.task lib).Every Call.Formed fun _ => True := by
  cases command with
  | nodeCreate node => exact createNode_every node .read (fun _ => .send _) (.write id)
  | nodeUpdate node => exact updateNode_every node .read (fun _ => .send _) (.write id)
  | nodeDelete ts node => exact deleteNode_every ts node .read (fun _ => .send _) (.deleteNode ts _)
  | deviceCreate device =>
      exact createDevice_every device .read (fun _ => .send _) fun _ => .write id
  | deviceUpdate device =>
      exact updateDevice_every device .read (fun _ => .send _) fun _ => .write id
  | deviceDelete device =>
      exact deleteDevice_every device .read (fun _ => .send _) fun ids => .deleteDevice ids _
  | valueCreate value => exact createValue_every value .read (fun _ => .send _) fun _ => .write id
  | valueUpdate value => exact valueUpdate_every value .read (fun _ => .send _) fun _ => .write id
  | valueDelete value => exact deleteValue_every value .read (fun _ => .send _) (.deleteValue _)

/-- A transaction that deletes the measures of a value deletes the value. -/
theorem Call.Formed.pairs {ws : List (Write J)} (h : (Call.transaction ws).Formed) :
    (∀ w ∈ ws, w.Removes) ∧ ∀ id, .deleteMeasures id ∈ ws → .deleteValue id ∈ ws := by
  cases h with
  | deleteNode ts nodeId => simp [deleteNodeStatements, Write.Removes]
  | deleteValue id =>
      exact ⟨fun w hw => (deleteValueStatements_clears id w hw).removes,
        by simp [deleteValueStatements]⟩
  | deleteDevice ids deviceId =>
      exact ⟨fun w hw => (deleteDeviceStatements_clears ids deviceId w hw).removes,
        by simp [deleteDeviceStatements, deleteValueStatements]⟩

/-! ## Calls -/

/-- What a call leaves behind. -/
theorem perform_cases (c : Call J) (fate : Fate) (t : Tables J) :
    (perform c fate t).1 = t ∨
      (∃ w, c = .write w ∧ w.exec t = some (perform c fate t).1) ∨
      ∃ ws, c = .transaction ws ∧ execAll t ws = .ok (perform c fate t).1 := by
  cases c with
  | read r =>
      unfold perform
      dsimp only
      split <;> exact .inl rfl
  | send event => exact .inl rfl
  | write w =>
      unfold perform
      dsimp only
      split
      · next t' hexec =>
          dsimp only
          split
          · exact .inr (.inl ⟨w, rfl, hexec⟩)
          · exact .inl rfl
      · exact .inl rfl
  | transaction ws =>
      unfold perform
      dsimp only
      split
      · next t' hexec =>
          dsimp only
          split
          · exact .inr (.inr ⟨ws, rfl, hexec⟩)
          · exact .inl rfl
      · exact .inl rfl

theorem perform_referential (h : Referential t) (c : Call J) (fate : Fate) :
    Referential (perform c fate t).1 := by
  rcases perform_cases c fate t with hsame | ⟨w, -, hexec⟩ | ⟨ws, -, hexec⟩
  · rwa [hsame]
  · exact Write.exec_referential h hexec
  · exact execAll_referential h hexec

end ModbusLogger.Db
