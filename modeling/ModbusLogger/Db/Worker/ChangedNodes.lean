import ModbusLogger.Db.Worker.NodeLife
import ModbusLogger.Db.Worker.References

/-!
# Whose configuration a write changes

The configuration of a node is its devices with their values. `Touches` names the nodes that a
statement may concern: those of the rows that it writes, before and after. Of any other node all rows
stay as they are.
-/

namespace ModbusLogger.Db

variable {J : Type} {t t' t'' : Tables J} {id : Int}

/-! ## The nodes of a statement -/

namespace Tables

/-- The node of a device, whether the device is marked deleted or not. -/
def nodeOfDevice? (t : Tables J) (deviceId : Int) : Option Int :=
  (t.devices.get? deviceId).bind DeviceRow.parentNodeId

/-- The device is there, and it is not marked deleted. -/
def isLive (t : Tables J) (deviceId : Int) : Bool :=
  (t.devices.get? deviceId).any fun row => !row.deleted

/-- The node of the device of a value. -/
def nodeOfValue? (t : Tables J) (valueId : Int) : Option Int :=
  (t.valueUnits.get? valueId).bind fun row => t.nodeOfDevice? row.parentDeviceId

theorem nodeOfDevice?_eq_some {deviceId : Int} :
    t.nodeOfDevice? deviceId = some id ↔
      ∃ row, t.devices.Has deviceId row ∧ row.parentNodeId = some id := by
  unfold nodeOfDevice?
  simp only [Option.bind_eq_some_iff, Table.get?_eq_some]

theorem isLive_iff {deviceId : Int} :
    t.isLive deviceId = true ↔ ∃ row, t.devices.Has deviceId row ∧ row.deleted = false := by
  unfold isLive
  simp only [Option.any_eq_true, Table.get?_eq_some, Bool.not_eq_true']

theorem nodeOfValue?_eq_some {valueId : Int} :
    t.nodeOfValue? valueId = some id ↔
      ∃ row, t.valueUnits.Has valueId row ∧ t.nodeOfDevice? row.parentDeviceId = some id := by
  unfold nodeOfValue?
  simp only [Option.bind_eq_some_iff, Table.get?_eq_some]

end Tables

/-- The node is that of a row before or after the statement. A device that is marked deleted does not
come to a node. -/
def Write.Touches (t : Tables J) (id : Int) : Write J → Prop
  | insertNode .. | updateNode .. | deleteMeasures _ => False
  | insertDevice device _ => device.parentNodeId = id
  | updateDevice device => t.nodeOfDevice? device.id = some id ∨
      t.isLive device.id = true ∧ device.parentNodeId = some id
  | insertValue value => t.nodeOfDevice? value.parentDeviceId = some id
  | updateValue value => t.nodeOfValue? value.id = some id ∨
      t.valueUnits.contains value.id = true ∧
        ∃ deviceId ∈ value.parentDeviceId, t.nodeOfDevice? deviceId = some id
  | deleteValue valueId => t.nodeOfValue? valueId = some id
  | deleteDevice deviceId => t.nodeOfDevice? deviceId = some id
  | markDevicesDeleted _ nodeId | deleteNodeValues nodeId | deleteNodeDevices nodeId
  | deleteNode nodeId => nodeId = id ∧ t.nodes.contains id = true

def Call.Touches (t : Tables J) (id : Int) : Call J → Prop
  | read _ | send _ => False
  | write w => w.Touches t id
  | transaction ws => ∃ w ∈ ws, w.Touches t id

/-- What the tables become if the call takes effect. -/
def Call.effect? (t : Tables J) : Call J → Option (Tables J)
  | read _ | send _ => none
  | write w => w.exec t
  | transaction ws => (execAll t ws).toOption

theorem Call.effect?_transaction {ws : List (Write J)} :
    (Call.transaction ws).effect? t = some t' ↔ execAll t ws = .ok t' := by
  show (execAll t ws).toOption = some t' ↔ _
  cases execAll t ws with
  | error w => exact iff_of_false nofun nofun
  | ok next => exact Option.some_inj.trans (Except.ok.injEq _ _).symm.to_iff

instance (t : Tables J) (id : Int) : (w : Write J) → Decidable (w.Touches t id)
  | .insertNode .. | .updateNode .. | .deleteMeasures _ => isFalse not_false
  | .insertDevice .. | .insertValue _ | .deleteValue _ | .deleteDevice _ | .markDevicesDeleted ..
  | .deleteNodeValues _ | .deleteNodeDevices _ | .deleteNode _ => by
      unfold Write.Touches
      infer_instance
  | .updateDevice _ | .updateValue _ => by
      unfold Write.Touches
      infer_instance

instance (t : Tables J) (id : Int) : (c : Call J) → Decidable (c.Touches t id)
  | .read _ | .send _ => isFalse not_false
  | .write w => inferInstanceAs (Decidable (w.Touches t id))
  | .transaction ws => inferInstanceAs (Decidable (∃ w ∈ ws, w.Touches t id))

/-! ## The rows of a node -/

/-- The node is still there if it was, with its devices and their values, and no other ones. -/
structure Untouched (id : Int) (t t' : Tables J) : Prop where
  node : t.nodes.contains id = true → t'.nodes.contains id = true
  stays : ∀ deviceId row, row.parentNodeId = some id → t.devices.Has deviceId row →
    t'.devices.Has deviceId row
  comes : ∀ deviceId row, row.parentNodeId = some id → row.deleted = false →
    t'.devices.Has deviceId row → t.devices.Has deviceId row
  values : ∀ valueId row, t.nodeOfDevice? row.parentDeviceId = some id →
    (t.valueUnits.Has valueId row ↔ t'.valueUnits.Has valueId row)

namespace Untouched

theorem nodeOfDevice? (h : Untouched id t t') {deviceId : Int}
    (hnode : t.nodeOfDevice? deviceId = some id) : t'.nodeOfDevice? deviceId = some id := by
  obtain ⟨row, hrow, hparent⟩ := Tables.nodeOfDevice?_eq_some.mp hnode
  exact Tables.nodeOfDevice?_eq_some.mpr ⟨row, h.stays deviceId row hparent hrow, hparent⟩

/-- The tables with the same nodes and devices. -/
theorem of_values (hnodes : t'.nodes = t.nodes) (hdevices : t'.devices = t.devices)
    (hvalues : ∀ valueId row, t.nodeOfDevice? row.parentDeviceId = some id →
      (t.valueUnits.Has valueId row ↔ t'.valueUnits.Has valueId row)) : Untouched id t t' where
  node h := by rwa [hnodes]
  stays _ _ _ h := by rwa [hdevices]
  comes _ _ _ _ h := by rwa [hdevices] at h
  values := hvalues

theorem refl (id : Int) (t : Tables J) : Untouched id t t := .of_values rfl rfl fun _ _ _ => .rfl

/-- The tables with the same nodes and values. -/
theorem of_devices (hnodes : t'.nodes = t.nodes) (hvalues : t'.valueUnits = t.valueUnits)
    (hstays : ∀ deviceId row, row.parentNodeId = some id → t.devices.Has deviceId row →
      t'.devices.Has deviceId row)
    (hcomes : ∀ deviceId row, row.parentNodeId = some id → row.deleted = false →
      t'.devices.Has deviceId row → t.devices.Has deviceId row) : Untouched id t t' where
  node h := by rwa [hnodes]
  stays := hstays
  comes := hcomes
  values _ _ _ := by rw [hvalues]

theorem trans (h : Untouched id t t') (h' : Untouched id t' t'') : Untouched id t t'' where
  node hnode := h'.node (h.node hnode)
  stays deviceId row hrow hhas := h'.stays deviceId row hrow (h.stays deviceId row hrow hhas)
  comes deviceId row hrow hlive hhas :=
    h.comes deviceId row hrow hlive (h'.comes deviceId row hrow hlive hhas)
  values valueId row hrow :=
    (h.values valueId row hrow).trans (h'.values valueId row (h.nodeOfDevice? hrow))

/-- The devices of the node, and the values of one of them, are read as before. -/
theorem devicesByNode (h : Untouched id t t') :
    (Read.devicesByNode id).exec t' = (Read.devicesByNode id).exec t := by
  unfold Read.exec
  dsimp only
  rw [Table.select_congr fun deviceId row hrow => ?_]
  obtain ⟨hparent, hlive⟩ := of_decide_eq_true hrow
  exact ⟨h.comes deviceId row hparent hlive, h.stays deviceId row hparent⟩

theorem valuesByDevice (h : Untouched id t t') {deviceId : Int}
    (hdevice : t.nodeOfDevice? deviceId = some id) :
    (Read.valuesByDevice deviceId).exec t' = (Read.valuesByDevice deviceId).exec t := by
  unfold Read.exec
  dsimp only
  rw [Table.select_congr fun valueId row hrow => ?_]
  refine (h.values valueId row ?_).symm
  rwa [of_decide_eq_true hrow]

/-- Devices of other nodes are deleted. -/
theorem of_deleteDevices {p : Int → DeviceRow → Bool} (hdelete : t.deleteDevices p = some t')
    (h : ∀ deviceId row, t.devices.Has deviceId row → row.parentNodeId = some id →
      p deviceId row = false) : Untouched id t t' := by
  obtain ⟨-, rfl⟩ := deleteDevices_eq hdelete
  exact .of_devices rfl rfl
    (fun deviceId row hrow hhas => Table.has_delete.mpr ⟨hhas, h deviceId row hhas hrow⟩)
    fun _ _ _ _ hhas => (Table.has_delete.mp hhas).1

theorem of_deleteValues {p : Int → ValueRow J → Bool} (hdelete : t.deleteValues p = some t')
    (h : ∀ valueId row, t.valueUnits.Has valueId row →
      t.nodeOfDevice? row.parentDeviceId = some id → p valueId row = false) : Untouched id t t' := by
  obtain ⟨-, rfl⟩ := deleteValues_eq hdelete
  exact .of_values rfl rfl fun valueId row hrow =>
    Table.has_delete_of fun hhas => h valueId row hhas hrow

/-- Devices of other nodes are changed, and come to no node. -/
theorem of_modifyDevices {p : Int → DeviceRow → Bool} {f : DeviceRow → DeviceRow}
    (hbefore : ∀ deviceId row, t.devices.Has deviceId row → row.parentNodeId = some id →
      p deviceId row = false)
    (hafter : ∀ deviceId row, t.devices.Has deviceId row → p deviceId row = true →
      (f row).parentNodeId = some id → (f row).deleted = true) :
    Untouched id t { t with devices := t.devices.modify p f } := by
  refine .of_devices rfl rfl (fun deviceId row hrow hhas => ?_) fun deviceId row hrow hlive hhas => ?_
  · refine Table.has_modify.mpr ⟨row, hhas, ?_⟩
    rw [if_neg (by simp [hbefore deviceId row hhas hrow])]
  · obtain ⟨old, hold, rfl⟩ := Table.has_modify.mp hhas
    split at hrow
    · next hp =>
        rw [if_pos hp] at hlive
        rw [hafter deviceId old hold hp hrow] at hlive
        cases hlive
    · next hp => rwa [if_neg hp]

end Untouched

/-- A row that has been decoded. -/
theorem mem_decodeAll {R α : Type} {decode : Int → R → Option α} {rows : List (Int × R)} {xs : List α}
    {x : α} (h : decodeAll decode rows = some xs) (hx : x ∈ xs) : ∃ r ∈ rows, decode r.1 r.2 = some x := by
  unfold decodeAll at h
  induction rows generalizing xs with
  | nil =>
      cases h
      cases hx
  | cons r rows ih =>
      rw [List.mapM_cons] at h
      obtain ⟨first, hfirst, hrest⟩ := Option.bind_eq_some_iff.mp h
      obtain ⟨others, hothers, heq⟩ := Option.bind_eq_some_iff.mp hrest
      cases heq
      rcases List.mem_cons.mp hx with rfl | hx
      · exact ⟨r, List.mem_cons_self, hfirst⟩
      · obtain ⟨r', hr', hdecode⟩ := ih hothers hx
        exact ⟨r', List.mem_cons_of_mem _ hr', hdecode⟩

/-- The devices that are read for a node are its devices. -/
theorem nodeOfDevice?_of_mem {devices : List DeviceRead} {device : DeviceRead}
    (h : (Read.devicesByNode id).exec t = some devices) (hdevice : device ∈ devices) :
    t.nodeOfDevice? device.id = some id := by
  obtain ⟨⟨key, row⟩, hr, hdecode⟩ := mem_decodeAll h hdevice
  obtain ⟨hrow, hselected⟩ := Table.mem_select.mp hr
  obtain ⟨parent, -, rfl⟩ := Option.map_eq_some_iff.mp hdecode
  exact Tables.nodeOfDevice?_eq_some.mpr ⟨row, hrow, (of_decide_eq_true hselected).1⟩

/-! ## Statements -/

/-- The node of a device is there. -/
theorem Referential.node (h : Referential t) {deviceId : Int}
    (hnode : t.nodeOfDevice? deviceId = some id) : t.nodes.contains id = true := by
  obtain ⟨row, hrow, hparent⟩ := Tables.nodeOfDevice?_eq_some.mp hnode
  exact h.nodes deviceId row hrow id hparent

/-- **Statements.** A node that a statement does not touch stays as it is. -/
theorem Write.exec_untouched {w : Write J} (href : Referential t) (hexec : w.exec t = some t')
    (h : ¬w.Touches t id) : Untouched id t t' := by
  cases w with
  | insertNode ip port description =>
      cases hexec
      exact ⟨fun hnode => Table.contains_insert.mpr (.inl hnode), fun _ _ _ h => h,
        fun _ _ _ _ h => h, fun _ _ _ => .rfl⟩
  | updateNode nodeId ip port description =>
      cases hexec
      exact ⟨fun hnode => Table.contains_modify.mpr hnode, fun _ _ _ h => h,
        fun _ _ _ _ h => h, fun _ _ _ => .rfl⟩
  | insertDevice device description =>
      obtain ⟨-, heq⟩ := Option.ite_none_right_eq_some.mp hexec
      cases heq
      refine .of_devices rfl rfl (fun deviceId row hrow hhas => ?_) fun deviceId row hrow _ hhas => ?_
      · exact Table.has_insert.mpr (.inl hhas)
      · rcases Table.has_insert.mp hhas with hold | ⟨-, rfl⟩
        · exact hold
        · exact absurd (Option.some.inj hrow) h
  | updateDevice device =>
      obtain ⟨-, heq⟩ := Option.ite_none_right_eq_some.mp hexec
      cases heq
      obtain ⟨hbefore, hafter⟩ := not_or.mp h
      have hother (deviceId : Int) (row : DeviceRow) (hhas : t.devices.Has deviceId row)
          (hrow : row.parentNodeId = some id) : decide (deviceId = device.id) = false := by
        rw [decide_eq_false_iff_not]
        rintro rfl
        exact hbefore (Tables.nodeOfDevice?_eq_some.mpr ⟨row, hhas, hrow⟩)
      refine .of_modifyDevices hother fun deviceId row hhas hid hparent => ?_
      cases hsent : device.parentNodeId with
      | none =>
          simp only [DeviceUpdate.set, hsent] at hparent
          rw [hother deviceId row hhas hparent] at hid
          cases hid
      | some parent =>
          simp only [DeviceUpdate.set, hsent] at hparent
          obtain rfl := of_decide_eq_true hid
          -- Only a device that is marked deleted may come.
          by_contra hlive
          rw [Bool.not_eq_true] at hlive
          exact hafter ⟨Tables.isLive_iff.mpr ⟨row, hhas, hlive⟩, hsent.trans hparent⟩
  | insertValue value =>
      obtain ⟨-, heq⟩ := Option.ite_none_right_eq_some.mp hexec
      cases heq
      refine .of_values rfl rfl fun valueId row hrow => ?_
      apply Table.has_insert_of_ne
      rintro rfl
      exact h hrow
  | updateValue value =>
      unfold Write.exec at hexec
      dsimp only at hexec
      split at hexec
      · next before hget =>
          obtain ⟨-, heq⟩ := Option.ite_none_right_eq_some.mp hexec
          cases heq
          obtain ⟨hbefore, hafter⟩ := not_or.mp h
          refine .of_values rfl rfl fun valueId row hrow => ?_
          apply Table.has_modify_of (P := fun row => t.nodeOfDevice? row.parentDeviceId = some id) hrow
          · rintro old hold hparent
            rw [decide_eq_false_iff_not]
            rintro rfl
            exact hbefore (Tables.nodeOfValue?_eq_some.mpr ⟨old, hold, hparent⟩)
          · intro old hold hid hparent
            obtain rfl := of_decide_eq_true hid
            cases hsent : value.parentDeviceId with
            | none =>
                simp only [ValueUpdate.set, hsent] at hparent
                exact hbefore (Tables.nodeOfValue?_eq_some.mpr ⟨old, hold, hparent⟩)
            | some deviceId =>
                simp only [ValueUpdate.set, hsent] at hparent
                exact hafter ⟨hold.contains, deviceId, hsent, hparent⟩
      · cases hexec
        exact .refl _ _
  | deleteMeasures valueId =>
      cases hexec
      exact .of_values rfl rfl fun _ _ _ => .rfl
  | deleteValue valueId =>
      refine .of_deleteValues hexec fun key row hhas hrow => ?_
      rw [decide_eq_false_iff_not]
      rintro rfl
      exact h (Tables.nodeOfValue?_eq_some.mpr ⟨row, hhas, hrow⟩)
  | deleteDevice deviceId =>
      refine .of_deleteDevices hexec fun key row hhas hrow => ?_
      rw [decide_eq_false_iff_not]
      rintro rfl
      exact h (Tables.nodeOfDevice?_eq_some.mpr ⟨row, hhas, hrow⟩)
  | markDevicesDeleted ts nodeId =>
      cases hexec
      refine .of_modifyDevices (fun key row hhas hrow => ?_) fun _ _ _ _ _ => rfl
      rw [decide_eq_false_iff_not]
      rintro ⟨hnode, -⟩
      exact h ⟨Option.some.inj (hnode.symm.trans hrow), href.nodes key row hhas id hrow⟩
  | deleteNodeValues nodeId =>
      refine .of_deleteValues hexec fun key row hhas hrow => ?_
      obtain ⟨device, hdevice, hparent⟩ := Tables.nodeOfDevice?_eq_some.mp hrow
      unfold Tables.valueOfNode
      rw [Table.get?_eq_some.mpr hdevice]
      rw [decide_eq_false_iff_not]
      rintro ⟨hnode, -⟩
      exact h ⟨Option.some.inj (hnode.symm.trans hparent), href.node hrow⟩
  | deleteNodeDevices nodeId =>
      refine .of_deleteDevices hexec fun key row hhas hrow => ?_
      rw [decide_eq_false_iff_not]
      rintro ⟨hnode, -⟩
      exact h ⟨Option.some.inj (hnode.symm.trans hrow), href.nodes key row hhas id hrow⟩
  | deleteNode nodeId =>
      cases hexec
      refine ⟨fun hnode => ?_, fun key row hrow hhas => ?_, fun key row hrow _ hhas => ?_,
        fun _ _ _ => .rfl⟩
      · obtain ⟨row, hhas⟩ := Table.contains_iff.mp hnode
        refine Table.contains_delete.mpr ⟨row, hhas, ?_⟩
        rw [decide_eq_false_iff_not]
        exact fun heq => h ⟨heq.symm, hnode⟩
      · refine Table.has_modify.mpr ⟨row, hhas, ?_⟩
        rw [if_neg]
        intro hnode
        have heq := (of_decide_eq_true hnode).symm.trans hrow
        exact h ⟨Option.some.inj heq, href.nodes key row hhas id hrow⟩
      · obtain ⟨old, hold, rfl⟩ := Table.has_modify.mp hhas
        split at hrow
        · cases hrow
        · next hnode => rwa [if_neg hnode]

/-! ## Transactions -/

/-- No node has come, no device to a node, and no value. -/
structure Shrinks (t t' : Tables J) : Prop where
  nodes : ∀ nodeId, t'.nodes.contains nodeId = true → t.nodes.contains nodeId = true
  devices : ∀ deviceId nodeId, t'.nodeOfDevice? deviceId = some nodeId →
    t.nodeOfDevice? deviceId = some nodeId
  values : ∀ valueId row, t'.valueUnits.Has valueId row → t.valueUnits.Has valueId row

theorem Write.Removes.shrinks {w : Write J} (hw : w.Removes) (hexec : w.exec t = some t') :
    Shrinks t t' := by
  cases w with
  | insertNode | updateNode | insertDevice | updateDevice | insertValue | updateValue => exact hw.elim
  | deleteMeasures valueId =>
      cases hexec
      exact ⟨fun _ h => h, fun _ _ h => h, fun _ _ h => h⟩
  | deleteValue | deleteNodeValues =>
      obtain ⟨-, rfl⟩ := deleteValues_eq hexec
      exact ⟨fun _ h => h, fun _ _ h => h, fun _ _ h => (Table.has_delete.mp h).1⟩
  | deleteDevice | deleteNodeDevices =>
      obtain ⟨-, rfl⟩ := deleteDevices_eq hexec
      refine ⟨fun _ h => h, fun deviceId nodeId h => ?_, fun _ _ h => h⟩
      obtain ⟨row, hrow, hparent⟩ := Tables.nodeOfDevice?_eq_some.mp h
      exact Tables.nodeOfDevice?_eq_some.mpr ⟨row, (Table.has_delete.mp hrow).1, hparent⟩
  | markDevicesDeleted ts marked =>
      cases hexec
      refine ⟨fun _ h => h, fun deviceId nodeId h => ?_, fun _ _ h => h⟩
      obtain ⟨row, hrow, hparent⟩ := Tables.nodeOfDevice?_eq_some.mp h
      obtain ⟨old, hold, rfl⟩ := Table.has_modify.mp hrow
      refine Tables.nodeOfDevice?_eq_some.mpr ⟨old, hold, ?_⟩
      split at hparent <;> exact hparent
  | deleteNode gone =>
      cases hexec
      refine ⟨fun nodeId h => ?_, fun deviceId nodeId h => ?_, fun _ _ h => h⟩
      · obtain ⟨row, hrow, -⟩ := Table.contains_delete.mp h
        exact hrow.contains
      · obtain ⟨row, hrow, hparent⟩ := Tables.nodeOfDevice?_eq_some.mp h
        obtain ⟨old, hold, rfl⟩ := Table.has_modify.mp hrow
        refine Tables.nodeOfDevice?_eq_some.mpr ⟨old, hold, ?_⟩
        split at hparent
        · cases hparent
        · exact hparent

/-- What a deletion touches later it touches before. -/
theorem Write.Touches.of_shrinks {w : Write J} (hw : w.Removes) (hshrinks : Shrinks t t')
    (h : w.Touches t' id) : w.Touches t id := by
  cases w with
  | insertNode | updateNode | insertDevice | updateDevice | insertValue | updateValue => exact hw.elim
  | deleteMeasures => exact h
  | deleteDevice deviceId => exact hshrinks.devices deviceId id h
  | deleteValue valueId =>
      obtain ⟨row, hrow, hnode⟩ := Tables.nodeOfValue?_eq_some.mp h
      exact Tables.nodeOfValue?_eq_some.mpr
        ⟨row, hshrinks.values valueId row hrow, hshrinks.devices _ id hnode⟩
  | markDevicesDeleted | deleteNodeValues | deleteNodeDevices | deleteNode =>
      exact ⟨h.1, hshrinks.nodes id h.2⟩

theorem execAll_untouched {ws : List (Write J)} (href : Referential t) (hws : ∀ w ∈ ws, w.Removes)
    (hexec : execAll t ws = .ok t') (h : ∀ w ∈ ws, ¬w.Touches t id) : Untouched id t t' := by
  induction ws generalizing t with
  | nil =>
      cases hexec
      exact .refl id _
  | cons w ws ih =>
      obtain ⟨hw, hws⟩ := List.forall_mem_cons.mp hws
      obtain ⟨hfirst, hrest⟩ := List.forall_mem_cons.mp h
      obtain ⟨next, hnext, hexec⟩ := execAll_cons.mp hexec
      have hnextRef := Write.exec_referential href hnext
      refine (Write.exec_untouched href hnext hfirst).trans
        (ih hnextRef hws hexec fun w' hw' htouches => ?_)
      exact hrest w' hw' (htouches.of_shrinks (hws w' hw') (hw.shrinks hnext))

/-! ## Calls -/

/-- A write does nothing, or it takes effect and is answered so if it is confirmed. -/
theorem perform_write_effect (w : Write J) (fate : Fate) (t : Tables J) :
    (perform (.write w) fate t).1 = t ∨
      fate.applied = true ∧ w.exec t = some (perform (.write w) fate t).1 ∧
        (fate.confirmed = true → (perform (.write w) fate t).2 = .ok ()) := by
  unfold perform
  dsimp only
  cases w.exec t with
  | none => exact .inl rfl
  | some t' =>
      cases happlied : fate.applied with
      | false => exact .inl rfl
      | true =>
          refine .inr ⟨rfl, rfl, fun hconfirmed => ?_⟩
          simp [Fate.succeeds, happlied, hconfirmed]

theorem perform_transaction_effect (ws : List (Write J)) (fate : Fate) (t : Tables J) :
    (perform (.transaction ws) fate t).1 = t ∨
      fate.applied = true ∧ execAll t ws = .ok (perform (.transaction ws) fate t).1 ∧
        (fate.confirmed = true → (perform (.transaction ws) fate t).2 = .ok ()) := by
  unfold perform
  dsimp only
  cases execAll t ws with
  | error w => exact .inl rfl
  | ok t' =>
      cases happlied : fate.applied with
      | false => exact .inl rfl
      | true =>
          refine .inr ⟨rfl, rfl, fun hconfirmed => ?_⟩
          simp [Fate.succeeds, happlied, hconfirmed]

/-! ## Keys -/

/-- The foreign keys hold, and `AUTO_INCREMENT` has started above zero. -/
structure NodeKeyed (t : Tables J) : Prop extends Referential t where
  positive : ∀ nodeId, t.nodes.contains nodeId = true → 0 < nodeId
  next : 0 < t.nodes.next

theorem keyed_empty : NodeKeyed (Tables.empty : Tables J) where
  toReferential := referential_empty
  positive nodeId h := by
    obtain ⟨row, hrow⟩ := Table.contains_iff.mp h
    exact absurd hrow Table.not_has_empty
  next := Int.one_pos

/-- A new node has the next key. -/
theorem Write.exec_nodeKeys {w : Write J} (hexec : w.exec t = some t') :
    (∀ nodeId, t'.nodes.contains nodeId = true →
        t.nodes.contains nodeId = true ∨ nodeId = t.nodes.next) ∧
      t.nodes.next ≤ t'.nodes.next := by
  by_cases hinsert : ∃ ip port description, w = .insertNode ip port description
  · obtain ⟨ip, port, description, rfl⟩ := hinsert
    cases hexec
    exact ⟨fun nodeId h => Table.contains_insert.mp h, Int.le_of_lt (Int.lt_succ _)⟩
  · have hkept : ∃ gone, NodesWithout gone t t' := by
      by_cases hdelete : ∃ nodeId, w = .deleteNode nodeId
      · obtain ⟨nodeId, rfl⟩ := hdelete
        have hremoves : (Write.deleteNode nodeId : Write J).Removes := trivial
        exact ⟨_, hremoves.exec_nodes hexec⟩
      · have hharmless : Call.Harmless (.write w) := by
          cases w with
          | insertNode ip port description => exact absurd ⟨ip, port, description, rfl⟩ hinsert
          | deleteNode nodeId => exact absurd ⟨nodeId, rfl⟩ hdelete
          | _ => exact trivial
        exact ⟨_, Write.exec_nodes hharmless hexec⟩
    obtain ⟨gone, hnodes⟩ := hkept
    exact ⟨fun nodeId h => .inl ((hnodes.ids nodeId).mp h).1, hnodes.next.ge⟩

theorem Write.exec_keyed {w : Write J} (h : NodeKeyed t) (hexec : w.exec t = some t') : NodeKeyed t' := by
  obtain ⟨hkeys, hnext⟩ := Write.exec_nodeKeys hexec
  refine ⟨Write.exec_referential h.toReferential hexec, fun nodeId hnode => ?_, h.next.trans_le hnext⟩
  rcases hkeys nodeId hnode with hold | rfl
  · exact h.positive nodeId hold
  · exact h.next

theorem perform_keyed (h : NodeKeyed t) (c : Call J) (fate : Fate) : NodeKeyed (perform c fate t).1 := by
  rcases perform_cases c fate t with hsame | ⟨w, -, hexec⟩ | ⟨ws, -, hexec⟩
  · rwa [hsame]
  · exact Write.exec_keyed h hexec
  · exact execAll_keeps (fun _ _ _ _ ha hw => Write.exec_keyed ha hw) h hexec

end ModbusLogger.Db
