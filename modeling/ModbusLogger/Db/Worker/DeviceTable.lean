import ModbusLogger.Db.Worker.DbMaster

/-!
# The device table

What the columns of a device may hold, and that a Modbus address belongs to one device of a node. The
checks come before the write, in statements of their own, and no key repeats them. So the table stays
valid exactly as long as every write that takes effect finds the address still free, and no update
sends a zero, which `update_device` lets through and `create_device` does not.
-/

namespace ModbusLogger.Db

variable {J : Type}

/-! ## Valid tables -/

/-- The bounds of `create_device`. -/
def DeviceRow.InBounds (row : DeviceRow) : Prop :=
  (0 ≤ row.address ∧ row.address ≤ 255) ∧ 0 < row.timeForRecall ∧ 0 < row.timeout ∧
    0 < row.retryCount

/-- A device that is not deleted. -/
def LiveDevice (devices : Table DeviceRow) (id : Int) (row : DeviceRow) : Prop :=
  devices.Has id row ∧ row.deleted = false

structure ValidDevices (devices : Table DeviceRow) : Prop where
  bounds : ∀ id row, LiveDevice devices id row → row.InBounds
  unique : ∀ id id' row row' node, LiveDevice devices id row → LiveDevice devices id' row' →
    row.parentNodeId = some node → row'.parentNodeId = some node → row.address = row'.address →
    id = id'

/-- Another device of the node has the address. -/
def AddressTaken (devices : Table DeviceRow) (self : Option Int) (node address : Int) : Prop :=
  ∃ id row, LiveDevice devices id row ∧ row.parentNodeId = some node ∧ row.address = address ∧
    some id ≠ self

/-- The check of `create_device`, made when the row is written. -/
theorem deviceByAddress_eq_none_iff (t : Tables J) (address node : Int) :
    (Read.deviceByAddress (some address) (some node)).exec t = some none ↔
      ¬AddressTaken t.devices none node address := by
  have hmatch (row : DeviceRow) : row.matchesAddress (some address) (some node) = true ↔
      row.address = address ∧ row.parentNodeId = some node ∧ row.deleted = false := by
    simp only [DeviceRow.matchesAddress, Option.getD_some, decide_eq_true_eq]
    constructor
    · rintro ⟨haddress, -, hnode, hlive⟩
      exact ⟨haddress, hnode, hlive⟩
    · rintro ⟨haddress, hnode, hlive⟩
      exact ⟨haddress, by simp [hnode], hnode, hlive⟩
  show decodeFirst _ _ = some none ↔ _
  constructor
  · rintro hnone ⟨id, row, ⟨hhas, hlive⟩, hnode, haddress, -⟩
    cases hfirst : t.devices.first? fun _ row => row.matchesAddress (some address) (some node) with
    | none =>
        have := Table.first?_eq_none.mp hfirst id row hhas
        rw [(hmatch row).mpr ⟨haddress, hnode, hlive⟩] at this
        cases this
    | some r =>
        rw [hfirst] at hnone
        simp [decodeFirst] at hnone
  · intro hfree
    have hfirst : t.devices.first? (fun _ row => row.matchesAddress (some address) (some node)) =
        none := by
      rw [Table.first?_eq_none]
      intro id row hhas
      rw [← Bool.not_eq_true, hmatch]
      rintro ⟨haddress, hnode, hlive⟩
      exact hfree ⟨id, row, ⟨hhas, hlive⟩, hnode, haddress, by simp⟩
    rw [hfirst]
    rfl

/-! ## What a write finds -/

/-- The address that a write gives to a device is free when it runs, and it writes no zero. -/
def Write.Fits (t : Tables J) : Write J → Prop
  | insertDevice device _ => ¬AddressTaken t.devices none device.parentNodeId device.address
  | updateDevice device => ∀ row, LiveDevice t.devices device.id row →
      (device.timeForRecall ≠ some 0 ∧ device.timeout ≠ some 0 ∧ device.retryCount ≠ some 0) ∧
        ∀ node, (device.set row).parentNodeId = some node →
          ¬AddressTaken t.devices (some device.id) node (device.set row).address
  | _ => True

/-! ## Rows that stay, and rows that go -/

/-- Every device was there with the same address, and its node if it has one. -/
theorem ValidDevices.of_old {devices devices' : Table DeviceRow} (h : ValidDevices devices)
    (hold : ∀ id row', LiveDevice devices' id row' → ∃ row, LiveDevice devices id row ∧
      (row.InBounds → row'.InBounds) ∧ row'.address = row.address ∧
      ∀ node, row'.parentNodeId = some node → row.parentNodeId = some node) :
    ValidDevices devices' := by
  refine ⟨?_, ?_⟩
  · intro id row' hrow'
    obtain ⟨row, hrow, hbounds, -, -⟩ := hold id row' hrow'
    exact hbounds (h.bounds id row hrow)
  · intro id id' row row' node hrow hrow' hnode hnode' haddress
    obtain ⟨old, hlive, -, ha, hn⟩ := hold id row hrow
    obtain ⟨old', hlive', -, ha', hn'⟩ := hold id' row' hrow'
    apply h.unique id id' old old' node hlive hlive' (hn node hnode) (hn' node hnode')
    rw [← ha, ← ha', haddress]

theorem ValidDevices.delete {devices : Table DeviceRow} (h : ValidDevices devices)
    (p : Int → DeviceRow → Bool) : ValidDevices (devices.delete p) := by
  apply h.of_old
  rintro id row ⟨hhas, hlive⟩
  exact ⟨row, ⟨(Table.has_delete.mp hhas).1, hlive⟩, fun hbounds => hbounds, rfl, fun _ hnode => hnode⟩

/-- Marked devices are not live. -/
theorem ValidDevices.mark {devices : Table DeviceRow} (h : ValidDevices devices)
    (p : Int → DeviceRow → Bool) (ts : Int) : ValidDevices
      (devices.modify p fun row => { row with deleted := true, deletedAt := some ts }) := by
  apply h.of_old
  rintro id row' ⟨hhas, hlive⟩
  obtain ⟨row, hrow, rfl⟩ := Table.has_modify.mp hhas
  split at hlive
  · cases hlive
  · next hp =>
      rw [if_neg hp]
      exact ⟨row, ⟨hrow, hlive⟩, fun hbounds => hbounds, rfl, fun _ hnode => hnode⟩

/-- `ON DELETE SET NULL` -/
theorem ValidDevices.orphan {devices : Table DeviceRow} (h : ValidDevices devices)
    (p : Int → DeviceRow → Bool) :
    ValidDevices (devices.modify p fun row => { row with parentNodeId := none }) := by
  apply h.of_old
  rintro id row' ⟨hhas, hlive⟩
  obtain ⟨row, hrow, rfl⟩ := Table.has_modify.mp hhas
  split at hlive
  · next hp =>
      rw [if_pos hp]
      exact ⟨row, ⟨hrow, hlive⟩, fun hbounds => hbounds, rfl, fun _ hnode => by cases hnode⟩
  · next hp =>
      rw [if_neg hp]
      exact ⟨row, ⟨hrow, hlive⟩, fun hbounds => hbounds, rfl, fun _ hnode => hnode⟩

/-! ## New rows and changed rows -/

variable {devices : Table DeviceRow}

theorem ValidDevices.insert_iff (h : ValidDevices devices) {device : DeviceCreate}
    (hcheck : checkDeviceCreate device = .ok ()) (description : String) :
    ValidDevices (devices.insert (device.row description)) ↔
      ¬AddressTaken devices none device.parentNodeId device.address := by
  have hnew : LiveDevice (devices.insert (device.row description)) devices.next
      (device.row description) := ⟨Table.has_insert.mpr (.inr ⟨rfl, rfl⟩), rfl⟩
  have hkept {id : Int} {row : DeviceRow} (hrow : LiveDevice devices id row) :
      LiveDevice (devices.insert (device.row description)) id row :=
    ⟨Table.has_insert.mpr (.inl hrow.1), hrow.2⟩
  constructor
  · rintro hvalid ⟨id, row, hrow, hnode, haddress, -⟩
    have := hvalid.unique id devices.next row _ device.parentNodeId (hkept hrow) hnew hnode rfl
      haddress
    exact absurd this (Int.ne_of_lt hrow.1.lt_next)
  · intro hfree
    refine ⟨?_, ?_⟩
    · rintro id row ⟨hhas, hlive⟩
      rcases Table.has_insert.mp hhas with hold | ⟨rfl, rfl⟩
      · exact h.bounds id row ⟨hold, hlive⟩
      · exact checkDeviceCreate_ok hcheck
    · rintro id id' row row' node ⟨hhas, hlive⟩ ⟨hhas', hlive'⟩ hnode hnode' haddress
      rcases Table.has_insert.mp hhas with hold | ⟨rfl, rfl⟩
      · rcases Table.has_insert.mp hhas' with hold' | ⟨rfl, rfl⟩
        · exact h.unique id id' row row' node ⟨hold, hlive⟩ ⟨hold', hlive'⟩ hnode hnode' haddress
        · obtain rfl := Option.some.inj hnode'
          exact absurd ⟨id, row, ⟨hold, hlive⟩, hnode, haddress, by simp⟩ hfree
      · rcases Table.has_insert.mp hhas' with hold' | ⟨rfl, rfl⟩
        · obtain rfl := Option.some.inj hnode
          exact absurd ⟨id', row', ⟨hold', hlive'⟩, hnode', haddress.symm, by simp⟩ hfree
        · rfl

/-- A row that is updated without zeros stays in its bounds. -/
theorem DeviceUpdate.set_inBounds {device : DeviceUpdate} {row : DeviceRow}
    (hcheck : checkDeviceUpdate device = .ok ()) (hrow : row.InBounds) :
    (device.set row).InBounds ↔ device.timeForRecall ≠ some 0 ∧ device.timeout ≠ some 0 ∧
      device.retryCount ≠ some 0 := by
  obtain ⟨haddress, hrecall, htimeout, hretry⟩ := checkDeviceUpdate_ok hcheck
  obtain ⟨hrowAddress, hrowRecall, hrowTimeout, hrowRetry⟩ := hrow
  have hpositive {column : Option Int} {old : Int} (hcolumn : ∀ x ∈ column, 0 ≤ x)
      (hold : 0 < old) : 0 < column.getD old ↔ column ≠ some 0 := by
    cases column with
    | none => simpa using hold
    | some x =>
        have := hcolumn x rfl
        simp only [Option.getD_some, ne_eq, Option.some.injEq]
        omega
  have hset : 0 ≤ device.address.getD row.address ∧ device.address.getD row.address ≤ 255 := by
    cases hgiven : device.address with
    | none => exact hrowAddress
    | some addr => exact haddress addr hgiven
  show _ ∧ 0 < device.timeForRecall.getD _ ∧ 0 < device.timeout.getD _ ∧
    0 < device.retryCount.getD _ ↔ _
  rw [hpositive hrecall hrowRecall, hpositive htimeout hrowTimeout, hpositive hretry hrowRetry]
  exact and_iff_right hset

theorem ValidDevices.update_iff (h : ValidDevices devices) {device : DeviceUpdate}
    (hcheck : checkDeviceUpdate device = .ok ()) :
    ValidDevices (devices.modify (fun key _ => key = device.id) device.set) ↔
      ∀ row, LiveDevice devices device.id row →
        (device.timeForRecall ≠ some 0 ∧ device.timeout ≠ some 0 ∧ device.retryCount ≠ some 0) ∧
          ∀ node, (device.set row).parentNodeId = some node →
            ¬AddressTaken devices (some device.id) node (device.set row).address := by
  have hchanged {row : DeviceRow} (hrow : LiveDevice devices device.id row) :
      LiveDevice (devices.modify (fun key _ => key = device.id) device.set) device.id
        (device.set row) := ⟨Table.has_modify.mpr ⟨row, hrow.1, by simp⟩, hrow.2⟩
  have hkept {id : Int} {row : DeviceRow} (hrow : LiveDevice devices id row) (hid : id ≠ device.id) :
      LiveDevice (devices.modify (fun key _ => key = device.id) device.set) id row :=
    ⟨Table.has_modify.mpr ⟨row, hrow.1, by simp [hid]⟩, hrow.2⟩
  have hold {id : Int} {row' : DeviceRow}
      (hrow' : LiveDevice (devices.modify (fun key _ => key = device.id) device.set) id row') :
      ∃ row, LiveDevice devices id row ∧ row' = if id = device.id then device.set row else row := by
    obtain ⟨row, hrow, heq⟩ := Table.has_modify.mp hrow'.1
    simp only [decide_eq_true_eq] at heq
    refine ⟨row, ⟨hrow, ?_⟩, heq⟩
    have hlive := hrow'.2
    rw [heq] at hlive
    split at hlive <;> exact hlive
  constructor
  · intro hvalid row hrow
    refine ⟨?_, ?_⟩
    · exact (device.set_inBounds hcheck (h.bounds _ row hrow)).mp (hvalid.bounds _ _ (hchanged hrow))
    · rintro node hnode ⟨id', row', hrow', hnode', haddress, hid⟩
      have hid : id' ≠ device.id := fun heq => hid (congrArg some heq)
      exact hid (hvalid.unique id' device.id row' _ node (hkept hrow' hid) (hchanged hrow) hnode'
        hnode haddress)
  · intro hfits
    refine ⟨?_, ?_⟩
    · intro id row' hrow'
      obtain ⟨row, hrow, rfl⟩ := hold hrow'
      split
      · next hid =>
          subst hid
          exact (device.set_inBounds hcheck (h.bounds _ row hrow)).mpr (hfits row hrow).1
      · exact h.bounds id row hrow
    · intro id id' row' row'' node hrow' hrow'' hnode hnode' haddress
      obtain ⟨row, hrow, rfl⟩ := hold hrow'
      obtain ⟨other, hother, rfl⟩ := hold hrow''
      by_cases hid : id = device.id
      · by_cases hid' : id' = device.id
        · rw [hid, hid']
        · rw [if_pos hid] at hnode haddress
          rw [if_neg hid'] at hnode' haddress
          subst hid
          exact absurd ⟨id', other, hother, hnode', haddress.symm, by simpa using hid'⟩
            ((hfits row hrow).2 node hnode)
      · rw [if_neg hid] at hnode haddress
        by_cases hid' : id' = device.id
        · rw [if_pos hid'] at hnode' haddress
          subst hid'
          exact absurd ⟨id, row, hrow, hnode, haddress, by simpa using hid⟩
            ((hfits other hother).2 node hnode')
        · rw [if_neg hid'] at hnode' haddress
          exact h.unique id id' row other node hrow hother hnode hnode' haddress

/-! ## Writes and transactions -/

variable {lib : Libraries J} {t t' : Tables J}

/-- A write keeps the table valid exactly if it fits. -/
theorem Write.exec_validDevices {w : Write J} (hcheck : w.Checked lib) (h : ValidDevices t.devices)
    (hexec : w.exec t = some t') : ValidDevices t'.devices ↔ w.Fits t := by
  cases w with
  | insertDevice device description =>
      obtain ⟨-, heq⟩ := Option.ite_none_right_eq_some.mp hexec
      obtain rfl := Option.some.inj heq
      exact h.insert_iff hcheck description
  | updateDevice device =>
      obtain ⟨-, heq⟩ := Option.ite_none_right_eq_some.mp hexec
      obtain rfl := Option.some.inj heq
      exact h.update_iff hcheck
  | insertNode | updateNode | deleteMeasures =>
      obtain rfl := Option.some.inj hexec
      exact iff_of_true h trivial
  | insertValue value =>
      obtain ⟨-, heq⟩ := Option.ite_none_right_eq_some.mp hexec
      obtain rfl := Option.some.inj heq
      exact iff_of_true h trivial
  | updateValue value =>
      simp only [Write.exec] at hexec
      split at hexec
      · obtain ⟨-, heq⟩ := Option.ite_none_right_eq_some.mp hexec
        obtain rfl := Option.some.inj heq
        exact iff_of_true h trivial
      · obtain rfl := Option.some.inj hexec
        exact iff_of_true h trivial
  | deleteValue | deleteNodeValues =>
      obtain ⟨-, rfl⟩ := deleteValues_eq hexec
      exact iff_of_true h trivial
  | deleteDevice | deleteNodeDevices =>
      obtain ⟨-, rfl⟩ := deleteDevices_eq hexec
      refine iff_of_true ?_ trivial
      dsimp only
      exact h.delete _
  | markDevicesDeleted ts nodeId =>
      obtain rfl := Option.some.inj hexec
      refine iff_of_true ?_ trivial
      dsimp only
      apply h.mark
  | deleteNode id =>
      obtain rfl := Option.some.inj hexec
      refine iff_of_true ?_ trivial
      dsimp only
      apply h.orphan

theorem Write.Removes.fits {w : Write J} (h : w.Removes) : w.Fits t := by
  cases w with
  | insertDevice | updateDevice => exact h.elim
  | _ => exact trivial

/-! ## The result -/

/-- In a run of the commands from a valid table, with their statements in any order, the table is
valid after every step exactly if every write that takes effect fits the table that it finds. -/
theorem device_table_valid_iff (lib : Libraries J) (t : Tables J) (ht : ValidDevices t.devices)
    (steps : List (DbStep J)) :
    (∀ pre post, steps = pre ++ post → ValidDevices (runDb lib t pre).world.devices) ↔
      ∀ pre s post, steps = pre ++ s :: post → ∀ c fate,
        (runDb lib t pre).issued s = some (c, fate) →
          c.Meets Write.Fits fate (runDb lib t pre).world := by
  apply runDb_invariant_iff (I := fun t => ValidDevices t.devices) (G := Write.Fits)
  · exact fun w t t' hcheck h hexec => Write.exec_validDevices hcheck h hexec
  · exact fun w t hw => hw.fits
  · exact ht

/-! ## Runs that leave the bounds -/

def noSettings : Libraries Unit :=
  ⟨⟨fun _ => none, fun _ => none, fun _ => none, fun x _ => x⟩, fun _ => "", fun _ => "", 128⟩

/-- A database with the node 1. -/
def oneNode : Tables Unit :=
  { Tables.empty with nodes := Table.empty.insert ⟨"10.0.0.5", some 502, some ""⟩ }

theorem oneNode_valid : ValidDevices oneNode.devices where
  bounds _ _ h := absurd h.1 Table.not_has_empty
  unique _ _ _ _ _ h := absurd h.1 Table.not_has_empty

def newDevice : DeviceCreate := ⟨"meter", 5, 1, 1000, 500, 3, true, true, none⟩

/-- A device is created, and then its timeout is set to zero. -/
def zeroTimeout : List (DbStep Unit) :=
  [.start (.deviceCreate newDevice), .advance 0 .success, .advance 0 .success, .advance 0 .success,
    .start (.deviceUpdate ⟨1, none, none, none, none, some 0, none, none, none, none⟩),
    .advance 1 .success, .advance 1 .success]

/-- Both creations look for the address before either of them writes. -/
def twoCreations : List (DbStep Unit) :=
  [.start (.deviceCreate newDevice), .start (.deviceCreate newDevice),
    .advance 0 .success, .advance 0 .success, .advance 1 .success, .advance 1 .success,
    .advance 0 .success, .advance 1 .success]

def newRow : DeviceRow := newDevice.row ""

theorem device_table_invalid :
    ¬ValidDevices (runDb noSettings oneNode zeroTimeout).world.devices ∧
      ¬ValidDevices (runDb noSettings oneNode twoCreations).world.devices := by
  constructor
  · intro h
    have hrow : LiveDevice (runDb noSettings oneNode zeroTimeout).world.devices 1
        { newRow with timeout := 0 } := ⟨List.mem_singleton.mpr rfl, rfl⟩
    exact absurd (h.bounds 1 _ hrow).2.2.1 (by decide)
  · intro h
    have hrow : LiveDevice (runDb noSettings oneNode twoCreations).world.devices 1 newRow :=
      ⟨List.mem_cons_self, rfl⟩
    have hrow' : LiveDevice (runDb noSettings oneNode twoCreations).world.devices 2 newRow :=
      ⟨List.mem_cons_of_mem _ List.mem_cons_self, rfl⟩
    exact absurd (h.unique 1 2 newRow newRow 1 hrow hrow' rfl rfl rfl) (by decide)

theorem device_table_valid_iff_created :
    (∀ pre post, zeroTimeout = pre ++ post →
      ValidDevices (runDb noSettings oneNode pre).world.devices) ↔
      ∀ pre s post, zeroTimeout = pre ++ s :: post → ∀ c fate,
        (runDb noSettings oneNode pre).issued s = some (c, fate) →
          c.Meets Write.Fits fate (runDb noSettings oneNode pre).world :=
  device_table_valid_iff noSettings oneNode oneNode_valid zeroTimeout

end ModbusLogger.Db
