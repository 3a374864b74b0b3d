import ModbusLogger.Db.Worker.DeviceTable

/-!
# The address check of `update_device`

The query of `create_device` is used again: what is not sent stands for any value in it, and not for
the value that the device keeps. Only the first of the rows is compared with the device. So an update of
one of the columns alone is refused because of a device that does not share the other one.
-/

namespace ModbusLogger.Db

open Program

variable {J : Type}

/-! ## What a conflict is -/

/-- A pair of a node and an address belongs to one device. -/
def UniqueAddresses (devices : Table DeviceRow) : Prop :=
  ∀ id id' row row' node, LiveDevice devices id row → LiveDevice devices id' row' →
    row.parentNodeId = some node → row'.parentNodeId = some node → row.address = row'.address →
    id = id'

/-- Another device has the address and the node that the row would get. -/
def Conflicts (devices : Table DeviceRow) (device : DeviceUpdate) (row : DeviceRow) : Prop :=
  ∃ node, (device.set row).parentNodeId = some node ∧
    AddressTaken devices (some device.id) node (device.set row).address

/-- The query of the check returns the row: it has what is sent. -/
def Selected (devices : Table DeviceRow) (device : DeviceUpdate) (id : Int) (row : DeviceRow) : Prop :=
  LiveDevice devices id row ∧ row.parentNodeId.isSome ∧
    (∀ address ∈ device.address, row.address = address) ∧
    ∀ node ∈ device.parentNodeId, row.parentNodeId = some node

def addressUsed : String := "Ця нода уже має пристрій з такою адресою"

/-! ## The check -/

theorem matchesAddress_iff {row : DeviceRow} {address parentNodeId : Option Int} :
    row.matchesAddress address parentNodeId = true ↔ row.deleted = false ∧
      row.parentNodeId.isSome ∧ (∀ a ∈ address, row.address = a) ∧
      ∀ n ∈ parentNodeId, row.parentNodeId = some n := by
  unfold DeviceRow.matchesAddress
  rw [decide_eq_true_eq]
  cases address <;> cases parentNodeId <;> simp <;> grind

section Check

variable {devices : Table DeviceRow} {device : DeviceUpdate} {row : DeviceRow} {id : Int}

/-- The row that the query returns, if there is one. -/
def firstSelected (devices : Table DeviceRow) (device : DeviceUpdate) : Option (Int × DeviceRow) :=
  devices.first? fun _ row => row.matchesAddress device.address device.parentNodeId

theorem firstSelected_spec {r : Int × DeviceRow} (h : firstSelected devices device = some r) :
    Selected devices device r.1 r.2 ∧
      ∀ id row, Selected devices device id row → r.1 ≤ id := by
  obtain ⟨hrow, hmatch⟩ := Table.first?_has h
  obtain ⟨hlive, hselected⟩ := matchesAddress_iff.mp hmatch
  refine ⟨⟨⟨hrow, hlive⟩, hselected⟩, ?_⟩
  rintro id row ⟨⟨hhas, hlive'⟩, hselected'⟩
  exact Table.le_of_first? h hhas (matchesAddress_iff.mpr ⟨hlive', hselected'⟩)

theorem firstSelected_eq_none (h : firstSelected devices device = none) (id : Int)
    (row : DeviceRow) : ¬Selected devices device id row := by
  rintro ⟨⟨hhas, hlive⟩, hselected⟩
  have hnot := Table.first?_eq_none.mp h id row hhas
  rw [matchesAddress_iff.mpr ⟨hlive, hselected⟩] at hnot
  cases hnot

/-- Something is sent, and the first row is another device. -/
def Refused (devices : Table DeviceRow) (device : DeviceUpdate) : Prop :=
  (device.address.isSome ∨ device.parentNodeId.isSome) ∧
    ∃ r, firstSelected devices device = some r ∧ r.1 ≠ device.id

/-- The first row is another device, unless there is none or the device itself comes first. -/
theorem exists_firstSelected_iff (hrow : LiveDevice devices device.id row) :
    (∃ r, firstSelected devices device = some r ∧ r.1 ≠ device.id) ↔
      ∃ id other, Selected devices device id other ∧ id ≠ device.id ∧
        (Selected devices device device.id row → id < device.id) := by
  constructor
  · rintro ⟨r, hfirst, hne⟩
    obtain ⟨hselected, hleast⟩ := firstSelected_spec hfirst
    exact ⟨r.1, r.2, hselected, hne, fun hself => lt_of_le_of_ne (hleast _ _ hself) hne⟩
  · rintro ⟨id, other, hother, hne, hbefore⟩
    cases hfirst : firstSelected devices device with
    | none => exact absurd hother (firstSelected_eq_none hfirst id other)
    | some r =>
        obtain ⟨hselected, hleast⟩ := firstSelected_spec hfirst
        refine ⟨r, rfl, fun hself => ?_⟩
        obtain rfl : r.2 = row := by
          have := hselected.1.1
          rw [hself] at this
          exact this.unique hrow.1
        rw [hself] at hselected hleast
        exact absurd (hleast id other hother) (not_le.mpr (hbefore hselected))

/-! ## When the check is right -/

/-- A row that has what is sent keeps its address and its node. -/
theorem Selected.set_eq (h : Selected devices device id row) :
    (device.set row).address = row.address ∧ (device.set row).parentNodeId = row.parentNodeId := by
  obtain ⟨-, -, haddress, hnode⟩ := h
  constructor
  · show device.address.getD row.address = _
    cases hsent : device.address with
    | none => rfl
    | some address => exact (haddress address hsent).symm
  · show (device.parentNodeId <|> row.parentNodeId) = _
    cases hsent : device.parentNodeId with
    | none => rfl
    | some node => exact (hnode node hsent).symm

/-- A real conflict is found, and the device itself is not among the rows. -/
theorem Conflicts.exists_selected (h : Conflicts devices device row)
    (hunique : UniqueAddresses devices) (hrow : LiveDevice devices device.id row) :
    ∃ id other, Selected devices device id other ∧ id ≠ device.id ∧
      ¬Selected devices device device.id row := by
  obtain ⟨node, hset, id, other, hother, hparent, hsame, hne⟩ := h
  refine ⟨id, other, ⟨hother, by rw [hparent]; rfl, ?_, ?_⟩, fun heq => hne (congrArg some heq), ?_⟩
  · intro address hsent
    rw [hsame]
    show device.address.getD row.address = address
    rw [Option.mem_def.mp hsent, Option.getD_some]
  · intro node' hsent
    rw [hparent, ← hset]
    show (device.parentNodeId <|> row.parentNodeId) = some node'
    rw [Option.mem_def.mp hsent]
    rfl
  · intro hself
    obtain ⟨haddress, hnode⟩ := hself.set_eq
    rw [haddress] at hsame
    rw [hnode] at hset
    exact hne (congrArg some (hunique id device.id other row node hother hrow hparent hset hsame))

/-- If both are sent, every other row is a conflict. -/
theorem conflicts_of_selected {address node : Int} (haddress : device.address = some address)
    (hnode : device.parentNodeId = some node) {other : DeviceRow}
    (hother : Selected devices device id other) (hne : id ≠ device.id) (row : DeviceRow) :
    Conflicts devices device row := by
  obtain ⟨hlive, -, hsame, hparent⟩ := hother
  refine ⟨node, ?_, id, other, hlive, hparent node hnode, ?_, fun heq => hne (Option.some.inj heq)⟩
  · show (device.parentNodeId <|> row.parentNodeId) = _
    rw [hnode]
    rfl
  · show _ = device.address.getD row.address
    rw [haddress, hsame address haddress, Option.getD_some]

/-- If nothing is sent, there is none. -/
theorem not_conflicts_of_unsent (hunique : UniqueAddresses devices)
    (hrow : LiveDevice devices device.id row) (haddress : device.address = none)
    (hnode : device.parentNodeId = none) : ¬Conflicts devices device row := by
  rintro ⟨node, hset, id, other, hother, hparent, hsame, hne⟩
  have hset : row.parentNodeId = some node := by
    change (device.parentNodeId <|> row.parentNodeId) = _ at hset
    rwa [hnode] at hset
  have hsame : other.address = row.address := by
    change _ = device.address.getD row.address at hsame
    rwa [haddress] at hsame
  exact hne (congrArg some (hunique id device.id other row node hother hrow hparent hset hsame))

/-- Every other row comes after the device itself. -/
def FirstOfSelected (devices : Table DeviceRow) (device : DeviceUpdate) (row : DeviceRow) : Prop :=
  ∀ id other, Selected devices device id other → id ≠ device.id →
    Selected devices device device.id row ∧ device.id < id

theorem not_exists_firstSelected_iff (hrow : LiveDevice devices device.id row) :
    (¬∃ r, firstSelected devices device = some r ∧ r.1 ≠ device.id) ↔
      FirstOfSelected devices device row := by
  rw [exists_firstSelected_iff hrow]
  constructor
  · intro hnone id other hother hne
    by_contra hnot
    refine hnone ⟨id, other, hother, hne, fun hself => ?_⟩
    exact lt_of_le_of_ne (not_lt.mp fun hlt => hnot ⟨hself, hlt⟩) hne
  · rintro hfirst ⟨id, other, hother, hne, hbefore⟩
    obtain ⟨hself, hlt⟩ := hfirst id other hother hne
    exact absurd (hbefore hself) (not_lt.mpr hlt.le)

theorem refused_iff_conflicts_iff (hunique : UniqueAddresses devices)
    (hrow : LiveDevice devices device.id row) :
    (Refused devices device ↔ Conflicts devices device row) ↔
      (device.address.isSome = device.parentNodeId.isSome ∨ Conflicts devices device row ∨
        FirstOfSelected devices device row) := by
  have hfound (h : Conflicts devices device row) :
      ∃ r, firstSelected devices device = some r ∧ r.1 ≠ device.id := by
    obtain ⟨id, other, hother, hne, hself⟩ := h.exists_selected hunique hrow
    exact (exists_firstSelected_iff hrow).mpr ⟨id, other, hother, hne, fun h => absurd h hself⟩
  have hone : ((∃ r, firstSelected devices device = some r ∧ r.1 ≠ device.id) ↔
      Conflicts devices device row) ↔
        (Conflicts devices device row ∨ FirstOfSelected devices device row) := by
    rw [← not_exists_firstSelected_iff hrow]
    constructor
    · intro hiff
      by_cases hsome : ∃ r, firstSelected devices device = some r ∧ r.1 ≠ device.id
      · exact .inl (hiff.mp hsome)
      · exact .inr hsome
    · rintro (hconflict | hnone)
      · exact ⟨fun _ => hconflict, hfound⟩
      · exact ⟨fun hsome => absurd hsome hnone, hfound⟩
  unfold Refused
  cases haddress : device.address with
  | none =>
      cases hnode : device.parentNodeId with
      | none =>
          have hnot := not_conflicts_of_unsent hunique hrow haddress hnode
          simp [hnot]
      | some node => simpa using hone
  | some address =>
      cases hnode : device.parentNodeId with
      | none => simpa using hone
      | some node =>
          refine iff_of_true ⟨?_, fun h => ⟨.inl rfl, hfound h⟩⟩ (.inl rfl)
          rintro ⟨-, r, hr, hne⟩
          exact conflicts_of_selected haddress hnode (firstSelected_spec hr).1 hne row

end Check

/-! ## The run of the command -/

/-- What follows the checks. -/
def writeUpdate (device : DeviceUpdate) : Task J Unit := do
  match ← getDeviceById device.id with
  | .ok (some oldDevice) =>
    let written ← execute (.updateDevice device)
    orFail written fun e => s!"Помилка оновлення пристрою:\n {e.display}"
    notifyDeviceUpdate device oldDevice
  | _ => fail s!"Помилка читання пристрою: {device.id}"

theorem updateDevice_eq (device : DeviceUpdate) : (updateDevice device : Task J Unit) = (do
    orFail (checkDeviceUpdate device) id
    checkParent device
    checkAddress device
    writeUpdate device) := rfl

theorem notifyNode_raises {R : String → Prop} (eventType : ConfigEventType)
    (node : Except Unit (Option NodeRead)) : (notifyNode eventType node : Task J Unit).Raises R := by
  unfold notifyNode
  split
  · exact fun _ => trivial
  · exact trivial

theorem notifyDeviceUpdate_raises {R : String → Prop} (device : DeviceUpdate)
    (oldDevice : DeviceRead) : (notifyDeviceUpdate device oldDevice : Task J Unit).Raises R := by
  have hnew : (notifyNewNode device : Task J Int).Raises R := by
    simp only [notifyNewNode, getDeviceById, query, issue_bind, call_bind, pure_eq, done_bind]
    intro answer
    dsimp only
    split
    · simp only [getNodeById, query, issue_bind, call_bind, pure_eq, done_bind]
      intro answer
      dsimp only
      split
      · exact fun _ => trivial
      · exact trivial
    · exact trivial
  refine hnew.bind fun newNode => ?_
  split
  · simp only [getNodeById, query, issue_bind, call_bind, pure_eq, done_bind]
    exact fun answer => notifyNode_raises _ _
  · exact trivial

/-- The errors of what follows begin with another word. -/
theorem writeUpdate_raises (device : DeviceUpdate) :
    (writeUpdate device : Task J Unit).Raises (· ≠ addressUsed) := by
  have hbegins (text text' : String) (h : text.toList.head? = some 'П') :
      text ++ text' ≠ addressUsed := by
    intro heq
    have hhead := congrArg (fun s : String => s.toList.head?) heq
    simp [addressUsed, h] at hhead
  simp only [writeUpdate, getDeviceById, execute, query, issue_bind, call_bind, pure_eq, done_bind]
  intro answer
  dsimp only
  split
  · intro written
    refine Raises.bind ?_ fun _ => notifyDeviceUpdate_raises device _
    unfold orFail
    split
    · exact trivial
    · exact hbegins _ _ rfl
  · exact hbegins _ _ rfl

variable {t : Tables J} {device : DeviceUpdate} {fate : Fate}

theorem perform_deviceByAddress (hfate : fate.succeeds = true) :
    perform (.read (.deviceByAddress device.address device.parentNodeId)) fate t =
      (t, .ok ((firstSelected t.devices device).bind fun r => r.2.read? r.1)) := by
  have hexec : (Read.deviceByAddress device.address device.parentNodeId).exec t =
      some ((firstSelected t.devices device).bind fun r => r.2.read? r.1) := by
    show decodeFirst DeviceRow.read? (firstSelected t.devices device) = _
    cases hfirst : firstSelected t.devices device with
    | none => rfl
    | some r =>
        obtain ⟨node, hnode⟩ := Option.isSome_iff_exists.mp (firstSelected_spec hfirst).1.2.1
        simp [decodeFirst, DeviceRow.read?, hnode]
  simp [perform, hexec, hfate]

variable {next : Unit → Task J Unit} {fates : List Fate}

/-- The check of the node is passed. -/
theorem runFor_checkParent (hfate : fate.succeeds = true)
    (hparent : ∀ node ∈ device.parentNodeId, 0 < node ∧ t.nodes.contains node = true) :
    (checkParent device >>= next).runFor perform (fate :: fates) t =
      (next ()).runFor perform (if device.parentNodeId.isSome then fates else fate :: fates) t := by
  cases hsent : device.parentNodeId with
  | none => simp [checkParent, hsent]
  | some node =>
      obtain ⟨hpos, hnode⟩ := hparent node hsent
      obtain ⟨row, hrow⟩ := Option.isSome_iff_exists.mp hnode
      have hfound : perform (.read (.nodeById node)) fate t = (t, .ok (some (row.read node))) := by
        simp [perform, Read.exec, hfate, hrow]
      simp only [checkParent, hsent, not_le.mpr hpos, if_false, query, issue_bind, call_bind,
        runFor_call, hfound, orFail, pure_eq, done_bind, Option.isNone_some, Bool.false_eq_true,
        Option.isSome_some, if_true]

/-- The check of the address refuses the update, or goes on. -/
theorem runFor_checkAddress (hfate : fate.succeeds = true) :
    Refused t.devices device ∧ (checkAddress device >>= next).runFor perform (fate :: fates) t =
        (t, some (.error addressUsed)) ∨
      ¬Refused t.devices device ∧ ∃ rest,
        (checkAddress device >>= next).runFor perform (fate :: fates) t =
          (next ()).runFor perform rest t := by
  by_cases hsent : device.address.isSome = true ∨ device.parentNodeId.isSome = true
  · simp only [checkAddress, hsent, if_true, query, issue_bind, call_bind, runFor_call,
      perform_deviceByAddress hfate, orFail, pure_eq, done_bind]
    cases hfirst : firstSelected t.devices device with
    | none =>
        refine .inr ⟨?_, fates, by simp⟩
        rintro ⟨-, r, hr, -⟩
        rw [hfirst] at hr
        cases hr
    | some r =>
        obtain ⟨node, hnode⟩ := Option.isSome_iff_exists.mp (firstSelected_spec hfirst).1.2.1
        by_cases hself : r.1 = device.id
        · refine .inr ⟨?_, fates, by simp [DeviceRow.read?, hnode, hself]⟩
          rintro ⟨-, r', hr, hne⟩
          rw [hfirst] at hr
          obtain rfl := Option.some.inj hr
          exact hne hself
        · refine .inl ⟨⟨hsent, r, hfirst, hself⟩, ?_⟩
          simp [DeviceRow.read?, hnode, hself, addressUsed]
  · refine .inr ⟨fun h => hsent h.1, fate :: fates, ?_⟩
    simp only [checkAddress, hsent, if_false, pure_eq, done_bind]

/-- The command says that the address is used exactly if the check refuses it. -/
theorem updateDevice_rejects_iff (hcheck : checkDeviceUpdate device = .ok ())
    (hparent : ∀ node ∈ device.parentNodeId, 0 < node ∧ t.nodes.contains node = true)
    {fate' : Fate} (hfate : fate.succeeds = true) (hfate' : fate'.succeeds = true)
    (fates : List Fate) :
    ((updateDevice device).runFor perform (fate :: fate' :: fates) t).2 =
      some (.error addressUsed) ↔ Refused t.devices device := by
  have hchecked {fate : Fate} (hfate : fate.succeeds = true) (fates : List Fate) :
      ((checkAddress device >>= fun _ => writeUpdate device).runFor perform (fate :: fates) t).2 =
        some (.error addressUsed) ↔ Refused t.devices device := by
    rcases @runFor_checkAddress J t device _ (fun _ => writeUpdate device) fates hfate with
      ⟨hrefused, hrun⟩ | ⟨hnot, rest, hrun⟩
    · rw [hrun]
      exact iff_of_true rfl hrefused
    · rw [hrun]
      exact iff_of_false (fun herror => (writeUpdate_raises device).runFor herror rfl) hnot
  rw [updateDevice_eq, hcheck]
  show ((checkParent device >>= fun _ => checkAddress device >>= fun _ => writeUpdate device).runFor
    perform (fate :: fate' :: fates) t).2 = _ ↔ _
  rw [runFor_checkParent hfate hparent]
  split
  · exact hchecked hfate' fates
  · exact hchecked hfate (fate' :: fates)

/-! ## The result -/

/-- The error of `update_device` tells of a real conflict exactly if both columns are sent or neither,
or there is a conflict, or no other device with what is sent comes before the device. -/
theorem address_rejected_iff (t : Tables J) (hunique : UniqueAddresses t.devices)
    (device : DeviceUpdate) (hcheck : checkDeviceUpdate device = .ok ())
    (hparent : ∀ node ∈ device.parentNodeId, 0 < node ∧ t.nodes.contains node = true)
    (row : DeviceRow) (hrow : LiveDevice t.devices device.id row)
    (fate fate' : Fate) (hfate : fate.succeeds = true) (hfate' : fate'.succeeds = true)
    (fates : List Fate) :
    (((updateDevice device).runFor perform (fate :: fate' :: fates) t).2 =
        some (.error addressUsed) ↔ Conflicts t.devices device row) ↔
      (device.address.isSome = device.parentNodeId.isSome ∨ Conflicts t.devices device row ∨
        FirstOfSelected t.devices device row) := by
  rw [updateDevice_rejects_iff hcheck hparent hfate hfate' fates]
  exact refused_iff_conflicts_iff hunique hrow

/-! ## Two nodes with a device each -/

def metersRow (node address : Int) : DeviceRow :=
  ⟨some node, some "meter", address, 1000, 500, 3, true, true, some "", false, none⟩

/-- The device 1 has the address 5 on the node 1, the device 2 the address 7 on the node 2. -/
def twoMeters : Tables Unit :=
  { Tables.empty with
    nodes := (Table.empty.insert ⟨"10.0.0.5", some 502, some ""⟩).insert
      ⟨"10.0.0.6", some 502, some ""⟩
    devices := (Table.empty.insert (metersRow 1 5)).insert (metersRow 2 7) }

theorem twoMeters_live {id : Int} {row : DeviceRow} : LiveDevice twoMeters.devices id row ↔
    id = 1 ∧ row = metersRow 1 5 ∨ id = 2 ∧ row = metersRow 2 7 := by
  constructor
  · rintro ⟨hrow, -⟩
    rcases List.mem_cons.mp hrow with heq | hrow
    · exact .inl (Prod.mk.inj heq)
    · exact .inr (Prod.mk.inj (List.mem_singleton.mp hrow))
  · rintro (⟨rfl, rfl⟩ | ⟨rfl, rfl⟩)
    · exact ⟨List.mem_cons_self, rfl⟩
    · exact ⟨List.mem_cons_of_mem _ List.mem_cons_self, rfl⟩

theorem twoMeters_unique : UniqueAddresses twoMeters.devices := by
  intro id id' row row' node hrow hrow' hnode hnode' hsame
  rcases twoMeters_live.mp hrow with ⟨rfl, rfl⟩ | ⟨rfl, rfl⟩ <;>
    rcases twoMeters_live.mp hrow' with ⟨rfl, rfl⟩ | ⟨rfl, rfl⟩
  · rfl
  · exact absurd hsame (by decide)
  · exact absurd hsame (by decide)
  · rfl

/-- The device 2 takes the address 5, and stays on its node. -/
def takeAddress : DeviceUpdate := ⟨2, none, some 5, none, none, none, none, none, none, none⟩

/-- The address is free on the node 2, and the update is refused. -/
theorem free_address_rejected :
    UniqueAddresses twoMeters.devices ∧ checkDeviceUpdate takeAddress = .ok () ∧
      takeAddress.parentNodeId = none ∧ LiveDevice twoMeters.devices 2 (metersRow 2 7) ∧
      ¬Conflicts twoMeters.devices takeAddress (metersRow 2 7) ∧
      ((updateDevice takeAddress).runFor perform [.success, .success, .success] twoMeters).2 =
        some (.error addressUsed) := by
  refine ⟨twoMeters_unique, rfl, rfl, twoMeters_live.mpr (.inr ⟨rfl, rfl⟩), ?_, rfl⟩
  rintro ⟨node, hset, id, row, hrow, hparent, hsame, hne⟩
  obtain rfl : 2 = node := Option.some.inj hset
  rcases twoMeters_live.mp hrow with ⟨rfl, rfl⟩ | ⟨rfl, rfl⟩
  · exact absurd hparent (by decide)
  · exact hne rfl

theorem address_rejected_iff_free :
    (((updateDevice takeAddress).runFor perform [.success, .success, .success] twoMeters).2 =
        some (.error addressUsed) ↔ Conflicts twoMeters.devices takeAddress (metersRow 2 7)) ↔
      (takeAddress.address.isSome = takeAddress.parentNodeId.isSome ∨
        Conflicts twoMeters.devices takeAddress (metersRow 2 7) ∨
        FirstOfSelected twoMeters.devices takeAddress (metersRow 2 7)) :=
  address_rejected_iff twoMeters twoMeters_unique takeAddress rfl (fun _ h => by cases h)
    (metersRow 2 7) (twoMeters_live.mpr (.inr ⟨rfl, rfl⟩)) .success .success rfl rfl [.success]

end ModbusLogger.Db
