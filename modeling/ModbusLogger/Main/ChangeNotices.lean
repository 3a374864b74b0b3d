import ModbusLogger.Db.Worker.ChangedNodes
import ModbusLogger.Main.Notices

/-!
# What the commands tell the loops

A command looks at some rows, writes, and then looks for the nodes whose loops it tells: `Prepares` is
about the first half of a task, `Informs` about the second one. The nodes that its write touches are
told if the rows are still where the command has found them.
-/

namespace ModbusLogger.Main

open Db Program

variable {J : Type} {lib : Libraries J} {t t' : Tables J} {id : Int}

/-! ## The halves of a task -/

/-- Rows that a task has read. -/
abbrev Seen (J : Type) := (r : Read) × r.Rows J

/-- What has been read before a write is right about the node `id`: a device or value that the node has
now was read as one of this node, or the write leaves the device there. -/
def Seen.Holds (t t' : Tables J) (id : Int) : Seen J → Prop
  | ⟨.nodeById nodeId, none⟩ => nodeId = id → t.nodes.contains id = false
  | ⟨.deviceById deviceId, some old⟩ => t.nodeOfDevice? deviceId = some id →
      old.parentNodeId = id ∨ t'.isLive deviceId = true ∧ t'.nodeOfDevice? deviceId = some id
  | ⟨.valueById valueId, some old⟩ => t.nodeOfValue? valueId = some id →
      t.nodeOfDevice? old.parentDeviceId = some id
  | ⟨.valuesByDevice deviceId, values⟩ => ∀ value ∈ values, t.nodeOfValue? value.id = some id →
      t.nodeOfDevice? deviceId = some id
  | _ => True

/-- A call tells the nodes that it touches. -/
def Covers (seen : List (Seen J)) (c : Call J) (p : Task J Unit) : Prop :=
  ∀ t t' id, NodeKeyed t → c.effect? t = some t' → c.Touches t id → (∀ s ∈ seen, s.Holds t t' id) →
    Concerns (announced t' p) id

/-- What other tasks do elsewhere takes no node away from those that are told. -/
def Steady (p : Task J Unit) : Prop :=
  ∀ t t' id, NodeKeyed t → NodeKeyed t' → Untouched id t t' → Concerns (announced t p) id →
    Concerns (announced t' p) id

/-- After its write. -/
inductive Informs : Task J Unit → Prop where
  | ended (result : Except String Unit) : Informs (.done result)
  | looks {r : Read} {next : (Call.read (J := J) r).Answer → Task J Unit}
      (steady : Steady (.call (.read r) next)) (goes : ∀ answer, Informs (next answer)) :
      Informs (.call (.read r) next)
  | sends {event : ConfigEvent} {next : Bool → Task J Unit} (goes : ∀ sent, Informs (next sent)) :
      Informs (.call (.send event) next)

/-- Before its write, with what it has read. -/
inductive Prepares : List (Seen J) → Task J Unit → Prop where
  | ended {seen : List (Seen J)} (result : Except String Unit) : Prepares seen (.done result)
  | looks {seen : List (Seen J)} {r : Read} {next : (Call.read (J := J) r).Answer → Task J Unit}
      (fails : ∀ e, ended (next (.error e)) = true)
      (goes : ∀ t rows, r.exec t = some rows → Prepares (⟨r, rows⟩ :: seen) (next (.ok rows))) :
      Prepares seen (.call (.read r) next)
  | writes {seen : List (Seen J)} {w : Write J} {next : (Call.write w).Answer → Task J Unit}
      (fails : ∀ e, ended (next (.error e)) = true) (goes : Informs (next (.ok ())))
      (covers : Covers seen (.write w) (next (.ok ()))) : Prepares seen (.call (.write w) next)
  | commits {seen : List (Seen J)} {ws : List (Write J)}
      {next : (Call.transaction ws).Answer → Task J Unit} (removes : ∀ w ∈ ws, w.Removes)
      (fails : ∀ e, ended (next (.error e)) = true) (goes : Informs (next (.ok ())))
      (covers : Covers seen (.transaction ws) (next (.ok ()))) :
      Prepares seen (.call (.transaction ws) next)

variable {p : Task J Unit} {seen seen' : List (Seen J)}

theorem announced_ended (h : ended p = true) (t : Tables J) : announced t p = [] := by
  cases p with
  | done => rfl
  | call => cases h

theorem perform_read_ok {r : Read} {rows : r.Rows J} {fate : Fate} (h : r.exec t = some rows)
    (hfate : fate.succeeds = true) : (perform (.read r) fate t).2 = .ok rows := by
  unfold perform
  dsimp only
  rw [h]
  exact if_pos hfate

theorem perform_read_error {r : Read} {fate : Fate} (h : r.exec t = none) :
    (perform (.read r) fate t).2 = .error fate.error := by
  unfold perform
  dsimp only
  rw [h]

/-- No node is told before the write. -/
theorem Prepares.silent (h : Prepares seen p) (t : Tables J) : announced t p = [] := by
  induction h with
  | ended => rfl
  | writes | commits => rfl
  | @looks seen r next fails goes ih =>
      rw [announced_read]
      cases hrows : r.exec t with
      | none =>
          rw [perform_read_error hrows]
          exact announced_ended (fails _) t
      | some rows =>
          rw [perform_read_ok hrows rfl]
          exact ih t rows hrows

theorem Covers.mono {c : Call J} (h : Covers seen c p) (hsubset : seen ⊆ seen') : Covers seen' c p :=
  fun t t' id hkeyed heffect htouches hholds =>
    h t t' id hkeyed heffect htouches fun s hs => hholds s (hsubset hs)

theorem Prepares.mono (h : Prepares seen p) (hsubset : seen ⊆ seen') : Prepares seen' p := by
  induction h generalizing seen' with
  | ended result => exact .ended result
  | looks fails goes ih =>
      exact .looks fails fun t rows hrows => ih t rows hrows (List.cons_subset_cons _ hsubset)
  | writes fails goes covers => exact .writes fails goes (covers.mono hsubset)
  | commits removes fails goes covers => exact .commits removes fails goes (covers.mono hsubset)

theorem Informs.steady (h : Informs p) : Steady p := by
  induction h with
  | ended result => exact fun t t' id _ _ _ hconcerns => hconcerns
  | looks steady => exact steady
  | sends goes ih =>
      intro t t' id hkeyed hkeyed' huntouched hconcerns
      rw [announced_send, concerns_head] at hconcerns ⊢
      exact hconcerns.imp_right (ih true t t' id hkeyed hkeyed' huntouched)

/-! ## Lookups -/

theorem concerns_update {node : NodeRead} {events : List ConfigEvent} :
    Concerns (⟨.update, node⟩ :: events) id ↔ node.id = id ∨ Concerns events id := by
  rw [concerns_cons]
  simp

/-- The lookup finds the node if it is there. -/
theorem nodeById_exec (nodeId : Int) (t : Tables J) :
    ∃ node : Option NodeRead, (Read.nodeById nodeId).exec t = some node ∧
      node.map NodeRead.id = if t.nodes.contains nodeId then some nodeId else none := by
  refine ⟨_, rfl, ?_⟩
  unfold Table.contains
  cases t.nodes.get? nodeId <;> rfl

/-- The lookup finds the node of the device. -/
theorem nodeOfDevice_exec (href : Referential t) (deviceId : Int) :
    ∃ node : Option NodeRead, (Read.nodeOfDevice deviceId).exec t = some node ∧
      node.map NodeRead.id = t.nodeOfDevice? deviceId := by
  refine ⟨_, rfl, ?_⟩
  cases hnode : t.nodeOfDevice? deviceId with
  | none =>
      rw [Option.map_eq_none_iff]
      unfold Tables.nodeOfDevice? at hnode
      cases hdevice : t.devices.get? deviceId with
      | none => rfl
      | some device =>
          rw [hdevice, Option.bind_some] at hnode
          show device.parentNodeId.bind _ = none
          rw [hnode]
          rfl
  | some nodeId =>
      obtain ⟨device, hdevice, hparent⟩ := Tables.nodeOfDevice?_eq_some.mp hnode
      obtain ⟨row, hrow⟩ := Table.contains_iff.mp (href.node hnode)
      show ((t.devices.get? deviceId).bind _).map _ = _
      rw [Table.get?_eq_some.mpr hdevice]
      show (device.parentNodeId.bind _).map _ = _
      rw [hparent]
      show ((t.nodes.get? nodeId).bind _).map _ = _
      rw [Table.get?_eq_some.mpr hrow]
      rfl

/-- The lookup finds a device that is not marked deleted, with its node. -/
theorem deviceById_exec {deviceId nodeId : Int} :
    (∃ device : DeviceRead, (Read.deviceById deviceId).exec t = some (some device) ∧
      device.parentNodeId = nodeId) ↔
      t.isLive deviceId = true ∧ t.nodeOfDevice? deviceId = some nodeId := by
  have hkey (key : Int) (row : DeviceRow)
      (h : decide (key = deviceId ∧ row.deleted = false) = true) : key = deviceId :=
    (of_decide_eq_true h).1
  unfold Read.exec
  dsimp only
  constructor
  · rintro ⟨device, hexec, rfl⟩
    unfold decodeFirst at hexec
    split at hexec
    · next key row hfirst =>
        obtain ⟨device', hread, heq⟩ := Option.map_eq_some_iff.mp hexec
        cases heq
        obtain ⟨parent, hparent, rfl⟩ := Option.map_eq_some_iff.mp hread
        obtain ⟨hrow, hselected⟩ := Table.first?_has hfirst
        obtain ⟨rfl, hlive⟩ := of_decide_eq_true hselected
        exact ⟨Tables.isLive_iff.mpr ⟨row, hrow, hlive⟩,
          Tables.nodeOfDevice?_eq_some.mpr ⟨row, hrow, hparent⟩⟩
    · cases hexec
  · rintro ⟨hlive, hnode⟩
    obtain ⟨row, hrow, hlive⟩ := Tables.isLive_iff.mp hlive
    obtain ⟨row', hrow', hparent⟩ := Tables.nodeOfDevice?_eq_some.mp hnode
    obtain rfl := hrow.unique hrow'
    rw [(Table.first?_eq_some hkey).mpr ⟨hrow, decide_eq_true ⟨rfl, hlive⟩⟩]
    unfold decodeFirst DeviceRow.read?
    dsimp only
    rw [hparent]
    exact ⟨_, rfl, rfl⟩

/-! ## Notifications -/

/-- A lookup of a node, which is told if it is found. The task goes on with its id, or with 0. -/
structure TellsNode (next : Except SqlError (Option NodeRead) → Task J Unit)
    (rest : Int → Task J Unit) : Prop where
  found : ∀ node, next (.ok (some node)) = .call (.send ⟨.update, node⟩) fun _ => rest node.id
  missed : next (.ok none) = rest 0
  fails : ∀ e, next (.error e) = rest 0

section TellsNode

variable {next : Except SqlError (Option NodeRead) → Task J Unit} {rest : Int → Task J Unit}

theorem TellsNode.informs (h : TellsNode next rest) (hrest : ∀ nodeId, Informs (rest nodeId))
    (answer : Except SqlError (Option NodeRead)) : Informs (next answer) := by
  rcases answer with e | _ | node
  · rw [h.fails]
    exact hrest 0
  · rw [h.missed]
    exact hrest 0
  · rw [h.found]
    exact .sends fun _ => hrest node.id

theorem TellsNode.concerns (h : TellsNode next rest) (node : Option NodeRead) :
    Concerns (announced t (next (.ok node))) id ↔ node.map NodeRead.id = some id ∨
      Concerns (announced t (rest ((node.map NodeRead.id).getD 0))) id := by
  cases node with
  | none =>
      rw [h.missed]
      exact (or_iff_right nofun).symm
  | some node =>
      rw [h.found, announced_send, concerns_update]
      exact or_congr_left (Option.some_inj (a := node.id)).symm

theorem concerns_nodeById {nodeId : Int} (h : TellsNode next rest) :
    Concerns (announced t (.call (.read (.nodeById nodeId)) next)) id ↔
      nodeId = id ∧ t.nodes.contains id = true ∨
        Concerns (announced t (rest (if t.nodes.contains nodeId then nodeId else 0))) id := by
  obtain ⟨node, hexec, hid⟩ := nodeById_exec nodeId t
  rw [announced_read, perform_read_ok hexec rfl]
  refine (h.concerns node).trans ?_
  rw [hid]
  cases hcontains : t.nodes.contains nodeId with
  | false =>
      refine or_congr_left (iff_of_false nofun ?_)
      rintro ⟨rfl, htrue⟩
      rw [hcontains] at htrue
      cases htrue
  | true =>
      refine or_congr_left ?_
      constructor
      · rintro ⟨⟩
        exact ⟨rfl, hcontains⟩
      · rintro ⟨rfl, -⟩
        rfl

theorem concerns_nodeOfDevice {deviceId : Int} (href : Referential t) (h : TellsNode next rest) :
    Concerns (announced t (.call (.read (.nodeOfDevice deviceId)) next)) id ↔
      t.nodeOfDevice? deviceId = some id ∨
        Concerns (announced t (rest ((t.nodeOfDevice? deviceId).getD 0))) id := by
  obtain ⟨node, hexec, hid⟩ := nodeOfDevice_exec href deviceId
  rw [announced_read, perform_read_ok hexec rfl, ← hid]
  exact h.concerns node

end TellsNode

/-- The end of a task that tells one node. -/
abbrev stops (_ : Int) : Task J Unit := .done (.ok ())

theorem tellsNode_notifyNode :
    TellsNode (J := J) (fun node => notifyNode .update (node.mapError fun _ => ())) stops :=
  ⟨fun _ => rfl, rfl, fun _ => rfl⟩

theorem concerns_getNodeById {nodeId : Int} :
    Concerns (announced t (getNodeById nodeId >>= notifyNode .update)) id ↔
      nodeId = id ∧ t.nodes.contains id = true :=
  (concerns_nodeById tellsNode_notifyNode).trans (or_iff_left not_concerns_nil)

theorem informs_getNodeById (nodeId : Int) :
    Informs (getNodeById nodeId >>= notifyNode .update : Task J Unit) := by
  have hsteady : Steady (getNodeById nodeId >>= notifyNode .update : Task J Unit) := by
    intro t t' id _ _ huntouched hconcerns
    obtain ⟨hid, hcontains⟩ := concerns_getNodeById.mp hconcerns
    exact concerns_getNodeById.mpr ⟨hid, huntouched.node hcontains⟩
  exact .looks hsteady (tellsNode_notifyNode.informs fun _ => .ended _)

/-- The node of a device is told. -/
theorem informs_nodeOfDevice {deviceId : Int}
    {next : Except SqlError (Option NodeRead) → Task J Unit} (h : TellsNode next stops) :
    Informs (.call (.read (.nodeOfDevice deviceId)) next) := by
  refine .looks (fun t t' id hkeyed hkeyed' huntouched hconcerns => ?_) (h.informs fun _ => .ended _)
  have htold := (concerns_nodeOfDevice hkeyed.toReferential h).mp hconcerns
  have hnode := htold.resolve_right not_concerns_nil
  exact (concerns_nodeOfDevice hkeyed'.toReferential h).mpr (.inl (huntouched.nodeOfDevice? hnode))

/-! ### A device is updated -/

section NotifyDevice

variable {device : DeviceUpdate} {oldDevice : DeviceRead}

/-- The end of `notify_device_update`. -/
def notifyOldNode (oldDevice : DeviceRead) (newNode : Int) : Task J Unit := do
  if newNode ≠ oldDevice.parentNodeId then
    notifyNode .update (← getNodeById oldDevice.parentNodeId)

theorem concerns_notifyOldNode {newNode : Int} :
    Concerns (announced t (notifyOldNode oldDevice newNode)) id ↔
      newNode ≠ oldDevice.parentNodeId ∧ oldDevice.parentNodeId = id ∧ t.nodes.contains id = true := by
  unfold notifyOldNode
  split
  · next hne => exact concerns_getNodeById.trans (and_iff_right hne).symm
  · next heq => exact iff_of_false not_concerns_nil fun h => heq h.1

theorem informs_notifyOldNode (newNode : Int) :
    Informs (notifyOldNode oldDevice newNode : Task J Unit) := by
  unfold notifyOldNode
  split
  · exact informs_getNodeById _
  · exact .ended _

/-- The node of the device that is read is told, and then the former one. -/
theorem notifyDeviceUpdate_eq (device : DeviceUpdate) (oldDevice : DeviceRead) :
    ∃ next : Except SqlError (Option DeviceRead) → Task J Unit,
      notifyDeviceUpdate device oldDevice = .call (.read (.deviceById device.id)) next ∧
        (∀ device, ∃ tells, next (.ok (some device)) = .call (.read (.nodeById device.parentNodeId)) tells ∧
          TellsNode tells (notifyOldNode oldDevice)) ∧
        next (.ok none) = notifyOldNode oldDevice 0 ∧
        ∀ e, next (.error e) = notifyOldNode oldDevice 0 :=
  ⟨_, rfl, fun _ => ⟨_, rfl, fun _ => rfl, rfl, fun _ => rfl⟩, rfl, fun _ => rfl⟩

/-- Zero is the id of no node. -/
theorem concerns_notifyOldNode_zero (hkeyed : NodeKeyed t) :
    Concerns (announced t (notifyOldNode oldDevice 0)) id ↔
      oldDevice.parentNodeId = id ∧ t.nodes.contains id = true := by
  rw [concerns_notifyOldNode]
  refine and_iff_right_of_imp ?_
  rintro ⟨rfl, hcontains⟩
  exact (hkeyed.positive _ hcontains).ne

/-- The node that was read and the former one, whether they are one node or two. -/
theorem concerns_tells_notifyOldNode {nodeId : Int} {tells : Except SqlError (Option NodeRead) → Task J Unit}
    (h : TellsNode tells (notifyOldNode oldDevice)) (hkeyed : NodeKeyed t) :
    Concerns (announced t (.call (.read (.nodeById nodeId)) tells)) id ↔
      (nodeId = id ∨ oldDevice.parentNodeId = id) ∧ t.nodes.contains id = true := by
  rw [concerns_nodeById h, or_and_right]
  refine or_congr_right' fun hother => ?_
  split
  · rw [concerns_notifyOldNode]
    refine and_iff_right_of_imp ?_
    rintro ⟨rfl, hcontains⟩ heq
    exact hother ⟨heq, hcontains⟩
  · exact concerns_notifyOldNode_zero hkeyed

theorem concerns_notifyDeviceUpdate (hkeyed : NodeKeyed t) :
    Concerns (announced t (notifyDeviceUpdate device oldDevice)) id ↔
      t.isLive device.id = true ∧ t.nodeOfDevice? device.id = some id ∨
        oldDevice.parentNodeId = id ∧ t.nodes.contains id = true := by
  obtain ⟨next, heq, hfound, hmissed, hfails⟩ := notifyDeviceUpdate_eq (J := J) device oldDevice
  rw [heq, announced_read, ← deviceById_exec]
  cases hexec : (Read.deviceById device.id).exec t with
  | none =>
      rw [perform_read_error hexec, hfails]
      refine (concerns_notifyOldNode_zero hkeyed).trans (or_iff_right ?_).symm
      rintro ⟨found, hfound, -⟩
      cases hfound
  | some row =>
      rw [perform_read_ok hexec rfl]
      cases row with
      | none =>
          rw [hmissed]
          refine (concerns_notifyOldNode_zero hkeyed).trans (or_iff_right ?_).symm
          rintro ⟨found, hfound, -⟩
          cases hfound
      | some found =>
          obtain ⟨tells, hcall, htells⟩ := hfound found
          rw [hcall, concerns_tells_notifyOldNode htells hkeyed, or_and_right]
          refine or_congr_left ?_
          constructor
          · rintro ⟨rfl, -⟩
            exact ⟨found, rfl, rfl⟩
          · rintro ⟨found', heq, rfl⟩
            cases heq
            refine ⟨rfl, ?_⟩
            have hnode := (deviceById_exec.mp ⟨found, hexec, rfl⟩).2
            exact hkeyed.node hnode

theorem informs_notifyDeviceUpdate : Informs (notifyDeviceUpdate device oldDevice : Task J Unit) := by
  have hsteady : Steady (notifyDeviceUpdate device oldDevice : Task J Unit) := by
    intro t t' id hkeyed hkeyed' huntouched hconcerns
    rw [concerns_notifyDeviceUpdate hkeyed']
    rcases (concerns_notifyDeviceUpdate hkeyed).mp hconcerns with ⟨hlive, hnode⟩ | ⟨hold, hcontains⟩
    · refine .inl ⟨?_, huntouched.nodeOfDevice? hnode⟩
      obtain ⟨row, hrow, hdeleted⟩ := Tables.isLive_iff.mp hlive
      obtain ⟨row', hrow', hparent⟩ := Tables.nodeOfDevice?_eq_some.mp hnode
      obtain rfl := hrow.unique hrow'
      exact Tables.isLive_iff.mpr ⟨row, huntouched.stays _ row hparent hrow, hdeleted⟩
    · exact .inr ⟨hold, huntouched.node hcontains⟩
  obtain ⟨next, heq, hfound, hmissed, hfails⟩ := notifyDeviceUpdate_eq (J := J) device oldDevice
  rw [heq] at hsteady ⊢
  refine .looks hsteady fun answer => ?_
  rcases answer with e | _ | found
  · rw [hfails]
    exact informs_notifyOldNode 0
  · rw [hmissed]
    exact informs_notifyOldNode 0
  · obtain ⟨tells, hcall, htells⟩ := hfound found
    rw [hcall]
    refine .looks (fun t t' id hkeyed hkeyed' huntouched hconcerns => ?_)
      (htells.informs informs_notifyOldNode)
    obtain ⟨hid, hcontains⟩ := (concerns_tells_notifyOldNode htells hkeyed).mp hconcerns
    exact (concerns_tells_notifyOldNode htells hkeyed').mpr ⟨hid, huntouched.node hcontains⟩

end NotifyDevice

/-! ### A value is updated -/

section NotifyValue

variable {value : ValueUpdate J} {valueOld : ValueRead J}

/-- The end of `notify_value_update`. -/
def notifyNamedDevice (value : ValueUpdate J) (newNodeId : Int) : Task J Unit := do
  if let some devId := value.parentDeviceId then
    if let .ok node ← getNodeDirectlyByDeviceId devId then
      if newNodeId ≠ node.id then
        notify .update node

theorem notifyValueUpdate_eq (value : ValueUpdate J) (valueOld : ValueRead J) :
    ∃ tells : Except SqlError (Option NodeRead) → Task J Unit,
      notifyValueUpdate value valueOld = .call (.read (.nodeOfDevice valueOld.parentDeviceId)) tells ∧
        TellsNode tells (notifyNamedDevice value) :=
  ⟨_, rfl, fun _ => rfl, rfl, fun _ => rfl⟩

theorem concerns_notifyNamedDevice {newNodeId : Int} (href : Referential t) :
    Concerns (announced t (notifyNamedDevice value newNodeId)) id ↔
      newNodeId ≠ id ∧ ∃ devId ∈ value.parentDeviceId, t.nodeOfDevice? devId = some id := by
  unfold notifyNamedDevice
  cases hnamed : value.parentDeviceId with
  | none => exact iff_of_false not_concerns_nil (by simp)
  | some devId =>
      obtain ⟨node, hexec, hid⟩ := nodeOfDevice_exec href devId
      simp only [getNodeDirectlyByDeviceId, query, issue_bind, call_bind, pure_eq, done_bind,
        announced_read, Option.mem_some_iff, exists_eq_left']
      rw [perform_read_ok hexec rfl, ← hid]
      cases node with
      | none =>
          refine iff_of_false not_concerns_nil fun h => ?_
          cases h.2
      | some node =>
          dsimp only
          rw [Option.map_some, Option.some_inj]
          split
          · next hne =>
              refine concerns_update.trans ((or_iff_left not_concerns_nil).trans ?_)
              constructor
              · rintro rfl
                exact ⟨hne, rfl⟩
              · exact fun h => h.2
          · next heq =>
              refine iff_of_false not_concerns_nil ?_
              rintro ⟨hne, rfl⟩
              exact heq hne

theorem informs_notifyNamedDevice (newNodeId : Int) : Informs (notifyNamedDevice value newNodeId) := by
  have hsteady : Steady (notifyNamedDevice value newNodeId) := by
    intro t t' id hkeyed hkeyed' huntouched hconcerns
    rw [concerns_notifyNamedDevice hkeyed'.toReferential]
    obtain ⟨hne, devId, hdevId, hnode⟩ := (concerns_notifyNamedDevice hkeyed.toReferential).mp hconcerns
    exact ⟨hne, devId, hdevId, huntouched.nodeOfDevice? hnode⟩
  unfold notifyNamedDevice at hsteady ⊢
  cases hnamed : value.parentDeviceId with
  | none => exact .ended _
  | some devId =>
      rw [hnamed] at hsteady
      refine .looks hsteady fun answer => ?_
      rcases answer with e | _ | node
      · exact .ended _
      · exact .ended _
      · show Informs (if newNodeId ≠ node.id then notify .update node else .done (.ok ()))
        split
        · exact .sends fun _ => .ended _
        · exact .ended _

theorem concerns_notifyValueUpdate (hkeyed : NodeKeyed t) :
    Concerns (announced t (notifyValueUpdate value valueOld)) id ↔
      t.nodeOfDevice? valueOld.parentDeviceId = some id ∨
        ∃ devId ∈ value.parentDeviceId, t.nodeOfDevice? devId = some id := by
  obtain ⟨tells, heq, htells⟩ := notifyValueUpdate_eq value valueOld
  rw [heq, concerns_nodeOfDevice hkeyed.toReferential htells]
  refine or_congr_right' fun hother => ?_
  rw [concerns_notifyNamedDevice hkeyed.toReferential]
  refine and_iff_right_of_imp ?_
  rintro ⟨devId, -, hnode⟩ heq
  cases hold : t.nodeOfDevice? valueOld.parentDeviceId with
  | none =>
      rw [hold] at heq
      exact (hkeyed.positive id (hkeyed.node hnode)).ne heq
  | some nodeId =>
      rw [hold] at heq
      exact hother (hold.trans (congrArg some heq))

theorem informs_notifyValueUpdate : Informs (notifyValueUpdate value valueOld) := by
  have hsteady : Steady (notifyValueUpdate value valueOld) := by
    intro t t' id hkeyed hkeyed' huntouched hconcerns
    rw [concerns_notifyValueUpdate hkeyed']
    rcases (concerns_notifyValueUpdate hkeyed).mp hconcerns with hold | ⟨devId, hdevId, hnode⟩
    · exact .inl (huntouched.nodeOfDevice? hold)
    · exact .inr ⟨devId, hdevId, huntouched.nodeOfDevice? hnode⟩
  obtain ⟨tells, heq, htells⟩ := notifyValueUpdate_eq value valueOld
  rw [heq] at hsteady ⊢
  exact .looks hsteady (htells.informs informs_notifyNamedDevice)

end NotifyValue

/-! ## The commands -/

/-- Checks look only, and they fail if a lookup does. -/
inductive Checks {α : Type} : Task J α → Prop where
  | ended (result : Except String α) : Checks (.done result)
  | looks {r : Read} {next : (Call.read (J := J) r).Answer → Task J α}
      (fails : ∀ e, ∃ msg, next (.error e) = .done (.error msg))
      (goes : ∀ rows, Checks (next (.ok rows))) : Checks (.call (.read r) next)

theorem Checks.prepares {α : Type} {checks : Task J α} {f : α → Task J Unit} (h : Checks checks)
    (hf : ∀ a, Prepares seen (f a)) : Prepares seen (checks >>= f) := by
  induction h generalizing seen with
  | ended result =>
      cases result with
      | ok a => exact hf a
      | error msg => exact .ended _
  | @looks r next fails goes ih =>
      apply Prepares.looks
      · intro e
        obtain ⟨msg, hmsg⟩ := fails e
        show Main.ended ((next (.error e)).bind f) = true
        rw [hmsg]
        rfl
      · exact fun t rows _ => ih rows fun a => (hf a).mono (List.subset_cons_self _ _)

theorem checks_orFail {ε α : Type} (result : Except ε α) (msg : ε → String) :
    Checks (orFail result msg : Task J α) := by
  cases result <;> exact .ended _

/-! ### Nodes -/

theorem createNode_prepares (node : NodeCreate) : Prepares [] (createNode node : Task J Unit) := by
  refine (checks_orFail _ _).prepares fun _ => .looks (fun e => rfl) fun t found _ => ?_
  cases found with
  | some nodeInDb => exact .ended _
  | none =>
      refine .writes (fun e => rfl) ?_ fun _ _ _ _ _ htouches _ => htouches.elim
      have hnone (t : Tables J) (id : Int) (answer : Except SqlError (Option NodeRead)) :
          ¬Concerns (announced t
            (notifyNode .create (answer.mapError fun _ => ()) : Task J Unit)) id := by
        rcases answer with e | _ | created
        · exact not_concerns_nil
        · exact not_concerns_nil
        · exact not_concerns fun _ => rfl
      refine .looks (fun t t' id _ _ _ hconcerns => absurd hconcerns (hnone t id _)) fun answer => ?_
      rcases answer with e | _ | created
      · exact .ended _
      · exact .ended _
      · exact .sends fun _ => .ended _

theorem checks_checkNodeIp (node : NodeUpdate) : Checks (checkNodeIp node : Task J Unit) := by
  unfold checkNodeIp
  split
  · next ip _ =>
      cases parseIpv4 ip with
      | error e => exact .ended _
      | ok _ =>
          refine .looks (fun e => ⟨_, rfl⟩) fun nodeInDb => ?_
          cases nodeInDb with
          | none => exact .ended _
          | some nodeInDb =>
              show Checks (if nodeInDb.id ≠ node.id then fail _ else .done (.ok ()))
              split <;> exact .ended _
  · exact .ended _

/-- The devices of a node do not change with it. -/
theorem updateNode_prepares (node : NodeUpdate) : Prepares [] (updateNode node : Task J Unit) := by
  refine .looks (fun e => rfl) fun t stored _ => ?_
  cases stored with
  | none => exact .ended _
  | some stored =>
      refine (checks_checkNodeIp node).prepares fun _ => .writes (fun e => rfl) ?_ ?_
      · exact informs_getNodeById node.id
      · exact fun _ _ _ _ _ htouches _ => htouches.elim

/-- The node is told before its loop could read. -/
theorem deleteNode_prepares (ts : Int) (node : NodeDelete) :
    Prepares [] (deleteNode ts node : Task J Unit) := by
  refine .looks (fun e => rfl) fun t deletedNode hrows => ?_
  refine .commits (by simp [Write.Removes]) (fun e => ?_) ?_ fun t t' id _ _ htouches hholds => ?_
  · cases e <;> rfl
  · cases deletedNode with
    | none => exact .ended _
    | some deletedNode => exact .sends fun _ => .ended _
  · have hnode : node.id = id ∧ t.nodes.contains id = true := by
      obtain ⟨w, hw, htouches⟩ := htouches
      simp only [List.mem_cons, List.not_mem_nil, or_false] at hw
      rcases hw with rfl | rfl | rfl | rfl <;> exact htouches
    have hread := hholds _ List.mem_cons_self
    cases deletedNode with
    | none =>
        have hgone : t.nodes.contains id = false := hread hnode.1
        rw [hnode.2] at hgone
        cases hgone
    | some deletedNode =>
        obtain ⟨row, -, rfl⟩ := Option.map_eq_some_iff.mp (Option.some.inj hrows)
        have hdelete : ConfigEventType.delete ≠ .create := by decide
        exact concerns_cons.mpr (.inl ⟨hdelete, hnode.1⟩)

/-! ### Devices -/

theorem createDevice_prepares (device : DeviceCreate) :
    Prepares [] (createDevice lib device : Task J Unit) := by
  refine (checks_orFail _ _).prepares fun _ => .looks (fun e => rfl) fun t nodeRead _ => ?_
  cases nodeRead with
  | none => exact .ended _
  | some nodeRead =>
      refine .looks (fun e => rfl) fun t deviceRead _ => ?_
      cases deviceRead with
      | some deviceRead => exact .ended _
      | none =>
          refine .writes (fun e => rfl) (informs_getNodeById _) ?_
          intro t t' id _ heffect htouches _
          obtain ⟨hparent, heq⟩ := Option.ite_none_right_eq_some.mp heffect
          cases heq
          refine concerns_getNodeById.mpr ⟨htouches, ?_⟩
          have hid : device.parentNodeId = id := htouches
          rwa [← hid]

theorem checks_checkParent (device : DeviceUpdate) : Checks (checkParent device : Task J Unit) := by
  unfold checkParent
  split
  · split
    · exact .ended _
    · refine .looks (fun e => ⟨_, rfl⟩) fun node => ?_
      cases node <;> exact .ended _
  · exact .ended _

theorem checks_checkAddress (device : DeviceUpdate) : Checks (checkAddress device : Task J Unit) := by
  unfold checkAddress
  split
  · refine .looks (fun e => ⟨_, rfl⟩) fun deviceRead => ?_
    show Checks (if deviceRead.any fun deviceRead => deviceRead.id ≠ device.id then fail _
      else .done (.ok ()))
    split <;> exact .ended _
  · exact .ended _

/-- The node that the device goes to is told, and the one that it was read with. -/
theorem updateDevice_prepares (device : DeviceUpdate) :
    Prepares [] (updateDevice device : Task J Unit) := by
  refine (checks_orFail _ _).prepares fun _ => (checks_checkParent device).prepares fun _ =>
    (checks_checkAddress device).prepares fun _ => .looks (fun e => rfl) fun t oldDevice _ => ?_
  cases oldDevice with
  | none => exact .ended _
  | some oldDevice =>
      refine .writes (fun e => rfl) informs_notifyDeviceUpdate ?_
      intro t t' id hkeyed heffect htouches hholds
      have hexec : (Write.updateDevice device).exec t = some t' := heffect
      have hkeyed' := Write.exec_keyed hkeyed hexec
      refine (concerns_notifyDeviceUpdate hkeyed').mpr ?_
      obtain ⟨-, heq⟩ := Option.ite_none_right_eq_some.mp heffect
      cases heq
      rcases htouches with hbefore | ⟨hlive, hparent⟩
      · have hread := hholds _ List.mem_cons_self
        rcases hread hbefore with hold | hstays
        · exact .inr ⟨hold, hkeyed.node hbefore⟩
        · exact .inl hstays
      · obtain ⟨row, hrow, hdeleted⟩ := Tables.isLive_iff.mp hlive
        have hafter : (t.devices.modify (fun key _ => key = device.id) device.set).Has device.id
            (device.set row) :=
          Table.has_modify.mpr ⟨row, hrow, by simp⟩
        refine .inl ⟨Tables.isLive_iff.mpr ⟨_, hafter, hdeleted⟩,
          Tables.nodeOfDevice?_eq_some.mpr ⟨_, hafter, ?_⟩⟩
        show (device.parentNodeId <|> row.parentNodeId) = some id
        rw [hparent]
        rfl

/-- What the statements of a deletion leave as it is. -/
theorem execAll_clears {ws : List (Write J)} (hws : ∀ w ∈ ws, w.Clears) (hexec : execAll t ws = .ok t') :
    t'.nodes = t.nodes := by
  apply execAll_keeps (I := fun t' : Tables J => t'.nodes = t.nodes) _ rfl hexec
  intro w hw a b ha hstep
  rw [← ha]
  cases w with
  | deleteMeasures =>
      cases hstep
      rfl
  | deleteValue =>
      obtain ⟨-, rfl⟩ := deleteValues_eq hstep
      rfl
  | deleteDevice =>
      obtain ⟨-, rfl⟩ := deleteDevices_eq hstep
      rfl
  | _ => exact (hws _ hw).elim

/-- The device is deleted last. -/
theorem execAll_deleteDevice {ws : List (Write J)} {deviceId : Int}
    (hexec : execAll t (ws ++ [.deleteDevice deviceId]) = .ok t') :
    t'.nodeOfDevice? deviceId = none := by
  induction ws generalizing t with
  | nil =>
      obtain ⟨next, hdelete, hend⟩ := execAll_cons.mp hexec
      cases hend
      obtain ⟨-, rfl⟩ := deleteDevices_eq hdelete
      apply Option.eq_none_iff_forall_ne_some.mpr
      intro nodeId hnode
      obtain ⟨row, hrow, -⟩ := Tables.nodeOfDevice?_eq_some.mp hnode
      exact of_decide_eq_false (Table.has_delete.mp hrow).2 rfl
  | cons w ws ih =>
      obtain ⟨next, -, hrest⟩ := execAll_cons.mp hexec
      exact ih hrest

/-- The node of the device is told, if it is still the one that was read and the values are still those
of the device. -/
theorem deleteDevice_prepares (device : DeviceDelete) :
    Prepares [] (deleteDevice device : Task J Unit) := by
  refine .looks (fun e => rfl) fun t deletedDevice _ => ?_
  cases deletedDevice with
  | none => exact .ended _
  | some deletedDevice =>
      refine .looks (fun e => rfl) fun t devicesValues _ => ?_
      have hclears : ∀ w ∈ ((devicesValues.flatMap fun value => deleteValueStatements value.id) ++
          [.deleteDevice device.id] : List (Write J)), w.Clears := by
        have hall := deleteDeviceStatements_clears (J := J) (devicesValues.map ValueRead.id) device.id
        rwa [List.flatMap_map] at hall
      refine .commits (fun w hw => (hclears w hw).removes) (fun e => ?_) (informs_getNodeById _) ?_
      · rcases e with e | ⟨w, e⟩ | e
        · rfl
        · cases w <;> rfl
        · rfl
      · intro t t' id hkeyed heffect htouches hholds
        have hexec := Call.effect?_transaction.mp heffect
        have hvalues := hholds _ List.mem_cons_self
        have hdevice := hholds _ (List.mem_cons_of_mem _ List.mem_cons_self)
        have hnode : t.nodeOfDevice? device.id = some id := by
          obtain ⟨w, hw, htouches⟩ := htouches
          rcases List.mem_append.mp hw with hvalue | hlast
          · obtain ⟨value, hlisted, hw⟩ := List.mem_flatMap.mp hvalue
            rcases List.mem_pair.mp hw with rfl | rfl
            · exact htouches.elim
            · exact hvalues value hlisted htouches
          · obtain rfl := List.mem_singleton.mp hlast
            exact htouches
        refine concerns_getNodeById.mpr ⟨?_, ?_⟩
        · rcases hdevice hnode with hold | ⟨-, hstays⟩
          · exact hold
          · rw [execAll_deleteDevice hexec] at hstays
            cases hstays
        · rw [execAll_clears hclears hexec]
          exact hkeyed.node hnode

/-! ### Values -/

theorem tellsNode_getNodeDirectly (deviceId : Int) : TellsNode (J := J) (fun node =>
    match (match node with
      | .ok (some node) => .ok node
      | .ok none => .error s!"Не знайдено активної ноди для девайсу з id: {deviceId}"
      | .error e => .error s!"Помилка SQL-запиту ноди для девайсу {deviceId}: {e.display}" :
        Except String NodeRead) with
    | .ok node => notify .update node
    | _ => .done (.ok ())) stops :=
  ⟨fun _ => rfl, rfl, fun _ => rfl⟩

theorem createValue_prepares (value : ValueCreate J) : Prepares [] (createValue lib value) := by
  refine (checks_orFail _ _).prepares fun _ => .looks (fun e => rfl) fun t dev _ => ?_
  cases dev with
  | none => exact .ended _
  | some dev =>
      have htells := tellsNode_getNodeDirectly (J := J) value.parentDeviceId
      refine .writes (fun e => rfl) (informs_nodeOfDevice htells) ?_
      intro t t' id hkeyed heffect htouches _
      have hexec : (Write.insertValue value).exec t = some t' := heffect
      have href := Write.exec_referential hkeyed.toReferential hexec
      obtain ⟨-, heq⟩ := Option.ite_none_right_eq_some.mp hexec
      cases heq
      exact (concerns_nodeOfDevice href htells).mpr (.inl htouches)

theorem checks_checkValueUpdate (value : ValueUpdate J) (val : ReadVal) :
    Checks (checkValueUpdate lib value val) := by
  have hparent : Checks (checkValueParent value) := by
    unfold checkValueParent
    split
    · refine .looks (fun e => ⟨_, rfl⟩) fun dev => ?_
      cases dev <;> exact .ended _
    · exact .ended _
  unfold checkValueUpdate
  split
  · next setting _ =>
      show Checks (orFail (lib.checkJson (value.decodingType.getD val.decodingType) setting) id >>=
        fun _ => checkValueParent value)
      cases lib.checkJson (value.decodingType.getD val.decodingType) setting with
      | error msg => exact .ended _
      | ok _ => exact hparent
  · exact hparent

/-- The node of the device that the value was read with is told, and the one of the device that the
update names. -/
theorem valueUpdate_prepares (value : ValueUpdate J) : Prepares [] (Db.valueUpdate lib value) := by
  refine .looks (fun e => rfl) fun t valueOld _ => ?_
  cases valueOld with
  | none => exact .ended _
  | some valueOld =>
      refine .looks (fun e => rfl) fun t val _ => ?_
      cases val with
      | none => exact .ended _
      | some val =>
          refine (checks_checkValueUpdate value val).prepares fun _ =>
            .writes (fun e => rfl) informs_notifyValueUpdate ?_
          intro t t' id hkeyed heffect htouches hholds
          have hexec : (Write.updateValue value).exec t = some t' := heffect
          have hdevices : t'.devices = t.devices := by
            simp only [Write.exec] at hexec
            split at hexec
            · obtain ⟨-, heq⟩ := Option.ite_none_right_eq_some.mp hexec
              cases heq
              rfl
            · cases hexec
              rfl
          refine (concerns_notifyValueUpdate (Write.exec_keyed hkeyed hexec)).mpr ?_
          unfold Tables.nodeOfDevice?
          rw [hdevices]
          rcases htouches with hbefore | ⟨-, hnamed⟩
          · exact .inl (hholds _ (List.mem_cons_of_mem _ List.mem_cons_self) hbefore)
          · exact .inr hnamed

/-- The node of the device that the value was read with is told. -/
theorem deleteValue_prepares (value : ValueDelete) :
    Prepares [] (deleteValue value : Task J Unit) := by
  refine .looks (fun e => rfl) fun t deletedValueOld _ => ?_
  cases deletedValueOld with
  | none => exact .ended _
  | some deletedValueOld =>
      have htells := tellsNode_getNodeDirectly (J := J) deletedValueOld.parentDeviceId
      refine .commits (fun w hw => (deleteValueStatements_clears value.id w hw).removes)
        (fun e => ?_) (informs_nodeOfDevice htells) ?_
      · cases e <;> rfl
      · intro t t' id hkeyed heffect htouches hholds
        obtain ⟨next, hmeasures, hrest⟩ := execAll_cons.mp (Call.effect?_transaction.mp heffect)
        obtain ⟨last, hvalue, hend⟩ := execAll_cons.mp hrest
        have href := Write.exec_referential (Write.exec_referential hkeyed.toReferential hmeasures) hvalue
        cases hmeasures
        obtain ⟨-, rfl⟩ := deleteValues_eq hvalue
        cases hend
        obtain ⟨w, hw, htouches⟩ := htouches
        rcases List.mem_pair.mp hw with rfl | rfl
        · exact htouches.elim
        · exact (concerns_nodeOfDevice href htells).mpr (.inl (hholds _ List.mem_cons_self htouches))

/-- The task of a command, from its start. -/
theorem task_prepares (lib : Libraries J) (command : Command J) :
    Prepares [] (command.task lib) := by
  cases command with
  | nodeCreate node => exact createNode_prepares node
  | nodeUpdate node => exact updateNode_prepares node
  | nodeDelete ts node => exact deleteNode_prepares ts node
  | deviceCreate device => exact createDevice_prepares device
  | deviceUpdate device => exact updateDevice_prepares device
  | deviceDelete device => exact deleteDevice_prepares device
  | valueCreate value => exact createValue_prepares value
  | valueUpdate value => exact valueUpdate_prepares value
  | valueDelete value => exact deleteValue_prepares value

end ModbusLogger.Main
