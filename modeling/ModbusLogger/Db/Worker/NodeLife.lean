import ModbusLogger.Db.Worker.DbMaster

/-!
# What a task tells the reader about nodes

`announced` looks ahead: the events that a task sends if nobody changes the tables in the meantime. A
task announces that a node is there, or gone, between its write and its send; `Stage` says so for the
tasks of all commands.
-/

namespace ModbusLogger.Db

open Program

variable {J : Type} {lib : Libraries J} {t t' : Tables J}

/-! ## Looking ahead -/

/-- Queries are answered by the tables, and events go out. A task does not look beyond its writes. -/
def foresee (t : Tables J) : (c : Call J) → Option c.Answer
  | .read r => some (perform (.read r) .success t).2
  | .send _ => some true
  | .write _ | .transaction _ => none

def Call.event? : Call J → Option ConfigEvent
  | .send event => some event
  | _ => none

def announced (t : Tables J) (p : Task J Unit) : List ConfigEvent :=
  (p.ahead (foresee t)).filterMap Call.event?

@[simp] theorem announced_done (r : Except String Unit) : announced t (.done r) = [] := rfl

@[simp] theorem announced_read (r : Read) (next : (Call.read r).Answer → Task J Unit) :
    announced t (.call (.read r) next) = announced t (next (perform (.read r) .success t).2) := rfl

@[simp] theorem announced_send (event : ConfigEvent) (next : Bool → Task J Unit) :
    announced t (.call (.send event) next) = event :: announced t (next true) := rfl

@[simp] theorem announced_write (w : Write J) (next : (Call.write w).Answer → Task J Unit) :
    announced t (.call (.write w) next) = [] := rfl

@[simp] theorem announced_transaction (ws : List (Write J))
    (next : (Call.transaction ws).Answer → Task J Unit) :
    announced t (.call (.transaction ws) next) = [] := rfl

/-- The node that an event of the type is about. -/
def ConfigEvent.about (eventType : ConfigEventType) (event : ConfigEvent) : Option NodeRead :=
  if event.eventType = eventType then some event.data else none

def dataOf (eventType : ConfigEventType) (events : List ConfigEvent) : List NodeRead :=
  events.filterMap (ConfigEvent.about eventType)

/-! ## Lookups -/

/-- The node that a lookup by an ip finds. -/
def Tables.nodeAt? (t : Tables J) (ip : String) : Option NodeRead :=
  (t.nodes.first? fun _ row => row.ip = ip).map fun r => r.2.read r.1

theorem Tables.nodeAt?_contains {ip : String} {node : NodeRead} (h : t.nodeAt? ip = some node) :
    t.nodes.contains node.id = true := by
  obtain ⟨r, hr, rfl⟩ := Option.map_eq_some_iff.mp h
  exact Table.contains_iff.mpr ⟨r.2, (Table.first?_has hr).1⟩

/-- A row with an ip that no row had is found by it. -/
theorem Tables.nodeAt?_insert {row : NodeRow} (hnone : t.nodeAt? row.ip = none)
    (h : t'.nodes = t.nodes.insert row) : t'.nodeAt? row.ip = some (row.read t.nodes.next) := by
  unfold nodeAt? at hnone ⊢
  rw [Option.map_eq_none_iff] at hnone
  unfold Table.first? at hnone ⊢
  rw [h]
  show ((t.nodes.rows ++ [(t.nodes.next, row)]).find? _).map _ = _
  rw [List.find?_append, hnone]
  simp

theorem perform_nodeByIp (ip : String) (fate : Fate) (t : Tables J) :
    (perform (.read (.nodeByIp ip)) fate t).2 =
      if fate.succeeds then .ok (t.nodeAt? ip) else .error fate.error := rfl

/-! ## Stages -/

/-- Calls of the tasks that neither insert nor delete nodes. -/
def Call.Harmless : Call J → Prop
  | read _ => True
  | write (.insertNode ..) | write (.deleteNode _) => False
  | write _ => True
  | transaction ws => ∀ w ∈ ws, w.Clears
  | send event => event.eventType = .update

/-- From here on a task is of no concern to the life of nodes. -/
def Quiet (p : Task J Unit) : Prop := p.Every Call.Harmless fun _ => True

/-- A task that sends an event next, and then nothing of concern. -/
inductive Tells (event : ConfigEvent) : Task J Unit → Prop where
  | mk {next : Bool → Task J Unit} (rest : ∀ sent, Quiet (next sent)) :
      Tells event (.call (.send event) next)

/-- A task after its `INSERT INTO nodes`: it looks for the node by its ip and announces what it
finds. -/
inductive Created (ip : String) : Task J Unit → Prop where
  | mk {next : Except SqlError (Option NodeRead) → Task J Unit}
      (found : ∀ node, Tells ⟨.create, node⟩ (next (.ok (some node))))
      (missed : Quiet (next (.ok none))) (fails : ∀ e, Quiet (next (.error e))) :
      Created ip (.call (.read (.nodeByIp ip)) next)

/-- Where the task of a command is, when ids from `bound` on have never been used. -/
inductive Stage : Int → Task J Unit → Prop where
  | quiet {bound : Int} {p : Task J Unit} (quiet : Quiet p) : Stage bound p
  /-- Before its first write. -/
  | looks {bound : Int} {r : Read} {next : (Call.read (J := J) r).Answer → Task J Unit}
      (silent : ∀ t, announced t (.call (.read r) next) = []) (fails : ∀ e, Quiet (next (.error e)))
      (goes : ∀ t rows, bound ≤ t.nodes.next → r.exec t = some rows →
        Stage t.nodes.next (next (.ok rows))) :
      Stage bound (.call (.read r) next)
  | inserts {bound : Int} {ip : String} {port : Int} {description : String}
      {next : Except SqlError Unit → Task J Unit} (fails : ∀ e, Quiet (next (.error e)))
      (goes : Created ip (next (.ok ()))) :
      Stage bound (.call (.write (.insertNode ip port description)) next)
  | created {bound : Int} {p : Task J Unit} {ip : String} (created : Created ip p) : Stage bound p
  | deletes {bound : Int} {ws : List (Write J)} {id : Int}
      {next : Except (TxError J) Unit → Task J Unit} (removes : ∀ w ∈ ws, w.Removes)
      (deletes : ∀ id', .deleteNode id' ∈ ws ↔ id' = id) (fails : ∀ e, Quiet (next (.error e)))
      (goes : Quiet (next (.ok ())) ∨
        ∃ node, node.id = id ∧ id < bound ∧ Tells ⟨.delete, node⟩ (next (.ok ()))) :
      Stage bound (.call (.transaction ws) next)
  | tells {bound : Int} {p : Task J Unit} {event : ConfigEvent} (tells : Tells event p)
      (used : event.data.id < bound) : Stage bound p

variable {p : Task J Unit} {bound : Int}

theorem Quiet.done (r : Except String Unit) : Quiet (.done r : Task J Unit) := by
  cases r <;> exact trivial

theorem Tells.notify (eventType : ConfigEventType) (node : NodeRead) :
    Tells ⟨eventType, node⟩ (notify eventType node : Task J Unit) :=
  .mk fun _ => .done _

/-! ### Steps of a task -/

theorem Stage.mono {bound' : Int} (h : Stage bound p) (hle : bound ≤ bound') : Stage bound' p := by
  cases h with
  | quiet quiet => exact .quiet quiet
  | looks silent fails goes => exact .looks silent fails fun t rows ht => goes t rows (hle.trans ht)
  | inserts fails goes => exact .inserts fails goes
  | created created => exact .created created
  | deletes removes deletes fails goes =>
      apply Stage.deletes removes deletes fails
      rcases goes with hquiet | ⟨node, hid, hused, htells⟩
      · exact .inl hquiet
      · exact .inr ⟨node, hid, hused.trans_le hle, htells⟩
  | tells tells used => exact .tells tells (used.trans_le hle)

theorem Stage.read {r : Read} {next : (Call.read (J := J) r).Answer → Task J Unit}
    (h : Stage bound (.call (.read r) next)) (fate : Fate) (ht : bound ≤ t.nodes.next) :
    Stage t.nodes.next (next (perform (.read r) fate t).2) := by
  cases h with
  | quiet quiet => exact .quiet (quiet.2 _)
  | looks silent fails goes =>
      unfold perform
      dsimp only
      split
      · next rows hrows =>
          split
          · exact goes t rows ht hrows
          · exact .quiet (fails _)
      · exact .quiet (fails _)
  | @created _ _ ip created =>
      cases created with
      | @mk next found missed fails =>
          rw [perform_nodeByIp]
          split
          · cases hnode : t.nodeAt? ip with
            | none => exact .quiet missed
            | some node =>
                obtain ⟨row, hrow⟩ := Table.contains_iff.mp (Tables.nodeAt?_contains hnode)
                exact .tells (found node) hrow.lt_next
          · exact .quiet (fails _)
  | tells tells used => cases tells

theorem Stage.sent {event : ConfigEvent} {next : Bool → Task J Unit}
    (h : Stage bound (.call (.send event) next)) (sent : Bool) : Quiet (next sent) := by
  cases h with
  | quiet quiet => exact quiet.2 sent
  | created created => cases created
  | tells tells used =>
      cases tells with
      | mk rest => exact rest sent

/-! ### The commands -/

theorem createNode_stage (node : NodeCreate) : Stage bound (createNode node : Task J Unit) := by
  unfold createNode
  cases parseIpv4 node.ip with
  | error e => exact .quiet (.done _)
  | ok _ =>
      apply Stage.looks
      · intro t
        apply (announced_read _ _).trans
        rcases (perform (.read (.nodeByIp node.ip)) .success t).2 with e | (_ | nodeInDb) <;> rfl
      · exact fun e => .done _
      · intro t rows _ hrows
        cases rows with
        | some nodeInDb => exact .quiet (.done _)
        | none =>
            apply Stage.inserts
            · exact fun e => .done _
            · exact .mk (fun node => .notify .create node) (.done _) fun e => .done _

theorem deleteNode_stage (ts : Int) (node : NodeDelete) :
    Stage bound (deleteNode ts node : Task J Unit) := by
  apply Stage.looks
  · intro t
    apply (announced_read _ _).trans
    rcases (perform (.read (.nodeById node.id)) .success t).2 with e | deleted <;> rfl
  · exact fun e => .done _
  · intro t rows _ hrows
    refine .deletes ?_ (fun id => (?_ : _ ↔ id = node.id)) ?_ ?_
    · simp [Write.Removes]
    · simp
    · intro e
      cases e <;> exact .done _
    · cases rows with
      | none => exact .inl (.done _)
      | some deleted =>
          obtain ⟨row, hrow, rfl⟩ := Option.map_eq_some_iff.mp (Option.some.inj hrows)
          have hused : node.id < t.nodes.next := (Table.get?_eq_some.mp hrow).lt_next
          exact .inr ⟨_, rfl, hused, .notify .delete _⟩

/-- The other commands keep away from the life of nodes. -/
theorem Command.task_quiet (lib : Libraries J) (command : Command J) :
    (∃ node, command = .nodeCreate node) ∨ (∃ ts node, command = .nodeDelete ts node) ∨
      Quiet (command.task lib) := by
  have hread (r : Read) : Call.Harmless (J := J) (.read r) := trivial
  have hsend (node : NodeRead) : Call.Harmless (J := J) (.send ⟨.update, node⟩) := rfl
  cases command with
  | nodeCreate node => exact .inl ⟨node, rfl⟩
  | nodeDelete ts node => exact .inr (.inl ⟨ts, node, rfl⟩)
  | nodeUpdate node => exact .inr (.inr (updateNode_every node hread hsend trivial))
  | deviceCreate device =>
      exact .inr (.inr (createDevice_every device hread hsend fun _ => trivial))
  | deviceUpdate device =>
      exact .inr (.inr (updateDevice_every device hread hsend fun _ => trivial))
  | deviceDelete device =>
      exact .inr (.inr (deleteDevice_every device hread hsend fun ids =>
        deleteDeviceStatements_clears ids device.id))
  | valueCreate value => exact .inr (.inr (createValue_every value hread hsend fun _ => trivial))
  | valueUpdate value => exact .inr (.inr (valueUpdate_every value hread hsend fun _ => trivial))
  | valueDelete value =>
      exact .inr (.inr (deleteValue_every value hread hsend (deleteValueStatements_clears value.id)))

theorem Command.task_stage (lib : Libraries J) (command : Command J) :
    Stage bound (command.task lib) := by
  rcases command.task_quiet lib with ⟨node, rfl⟩ | ⟨ts, node, rfl⟩ | hquiet
  · exact createNode_stage node
  · exact deleteNode_stage ts node
  · exact .quiet hquiet

/-! ## What is announced -/

theorem Quiet.dataOf {eventType : ConfigEventType} (h : Quiet p) (he : eventType ≠ .update)
    (t : Tables J) : dataOf eventType (announced t p) = [] := by
  apply List.filterMap_eq_nil_iff.mpr
  intro event hevent
  obtain ⟨c, hc, hcall⟩ := List.mem_filterMap.mp hevent
  have hharmless : c.Harmless := h.ahead c hc
  cases c with
  | send event' =>
      cases hcall
      have hupdate : event.eventType = .update := hharmless
      rw [ConfigEvent.about, if_neg (hupdate ▸ he.symm)]
  | _ => cases hcall

@[simp] theorem dataOf_cons_self (eventType : ConfigEventType) (node : NodeRead)
    (events : List ConfigEvent) :
    dataOf eventType (⟨eventType, node⟩ :: events) = node :: dataOf eventType events := by
  simp [dataOf, ConfigEvent.about]

theorem dataOf_cons_ne {eventType : ConfigEventType} {event : ConfigEvent}
    (h : event.eventType ≠ eventType) (events : List ConfigEvent) :
    dataOf eventType (event :: events) = dataOf eventType events := by
  simp [dataOf, ConfigEvent.about, h]

theorem Tells.dataOf_self {eventType : ConfigEventType} {node : NodeRead}
    (h : Tells ⟨eventType, node⟩ p) (he : eventType ≠ .update) (t : Tables J) :
    dataOf eventType (announced t p) = [node] := by
  cases h with
  | mk rest => rw [announced_send, dataOf_cons_self, (rest true).dataOf he t]

theorem Tells.dataOf_ne {event : ConfigEvent} {eventType : ConfigEventType} (h : Tells event p)
    (hne : event.eventType ≠ eventType) (he : eventType ≠ .update) (t : Tables J) :
    dataOf eventType (announced t p) = [] := by
  cases h with
  | mk rest => rw [announced_send, dataOf_cons_ne hne, (rest true).dataOf he t]

theorem Created.dataOf_create {ip : String} (h : Created ip p) (t : Tables J) :
    dataOf .create (announced t p) = (t.nodeAt? ip).toList := by
  cases h with
  | @mk next found missed fails =>
      rw [announced_read]
      show dataOf .create (announced t (next (.ok (t.nodeAt? ip)))) = _
      cases t.nodeAt? ip with
      | none => exact missed.dataOf (by decide) t
      | some node => exact (found node).dataOf_self (by decide) t

theorem Created.dataOf_delete {ip : String} (h : Created ip p) (t : Tables J) :
    dataOf .delete (announced t p) = [] := by
  cases h with
  | @mk next found missed fails =>
      rw [announced_read]
      show dataOf .delete (announced t (next (.ok (t.nodeAt? ip)))) = _
      cases t.nodeAt? ip with
      | none => exact missed.dataOf (by decide) t
      | some node =>
          have hne : ConfigEventType.create ≠ .delete := nofun
          exact (found node).dataOf_ne hne nofun t

/-- A deletion is announced whatever the tables are. -/
theorem Stage.dataOf_delete (h : Stage bound p) (t t' : Tables J) :
    dataOf .delete (announced t p) = dataOf .delete (announced t' p) := by
  cases h with
  | quiet quiet => rw [quiet.dataOf (by decide) t, quiet.dataOf (by decide) t']
  | looks silent fails goes => rw [silent t, silent t']
  | inserts => rfl
  | created created => rw [created.dataOf_delete t, created.dataOf_delete t']
  | deletes => rfl
  | @tells _ p event tells used =>
      obtain ⟨eventType, node⟩ := event
      by_cases he : eventType = .delete
      · subst he
        rw [tells.dataOf_self (by decide) t, tells.dataOf_self (by decide) t']
      · rw [tells.dataOf_ne he (by decide) t, tells.dataOf_ne he (by decide) t']

/-- What a task reads next is not about a deletion. -/
theorem Stage.dataOf_delete_read {r : Read} {next : (Call.read (J := J) r).Answer → Task J Unit}
    (h : Stage bound (.call (.read r) next)) (t : Tables J) :
    dataOf .delete (announced t (.call (.read r) next)) = [] := by
  cases h with
  | quiet quiet => exact quiet.dataOf (by decide) t
  | looks silent fails goes =>
      rw [silent t]
      rfl
  | created created => exact created.dataOf_delete t
  | tells tells => cases tells

theorem createNode_silent (node : NodeCreate) (t : Tables J) :
    announced t (createNode node) = [] := by
  unfold createNode
  cases parseIpv4 node.ip with
  | error e => rfl
  | ok _ =>
      apply (announced_read _ _).trans
      rcases (perform (.read (.nodeByIp node.ip)) .success t).2 with e | (_ | nodeInDb) <;> rfl

theorem deleteNode_silent (ts : Int) (node : NodeDelete) (t : Tables J) :
    announced t (deleteNode ts node) = [] := by
  apply (announced_read _ _).trans
  rcases (perform (.read (.nodeById node.id)) .success t).2 with e | deleted <;> rfl

/-- A command announces nothing before it has written. -/
theorem Command.dataOf_task (lib : Libraries J) (command : Command J) {eventType : ConfigEventType}
    (he : eventType ≠ .update) (t : Tables J) :
    dataOf eventType (announced t (command.task lib)) = [] := by
  rcases command.task_quiet lib with ⟨node, rfl⟩ | ⟨ts, node, rfl⟩ | hquiet
  · show dataOf eventType (announced t (createNode node)) = []
    rw [createNode_silent]
    rfl
  · show dataOf eventType (announced t (deleteNode ts node)) = []
    rw [deleteNode_silent]
    rfl
  · exact hquiet.dataOf he t

/-- A lookup that succeeds changes nothing that is announced, and after one that fails there is
nothing left to announce. -/
theorem Stage.dataOf_read {r : Read} {next : (Call.read (J := J) r).Answer → Task J Unit}
    (h : Stage bound (.call (.read r) next)) {eventType : ConfigEventType} (he : eventType ≠ .update)
    (fate : Fate) (t : Tables J) :
    dataOf eventType (announced t (next (perform (.read r) fate t).2)) =
      if fate.succeeds then dataOf eventType (announced t (.call (.read r) next)) else [] := by
  cases h with
  | quiet quiet =>
      rw [Quiet.dataOf (quiet.2 _) he t, quiet.dataOf he t, ite_self]
  | looks silent fails goes =>
      rw [silent t]
      have hnone : dataOf eventType [] = [] := rfl
      have hsilent := silent t
      rw [announced_read] at hsilent
      cases hrows : r.exec t with
      | none =>
          have hperform : (perform (.read r) fate t).2 = .error fate.error := by
            unfold perform
            dsimp only
            rw [hrows]
          rw [hperform, (fails _).dataOf he t, hnone, ite_self]
      | some rows =>
          have hperform (fate : Fate) : (perform (.read r) fate t).2 =
              if fate.succeeds then .ok rows else .error fate.error := by
            unfold perform
            dsimp only
            rw [hrows]
          have hsuccess : Fate.success.succeeds = true := rfl
          rw [hperform, if_pos hsuccess] at hsilent
          rw [hperform, hnone, ite_self]
          split
          · rw [hsilent]
            rfl
          · exact (fails _).dataOf he t
  | @created _ p ip created =>
      cases created with
      | @mk next found missed fails =>
          rw [announced_read]
          rw [perform_nodeByIp, perform_nodeByIp]
          split
          · rfl
          · exact (fails _).dataOf he t
  | tells tells used => cases tells

/-! ## The ids of the nodes -/

/-- The nodes after some writes: those of before without `gone`, and ids are never used again. -/
structure NodesWithout (gone : Int → Prop) (t t' : Tables J) : Prop where
  ids : ∀ id, t'.nodes.contains id = true ↔ t.nodes.contains id = true ∧ ¬gone id
  next : t'.nodes.next = t.nodes.next

theorem NodesWithout.of_eq (h : t'.nodes = t.nodes) : NodesWithout (fun _ => False) t t' where
  ids id := by simp [h]
  next := by rw [h]

/-- Only the statements on `nodes` change their ids. -/
theorem Write.exec_nodes {w : Write J} (hw : Call.Harmless (.write w)) (h : w.exec t = some t') :
    NodesWithout (fun _ => False) t t' := by
  cases w with
  | insertNode => exact hw.elim
  | deleteNode => exact hw.elim
  | updateNode id ip port description =>
      cases h
      refine ⟨fun key => ?_, rfl⟩
      simp [Table.contains_iff, Table.has_modify]
  | insertDevice device description =>
      unfold Write.exec at h
      dsimp only at h
      split at h <;> cases h
      exact .of_eq rfl
  | updateDevice device =>
      unfold Write.exec at h
      dsimp only at h
      split at h <;> cases h
      exact .of_eq rfl
  | insertValue value =>
      unfold Write.exec at h
      dsimp only at h
      split at h <;> cases h
      exact .of_eq rfl
  | updateValue value =>
      unfold Write.exec at h
      dsimp only at h
      split at h
      · split at h <;> cases h
        exact .of_eq rfl
      · cases h
        exact .of_eq rfl
  | deleteMeasures valueId =>
      cases h
      exact .of_eq rfl
  | markDevicesDeleted ts nodeId =>
      cases h
      exact .of_eq rfl
  | deleteValue | deleteNodeValues =>
      obtain ⟨-, rfl⟩ := deleteValues_eq h
      exact .of_eq rfl
  | deleteDevice | deleteNodeDevices =>
      obtain ⟨-, rfl⟩ := deleteDevices_eq h
      exact .of_eq rfl

theorem Write.Removes.exec_nodes {w : Write J} (hw : w.Removes) (h : w.exec t = some t') :
    NodesWithout (fun id => w = .deleteNode id) t t' := by
  by_cases hdelete : ∃ id, w = .deleteNode id
  · obtain ⟨id, rfl⟩ := hdelete
    cases h
    refine ⟨fun key => ?_, rfl⟩
    have hgone : Write.deleteNode (J := J) id = .deleteNode key ↔ key = id := by
      rw [Write.deleteNode.injEq, eq_comm]
    simp only [hgone, Table.contains_iff, Table.has_delete, decide_eq_false_iff_not, exists_and_right]
  · have hharmless : Call.Harmless (.write w) := by
      cases w with
      | insertNode => exact hw.elim
      | deleteNode id => exact absurd ⟨id, rfl⟩ hdelete
      | _ => exact trivial
    have hnodes := Write.exec_nodes hharmless h
    refine ⟨fun id => ?_, hnodes.next⟩
    have hother : ¬w = .deleteNode id := fun heq => hdelete ⟨id, heq⟩
    simp [hnodes.ids id, hother]

theorem execAll_nodes {ws : List (Write J)} (hws : ∀ w ∈ ws, w.Removes)
    (h : execAll t ws = .ok t') : NodesWithout (fun id => .deleteNode id ∈ ws) t t' := by
  induction ws generalizing t with
  | nil =>
      cases h
      exact ⟨by simp, rfl⟩
  | cons w ws ih =>
      obtain ⟨next, hw, h⟩ := execAll_cons.mp h
      have hfirst := (hws w List.mem_cons_self).exec_nodes hw
      have hrest := ih (fun w' hw' => hws w' (List.mem_cons_of_mem w hw')) h
      refine ⟨fun id => ?_, hrest.next.trans hfirst.next⟩
      rw [hrest.ids, hfirst.ids, List.mem_cons, not_or, and_assoc, @eq_comm _ w]

/-! ## Writes of a task -/

theorem perform_write_quiet {w : Write J} (hw : Call.Harmless (.write w)) (fate : Fate)
    (t : Tables J) : NodesWithout (fun _ => False) t (perform (.write w) fate t).1 := by
  unfold perform
  dsimp only
  split
  · next t' hexec =>
      dsimp only
      split
      · exact Write.exec_nodes hw hexec
      · exact .of_eq rfl
  · exact .of_eq rfl

theorem perform_transaction {ws : List (Write J)} (hws : ∀ w ∈ ws, w.Removes) (fate : Fate)
    (t : Tables J) :
    NodesWithout (fun _ => False) t (perform (.transaction ws) fate t).1 ∨
      NodesWithout (fun id => .deleteNode id ∈ ws) t (perform (.transaction ws) fate t).1 := by
  unfold perform
  dsimp only
  split
  · next t' hexec =>
      dsimp only
      split
      · exact .inr (execAll_nodes hws hexec)
      · exact .inl (.of_eq rfl)
  · exact .inl (.of_eq rfl)

/-- A transaction that is answered with success has run. -/
theorem perform_transaction_ok {ws : List (Write J)} (hws : ∀ w ∈ ws, w.Removes) {fate : Fate}
    {t : Tables J} (h : (perform (.transaction ws) fate t).2 = .ok ()) :
    NodesWithout (fun id => .deleteNode id ∈ ws) t (perform (.transaction ws) fate t).1 := by
  unfold perform at h ⊢
  dsimp only at h ⊢
  split
  · next t' hexec =>
      rw [hexec] at h
      dsimp only at h ⊢
      split at h
      · next hsucceeds =>
          have happlied : fate.applied = true := (Bool.and_eq_true_iff.mp hsucceeds).1
          rw [if_pos happlied]
          exact execAll_nodes hws hexec
      · cases h
  · next hexec =>
      rw [hexec] at h
      cases h

/-- What a write of a task does to the nodes: it removes some, or it inserts one. -/
inductive NodesWritten (t : Tables J) (c : Call J) (fate : Fate) (t' : Tables J)
    (p' : Task J Unit) : Prop where
  | removed {gone : Int → Prop} (nodes : NodesWithout gone t t')
      (created : dataOf .create (announced t' p') = [])
      (deleted : ∀ node ∈ dataOf .delete (announced t' p'), gone node.id ∧ node.id < t.nodes.next)
  | inserted {ip : String} {port : Int} {description : String}
      (insert : c = .write (.insertNode ip port description)) (applied : fate.applied = true)
      (nodes : t'.nodes = t.nodes.insert ⟨ip, some port, some description⟩)
      (created : fate.confirmed = true → Created ip p')
      (deleted : dataOf .delete (announced t' p') = [])

theorem Stage.written {c : Call J} {next : c.Answer → Task J Unit} (h : Stage bound (.call c next))
    (hread : ∀ r, c ≠ .read r) (hsend : ∀ event, c ≠ .send event) (fate : Fate)
    (ht : bound ≤ t.nodes.next) :
    NodesWritten t c fate (perform c fate t).1 (next (perform c fate t).2) := by
  have hcreate : ConfigEventType.create ≠ .update := by decide
  have hdelete : ConfigEventType.delete ≠ .update := by decide
  cases h with
  | quiet quiet =>
      have hquiet : Quiet (next (perform c fate t).2) := quiet.2 _
      have hnodes : ∃ gone, NodesWithout gone t (perform c fate t).1 := by
        cases c with
        | read r => exact absurd rfl (hread r)
        | send event => exact absurd rfl (hsend event)
        | write w => exact ⟨_, perform_write_quiet quiet.1 fate t⟩
        | transaction ws =>
            rcases perform_transaction (fun w hw => (quiet.1 w hw).removes) fate t with h | h
            · exact ⟨_, h⟩
            · exact ⟨_, h⟩
      obtain ⟨gone, hnodes⟩ := hnodes
      apply NodesWritten.removed hnodes (hquiet.dataOf hcreate _)
      simp [hquiet.dataOf hdelete]
  | looks => exact absurd rfl (hread _)
  | created created =>
      cases created
      exact absurd rfl (hread _)
  | tells tells used =>
      cases tells
      exact absurd rfl (hsend _)
  | @inserts _ ip port description next fails goes =>
      cases happlied : fate.applied with
      | true =>
          apply NodesWritten.inserted rfl happlied
          · simp [perform, Write.exec, happlied]
          · intro hconfirmed
            simpa [perform, Write.exec, Fate.succeeds, happlied, hconfirmed] using goes
          · show dataOf .delete (announced _ (next (if fate.succeeds then .ok () else _))) = []
            split
            · exact goes.dataOf_delete _
            · exact (fails _).dataOf hdelete _
      | false =>
          have hsucceeds : ¬fate.succeeds = true := by simp [Fate.succeeds, happlied]
          have hquiet : Quiet (next (perform (.write (.insertNode ip port description)) fate t).2) := by
            show Quiet (next (if fate.succeeds then .ok () else _))
            rw [if_neg hsucceeds]
            exact fails _
          apply NodesWritten.removed (.of_eq ?_) (hquiet.dataOf hcreate _)
          · simp [hquiet.dataOf hdelete]
          · simp [perform, Write.exec, happlied]
  | @deletes _ ws id next removes deletes fails goes =>
      cases hanswer : (perform (.transaction ws) fate t).2 with
      | error e =>
          rcases perform_transaction removes fate t with h | h
          · apply NodesWritten.removed h ((fails e).dataOf hcreate _)
            simp [(fails e).dataOf hdelete]
          · apply NodesWritten.removed h ((fails e).dataOf hcreate _)
            simp [(fails e).dataOf hdelete]
      | ok _ =>
          have hnodes := perform_transaction_ok removes hanswer
          rcases goes with hquiet | ⟨node, rfl, hused, htells⟩
          · apply NodesWritten.removed hnodes (hquiet.dataOf hcreate _)
            simp [hquiet.dataOf hdelete]
          · have hne : ConfigEventType.delete ≠ .create := by decide
            apply NodesWritten.removed hnodes (htells.dataOf_ne hne hcreate _)
            rw [htells.dataOf_self hdelete]
            intro node' hnode'
            obtain rfl := List.mem_singleton.mp hnode'
            exact ⟨(deletes _).mpr rfl, hused.trans_le ht⟩

theorem NodesWritten.next_le {c : Call J} {fate : Fate} (h : NodesWritten t c fate t' p) :
    t.nodes.next ≤ t'.nodes.next := by
  cases h with
  | removed nodes created deleted => exact nodes.next.ge
  | inserted insert applied nodes created deleted =>
      rw [nodes]
      exact Int.le_of_lt (Int.lt_succ _)

@[simp] theorem perform_read_tables (r : Read) (fate : Fate) (t : Tables J) :
    (perform (.read r) fate t).1 = t := by
  unfold perform
  dsimp only
  split <;> rfl

theorem Stage.next_le {c : Call J} {next : c.Answer → Task J Unit} (h : Stage bound (.call c next))
    (hsend : ∀ event, c ≠ .send event) (fate : Fate) (ht : bound ≤ t.nodes.next) :
    t.nodes.next ≤ (perform c fate t).1.nodes.next := by
  by_cases hread : ∃ r, c = .read r
  · obtain ⟨r, rfl⟩ := hread
    rw [perform_read_tables]
  · exact (h.written (fun r hr => hread ⟨r, hr⟩) hsend fate ht).next_le

/-- A new node has an id that has never been used. -/
theorem Stage.stays_gone {c : Call J} {next : c.Answer → Task J Unit}
    (h : Stage bound (.call c next)) (hsend : ∀ event, c ≠ .send event) (fate : Fate)
    (ht : bound ≤ t.nodes.next) {id : Int} (hused : id < t.nodes.next)
    (hgone : t.nodes.contains id = false) : (perform c fate t).1.nodes.contains id = false := by
  by_cases hread : ∃ r, c = .read r
  · obtain ⟨r, rfl⟩ := hread
    rwa [perform_read_tables]
  · apply Bool.eq_false_iff.mpr
    intro hback
    cases h.written (fun r hr => hread ⟨r, hr⟩) hsend fate ht with
    | removed nodes created deleted =>
        rw [((nodes.ids id).mp hback).1] at hgone
        cases hgone
    | inserted insert applied nodes created deleted =>
        rw [nodes] at hback
        rcases Table.contains_insert.mp hback with hold | rfl
        · rw [hold] at hgone
          cases hgone
        · exact absurd hused (lt_irrefl _)

theorem Stage.advance {c : Call J} {next : c.Answer → Task J Unit} (h : Stage bound (.call c next))
    (hsend : ∀ event, c ≠ .send event) (fate : Fate) (ht : bound ≤ t.nodes.next) :
    Stage (perform c fate t).1.nodes.next (next (perform c fate t).2) := by
  by_cases hread : ∃ r, c = .read r
  · obtain ⟨r, rfl⟩ := hread
    rw [perform_read_tables]
    exact h.read fate ht
  · have hle := h.next_le hsend fate ht
    cases h with
    | quiet quiet => exact .quiet (quiet.2 _)
    | looks => exact absurd ⟨_, rfl⟩ hread
    | created created =>
        cases created
        exact absurd ⟨_, rfl⟩ hread
    | tells tells used =>
        cases tells
        exact absurd rfl (hsend _)
    | inserts fails goes =>
        rcases (perform (.write _) fate t).2 with e | _
        · exact .quiet (fails e)
        · exact .created goes
    | deletes removes deletes fails goes =>
        rcases (perform (.transaction _) fate t).2 with e | _
        · exact .quiet (fails e)
        · rcases goes with hquiet | ⟨node, rfl, hused, htells⟩
          · exact .quiet hquiet
          · exact .tells htells ((hused.trans_le ht).trans_le hle)

/-- A deletion that is announced after a call was announced before, or the node is gone now. -/
theorem Stage.delete_announced {c : Call J} {next : c.Answer → Task J Unit}
    (h : Stage bound (.call c next)) (hsend : ∀ event, c ≠ .send event) (fate : Fate)
    (ht : bound ≤ t.nodes.next) {node : NodeRead}
    (hnode : node ∈ dataOf .delete (announced (perform c fate t).1 (next (perform c fate t).2))) :
    node ∈ dataOf .delete (announced t (.call c next)) ∨
      node.id < t.nodes.next ∧ (perform c fate t).1.nodes.contains node.id = false := by
  by_cases hread : ∃ r, c = .read r
  · obtain ⟨r, rfl⟩ := hread
    have hdelete : ConfigEventType.delete ≠ .update := nofun
    rw [perform_read_tables, h.dataOf_read hdelete] at hnode
    split at hnode
    · exact .inl hnode
    · cases hnode
  · cases h.written (fun r hr => hread ⟨r, hr⟩) hsend fate ht with
    | removed nodes created deleted =>
        obtain ⟨hgone, hused⟩ := deleted node hnode
        refine .inr ⟨hused, Bool.eq_false_iff.mpr fun hcontains => ?_⟩
        exact ((nodes.ids _).mp hcontains).2 hgone
    | inserted insert applied nodes created deleted =>
        rw [deleted] at hnode
        cases hnode

end ModbusLogger.Db
