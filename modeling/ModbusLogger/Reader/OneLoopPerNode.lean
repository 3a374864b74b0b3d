import Mathlib.Algebra.Order.Group.Multiset
import Mathlib.Data.Multiset.Bind
import ModbusLogger.Db.Worker.DeviceTable
import ModbusLogger.Main.Notices

/-!
# One loop for each node (`reading_loop/read_loop.rs`, `read_master.rs`)

A node that is in the table has a loop, or something on the way that will start one: the start-up
load, or a creation that looks the node up by its ip. A node that is gone loses its loop by a Delete
event. `Safe` names the steps that keep it so, and the result is that there is one loop for each node
once everything has come to rest.
-/

namespace ModbusLogger.Main

open Db

variable {J : Type} {lib : Libraries J} {a : Action J}

/-! ## What is on the way -/

/-- The rows that the lookups of some creations find. -/
def rowsFor (t : Tables J) (nodes : Multiset NodeRead) : Multiset Int :=
  nodes.filterMap fun node => (t.nodeAt? node.ip).map NodeRead.id

namespace Net

/-- `node_master` has not got the nodes of the start-up load. -/
def Loading (n : Net J) : Prop :=
  n.nodeMaster = .sendGetAll ∨
    ∃ rx, n.nodeMaster = .awaitNodes rx ∧ n.answers.lookup rx = none

/-- The node that `create_new_node` will look up. -/
def lookedUp (n : Net J) : Multiset NodeRead :=
  match n.nodeMaster with
  | .sleep node _ | .sendGetByIp node _ => {node}
  | .awaitNode node tryCounter rx =>
    match n.answers.lookup rx with
    | none => {node}
    | some (some (.node (some _))) => 0
    | some _ => if tryCounter + 1 = 5 then 0 else {node}
  | _ => 0

/-- The nodes that `node_master` was told and has not started yet. -/
def found (n : Net J) : List NodeRead :=
  match n.nodeMaster with
  | .awaitNodes rx =>
    match n.answers.lookup rx with
    | some (some (.nodes nodes)) => nodes
    | _ => []
  | .awaitNode _ _ rx =>
    match n.answers.lookup rx with
    | some (some (.node (some node))) => [node]
    | _ => []
  | _ => []

/-- The creations that will look up their node: those of some tasks, if the tables are `t`, those on
the way, and the one of `node_master`. -/
def creations (n : Net J) (t : Tables J) (tasks : List (Task J Unit)) : Multiset NodeRead :=
  (tasks.flatMap fun p => dataOf .create (announced t p) : List NodeRead) +
    n.events.filterMap (ConfigEvent.about .create) + n.lookedUp

/-- The rows that they find. -/
def awaited (n : Net J) : Multiset Int := rowsFor n.tables (n.creations n.tables n.tasks)

/-- The nodes with a loop, and those that get one. -/
def held (n : Net J) : Multiset Int :=
  (n.loops.map NodeLoop.id : List Int) + (n.found.map NodeRead.id : List Int) + n.awaited

/-- A Delete event for the node is with one of the tasks, or on the way to `node_master`. -/
def Deleting (n : Net J) (tasks : List (Task J Unit)) (id : Int) : Prop :=
  (∃ p ∈ tasks, Tells (announced n.tables p) .delete id) ∨
    ∃ node, ⟨.delete, node⟩ ∈ n.events ∧ node.id = id

/-- Or it has come to the loop of the node. -/
def Dying (n : Net J) (tasks : List (Task J Unit)) (id : Int) : Prop :=
  n.Deleting tasks id ∨ ∃ l ∈ n.loops, l.id = id ∧ Tells l.fromController .delete id

/-! ## The steps that keep one loop for each node -/

/-- A call of the task `i`. -/
structure SafeCall (n : Net J) (i : Nat) (c : Call J) (next : c.Answer → Task J Unit) (fate : Fate) :
    Prop where
  /-- A lookup does not fail while the node that it would announce is there. -/
  lookup : ∀ r, c = .read r → fate.succeeds = false →
    rowsFor n.tables (dataOf .create (announced n.tables (.call c next)) : List NodeRead) = 0
  /-- An `INSERT` finds no node with its ip, and it is confirmed. -/
  insert : ∀ ip port description, c = .write (.insertNode ip port description) →
    fate.applied = true → fate.confirmed = true ∧ n.tables.nodeAt? ip = none
  /-- The other creations find the rows that they found before, but for those that are deleted. -/
  others : rowsFor (perform c fate n.tables).1
      (n.creations (perform c fate n.tables).1 (n.tasks.eraseIdx i)) =
    (rowsFor n.tables (n.creations n.tables (n.tasks.eraseIdx i))).filter fun id =>
      (perform c fate n.tables).1.nodes.contains id = true
  /-- A task that deletes a node goes on to tell so. -/
  delete : ∀ id, n.tables.nodes.contains id = true →
    (perform c fate n.tables).1.nodes.contains id = false →
      Tells (announced (perform c fate n.tables).1 (next (perform c fate n.tables).2)) .delete id

/-- A task that is dropped has no creation to announce, and no deletion that is not told otherwise of
a node with a loop. -/
structure SafeDrop (n : Net J) (i : Nat) (p : Task J Unit) : Prop where
  create : rowsFor n.tables (dataOf .create (announced n.tables p) : List NodeRead) = 0
  delete : ∀ id ∈ n.held, Tells (announced n.tables p) .delete id → n.Dying (n.tasks.eraseIdx i) id

/-- The start-up load succeeds, and none of its nodes is being created. The last lookup of a creation
does not fail while there is a node. -/
def SafeAnswer (n : Net J) (rx : Nat) (succeeds : Bool) : Prop :=
  match n.nodeMaster with
  | .awaitNodes rx' => rx = rx' → succeeds = true ∧ n.awaited = 0
  | .awaitNode node tryCounter rx' =>
    rx = rx' → tryCounter + 1 = 5 → succeeds = true ∨ n.tables.nodeAt? node.ip = none
  | _ => True

/-- A receiver that lags does not lose the only Delete of its node, and the loop of a node that is
there does not panic. -/
structure SafeTurn (backlog : Nat) (n : Net J) (l : NodeLoop J) (act : LoopAction) : Prop where
  receive : act = .receive → backlog < l.fromController.length →
    Tells l.fromController .delete l.id →
      Tells (l.fromController.drop (l.fromController.length - backlog)) .delete l.id ∨
        n.Deleting n.tasks l.id
  panic : act ≠ .receive → l.turn backlog n.answers act = some none →
    n.tables.nodes.contains l.id = false

def Safe (backlog : Nat) (n : Net J) : Action J → Prop
  | .advance i fate =>
    n.Loading ∨ ∀ c next, n.tasks[i]? = some (.call c next) → n.SafeCall i c next fate
  | .dropTask i => n.Loading ∨ ∀ p, n.tasks[i]? = some p → n.SafeDrop i p
  | .answer i fate =>
    ∀ query rx, n.requests[i]? = some (query, rx) → n.SafeAnswer rx fate.succeeds
  | .dropRequest i => ∀ query rx, n.requests[i]? = some (query, rx) → n.SafeAnswer rx false
  | .loop i act => ∀ l, n.loops[i]? = some l → n.SafeTurn backlog l act
  | _ => True

/-! ## The invariant -/

/-- A Delete event for the node has been announced, or is anywhere on the way. -/
def DeleteSent (n : Net J) (id : Int) : Prop :=
  n.Deleting n.tasks id ∨ ∃ l ∈ n.loops, Tells l.fromController .delete id

/-- After the start-up load. -/
structure Settled (n : Net J) : Prop where
  nodup : n.held.Nodup
  covered : ∀ id, n.tables.nodes.contains id = true → id ∈ n.held
  dying : ∀ id ∈ n.held, n.tables.nodes.contains id = false → n.Dying n.tasks id

structure Polled (n : Net J) : Prop where
  wired : n.Wired
  stages : ∀ p ∈ n.tasks, Stage n.tables.nodes.next p
  gone : ∀ id, n.DeleteSent id →
    id < n.tables.nodes.next ∧ n.tables.nodes.contains id = false
  loading : n.Loading → n.loops = []
  loaded : ∀ rx reply, n.nodeMaster = .awaitNodes rx → n.answers.lookup rx = some reply →
    ∃ nodes, reply = some (.nodes nodes)
  running : n.nodeMaster ≠ .panicked
  settled : ¬n.Loading → n.Settled

/-! ## What is held -/

section Held

variable {n n' : Net J} {t : Tables J} {id : Int} {i : Nat} {p : Task J Unit}

theorem rowsFor_add (nodes nodes' : Multiset NodeRead) :
    rowsFor t (nodes + nodes') = rowsFor t nodes + rowsFor t nodes' :=
  Multiset.filterMap_add _ _ _

@[simp] theorem rowsFor_zero : rowsFor t 0 = 0 := rfl

theorem rowsFor_singleton (node : NodeRead) :
    rowsFor t {node} = ((t.nodeAt? node.ip).map NodeRead.id).toList := by
  unfold rowsFor
  rw [← Multiset.cons_zero, Multiset.filterMap_cons, Multiset.filterMap_zero]
  cases t.nodeAt? node.ip <;> rfl

/-- What a lookup finds is in the table. -/
theorem contains_of_mem_rowsFor {nodes : Multiset NodeRead} (h : id ∈ rowsFor t nodes) :
    t.nodes.contains id = true := by
  obtain ⟨node, -, hnode⟩ := (Multiset.mem_filterMap _ _).mp h
  obtain ⟨row, hrow, rfl⟩ := Option.map_eq_some_iff.mp hnode
  exact Tables.nodeAt?_contains hrow

theorem mem_held : id ∈ n.held ↔
    (∃ l ∈ n.loops, l.id = id) ∨ (∃ node ∈ n.found, node.id = id) ∨ id ∈ n.awaited := by
  simp only [held, Multiset.mem_add, Multiset.mem_coe, List.mem_map, or_assoc]

theorem announced_task {tasks : List (Task J Unit)} (h : tasks[i]? = some p) :
    ((tasks.flatMap fun p => dataOf .create (announced t p) : List NodeRead) : Multiset NodeRead) =
      (dataOf .create (announced t p) : List NodeRead) +
        ((tasks.eraseIdx i).flatMap fun p => dataOf .create (announced t p) : List NodeRead) := by
  have hbind (tasks : List (Task J Unit)) :
      (tasks.flatMap fun p => dataOf .create (announced t p) : List NodeRead) =
        Multiset.bind tasks fun p => (dataOf .create (announced t p) : Multiset NodeRead) :=
    (Multiset.coe_bind _ _).symm
  rw [hbind, hbind, coe_eq_cons_eraseIdx h, Multiset.cons_bind]

theorem creations_task {tasks : List (Task J Unit)} (h : tasks[i]? = some p) :
    n.creations t tasks =
      (dataOf .create (announced t p) : List NodeRead) + n.creations t (tasks.eraseIdx i) := by
  rw [creations, creations, announced_task h, add_assoc, add_assoc, add_assoc]

theorem deleting_task {tasks : List (Task J Unit)} (h : tasks[i]? = some p) :
    n.Deleting tasks id ↔
      Tells (announced n.tables p) .delete id ∨ n.Deleting (tasks.eraseIdx i) id := by
  unfold Deleting
  simp only [mem_iff_mem_eraseIdx h, or_and_right, exists_or, exists_eq_left, or_assoc]

end Held

/-! ## Tasks -/

variable {n n' : Net J} {id : Int}

theorem Step.stages (h : Step lib n a n') (hn : ∀ p ∈ n.tasks, Stage n.tables.nodes.next p) :
    ∀ p ∈ n'.tasks, Stage n'.tables.nodes.next p := by
  cases h with
  | spawn command =>
      intro p hp
      rcases List.mem_append.mp hp with hold | hnew
      · exact hn p hold
      · obtain rfl := List.mem_singleton.mp hnew
        exact command.task_stage lib
  | @call i c next fate task hc =>
      have hstage := hn _ (List.mem_of_getElem? task)
      intro p hp
      rcases List.mem_or_eq_of_mem_set hp with hold | rfl
      · exact (hn p hold).mono (hstage.next_le hc fate le_rfl)
      · exact hstage.advance hc fate le_rfl
  | send fate task =>
      have hstage := hn _ (List.mem_of_getElem? task)
      intro p hp
      rcases List.mem_or_eq_of_mem_set hp with hold | rfl
      · exact hn p hold
      · exact .quiet (hstage.sent true)
  | dropTask i =>
      intro p hp
      rcases List.mem_or_eq_of_mem_set hp with hold | rfl
      · exact hn p hold
      · exact .quiet (.done _)
  | @turn i l l' act loop turns =>
      cases l' <;> exact hn
  | _ => exact hn

theorem Step.next_le (h : Step lib n a n') (hn : ∀ p ∈ n.tasks, Stage n.tables.nodes.next p) :
    n.tables.nodes.next ≤ n'.tables.nodes.next := by
  cases h with
  | call fate task hc => exact (hn _ (List.mem_of_getElem? task)).next_le hc fate le_rfl
  | @turn i l l' act loop turns =>
      cases l' <;> exact le_rfl
  | _ => exact le_rfl

/-- A node that is gone does not come back: its id is not used again. -/
theorem Step.stays_gone (h : Step lib n a n') (hn : ∀ p ∈ n.tasks, Stage n.tables.nodes.next p)
    (hgone : id < n.tables.nodes.next ∧ n.tables.nodes.contains id = false) :
    id < n'.tables.nodes.next ∧ n'.tables.nodes.contains id = false := by
  cases h with
  | @call i c next fate task hc =>
      have hstage := hn _ (List.mem_of_getElem? task)
      exact ⟨hgone.1.trans_le (hstage.next_le hc fate le_rfl),
        hstage.stays_gone hc fate le_rfl hgone.1 hgone.2⟩
  | @turn i l l' act loop turns =>
      cases l' <;> exact hgone
  | _ => exact hgone

/-! ## Deletions -/

/-- A deletion is announced once the node is gone. -/
theorem Step.deleteSent (h : Step lib n a n') (hn : ∀ p ∈ n.tasks, Stage n.tables.nodes.next p)
    (hsent : n'.DeleteSent id) :
    n.DeleteSent id ∨ id < n.tables.nodes.next ∧ n'.tables.nodes.contains id = false := by
  cases h with
  | spawn command =>
      left
      rcases hsent with (⟨p, hp, htells⟩ | hevent) | hloop
      · rcases List.mem_append.mp hp with hold | hnew
        · exact .inl (.inl ⟨p, hold, htells⟩)
        · obtain rfl := List.mem_singleton.mp hnew
          have hdelete : ConfigEventType.delete ≠ .update := nofun
          exact absurd htells (not_tells (command.dataOf_task lib hdelete _))
      · exact .inl (.inr hevent)
      · exact .inr hloop
  | @call i c next fate task hc =>
      have hstage := hn _ (List.mem_of_getElem? task)
      rcases hsent with (⟨p, hp, htells⟩ | hevent) | hloop
      · rcases List.mem_or_eq_of_mem_set hp with hold | rfl
        · rw [tells_of_dataOf ((hn p hold).dataOf_delete _ n.tables)] at htells
          exact .inl (.inl (.inl ⟨p, hold, htells⟩))
        · obtain ⟨node, hnode, rfl⟩ := htells
          rcases hstage.delete_announced hc fate le_rfl hnode with hbefore | hgone
          · exact .inl (.inl (.inl ⟨_, List.mem_of_getElem? task, node, hbefore, rfl⟩))
          · exact .inr hgone
      · exact .inl (.inl (.inr hevent))
      · exact .inl (.inr hloop)
  | @send i event next fate task =>
      left
      rcases hsent with (⟨p, hp, htells⟩ | ⟨node, hnode, hid⟩) | hloop
      · rcases List.mem_or_eq_of_mem_set hp with hold | rfl
        · exact .inl (.inl ⟨p, hold, htells⟩)
        · refine .inl (.inl ⟨_, List.mem_of_getElem? task, ?_⟩)
          rw [announced_send, tells_cons]
          exact .inr htells
      · rcases Multiset.mem_cons.mp hnode with rfl | hold
        · refine .inl (.inl ⟨_, List.mem_of_getElem? task, ?_⟩)
          rw [announced_send, tells_cons]
          exact .inl ⟨rfl, hid⟩
        · exact .inl (.inr ⟨node, hold, hid⟩)
      · exact .inr hloop
  | dropTask i =>
      left
      rcases hsent with (⟨p, hp, htells⟩ | hevent) | hloop
      · rcases List.mem_or_eq_of_mem_set hp with hold | rfl
        · exact .inl (.inl ⟨p, hold, htells⟩)
        · exact absurd htells (not_tells rfl)
      · exact .inl (.inr hevent)
      · exact .inr hloop
  | @create data events select taken =>
      left
      rcases hsent with (htask | ⟨node, hnode, hid⟩) | hloop
      · exact .inl (.inl htask)
      · refine .inl (.inr ⟨node, ?_, hid⟩)
        rw [taken]
        exact Multiset.mem_cons_of_mem hnode
      · exact .inr hloop
  | @sendToWorkers msg events select taken passed =>
      left
      rcases hsent with (htask | ⟨node, hnode, hid⟩) | ⟨l, hl, htells⟩
      · exact .inl (.inl htask)
      · refine .inl (.inr ⟨node, ?_, hid⟩)
        rw [taken]
        exact Multiset.mem_cons_of_mem hnode
      · obtain ⟨l, hold, rfl⟩ := List.mem_map.mp hl
        rcases tells_append.mp htells with hbefore | hnew
        · exact .inr ⟨l, hold, hbefore⟩
        · obtain ⟨node, hnode, hid⟩ := hnew
          obtain rfl := List.mem_singleton.mp (mem_dataOf.mp hnode)
          refine .inl (.inr ⟨node, ?_, hid⟩)
          rw [taken]
          exact Multiset.mem_cons_self _ _
  | @hearNodes rx nodes awaits answered =>
      left
      rcases hsent with hdeleting | ⟨l, hl, htells⟩
      · exact .inl hdeleting
      · rcases List.mem_append.mp hl with hold | hnew
        · exact .inr ⟨l, hold, htells⟩
        · obtain ⟨node, -, rfl⟩ := List.mem_map.mp hnew
          exact absurd htells (not_tells rfl)
  | hearNode awaits answered =>
      left
      rcases hsent with hdeleting | ⟨l, hl, htells⟩
      · exact .inl hdeleting
      · rcases List.mem_append.mp hl with hold | hnew
        · exact .inr ⟨l, hold, htells⟩
        · obtain rfl := List.mem_singleton.mp hnew
          exact absurd htells (not_tells rfl)
  | @turn i l l' act loop turns =>
      left
      have hturns := NodeLoop.turns_of_turn turns
      cases l' with
      | none =>
          rcases hsent with hdeleting | ⟨l₁, hl₁, htells⟩
          · exact .inl hdeleting
          · exact .inr ⟨l₁, List.mem_of_mem_eraseIdx hl₁, htells⟩
      | some l' =>
          rcases hsent with hdeleting | ⟨l₁, hl₁, htells⟩
          · exact .inl hdeleting
          · rcases List.mem_or_eq_of_mem_set hl₁ with hold | rfl
            · exact .inr ⟨l₁, hold, htells⟩
            · exact .inr ⟨l, List.mem_of_getElem? loop, htells.mono hturns.received.subset⟩
  | @loopAsk i l l' query loop asks =>
      left
      rcases hsent with hdeleting | ⟨l₁, hl₁, htells⟩
      · exact .inl hdeleting
      · rcases List.mem_or_eq_of_mem_set hl₁ with hold | rfl
        · exact .inr ⟨l₁, hold, htells⟩
        · rw [(NodeLoop.ask_keeps asks).2] at htells
          exact .inr ⟨l, List.mem_of_getElem? loop, htells⟩
  | _ => exact .inl hsent

/-- A node whose deletion is announced is gone for good. -/
theorem Step.gone (h : Step lib n a n') (hn : ∀ p ∈ n.tasks, Stage n.tables.nodes.next p)
    (hgone : ∀ id, n.DeleteSent id → id < n.tables.nodes.next ∧ n.tables.nodes.contains id = false)
    (hsent : n'.DeleteSent id) :
    id < n'.tables.nodes.next ∧ n'.tables.nodes.contains id = false := by
  rcases h.deleteSent hn hsent with hbefore | ⟨hused, hcontains⟩
  · exact h.stays_gone hn (hgone id hbefore)
  · exact ⟨hused.trans_le (h.next_le hn), hcontains⟩

/-! ## The start-up load -/

/-- Once the nodes are loaded they stay so. -/
theorem Step.loading (h : Step lib n a n') (hn' : n'.Loading) : n.Loading := by
  cases h with
  | answer | dropRequest =>
      rcases hn' with hasks | ⟨rx, hawaits, hlookup⟩
      · exact .inl hasks
      · rw [lookup_concat, Option.or_eq_none_iff] at hlookup
        exact .inr ⟨rx, hawaits, hlookup.1⟩
  | create | wake | askByIp | hearNodes | panic | hearNode =>
      rcases hn' with hasks | ⟨rx, hawaits, -⟩
      · cases hasks
      · cases hawaits
  | retry =>
      dsimp only [Loading, Topology.retry] at hn'
      split at hn'
      · rcases hn' with hasks | ⟨rx, hawaits, -⟩
        · cases hasks
        · cases hawaits
      · rcases hn' with hasks | ⟨rx, hawaits, -⟩
        · cases hasks
        · cases hawaits
  | askAll asks => exact .inl asks
  | @turn i l l' act loop turns =>
      cases l' <;> exact hn'
  | _ => exact hn'

/-- No loop is started before. -/
theorem Step.no_loops (h : Step lib n a n') (hn : n.Loading → n.loops = []) (hn' : n'.Loading) :
    n'.loops = [] := by
  have hbefore := hn (h.loading hn')
  cases h with
  | hearNodes | hearNode =>
      rcases hn' with hasks | ⟨rx, hawaits, -⟩
      · cases hasks
      · cases hawaits
  | sendToWorkers select taken passed =>
      show n.loops.map _ = []
      rw [hbefore]
      rfl
  | turn act loop turns =>
      rw [hbefore] at loop
      cases loop
  | loopAsk loop asks =>
      rw [hbefore] at loop
      cases loop
  | _ => exact hbefore

/-- The answer to the request of the start-up load. -/
theorem Wired.getAllNodes (hn : n.Wired) {i rx : Nat} {query : Query}
    (hrequest : n.requests[i]? = some (query, rx)) (hawaits : n.nodeMaster = .awaitNodes rx) :
    query = .getAllNodes :=
  hn.asked _ rx (.nodes hawaits) query (mem_pending_of_request hrequest)

theorem Step.loaded (h : Step lib n a n') (hwired : n.Wired) (hsafe : n.Safe lib.backlog a)
    (hn : ∀ rx reply, n.nodeMaster = .awaitNodes rx → n.answers.lookup rx = some reply →
      ∃ nodes, reply = some (.nodes nodes)) (rx : Nat) (reply : Option (Reply J))
    (hawaits : n'.nodeMaster = .awaitNodes rx) (hanswered : n'.answers.lookup rx = some reply) :
    ∃ nodes, reply = some (.nodes nodes) := by
  cases h with
  | @answer i query rx' fate request =>
      rw [lookup_concat, Option.or_eq_some_iff] at hanswered
      rcases hanswered with hbefore | ⟨-, hnow⟩
      · exact hn rx reply hawaits hbefore
      · split at hnow
        · next heq =>
            subst heq
            cases hnow
            have hsafe' := hsafe query rx request
            unfold SafeAnswer at hsafe'
            rw [hawaits] at hsafe'
            rw [if_pos (hsafe' rfl).1, hwired.getAllNodes request hawaits]
            exact ⟨_, rfl⟩
        · cases hnow
  | @dropRequest i query rx' request =>
      rw [lookup_concat, Option.or_eq_some_iff] at hanswered
      rcases hanswered with hbefore | ⟨-, hnow⟩
      · exact hn rx reply hawaits hbefore
      · split at hnow
        · next heq =>
            subst heq
            have hsafe' := hsafe query rx request
            unfold SafeAnswer at hsafe'
            rw [hawaits] at hsafe'
            cases (hsafe' rfl).1
        · cases hnow
  | create | wake | askByIp | hearNodes | panic | hearNode => cases hawaits
  | retry =>
      dsimp only [Topology.retry] at hawaits
      split at hawaits <;> cases hawaits
  | askAll asks =>
      cases hawaits
      cases hwired.lookup_next.symm.trans hanswered
  | @turn i l l' act loop turns =>
      cases l' <;> exact hn rx reply hawaits hanswered
  | _ => exact hn rx reply hawaits hanswered

theorem Step.running (h : Step lib n a n') (hn : n.nodeMaster ≠ .panicked)
    (hloaded : ∀ rx reply, n.nodeMaster = .awaitNodes rx → n.answers.lookup rx = some reply →
      ∃ nodes, reply = some (.nodes nodes)) : n'.nodeMaster ≠ .panicked := by
  cases h with
  | panic awaits answered failed =>
      obtain ⟨nodes, rfl⟩ := hloaded _ _ awaits answered
      exact absurd rfl (failed nodes)
  | create | wake | askByIp | askAll | hearNodes | hearNode => exact nofun
  | retry =>
      dsimp only [Topology.retry]
      split <;> exact nofun
  | @turn i l l' act loop turns =>
      cases l' <;> exact hn
  | _ => exact hn

/-- The load ends with the answer to its request. -/
theorem Loading.answered {requests : List (Query × Nat)} {rx : Nat} {reply : Option (Reply J)}
    (h : n.Loading)
    (hn' : ¬Loading { n with requests, answers := n.answers ++ [(rx, reply)] }) :
    n.nodeMaster = .awaitNodes rx ∧ n.answers.lookup rx = none := by
  rcases h with hasks | ⟨rx', hawaits, hlookup⟩
  · exact absurd (.inl hasks) hn'
  · by_cases heq : rx' = rx
    · rw [← heq]
      exact ⟨hawaits, hlookup⟩
    · have hnone : (n.answers ++ [(rx, reply)]).lookup rx' = none := by
        rw [lookup_concat, hlookup, if_neg heq]
        rfl
      exact absurd (.inr ⟨rx', hawaits, hnone⟩) hn'

/-- It finds the nodes that are in the table. -/
theorem settled_of_nodes {requests : List (Query × Nat)} {rx : Nat}
    (hloops : n.loops = []) (hawaits : n.nodeMaster = .awaitNodes rx)
    (hlookup : n.answers.lookup rx = none) (hawaited : n.awaited = 0) :
    Settled { n with
      requests
      answers := n.answers ++ [(rx, Query.reply n.tables .getAllNodes)] } := by
  generalize hn' : { n with
    requests
    answers := n.answers ++ [(rx, Query.reply n.tables .getAllNodes)] } = n'
  have htables : n'.tables = n.tables := by rw [← hn']
  have hawaits' : n'.nodeMaster = .awaitNodes rx := by rw [← hn', hawaits]
  have hfound : n'.found = n.tables.nodes.rows.map fun r => r.2.read r.1 := by
    have hselect : n.tables.nodes.select (fun _ _ => true) = n.tables.nodes.rows :=
      List.filter_eq_self.mpr fun _ _ => rfl
    have hanswer : n'.answers.lookup rx =
        some (some (.nodes (n.tables.nodes.rows.map fun r => r.2.read r.1))) := by
      rw [← hn', ← hselect]
      show (n.answers ++ [(rx, Query.reply n.tables .getAllNodes)]).lookup rx = _
      rw [lookup_concat, hlookup, if_pos rfl]
      rfl
    unfold found
    rw [hawaits']
    dsimp only
    rw [hanswer]
  have hawaited' : n'.awaited = 0 := by
    have hnone : n'.lookedUp = n.lookedUp := by
      unfold lookedUp
      rw [hawaits', hawaits]
    rw [← hawaited]
    simp only [awaited, creations, hnone]
    rw [← hn']
  have hheld : n'.held = (n.tables.nodes.rows.map Prod.fst : List Int) := by
    have hids : (n.tables.nodes.rows.map fun r => r.2.read r.1).map NodeRead.id =
        n.tables.nodes.rows.map Prod.fst := by
      rw [List.map_map]
      rfl
    have hnone : n'.loops = [] := by rw [← hn', hloops]
    rw [held, hawaited', hfound, hids, hnone, add_zero]
    rfl
  refine ⟨?_, ?_, ?_⟩
  · rw [hheld]
    exact Multiset.coe_nodup.mpr n.tables.nodes.nodup_keys
  · intro id hid
    rw [htables] at hid
    rw [hheld]
    exact Table.contains_iff_mem_keys.mp hid
  · intro id hid hgone
    rw [htables] at hgone
    rw [hheld] at hid
    rw [Table.contains_iff_mem_keys.mpr hid] at hgone
    cases hgone

theorem Step.first_settled (h : Step lib n a n') (hwired : n.Wired) (hsafe : n.Safe lib.backlog a)
    (hloops : n.Loading → n.loops = []) (hloading : n.Loading) (hn' : ¬n'.Loading) :
    n'.Settled := by
  have hnot {nodeMaster : NodeMaster J} (hstate : n.nodeMaster = nodeMaster)
      (hasks : nodeMaster ≠ .sendGetAll) (hawaits : ∀ rx, nodeMaster ≠ .awaitNodes rx) : False := by
    rcases hloading with h | ⟨rx, h, -⟩
    · exact hasks (hstate.symm.trans h)
    · exact hawaits rx (hstate.symm.trans h)
  cases h with
  | @answer i query rx fate request =>
      obtain ⟨hawaits, hlookup⟩ := hloading.answered hn'
      have hsafe' := hsafe query rx request
      unfold SafeAnswer at hsafe'
      rw [hawaits] at hsafe'
      obtain ⟨hsucceeds, hawaited⟩ := hsafe' rfl
      rw [if_pos hsucceeds, hwired.getAllNodes request hawaits]
      exact settled_of_nodes (hloops hloading) hawaits hlookup hawaited
  | @dropRequest i query rx request =>
      obtain ⟨hawaits, hlookup⟩ := hloading.answered hn'
      have hsafe' := hsafe query rx request
      unfold SafeAnswer at hsafe'
      rw [hawaits] at hsafe'
      cases (hsafe' rfl).1
  | create select | sendToWorkers select => exact (hnot select nofun nofun).elim
  | wake sleeps => exact (hnot sleeps nofun nofun).elim
  | askByIp asks => exact (hnot asks nofun nofun).elim
  | hearNode awaits | retry awaits => exact (hnot awaits nofun nofun).elim
  | askAll asks =>
      exact absurd (.inr ⟨n.nextChannel, rfl, hwired.lookup_next⟩) hn'
  | hearNodes awaits answered | panic awaits answered =>
      rcases hloading with hasks | ⟨rx, hawaits, hlookup⟩
      · cases awaits.symm.trans hasks
      · cases awaits.symm.trans hawaits
        cases answered.symm.trans hlookup
  | @turn i l l' act loop turns =>
      cases l' <;> exact absurd hloading hn'
  | _ => exact absurd hloading hn'

/-! ## Steps of the tasks -/

/-- Nothing happens to the nodes. -/
theorem Settled.keep (hn : n.Settled) (htables : n'.tables = n.tables) (hheld : n'.held = n.held)
    (hdying : ∀ id ∈ n.held, n.Dying n.tasks id → n'.Dying n'.tasks id) : n'.Settled := by
  refine ⟨?_, ?_, ?_⟩
  · rw [hheld]
    exact hn.nodup
  · rw [hheld, htables]
    exact hn.covered
  · rw [hheld, htables]
    intro id hid hgone
    exact hdying id hid (hn.dying id hid hgone)

theorem held_congr (hloops : n'.loops.map NodeLoop.id = n.loops.map NodeLoop.id)
    (hfound : n'.found = n.found) (hawaited : n'.awaited = n.awaited) : n'.held = n.held := by
  rw [held, held, hloops, hfound, hawaited]

theorem Settled.spawn (hn : n.Settled) (lib : Libraries J) (command : Command J) :
    Settled { n with tasks := n.tasks ++ [command.task lib] } := by
  refine hn.keep rfl ?_ ?_
  · have hcreate : ConfigEventType.create ≠ .update := nofun
    refine held_congr rfl rfl ?_
    simp only [awaited, creations, List.flatMap_append, List.flatMap_singleton,
      command.dataOf_task lib hcreate, List.append_nil]
    rfl
  · rintro id - ((⟨p, hp, htells⟩ | hevent) | hloop)
    · exact .inl (.inl ⟨p, List.mem_append_left _ hp, htells⟩)
    · exact .inl (.inr hevent)
    · exact .inr hloop

/-- A task goes on, and tells what it has told before. -/
theorem Settled.moves {i : Nat} {p p' : Task J Unit} (hn : n.Settled) (task : n.tasks[i]? = some p)
    (hcreate : rowsFor n.tables (dataOf .create (announced n.tables p') : List NodeRead) =
      rowsFor n.tables (dataOf .create (announced n.tables p) : List NodeRead))
    (hdelete : ∀ id ∈ n.held, Tells (announced n.tables p) .delete id →
      Tells (announced n.tables p') .delete id ∨ n.Dying (n.tasks.eraseIdx i) id) :
    Settled { n with tasks := n.tasks.set i p' } := by
  have hset := getElem?_set_of_some task p'
  have herase : (n.tasks.set i p').eraseIdx i = n.tasks.eraseIdx i := List.eraseIdx_set_eq
  refine hn.keep rfl ?_ ?_
  · refine held_congr rfl rfl ?_
    show rowsFor n.tables (n.creations n.tables (n.tasks.set i p')) = n.awaited
    rw [awaited, creations_task task, creations_task hset, herase, rowsFor_add, rowsFor_add, hcreate]
  · intro id hid hdying
    have hrest (h : n.Dying (n.tasks.eraseIdx i) id) :
        Dying { n with tasks := n.tasks.set i p' } (n.tasks.set i p') id := by
      rcases h with hdeleting | hloop
      · left
        rw [deleting_task hset, herase]
        exact .inr hdeleting
      · exact .inr hloop
    rcases hdying with hdeleting | hloop
    · rcases (deleting_task task).mp hdeleting with htells | hother
      · rcases hdelete id hid htells with hnow | hother
        · left
          rw [deleting_task hset]
          exact .inl hnow
        · exact hrest hother
      · exact hrest (.inl hother)
    · exact .inr hloop

theorem Settled.dropTask (hn : n.Settled) (i : Nat)
    (hsafe : ∀ p, n.tasks[i]? = some p → n.SafeDrop i p) :
    Settled { n with tasks := n.tasks.set i (.done (.ok ())) } := by
  cases htask : n.tasks[i]? with
  | none =>
      rw [List.set_eq_of_length_le (List.getElem?_eq_none_iff.mp htask)]
      exact hn
  | some p =>
      have hdrop := hsafe p htask
      apply hn.moves htask
      · rw [hdrop.create]
        rfl
      · exact fun id hid htells => .inr (hdrop.delete id hid htells)

theorem Settled.read {i : Nat} {r : Read} {next : (Call.read (J := J) r).Answer → Task J Unit}
    {fate : Fate} (hn : n.Settled) (task : n.tasks[i]? = some (.call (.read r) next))
    (hstage : Stage n.tables.nodes.next (.call (.read r) next))
    (hsafe : n.SafeCall i (.read r) next fate) :
    Settled { n with tasks := n.tasks.set i (next (perform (.read r) fate n.tables).2) } := by
  have hcreate : ConfigEventType.create ≠ .update := nofun
  have hdelete : ConfigEventType.delete ≠ .update := nofun
  apply hn.moves task
  · rw [hstage.dataOf_read hcreate]
    split
    · rfl
    · next hfails => rw [hsafe.lookup r rfl (Bool.eq_false_iff.mpr hfails), Multiset.coe_nil,
        rowsFor_zero]
  · rintro id - htells
    exact absurd htells (not_tells (hstage.dataOf_delete_read n.tables))

/-- An event is on the way instead of with its task. -/
theorem Settled.send {i : Nat} {event : ConfigEvent} {next : Bool → Task J Unit} (hn : n.Settled)
    (task : n.tasks[i]? = some (.call (.send event) next)) :
    Settled { n with events := event ::ₘ n.events, tasks := n.tasks.set i (next true) } := by
  have hset := getElem?_set_of_some task (next true)
  have herase : (n.tasks.set i (next true)).eraseIdx i = n.tasks.eraseIdx i := List.eraseIdx_set_eq
  refine hn.keep rfl ?_ ?_
  · refine held_congr rfl rfl ?_
    have hcoe (events : List ConfigEvent) : (dataOf .create events : Multiset NodeRead) =
        (events : Multiset ConfigEvent).filterMap (ConfigEvent.about .create) := rfl
    apply congrArg (rowsFor n.tables)
    simp only [creations, announced_task task, announced_task hset, herase, announced_send, hcoe,
      ← Multiset.cons_coe, Multiset.filterMap_cons]
    show _ + _ + (_ + _) + n.lookedUp = _
    abel
  · intro id _ hdying
    rcases hdying with hdeleting | hloop
    · left
      rcases (deleting_task task).mp hdeleting with htells | ⟨p, hp, htells⟩ | ⟨node, hnode, hid⟩
      · rw [announced_send, tells_cons] at htells
        rcases htells with ⟨htype, hid⟩ | hlater
        · refine .inr ⟨event.data, ?_, hid⟩
          rw [← htype]
          exact Multiset.mem_cons_self _ _
        · exact .inl ⟨next true, (mem_set_iff task).mpr (.inl rfl), hlater⟩
      · exact .inl ⟨p, (mem_set_iff task).mpr (.inr hp), htells⟩
      · exact .inr ⟨node, Multiset.mem_cons_of_mem hnode, hid⟩
    · exact .inr hloop

/-! ### Writes -/

/-- What is on the way to other tables, after a write of the task `i`. -/
theorem Dying.written {i : Nat} {p p' : Task J Unit} {t : Tables J}
    (h : n.Dying n.tasks id) (task : n.tasks[i]? = some p)
    (hstages : ∀ p ∈ n.tasks, Stage n.tables.nodes.next p) (hsilent : announced n.tables p = []) :
    Dying { n with tables := t, tasks := n.tasks.set i p' } (n.tasks.set i p') id := by
  rcases h with hdeleting | hloop
  · left
    rcases (deleting_task task).mp hdeleting with htells | ⟨q, hq, htells⟩ | hevent
    · rw [hsilent] at htells
      exact absurd htells (not_tells rfl)
    · have hstage := hstages q (List.mem_of_mem_eraseIdx hq)
      rw [tells_of_dataOf (hstage.dataOf_delete n.tables t)] at htells
      exact .inl ⟨q, (mem_set_iff task).mpr (.inr hq), htells⟩
    · exact .inr hevent
  · exact .inr hloop

/-- The rows that are found after a write of the task `i`, which announces `news` then. -/
theorem awaited_written {i : Nat} {c : Call J} {next : c.Answer → Task J Unit} {fate : Fate}
    {news : List NodeRead} (task : n.tasks[i]? = some (.call c next))
    (hsilent : announced n.tables (.call c next) = []) (hsafe : n.SafeCall i c next fate)
    (hnews : dataOf .create
      (announced (perform c fate n.tables).1 (next (perform c fate n.tables).2)) = news) :
    awaited { n with
        tables := (perform c fate n.tables).1
        tasks := n.tasks.set i (next (perform c fate n.tables).2) } =
      rowsFor (perform c fate n.tables).1 news +
        n.awaited.filter fun id => (perform c fate n.tables).1.nodes.contains id = true := by
  have hset := getElem?_set_of_some task (next (perform c fate n.tables).2)
  have hbefore : n.awaited = rowsFor n.tables (n.creations n.tables (n.tasks.eraseIdx i)) := by
    have hnone : (dataOf .create [] : Multiset NodeRead) = 0 := rfl
    rw [awaited, creations_task task, hsilent, hnone, zero_add]
  rw [hbefore, ← hsafe.others, ← rowsFor_add, ← hnews]
  apply congrArg (rowsFor (perform c fate n.tables).1)
  rw [creations_task hset, List.eraseIdx_set_eq]
  rfl

theorem Settled.removed (hn : n.Settled) (hloops : n'.loops = n.loops) (hfound : n'.found = n.found)
    (hawaited : n'.awaited = n.awaited.filter fun id => n'.tables.nodes.contains id = true)
    (hless : ∀ id, n'.tables.nodes.contains id = true → n.tables.nodes.contains id = true)
    (hdying : ∀ id, n.Dying n.tasks id → n'.Dying n'.tasks id)
    (hdeleted : ∀ id, n.tables.nodes.contains id = true → n'.tables.nodes.contains id = false →
      n'.Dying n'.tasks id) : n'.Settled := by
  have hle : n'.held ≤ n.held := by
    rw [held, held, hloops, hfound, hawaited]
    exact add_le_add le_rfl (Multiset.filter_le _ _)
  refine ⟨Multiset.nodup_of_le hle hn.nodup, ?_, ?_⟩
  · intro id hid
    have hheld := mem_held.mp (hn.covered id (hless id hid))
    rw [mem_held, hloops, hfound, hawaited, Multiset.mem_filter]
    rcases hheld with hloop | hnode | hrow
    · exact .inl hloop
    · exact .inr (.inl hnode)
    · exact .inr (.inr ⟨hrow, hid⟩)
  · intro id hid hnot
    cases hcontains : n.tables.nodes.contains id with
    | true => exact hdeleted id hcontains hnot
    | false => exact hdying id (hn.dying id (Multiset.mem_of_le hle hid) hcontains)

theorem Settled.inserted {new : Int} (hn : n.Settled) (hloops : n'.loops = n.loops)
    (hfound : n'.found = n.found)
    (hawaited : n'.awaited =
      new ::ₘ n.awaited.filter fun id => n'.tables.nodes.contains id = true)
    (hnew : new ∉ n.held)
    (hids : ∀ id, n'.tables.nodes.contains id = true ↔
      n.tables.nodes.contains id = true ∨ id = new)
    (hdying : ∀ id, n.Dying n.tasks id → n'.Dying n'.tasks id) : n'.Settled := by
  have hall : (n.awaited.filter fun id => n'.tables.nodes.contains id = true) = n.awaited :=
    Multiset.filter_eq_self.mpr fun id hid => (hids id).mpr (.inl (contains_of_mem_rowsFor hid))
  have hheld : n'.held = new ::ₘ n.held := by
    rw [held, held, hloops, hfound, hawaited, hall, Multiset.add_cons]
  refine ⟨?_, ?_, ?_⟩
  · rw [hheld]
    exact Multiset.nodup_cons.mpr ⟨hnew, hn.nodup⟩
  · intro id hid
    rw [hheld, Multiset.mem_cons]
    rcases (hids id).mp hid with hold | hid
    · exact .inr (hn.covered id hold)
    · exact .inl hid
  · intro id hid hnot
    have hbefore : n.tables.nodes.contains id = false := by
      apply Bool.eq_false_iff.mpr
      intro hcontains
      rw [(hids id).mpr (.inl hcontains)] at hnot
      cases hnot
    rw [hheld, Multiset.mem_cons] at hid
    rcases hid with rfl | hold
    · rw [(hids id).mpr (.inr rfl)] at hnot
      cases hnot
    · exact hdying id (hn.dying id hold hbefore)

/-- Only ids that have been used are held. -/
theorem Settled.lt_next (hn : n.Settled)
    (hgone : ∀ id, n.DeleteSent id → id < n.tables.nodes.next) (hid : id ∈ n.held) :
    id < n.tables.nodes.next := by
  cases hcontains : n.tables.nodes.contains id with
  | true =>
      obtain ⟨row, hrow⟩ := Table.contains_iff.mp hcontains
      exact hrow.lt_next
  | false =>
      apply hgone id
      rcases hn.dying id hid hcontains with hdeleting | ⟨l, hl, -, htells⟩
      · exact .inl hdeleting
      · exact .inr ⟨l, hl, htells⟩

theorem Settled.write {i : Nat} {c : Call J} {next : c.Answer → Task J Unit} {fate : Fate}
    (hn : n.Settled) (task : n.tasks[i]? = some (.call c next))
    (hstages : ∀ p ∈ n.tasks, Stage n.tables.nodes.next p)
    (hgone : ∀ id, n.DeleteSent id → id < n.tables.nodes.next)
    (hread : ∀ r, c ≠ .read r) (hsend : ∀ event, c ≠ .send event)
    (hsafe : n.SafeCall i c next fate) :
    Settled { n with
      tables := (perform c fate n.tables).1
      tasks := n.tasks.set i (next (perform c fate n.tables).2) } := by
  have hsilent : announced n.tables (.call c next) = [] := by
    cases c with
    | read r => exact absurd rfl (hread r)
    | send event => exact absurd rfl (hsend event)
    | write w => rfl
    | transaction ws => rfl
  have hdying (id : Int) (h : n.Dying n.tasks id) :
      Dying { n with
        tables := (perform c fate n.tables).1
        tasks := n.tasks.set i (next (perform c fate n.tables).2) }
        (n.tasks.set i (next (perform c fate n.tables).2)) id :=
    h.written task hstages hsilent
  have hset := getElem?_set_of_some task (next (perform c fate n.tables).2)
  cases (hstages _ (List.mem_of_getElem? task)).written hread hsend fate le_rfl with
  | removed nodes created deleted =>
      have hawaited := awaited_written task hsilent hsafe created
      rw [Multiset.coe_nil, rowsFor_zero, zero_add] at hawaited
      refine hn.removed rfl rfl hawaited (fun id hid => ((nodes.ids id).mp hid).1) hdying ?_
      intro id hbefore hafter
      exact .inl (.inl ⟨_, List.mem_of_getElem? hset, hsafe.delete id hbefore hafter⟩)
  | @inserted ip port description insert applied nodes created deleted =>
      obtain ⟨hconfirmed, hnone⟩ := hsafe.insert ip port description insert applied
      have hawaited := awaited_written task hsilent hsafe ((created hconfirmed).dataOf_create _)
      have hrow : (perform c fate n.tables).1.nodeAt? ip =
          some ⟨n.tables.nodes.next, ip, some port, some description⟩ :=
        Tables.nodeAt?_insert hnone nodes
      have hlookup : rowsFor (perform c fate n.tables).1
          ((perform c fate n.tables).1.nodeAt? ip).toList = {n.tables.nodes.next} := by
        rw [hrow, Option.toList_some, Multiset.coe_singleton, rowsFor_singleton, hrow]
        rfl
      rw [hlookup, Multiset.singleton_add] at hawaited
      refine hn.inserted rfl rfl hawaited ?_ ?_ hdying
      · exact fun hmem => lt_irrefl _ (hn.lt_next hgone hmem)
      · intro id
        show (perform c fate n.tables).1.nodes.contains id = true ↔ _
        rw [nodes, Table.contains_insert]

/-! ## Steps of the reader -/

/-- What `node_master` is told next and what it looks up, as rows. -/
def starting (n : Net J) : Multiset Int :=
  (n.found.map NodeRead.id : List Int) + rowsFor n.tables n.lookedUp

theorem held_eq : n.held = (n.loops.map NodeLoop.id : List Int) + n.starting +
    rowsFor n.tables ((n.tasks.flatMap fun p => dataOf .create (announced n.tables p) :
      List NodeRead) + n.events.filterMap (ConfigEvent.about .create)) := by
  rw [held, awaited, creations, rowsFor_add, starting]
  abel

/-- The answer to the lookup of `create_new_node` names a node, or there is another lookup. -/
theorem starting_heard {node : NodeRead} {tryCounter rx : Nat} {reply : Option (Reply J)}
    (hawaits : n.nodeMaster = .awaitNode node tryCounter rx)
    (hanswered : n.answers.lookup rx = some reply) (hfailed : ∀ row, reply ≠ some (.node (some row))) :
    n.starting = rowsFor n.tables (if tryCounter + 1 = 5 then 0 else {node}) := by
  have hfound : n.found = [] := by
    unfold found
    rw [hawaits]
    dsimp only
    rw [hanswered]
    split
    · next row heq => exact absurd (Option.some.inj heq) (hfailed row)
    · rfl
  have hlooked : n.lookedUp = if tryCounter + 1 = 5 then 0 else {node} := by
    unfold lookedUp
    rw [hawaits]
    dsimp only
    rw [hanswered]
    split
    · next heq => cases heq
    · next row heq => exact absurd (Option.some.inj heq) (hfailed row)
    · rfl
  rw [starting, hfound, hlooked, List.map_nil, Multiset.coe_nil, zero_add]

theorem starting_found {node row : NodeRead} {tryCounter rx : Nat}
    (hawaits : n.nodeMaster = .awaitNode node tryCounter rx)
    (hanswered : n.answers.lookup rx = some (some (.node (some row)))) : n.starting = {row.id} := by
  simp only [starting, found, lookedUp, hawaits, hanswered, rowsFor_zero, add_zero]
  rfl

theorem starting_awaits {node : NodeRead} {tryCounter rx : Nat}
    (hawaits : n.nodeMaster = .awaitNode node tryCounter rx)
    (hlookup : n.answers.lookup rx = none) : n.starting = rowsFor n.tables {node} := by
  simp only [starting, found, lookedUp, hawaits, hlookup]
  rw [List.map_nil, Multiset.coe_nil, zero_add]

/-- A lookup that is answered finds the row that it would have found, and the last one does not fail. -/
theorem starting_answered {node : NodeRead} {tryCounter rx : Nat} {succeeds : Bool}
    {requests : List (Query × Nat)} (hawaits : n.nodeMaster = .awaitNode node tryCounter rx)
    (hlookup : n.answers.lookup rx = none)
    (hsafe : tryCounter + 1 = 5 → succeeds = true ∨ n.tables.nodeAt? node.ip = none) :
    starting { n with
      requests
      answers := n.answers ++
        [(rx, if succeeds then Query.reply n.tables (.getByIp node.ip) else none)] } =
      n.starting := by
  generalize hn' : { n with
    requests
    answers := n.answers ++
      [(rx, if succeeds then Query.reply n.tables (.getByIp node.ip) else none)] } = n'
  have htables : n'.tables = n.tables := by rw [← hn']
  have hawaits' : n'.nodeMaster = .awaitNode node tryCounter rx := by rw [← hn', hawaits]
  have hanswer : n'.answers.lookup rx =
      some (if succeeds then some (.node (n.tables.nodeAt? node.ip)) else none) := by
    rw [← hn']
    show (n.answers ++ [_]).lookup rx = _
    rw [lookup_concat, hlookup, if_pos rfl]
    rfl
  rw [starting_awaits hawaits hlookup, rowsFor_singleton]
  cases hrow : n.tables.nodeAt? node.ip with
  | none =>
      rw [hrow] at hanswer
      rw [starting_heard hawaits' hanswer (by split <;> exact nofun), htables]
      split
      · rfl
      · rw [rowsFor_singleton, hrow]
  | some row =>
      rw [hrow] at hanswer
      cases succeeds with
      | true =>
          rw [starting_found hawaits' hanswer]
          rfl
      | false =>
          have hagain : tryCounter + 1 ≠ 5 := by
            intro hlast
            rcases hsafe hlast with hsucceeds | hnone
            · cases hsucceeds
            · cases hrow.symm.trans hnone
          rw [starting_heard hawaits' hanswer nofun, if_neg hagain, htables, rowsFor_singleton, hrow]

/-- Other answers do not matter. -/
theorem starting_other {requests : List (Query × Nat)} {rx : Nat} {reply : Option (Reply J)}
    (hloading : ¬n.Loading)
    (hother : ∀ node tryCounter, n.nodeMaster ≠ .awaitNode node tryCounter rx) :
    starting { n with requests, answers := n.answers ++ [(rx, reply)] } = n.starting := by
  have hstarting : ∀ rx', n.nodeMaster = .awaitNodes rx' ∨
      (∃ node tryCounter, n.nodeMaster = .awaitNode node tryCounter rx') →
        (n.answers ++ [(rx, reply)]).lookup rx' = n.answers.lookup rx' := by
    intro rx' hawaits
    rw [lookup_concat]
    rcases hawaits with hnodes | ⟨node, tryCounter, hnode⟩
    · cases hlookup : n.answers.lookup rx' with
      | none => exact absurd (.inr ⟨rx', hnodes, hlookup⟩) hloading
      | some reply => rfl
    · have hne : rx' ≠ rx := by
        rintro rfl
        exact hother node tryCounter hnode
      rw [if_neg hne, Option.or_none]
  unfold starting found lookedUp
  dsimp only
  cases hmaster : n.nodeMaster with
  | awaitNodes rx' => simp only [hstarting rx' (.inl hmaster)]
  | awaitNode node tryCounter rx' =>
      simp only [hstarting rx' (.inr ⟨node, tryCounter, hmaster⟩)]
  | _ => rfl

theorem Settled.answered {requests : List (Query × Nat)} {query : Query} {rx : Nat}
    {succeeds : Bool} {reply : Option (Reply J)} (hn : n.Settled) (hwired : n.Wired)
    (hloading : ¬n.Loading) (hpending : (query, rx) ∈ n.pending) (hsafe : n.SafeAnswer rx succeeds)
    (hreply : reply = if succeeds then query.reply n.tables else none) :
    Settled { n with requests, answers := n.answers ++ [(rx, reply)] } := by
  subst hreply
  refine hn.keep rfl ?_ fun id _ hdying => hdying
  have hstarting : starting { n with
      requests
      answers := n.answers ++ [(rx, if succeeds then query.reply n.tables else none)] } =
        n.starting := by
    by_cases hawaits : ∃ node tryCounter, n.nodeMaster = .awaitNode node tryCounter rx
    · obtain ⟨node, tryCounter, hawaits⟩ := hawaits
      obtain rfl := hwired.asked _ rx (.node hawaits) query hpending
      unfold SafeAnswer at hsafe
      rw [hawaits] at hsafe
      exact starting_answered hawaits (hwired.lookup_eq_none hpending) (hsafe rfl)
    · apply starting_other hloading
      exact fun node tryCounter h => hawaits ⟨node, tryCounter, h⟩
  rw [held_eq, hstarting, held_eq]

theorem starting_select (select : n.nodeMaster = .select) : n.starting = 0 := by
  simp only [starting, found, lookedUp, select]
  rfl

theorem Settled.create {data : NodeRead} {events : Multiset ConfigEvent} (hn : n.Settled)
    (select : n.nodeMaster = .select) (taken : n.events = ⟨.create, data⟩ ::ₘ events) :
    Settled { n with events, nodeMaster := .sleep data 0 } := by
  refine hn.keep rfl ?_ ?_
  · have hstarting : starting { n with events, nodeMaster := .sleep data 0 } =
        rowsFor n.tables {data} := by
      show ((([] : List NodeRead).map NodeRead.id : List Int) : Multiset Int) + _ = _
      rw [List.map_nil, Multiset.coe_nil, zero_add]
      rfl
    have habout : ConfigEvent.about .create ⟨.create, data⟩ = some data := rfl
    rw [held_eq, hstarting, held_eq, starting_select select, taken,
      Multiset.filterMap_cons_some _ _ _ habout, Multiset.add_cons, ← Multiset.singleton_add data]
    simp only [rowsFor_add]
    abel
  · rintro id - ((htask | ⟨node, hnode, hid⟩) | hloop)
    · exact .inl (.inl htask)
    · rw [taken] at hnode
      rcases Multiset.mem_cons.mp hnode with heq | hold
      · cases heq
      · exact .inl (.inr ⟨node, hold, hid⟩)
    · exact .inr hloop

/-- A Delete event comes to the loop of its node, because nobody starts a loop for it then. -/
theorem Settled.sendToWorkers {msg : ConfigEvent} {events : Multiset ConfigEvent} (hn : n.Settled)
    (hgone : ∀ id, n.DeleteSent id → n.tables.nodes.contains id = false)
    (select : n.nodeMaster = .select) (taken : n.events = msg ::ₘ events)
    (passed : msg.eventType ≠ .create) :
    Settled { n with
      events
      loops := n.loops.map fun l => { l with fromController := l.fromController ++ [msg] } } := by
  refine hn.keep rfl ?_ ?_
  · have habout : ConfigEvent.about .create msg = none := if_neg passed
    have hids : (n.loops.map fun l => { l with fromController := l.fromController ++ [msg] }).map
        NodeLoop.id = n.loops.map NodeLoop.id := by
      rw [List.map_map]
      rfl
    rw [held_eq, held_eq, taken, Multiset.filterMap_cons_none _ _ habout, hids]
    rfl
  · rintro id hid ((htask | ⟨node, hnode, rfl⟩) | ⟨l, hl, hid', htells⟩)
    · exact .inl (.inl htask)
    · have hnot := hgone node.id (.inl (.inr ⟨node, hnode, rfl⟩))
      rw [taken] at hnode
      rcases Multiset.mem_cons.mp hnode with rfl | hold
      · rcases mem_held.mp hid with ⟨l, hl, hid⟩ | ⟨row, hrow, -⟩ | hrow
        · refine .inr ⟨_, List.mem_map_of_mem hl, hid, ?_⟩
          exact tells_append.mpr (.inr (tells_cons.mpr (.inl ⟨rfl, rfl⟩)))
        · unfold found at hrow
          rw [select] at hrow
          cases hrow
        · cases hnot.symm.trans (contains_of_mem_rowsFor hrow)
      · exact .inl (.inr ⟨node, hold, rfl⟩)
    · exact .inr ⟨_, List.mem_map_of_mem hl, hid', tells_append.mpr (.inl htells)⟩

/-- `node_master` goes on with the same creation. -/
theorem Settled.goes_on {nodeMaster : NodeMaster J} (hn : n.Settled)
    (hstarting : starting { n with nodeMaster } = n.starting) :
    Settled { n with nodeMaster } := by
  refine hn.keep rfl ?_ fun id _ hdying => hdying
  rw [held_eq, hstarting, held_eq]

theorem Settled.asks {query : Query} (hn : n.Settled) : (n.ask query).Settled :=
  hn.keep rfl rfl fun _ _ hdying => hdying

theorem Settled.retry {node : NodeRead} {tryCounter rx : Nat} {reply : Option (Reply J)}
    (hn : n.Settled) (awaits : n.nodeMaster = .awaitNode node tryCounter rx)
    (answered : n.answers.lookup rx = some reply)
    (failed : ∀ row, reply ≠ some (.node (some row))) :
    Settled { n with nodeMaster := Topology.retry node tryCounter } := by
  apply hn.goes_on
  rw [starting_heard awaits answered failed]
  unfold Topology.retry
  split
  · exact starting_select rfl
  · show ((([] : List NodeRead).map NodeRead.id : List Int) : Multiset Int) + _ = _
    rw [List.map_nil, Multiset.coe_nil, zero_add]
    rfl

/-- The nodes that it was told get their loops. -/
theorem Settled.starts {nodes : List NodeRead} (hn : n.Settled)
    (hstarting : n.starting = (nodes.map NodeRead.id : List Int)) :
    Settled { n with loops := n.loops ++ nodes.map .new, nodeMaster := .select } := by
  have hids : (nodes.map (NodeLoop.new (J := J))).map NodeLoop.id = nodes.map NodeRead.id := by
    rw [List.map_map]
    rfl
  refine hn.keep rfl ?_ ?_
  · rw [held_eq, starting_select rfl, held_eq, hstarting, List.map_append, hids,
      ← Multiset.coe_add, add_zero]
  · rintro id - (hdeleting | ⟨l, hl, hloop⟩)
    · exact .inl hdeleting
    · exact .inr ⟨l, List.mem_append_left _ hl, hloop⟩

/-! ## Turns of the loops -/

/-- A loop goes on. -/
theorem Settled.loop_goes_on {i : Nat} {l l' : NodeLoop J} (hn : n.Settled)
    (loop : n.loops[i]? = some l) (hid : l'.id = l.id)
    (hdelete : Tells l.fromController .delete l.id →
      Tells l'.fromController .delete l.id ∨ n.Deleting n.tasks l.id) :
    Settled { n with loops := n.loops.set i l' } := by
  have hids : (n.loops.set i l').map NodeLoop.id = n.loops.map NodeLoop.id := by
    obtain ⟨hi, rfl⟩ := List.getElem?_eq_some_iff.mp loop
    rw [List.map_set, hid, ← List.map_set, List.set_getElem_self hi]
  refine hn.keep rfl (held_congr hids rfl rfl) ?_
  rintro id - (hdeleting | ⟨l₁, hl₁, rfl, htells⟩)
  · exact .inl hdeleting
  · rcases (mem_iff_mem_eraseIdx loop).mp hl₁ with rfl | hother
    · rcases hdelete htells with hkept | hdeleting
      · exact .inr ⟨l', (mem_set_iff loop).mpr (.inl rfl), hid, hkept⟩
      · exact .inl hdeleting
    · exact .inr ⟨l₁, (mem_set_iff loop).mpr (.inr hother), rfl, htells⟩

/-- The loop of a node that is gone ends. -/
theorem Settled.loop_ends {i : Nat} {l : NodeLoop J} (hn : n.Settled)
    (loop : n.loops[i]? = some l) (hgone : n.tables.nodes.contains l.id = false) :
    Settled { n with loops := n.loops.eraseIdx i } := by
  have hheld : n.held = l.id ::ₘ held { n with loops := n.loops.eraseIdx i } := by
    have hids : ((n.loops.map NodeLoop.id : List Int) : Multiset Int) =
        l.id ::ₘ ((n.loops.eraseIdx i).map NodeLoop.id : List Int) := by
      rw [← Multiset.map_coe, coe_eq_cons_eraseIdx loop, Multiset.map_cons, Multiset.map_coe]
    rw [held, held, hids, Multiset.cons_add, Multiset.cons_add]
    rfl
  have hnodup := hn.nodup
  rw [hheld, Multiset.nodup_cons] at hnodup
  refine ⟨hnodup.2, ?_, ?_⟩
  · intro id hid
    have hmem := hn.covered id hid
    rw [hheld, Multiset.mem_cons] at hmem
    rcases hmem with rfl | hmem
    · cases hgone.symm.trans hid
    · exact hmem
  · intro id hid hnot
    have hmem : id ∈ n.held := by
      rw [hheld]
      exact Multiset.mem_cons_of_mem hid
    rcases hn.dying id hmem hnot with hdeleting | ⟨l₁, hl₁, rfl, htells⟩
    · exact .inl hdeleting
    · rcases (mem_iff_mem_eraseIdx loop).mp hl₁ with rfl | hother
      · exact absurd hid hnodup.1
      · exact .inr ⟨l₁, hother, rfl, htells⟩

/-- A loop keeps its Delete, but for one that is lost. -/
theorem SafeTurn.keeps {backlog : Nat} {l l' : NodeLoop J} {act : LoopAction} (hsafe : n.SafeTurn backlog l act)
    (h : l.Turns backlog n.answers act (some l')) (htells : Tells l.fromController .delete l.id) :
    Tells l'.fromController .delete l.id ∨ n.Deleting n.tasks l.id := by
  cases h.received with
  | same same =>
      rw [same]
      exact .inl htells
  | lag select lags loop =>
      rw [loop]
      exact hsafe.receive rfl lags htells
  | foreign select received other loop =>
      rw [received, tells_cons] at htells
      rcases htells with ⟨htype, hid⟩ | hrest
      · cases (other hid).symm.trans htype
      · rw [loop]
        exact .inl hrest
  | update select received own loop =>
      rw [received, tells_cons] at htells
      rcases htells with ⟨htype, -⟩ | hrest
      · cases htype
      · rw [loop, (NodeLoop.update_keeps _ _).2]
        exact .inl hrest

/-- A loop ends with its Delete, or because it panics. -/
theorem SafeTurn.gone {backlog : Nat} {l : NodeLoop J} {act : LoopAction} (hsafe : n.SafeTurn backlog l act)
    (loop : l ∈ n.loops) (turns : l.turn backlog n.answers act = some none)
    (hgone : ∀ id, n.DeleteSent id → n.tables.nodes.contains id = false) :
    n.tables.nodes.contains l.id = false := by
  have h := NodeLoop.turns_of_turn turns
  by_cases hreceive : act = .receive
  · subst hreceive
    generalize hresult : (none : Option (NodeLoop J)) = result at h
    cases h with
    | @delete data rest select received own =>
        apply hgone
        refine .inr ⟨l, loop, ?_⟩
        rw [received, tells_cons]
        exact .inl ⟨rfl, own⟩
    | lag | foreign | update => cases hresult
  · exact hsafe.panic hreceive turns

theorem Settled.turn {backlog i : Nat} {l : NodeLoop J} {l' : Option (NodeLoop J)} {act : LoopAction}
    (hn : n.Settled) (loop : n.loops[i]? = some l) (turns : l.turn backlog n.answers act = some l')
    (hgone : ∀ id, n.DeleteSent id → n.tables.nodes.contains id = false)
    (hsafe : n.SafeTurn backlog l act) : (n.setLoop i l').Settled := by
  have h := NodeLoop.turns_of_turn turns
  cases l' with
  | none => exact hn.loop_ends loop (hsafe.gone (List.mem_of_getElem? loop) turns hgone)
  | some l' => exact hn.loop_goes_on loop h.id (hsafe.keeps h)

/-! ## Runs -/

theorem Step.settled (h : Step lib n a n') (hn : n.Polled) (hsafe : n.Safe lib.backlog a)
    (hloading : ¬n.Loading) : n'.Settled := by
  have hsettled := hn.settled hloading
  have hgone (id : Int) (hsent : n.DeleteSent id) := (hn.gone id hsent).2
  cases h with
  | stutter => exact hsettled
  | spawn command => exact hsettled.spawn lib command
  | receive => exact hsettled.keep rfl rfl fun _ _ hdying => hdying
  | @call i c next fate task hc =>
      have hcall := (hsafe.resolve_left hloading) c next task
      have hstage := hn.stages _ (List.mem_of_getElem? task)
      by_cases hread : ∃ r, c = .read r
      · obtain ⟨r, rfl⟩ := hread
        have hread := hsettled.read task hstage hcall
        rw [perform_read_tables]
        exact hread
      · exact hsettled.write task hn.stages (fun id hsent => (hn.gone id hsent).1)
          (fun r hr => hread ⟨r, hr⟩) hc hcall
  | send fate task => exact hsettled.send task
  | dropTask i => exact hsettled.dropTask i (hsafe.resolve_left hloading)
  | answer fate request =>
      exact hsettled.answered hn.wired hloading (mem_pending_of_request request)
        (hsafe _ _ request) rfl
  | dropRequest request =>
      exact hsettled.answered hn.wired hloading (mem_pending_of_request request)
        (hsafe _ _ request) rfl
  | create select taken => exact hsettled.create select taken
  | sendToWorkers select taken passed => exact hsettled.sendToWorkers hgone select taken passed
  | wake sleeps =>
      apply hsettled.goes_on
      simp only [starting, found, lookedUp, sleeps]
  | askAll asks => exact absurd (.inl asks) hloading
  | askByIp asks =>
      apply hsettled.asks.goes_on
      refine Eq.trans (starting_awaits rfl hn.wired.lookup_next) ?_
      simp only [starting, found, lookedUp, ask, asks]
      rw [List.map_nil, Multiset.coe_nil, zero_add]
  | hearNodes awaits answered =>
      apply hsettled.starts
      simp only [starting, found, lookedUp, awaits, answered, rowsFor_zero, add_zero]
  | panic awaits answered failed =>
      obtain ⟨nodes, rfl⟩ := hn.loaded _ _ awaits answered
      exact absurd rfl (failed nodes)
  | @hearNode node row tryCounter rx awaits answered =>
      have hstarting : n.starting = ([row].map NodeRead.id : List Int) := by
        rw [starting_found awaits answered]
        rfl
      exact hsettled.starts hstarting
  | retry awaits answered failed => exact hsettled.retry awaits answered failed
  | turn act loop turns => exact hsettled.turn loop turns hgone (hsafe _ loop)
  | loopAsk loop asks =>
      have hkeeps := NodeLoop.ask_keeps asks
      refine hsettled.asks.loop_goes_on loop hkeeps.1 ?_
      rw [hkeeps.2]
      exact .inl

theorem Step.polled (h : Step lib n a n') (hn : n.Polled) (hsafe : n.Safe lib.backlog a) : n'.Polled where
  wired := h.wired hn.wired
  stages := h.stages hn.stages
  gone id hsent := h.gone hn.stages hn.gone hsent
  loading := h.no_loops hn.loading
  loaded := h.loaded hn.wired hsafe hn.loaded
  running := h.running hn.running hn.loaded
  settled hn' := by
    by_cases hloading : n.Loading
    · exact h.first_settled hn.wired hsafe hn.loading hloading hn'
    · exact h.settled hn hsafe hloading

theorem run_polled {t : Tables J} {actions : List (Action J)}
    (h : ∀ pre a post, actions = pre ++ a :: post → (Topology.run lib t pre).net.Safe lib.backlog a) :
    (Topology.run lib t actions).net.Polled := by
  apply Topology.run_net_invariant (I := Polled) (G := Safe lib.backlog) _ _ h
  · have hloading : (Topology.start t).net.Loading := .inl rfl
    refine ⟨run_wired lib t [], nofun, ?_, fun _ => rfl, nofun, nofun, absurd hloading⟩
    rintro id ((⟨p, hp, -⟩ | ⟨node, hnode, -⟩) | ⟨l, hl, -⟩)
    · cases hp
    · exact absurd hnode (Multiset.notMem_zero _)
    · cases hl
  · exact fun n a n' hn hsafe hstep => hstep.polled hn hsafe

/-! ## The conditions can be checked -/

section Decidable

variable [DecidableEq J] (n : Net J)

instance : Decidable n.Loading :=
  match hmaster : n.nodeMaster with
  | .sendGetAll => isTrue (.inl hmaster)
  | .awaitNodes rx => decidable_of_iff (n.answers.lookup rx = none) (by simp [Loading, hmaster])
  | .select | .sleep .. | .sendGetByIp .. | .awaitNode .. | .forward _ | .panicked =>
    isFalse (by simp [Loading, hmaster])

instance (tasks : List (Task J Unit)) (id : Int) : Decidable (n.Deleting tasks id) :=
  have : Decidable (∃ event ∈ n.events, event.eventType = .delete ∧ event.data.id = id) :=
    Multiset.decidableExistsMultiset
  decidable_of_iff ((∃ p ∈ tasks, Tells (announced n.tables p) .delete id) ∨
    ∃ event ∈ n.events, event.eventType = .delete ∧ event.data.id = id) <| by
      refine or_congr_right ⟨?_, ?_⟩
      · rintro ⟨event, hevent, htype, hid⟩
        refine ⟨event.data, ?_, hid⟩
        rwa [← htype]
      · rintro ⟨node, hnode, hid⟩
        exact ⟨_, hnode, rfl, hid⟩

instance (tasks : List (Task J Unit)) (id : Int) : Decidable (n.Dying tasks id) := by
  unfold Dying
  infer_instance

/-- The condition on lookups is about one call. -/
instance (c : Call J) {P : Prop} [Decidable P] : Decidable (∀ r, c = .read r → P) :=
  match c with
  | .read r => decidable_of_iff P ⟨fun h _ _ => h, fun h => h r rfl⟩
  | .write _ | .transaction _ | .send _ => isTrue nofun

instance (c : Call J) {P : String → Prop} [DecidablePred P] :
    Decidable (∀ ip port description, c = .write (.insertNode ip port description) → P ip) :=
  match c with
  | .write w =>
    match w with
    | .insertNode ip port description =>
      decidable_of_iff (P ip) ⟨fun h _ _ _ heq => by cases heq; exact h, fun h => h _ _ _ rfl⟩
    | .updateNode .. | .insertDevice .. | .updateDevice _ | .insertValue _ | .updateValue _
    | .deleteMeasures _ | .deleteValue _ | .deleteDevice _ | .markDevicesDeleted ..
    | .deleteNodeValues _ | .deleteNodeDevices _ | .deleteNode _ => isTrue nofun
  | .read _ | .transaction _ | .send _ => isTrue nofun

instance (i : Nat) (c : Call J) (next : c.Answer → Task J Unit) (fate : Fate) :
    Decidable (n.SafeCall i c next fate) :=
  decidable_of_iff
    ((∀ r, c = .read r → fate.succeeds = false →
        rowsFor n.tables (dataOf .create (announced n.tables (.call c next)) : List NodeRead) = 0) ∧
      (∀ ip port description, c = .write (.insertNode ip port description) →
        fate.applied = true → fate.confirmed = true ∧ n.tables.nodeAt? ip = none) ∧
      (rowsFor (perform c fate n.tables).1
          (n.creations (perform c fate n.tables).1 (n.tasks.eraseIdx i)) =
        (rowsFor n.tables (n.creations n.tables (n.tasks.eraseIdx i))).filter fun id =>
          (perform c fate n.tables).1.nodes.contains id = true) ∧
      ∀ id ∈ n.tables.nodes.rows.map Prod.fst,
        (perform c fate n.tables).1.nodes.contains id = false →
          Tells (announced (perform c fate n.tables).1 (next (perform c fate n.tables).2)) .delete id)
    ⟨fun ⟨lookup, insert, others, delete⟩ =>
        ⟨lookup, insert, others, fun id h => delete id (Table.contains_iff_mem_keys.mp h)⟩,
      fun h => ⟨h.lookup, h.insert, h.others, fun id hid =>
        h.delete id (Table.contains_iff_mem_keys.mpr hid)⟩⟩

instance (i : Nat) (p : Task J Unit) : Decidable (n.SafeDrop i p) :=
  have : Decidable (∀ id ∈ n.held, Tells (announced n.tables p) .delete id →
      n.Dying (n.tasks.eraseIdx i) id) := Multiset.decidableForallMultiset
  decidable_of_iff
    (rowsFor n.tables (dataOf .create (announced n.tables p) : List NodeRead) = 0 ∧
      ∀ id ∈ n.held, Tells (announced n.tables p) .delete id → n.Dying (n.tasks.eraseIdx i) id)
    ⟨fun ⟨create, delete⟩ => ⟨create, delete⟩, fun h => ⟨h.create, h.delete⟩⟩

instance (rx : Nat) (succeeds : Bool) : Decidable (n.SafeAnswer rx succeeds) := by
  unfold SafeAnswer
  split <;> infer_instance

instance (backlog : Nat) (l : NodeLoop J) (act : LoopAction) :
    Decidable (n.SafeTurn backlog l act) :=
  decidable_of_iff
    ((act = .receive → backlog < l.fromController.length →
      Tells l.fromController .delete l.id →
        Tells (l.fromController.drop (l.fromController.length - backlog)) .delete l.id ∨
          n.Deleting n.tasks l.id) ∧
      (act ≠ .receive → l.turn backlog n.answers act = some none → n.tables.nodes.contains l.id = false))
    ⟨fun ⟨receive, panic⟩ => ⟨receive, panic⟩, fun h => ⟨h.receive, h.panic⟩⟩

instance (i : Nat) (fate : Fate) :
    Decidable (∀ c next, n.tasks[i]? = some (.call c next) → n.SafeCall i c next fate) :=
  match htask : n.tasks[i]? with
  | none => isTrue (by rintro c next ⟨⟩)
  | some (.done _) => isTrue (by rintro c next ⟨⟩)
  | some (.call c next) =>
    decidable_of_iff (n.SafeCall i c next fate) (by
      constructor
      · rintro h c' next' ⟨⟩
        exact h
      · exact fun h => h c next rfl)

instance (i : Nat) (succeeds : Bool) :
    Decidable (∀ query rx, n.requests[i]? = some (query, rx) → n.SafeAnswer rx succeeds) :=
  decidable_of_iff (∀ r, n.requests[i]? = some r → n.SafeAnswer r.2 succeeds) Prod.forall

instance (backlog : Nat) : (a : Action J) → Decidable (n.Safe backlog a)
  | .advance i fate => inferInstanceAs <| Decidable <|
      n.Loading ∨ ∀ c next, n.tasks[i]? = some (.call c next) → n.SafeCall i c next fate
  | .dropTask i => inferInstanceAs <| Decidable <|
      n.Loading ∨ ∀ p, n.tasks[i]? = some p → n.SafeDrop i p
  | .answer i fate => inferInstanceAs <| Decidable <|
      ∀ query rx, n.requests[i]? = some (query, rx) → n.SafeAnswer rx fate.succeeds
  | .dropRequest i => inferInstanceAs <| Decidable <|
      ∀ query rx, n.requests[i]? = some (query, rx) → n.SafeAnswer rx false
  | .loop i act => inferInstanceAs <| Decidable <| ∀ l, n.loops[i]? = some l → n.SafeTurn backlog l act
  | .apiSends _ | .apiReceives | .dataMasterFromApi | .dataMasterFromReader | .dataMasterFromDb
  | .dataMasterSends | .dbMasterReceives | .dbMasterSends | .measuresReceive
  | .nodeMasterFromController | .nodeMasterFromNode | .nodeMasterWakes | .nodeMasterSends
  | .nodeMasterHears | .loopSendsEvent .. | .loopSendsRequest _ => isTrue trivial

end Decidable

end Net

/-! ## The result -/

namespace Topology

/-- A run whose steps are safe leaves one loop for each row of `nodes`, and no others, when everything
has come to rest. -/
theorem one_loop_per_node (lib : Libraries J) (t : Tables J) (actions : List (Action J))
    (hsafe : ∀ pre a post, actions = pre ++ a :: post → (run lib t pre).net.Safe lib.backlog a)
    (hrest : (run lib t actions).Quiescent) (id : Int) :
    ((run lib t actions).loops.map NodeLoop.id).count id =
      if (run lib t actions).tables.nodes.contains id then 1 else 0 := by
  have hpolled := Net.run_polled hsafe
  generalize run lib t actions = s at hrest hpolled ⊢
  have hselect : s.net.nodeMaster = .select := hrest.nodeMaster.resolve_right hpolled.running
  have hloading : ¬s.net.Loading := by
    rintro (hasks | ⟨rx, hawaits, -⟩)
    · cases hselect.symm.trans hasks
    · cases hselect.symm.trans hawaits
  have hsettled := hpolled.settled hloading
  have hsilent :
      (s.net.tasks.flatMap fun p => dataOf .create (announced s.net.tables p)) = [] := by
    apply List.flatMap_eq_nil_iff.mpr
    intro p hp
    rw [hrest.announced hp]
    rfl
  have hheld : s.net.held = (s.loops.map NodeLoop.id : List Int) := by
    rw [Net.held_eq, Net.starting_select hselect, hrest.events, hsilent, Multiset.filterMap_zero,
      Multiset.coe_nil, add_zero, add_zero, Net.rowsFor_zero, add_zero]
    rfl
  have hnodup := hsettled.nodup
  rw [hheld, Multiset.coe_nodup] at hnodup
  cases hcontains : s.tables.nodes.contains id with
  | true =>
      rw [if_pos rfl]
      apply List.count_eq_one_of_mem hnodup
      have hmem := hsettled.covered id hcontains
      rwa [hheld] at hmem
  | false =>
      rw [if_neg Bool.false_ne_true]
      apply List.count_eq_zero_of_not_mem
      intro hmem
      have hheld' : id ∈ s.net.held := by rwa [hheld]
      rcases hsettled.dying id hheld' hcontains with
        (⟨p, hp, htells⟩ | ⟨node, hnode, -⟩) | ⟨l, hl, -, htells⟩
      · rw [hrest.announced hp] at htells
        exact not_tells rfl htells
      · rw [hrest.events] at hnode
        exact absurd hnode (Multiset.notMem_zero _)
      · rw [hrest.messages hl] at htells
        exact not_tells rfl htells

/-! ## Two creations with one ip -/

/-- `create_new_node` takes an event, and starts what its lookup finds. -/
def looksUp : List (Action Unit) :=
  [.dataMasterFromDb, .dataMasterSends, .nodeMasterFromController, .nodeMasterWakes,
    .nodeMasterSends, .dataMasterFromReader, .dataMasterSends, .dbMasterReceives,
    .answer 0 .success, .nodeMasterHears]

def creates : List (Action Unit) := handed (.nodeCreate ⟨"10.0.0.6", none, none⟩)

/-- A node is created, and the node 1 is deleted. -/
def createdAndDeleted : List (Action Unit) :=
  startUp ++ creates ++ calls 0 4 ++ looksUp ++ handed (.nodeDelete 0 ⟨1⟩) ++ calls 1 3 ++
    [.dataMasterFromDb, .dataMasterSends, .nodeMasterFromController, .loop 1 .receive,
      .loop 0 .receive]

theorem one_loop_per_node_created :
    ((run noSettings oneNode createdAndDeleted).loops.map NodeLoop.id).count 2 =
      if (run noSettings oneNode createdAndDeleted).tables.nodes.contains 2 then 1 else 0 := by
  have hsafe : Execution.Meets (step noSettings) (start oneNode) (fun s a => s.net.Safe noSettings.backlog a)
      createdAndDeleted := by
    decide +kernel
  exact one_loop_per_node noSettings oneNode createdAndDeleted hsafe (by decide +kernel) 2

/-- Both creations look for the ip before either has written. -/
def createdTwice : List (Action Unit) :=
  startUp ++ creates ++ creates ++ [.advance 0 .success, .advance 1 .success] ++ calls 0 3 ++
    calls 1 3 ++ looksUp ++ looksUp

/-- The node 2 is read twice then, and the node 3 is not. -/
theorem createdTwice_loops : (run noSettings oneNode createdTwice).Quiescent ∧
    (run noSettings oneNode createdTwice).loops.map NodeLoop.id = [1, 2, 2] ∧
    (run noSettings oneNode createdTwice).tables.nodes.rows.map Prod.fst = [1, 2, 3] := by
  decide +kernel

end Topology

end ModbusLogger.Main
