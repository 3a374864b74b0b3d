import ModbusLogger.Db.Worker.NodeLife
import ModbusLogger.Main.Oneshots

/-!
# What the loops are told

Config events about a node, and what becomes of them at a loop: a turn receives the first of them, or
loses the oldest ones.
-/

namespace ModbusLogger.Main

open Db

variable {J : Type}

/-- An event of the type about the node `id`. -/
def Tells (events : List ConfigEvent) (eventType : ConfigEventType) (id : Int) : Prop :=
  ∃ node ∈ dataOf eventType events, node.id = id

section Tells

variable {id : Int} {eventType : ConfigEventType} {events events' : List ConfigEvent}

theorem mem_dataOf {node : NodeRead} :
    node ∈ dataOf eventType events ↔ ⟨eventType, node⟩ ∈ events := by
  unfold dataOf ConfigEvent.about
  rw [List.mem_filterMap]
  constructor
  · rintro ⟨event, hevent, habout⟩
    split at habout
    · next htype =>
        cases habout
        rwa [← htype]
    · cases habout
  · exact fun h => ⟨_, h, if_pos rfl⟩

theorem Tells.mono (h : Tells events eventType id) (hsubset : events ⊆ events') :
    Tells events' eventType id := by
  obtain ⟨node, hnode, hid⟩ := h
  exact ⟨node, mem_dataOf.mpr (hsubset (mem_dataOf.mp hnode)), hid⟩

theorem tells_append : Tells (events ++ events') eventType id ↔
      Tells events eventType id ∨ Tells events' eventType id := by
  unfold Tells dataOf
  simp only [List.filterMap_append, List.mem_append, or_and_right, exists_or]

theorem tells_cons {event : ConfigEvent} :
    Tells (event :: events) eventType id ↔
      event.eventType = eventType ∧ event.data.id = id ∨ Tells events eventType id := by
  unfold Tells
  simp only [mem_dataOf, List.mem_cons, or_and_right, exists_or]
  constructor
  · rintro (⟨node, rfl, hid⟩ | h)
    · exact .inl ⟨rfl, hid⟩
    · exact .inr h
  · rintro (⟨rfl, hid⟩ | h)
    · exact .inl ⟨event.data, rfl, hid⟩
    · exact .inr h

theorem tells_of_dataOf (h : dataOf eventType events = dataOf eventType events') :
    Tells events eventType id ↔ Tells events' eventType id := by
  unfold Tells
  rw [h]

theorem not_tells (h : dataOf eventType events = []) : ¬Tells events eventType id := by
  rintro ⟨node, hnode, -⟩
  rw [h] at hnode
  cases hnode

instance (events : List ConfigEvent) (eventType : ConfigEventType) (id : Int) :
    Decidable (Tells events eventType id) := by
  unfold Tells
  infer_instance

/-- The loop of `id` will read its devices again, or it will end. -/
def Concerns (events : List ConfigEvent) (id : Int) : Prop :=
  Tells events .update id ∨ Tells events .delete id

instance (events : List ConfigEvent) (id : Int) : Decidable (Concerns events id) :=
  inferInstanceAs (Decidable (_ ∨ _))

theorem concerns_append :
    Concerns (events ++ events') id ↔ Concerns events id ∨ Concerns events' id := by
  unfold Concerns
  simp only [tells_append]
  exact or_or_or_comm

theorem concerns_head {event : ConfigEvent} :
    Concerns (event :: events) id ↔ Concerns [event] id ∨ Concerns events id := by
  rw [← concerns_append]
  rfl

theorem concerns_cons {event : ConfigEvent} :
    Concerns (event :: events) id ↔
      event.eventType ≠ .create ∧ event.data.id = id ∨ Concerns events id := by
  unfold Concerns
  simp only [tells_cons]
  cases event.eventType <;> simp [or_assoc, or_left_comm]

theorem not_concerns_nil : ¬Concerns [] id := by
  rintro (h | h) <;> exact not_tells rfl h

/-- Events about other nodes, and creations. -/
theorem not_concerns {event : ConfigEvent} (h : event.data.id = id → event.eventType = .create) :
    ¬Concerns [event] id := by
  intro hconcerns
  rcases concerns_cons.mp hconcerns with ⟨hne, hid⟩ | hnone
  · exact hne (h hid)
  · exact not_concerns_nil hnone

end Tells

/-- A condition on what is found, if anything is. -/
instance decidableFound {α : Type} {o : Option α} {P : α → Prop} [DecidablePred P] :
    Decidable (∀ x, o = some x → P x) :=
  match o with
  | none => isTrue nofun
  | some x => decidable_of_iff (P x) ⟨fun h _ heq => by cases heq; exact h, fun h => h x rfl⟩

/-! ## Turns of a loop -/

namespace NodeLoop

variable {backlog : Nat} {l l' : NodeLoop J} {answers : List (Nat × Option (Reply J))}
  {act : LoopAction}

/-- A loop keeps its node and its messages when it hears an answer. -/
theorem next_keeps {caller : Caller} {units : List (DeviceRead × List (ValueRead J))}
    {rest : List DeviceRead} (h : l.next caller units rest = some l') :
    l'.id = l.id ∧ l'.fromController = l.fromController := by
  unfold next created at h
  split at h
  · split at h
    · cases h
    · cases h
      exact ⟨rfl, rfl⟩
    · cases h
      exact ⟨rfl, rfl⟩
  · cases h
    exact ⟨rfl, rfl⟩

theorem hear_keeps {reply : Option (Reply J)} (h : l.hear reply = some l') :
    l'.id = l.id ∧ l'.fromController = l.fromController := by
  unfold hear at h
  split at h
  · split at h
    · cases h
      exact ⟨rfl, rfl⟩
    · exact next_keeps h
    · cases h
      exact ⟨rfl, rfl⟩
  · split at h <;> exact next_keeps h
  · cases h
    exact ⟨rfl, rfl⟩

theorem update_keeps (l : NodeLoop J) (conf : NodeRead) :
    (l.update conf).id = l.id ∧ (l.update conf).fromController = l.fromController := by
  unfold update
  split <;> exact ⟨rfl, rfl⟩

theorem ask_keeps {rx : Nat} {query : Query} (h : l.ask? rx = some (query, l')) :
    l'.id = l.id ∧ l'.fromController = l.fromController := by
  unfold ask? at h
  split at h
  · cases h
    exact ⟨rfl, rfl⟩
  · cases h
    exact ⟨rfl, rfl⟩
  · cases h

/-- What a turn does to the messages of a loop. -/
inductive Received (backlog : Nat) (l l' : NodeLoop J) : LoopAction → Prop where
  | same {act : LoopAction} (same : l'.fromController = l.fromController) :
      Received backlog l l' act
  | lag (select : l.state = .select) (lags : backlog < l.fromController.length)
      (loop : l' = { l with
        fromController := l.fromController.drop (l.fromController.length - backlog) }) :
      Received backlog l l' .receive
  | foreign {msg : ConfigEvent} {rest : List ConfigEvent} (select : l.state = .select)
      (received : l.fromController = msg :: rest)
      (other : msg.data.id = l.id → msg.eventType = .create)
      (loop : l' = { l with fromController := rest }) : Received backlog l l' .receive
  | update {data : NodeRead} {rest : List ConfigEvent} (select : l.state = .select)
      (received : l.fromController = ⟨.update, data⟩ :: rest) (own : data.id = l.id)
      (loop : l' = { l with fromController := rest }.update data) : Received backlog l l' .receive

theorem Received.subset (h : l.Received backlog l' act) : l'.fromController ⊆ l.fromController := by
  cases h with
  | same same =>
      rw [same]
      exact List.Subset.refl _
  | lag select lags loop =>
      rw [loop]
      exact List.drop_subset _ _
  | foreign select received other loop =>
      rw [loop, received]
      exact List.subset_cons_self _ _
  | update select received own loop =>
      rw [loop, (update_keeps _ _).2, received]
      exact List.subset_cons_self _ _

theorem Turns.id (h : l.Turns backlog answers act (some l')) : l'.id = l.id := by
  generalize hresult : some l' = result at h
  cases h with
  | lag | foreign | ticked | connected =>
      cases hresult
      rfl
  | update =>
      cases hresult
      exact (update_keeps _ _).1
  | elapsed =>
      cases hresult
      unfold tick
      split <;> rfl
  | hear => exact (hear_keeps hresult.symm).1
  | delete | panic => cases hresult

theorem Turns.received (h : l.Turns backlog answers act (some l')) : l.Received backlog l' act := by
  generalize hresult : some l' = result at h
  cases h with
  | lag select lags =>
      cases hresult
      exact .lag select lags rfl
  | foreign select received other =>
      cases hresult
      exact .foreign select received other rfl
  | update select received own =>
      cases hresult
      exact .update select received own rfl
  | ticked | connected =>
      cases hresult
      exact .same rfl
  | elapsed =>
      cases hresult
      apply Received.same
      unfold tick
      split <;> rfl
  | hear => exact .same (hear_keeps hresult.symm).2
  | delete | panic => cases hresult

end NodeLoop

/-! ## At rest -/

def ended : Task J Unit → Bool
  | .done _ => true
  | .call .. => false

namespace Topology

/-- The actors receive, or the reader has fallen. -/
def receives (s : Topology J) : Bool :=
  match s.dataMaster, s.dbMaster, s.nodeMaster with
  | .select, .receive, .select => true
  | .select, .receive, .panicked => true
  | _, _, _ => false

/-- All tasks have ended, and nothing is in a channel. -/
def Quiescent (s : Topology J) : Prop :=
  s.receives = true ∧ (∀ p ∈ s.tasks, ended p = true) ∧ s.requests = [] ∧
    s.toApi = [] ∧ s.fromApi = [] ∧ s.fromReader = [] ∧ s.toReader = [] ∧ s.toDb = [] ∧
    s.fromDb = [] ∧ s.measures = [] ∧ s.fromNode = [] ∧ ∀ l ∈ s.loops, l.fromController = []

instance (s : Topology J) : Decidable s.Quiescent := by
  unfold Quiescent
  infer_instance

variable {s : Topology J}

theorem Quiescent.nodeMaster (h : s.Quiescent) :
    s.net.nodeMaster = .select ∨ s.net.nodeMaster = .panicked := by
  have hreceives := h.1
  unfold receives at hreceives
  show s.nodeMaster.settled = _ ∨ s.nodeMaster.settled = _
  split at hreceives
  · next hselect =>
      rw [hselect]
      exact .inl rfl
  · next hpanicked =>
      rw [hpanicked]
      exact .inr rfl
  · cases hreceives

theorem Quiescent.events (h : s.Quiescent) : s.net.events = 0 := by
  obtain ⟨hreceives, -, -, -, -, -, htoReader, -, hfromDb, -⟩ := h
  have hdataMaster : s.dataMaster = .select := by
    unfold receives at hreceives
    split at hreceives
    · next hselect _ _ => exact hselect
    · next hselect _ _ => exact hselect
    · cases hreceives
  simp only [net, hdataMaster, htoReader, hfromDb]
  rfl

theorem Quiescent.messages (h : s.Quiescent) {l : NodeLoop J} (hl : l ∈ s.loops) :
    l.fromController = [] :=
  h.2.2.2.2.2.2.2.2.2.2.2 l hl

theorem Quiescent.announced (h : s.Quiescent) {p : Task J Unit} (hp : p ∈ s.tasks) (t : Tables J) :
    announced t p = [] := by
  cases p with
  | done => rfl
  | call => cases h.2.1 _ hp

end Topology

end ModbusLogger.Main
