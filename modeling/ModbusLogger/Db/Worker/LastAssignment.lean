import ModbusLogger.Db.Worker.WholeDatabase

/-!
# The last assignment

`assign_groups_to_user` and `assign_values_to_subgroup` replace what was assigned before, in one
transaction. Until the next assignment of the same user or subgroup takes effect, its rows are exactly
those of the last one, except that a group, a value, a user or a subgroup that is deleted takes its
rows with it. What other tasks do has no other effect on them. In which order a query gives the rows is
up to the database.
-/

namespace ModbusLogger.Db

open Auth Hasher Program WebSockets

variable {J : Type}

/-! ## Assignments -/

inductive Assignment where
  | groups (data : AssignGroupsCommand)
  | values (data : AssignValuesCommand)
  deriving DecidableEq, Repr

namespace Assignment

/-- The transaction. -/
def statements : Assignment → List GroupWrite
  | groups data =>
    if data.groupIds.isEmpty then [.clearGroupsOfUser data.userId]
    else [.clearGroupsOfUser data.userId, .insertGroupsOfUser data.userId data.groupIds]
  | values data =>
    if data.valueUnitIds.isEmpty then [.clearValuesOfSubgroup data.subgroupId]
    else [.clearValuesOfSubgroup data.subgroupId,
      .insertValuesOfSubgroup data.subgroupId data.valueUnitIds]

/-- The two replace each other. -/
def Rivals : Assignment → Assignment → Prop
  | groups data, groups data' => data.userId = data'.userId
  | values data, values data' => data.subgroupId = data'.subgroupId
  | _, _ => False

/-- What a query gives for the user or for the subgroup. -/
def assigned (order : HashOrder) (db : Database J) : Assignment → List Int
  | groups data => order.order
      (Links.of GroupAccess.userId GroupAccess.groupId db.groups.userGroupAccess data.userId)
  | values data => order.order (valuesOfSubgroup db data.subgroupId)

/-- For a subgroup it is what the route answers. -/
theorem uiGetSubgroupsAssign_values (order : HashOrder) (db : Database J) (data : AssignValuesCommand) :
    uiGetSubgroupsAssign order db [data.subgroupId] =
      [⟨data.subgroupId, (values data).assigned order db⟩] := rfl

/-- What was assigned, without what is gone. -/
def remaining (db : Database J) : Assignment → List Int
  | groups data => data.groupIds.filter fun g =>
      db.auth.users.contains data.userId && db.groups.userGroups.contains g
  | values data => data.valueUnitIds.filter fun v =>
      db.groups.userSubgroups.contains data.subgroupId && db.main.valueUnits.contains v

/-- Nothing else has happened to the rows. -/
def Holds (db : Database J) : Assignment → Prop
  | groups data => Links.Assigned GroupAccess.userId GroupAccess.groupId db.auth.users
      db.groups.userGroups db.groups.userGroupAccess data.userId data.groupIds
  | values data => Links.Assigned SubgroupValue.subgroupId SubgroupValue.valueUnitId
      db.groups.userSubgroups db.main.valueUnits db.groups.subgroupValues data.subgroupId
      data.valueUnitIds

theorem Holds.assigned_perm {db : Database J} {a : Assignment} (h : a.Holds db) (order : HashOrder) :
    (a.assigned order db).Perm (a.remaining db) := by
  cases a with
  | groups data => exact (order.perm _).trans (.of_eq h.links)
  | values data => exact (order.perm _).trans (.of_eq h.links)

/-- The statement writes rows of the assignment. -/
def Writes (a : Assignment) (w : GroupWrite) : Prop :=
  match a, w with
  | groups data, .clearGroupsOfUser userId => userId = data.userId
  | groups data, .insertGroupsOfUser userId _ => userId = data.userId
  | values data, .clearValuesOfSubgroup subgroupId => subgroupId = data.subgroupId
  | values data, .insertValuesOfSubgroup subgroupId _ => subgroupId = data.subgroupId
  | _, _ => False

theorem rivals_of_writes {a a' : Assignment} {w : GroupWrite} (hw : w ∈ a'.statements)
    (h : a.Writes w) : a'.Rivals a := by
  cases a' with
  | groups data' =>
      have hmem : w = .clearGroupsOfUser data'.userId ∨
          w = .insertGroupsOfUser data'.userId data'.groupIds := by
        simp only [statements] at hw
        split at hw <;> simp at hw <;> simp [hw]
      cases a with
      | groups data => rcases hmem with rfl | rfl <;> exact h
      | values data => rcases hmem with rfl | rfl <;> exact h.elim
  | values data' =>
      have hmem : w = .clearValuesOfSubgroup data'.subgroupId ∨
          w = .insertValuesOfSubgroup data'.subgroupId data'.valueUnitIds := by
        simp only [statements] at hw
        split at hw <;> simp at hw <;> simp [hw]
      cases a with
      | groups data => rcases hmem with rfl | rfl <;> exact h.elim
      | values data => rcases hmem with rfl | rfl <;> exact h

/-! ## The assignment takes effect -/

theorem holds_of_groups {data : AssignGroupsCommand} {db db' : Database J}
    (hexec : execGroups db (groups data).statements = .ok db') : (groups data).Holds db' := by
  have hcleared : Links.of GroupAccess.userId GroupAccess.groupId
      (db.groups.userGroupAccess.filter fun r => r.userId ≠ data.userId) data.userId = [] :=
    Links.of_clear_self
  simp only [statements] at hexec
  split at hexec
  · next hempty =>
      obtain ⟨_, ⟨⟩, hdone⟩ := execGroups_cons.mp hexec
      cases hdone
      refine ⟨?_, ?_⟩
      · rw [List.isEmpty_iff.mp hempty]
        exact hcleared
      · rw [List.isEmpty_iff.mp hempty]
        exact fun b hb => absurd hb List.not_mem_nil
  · obtain ⟨_, ⟨⟩, hinsert⟩ := execGroups_cons.mp hexec
    obtain ⟨_, hinsert, hdone⟩ := execGroups_cons.mp hinsert
    cases hdone
    obtain ⟨rows, hrows, rfl⟩ := Option.map_eq_some_iff.mp hinsert
    obtain ⟨rfl, hallowed, -⟩ := insertRows_eq hrows
    refine Links.assigned_of_written hcleared ?_ fun g hg => ?_
    · exact Links.of_new (fun _ => rfl) fun _ => rfl
    · simpa using hallowed ⟨data.userId, g⟩ (List.mem_map_of_mem hg)

theorem holds_of_values {data : AssignValuesCommand} {db db' : Database J}
    (hexec : execGroups db (values data).statements = .ok db') : (values data).Holds db' := by
  have hcleared : Links.of SubgroupValue.subgroupId SubgroupValue.valueUnitId
      (db.groups.subgroupValues.filter fun r => r.subgroupId ≠ data.subgroupId) data.subgroupId = [] :=
    Links.of_clear_self
  simp only [statements] at hexec
  split at hexec
  · next hempty =>
      obtain ⟨_, ⟨⟩, hdone⟩ := execGroups_cons.mp hexec
      cases hdone
      refine ⟨?_, ?_⟩
      · rw [List.isEmpty_iff.mp hempty]
        exact hcleared
      · rw [List.isEmpty_iff.mp hempty]
        exact fun b hb => absurd hb List.not_mem_nil
  · obtain ⟨_, ⟨⟩, hinsert⟩ := execGroups_cons.mp hexec
    obtain ⟨_, hinsert, hdone⟩ := execGroups_cons.mp hinsert
    cases hdone
    obtain ⟨rows, hrows, rfl⟩ := Option.map_eq_some_iff.mp hinsert
    obtain ⟨rfl, hallowed, -⟩ := insertRows_eq hrows
    refine Links.assigned_of_written hcleared ?_ fun v hv => ?_
    · exact Links.of_new (fun _ => rfl) fun _ => rfl
    · simpa using hallowed ⟨data.subgroupId, v⟩ (List.mem_map_of_mem hv)

theorem holds_of_executed {a : Assignment} {db db' : Database J}
    (hexec : execGroups db a.statements = .ok db') : a.Holds db' := by
  cases a with
  | groups data => exact holds_of_groups hexec
  | values data => exact holds_of_values hexec

/-! ## Other statements -/

variable {db db' : Database J}

/-- Statements on groups keep the groups of a user. -/
theorem Holds.exec_groups {data : AssignGroupsCommand} {w : GroupWrite} (h : (groups data).Holds db)
    (hw : ¬(groups data).Writes w) (hexec : w.exec db = some db') : (groups data).Holds db' := by
  cases w with
  | insertGroup group =>
      cases hexec
      exact Links.Assigned.kept h (.refl _) Table.onward_insert id
        (fun b hb => Table.contains_insert.mpr (.inl hb)) rfl
  | updateGroup group =>
      cases hexec
      show Links.Assigned _ _ _ (db.groups.userGroups.modify (fun key _ => key = group.id) group.set) _ _ _
      exact Links.Assigned.kept h (.refl _) Table.onward_modify id
        (fun b hb => Table.contains_modify.mpr hb) rfl
  | deleteGroup groupId =>
      cases hexec
      show Links.Assigned _ _ _ (db.groups.userGroups.delete fun key _ => key = groupId)
        (db.groups.userGroupAccess.filter fun r => r.groupId ≠ groupId) _ _
      refine Links.Assigned.later h (.refl _) Table.onward_delete ?_
      refine (Links.of_filter fun _ g => decide (g ≠ groupId)).trans ?_
      apply List.filter_congr
      intro g hg
      rw [h.links, List.mem_filter, Bool.and_eq_true] at hg
      obtain ⟨row, hrow⟩ := Table.contains_iff.mp hg.2.2
      rw [Bool.eq_iff_iff, Bool.and_eq_true, Table.contains_delete, decide_eq_true_eq]
      constructor
      · exact fun hne => ⟨hg.2.1, row, hrow, decide_eq_false hne⟩
      · rintro ⟨-, row', -, hne⟩
        exact of_decide_eq_false hne
  | insertSubgroup | updateSubgroup =>
      obtain ⟨-, heq⟩ := Option.ite_none_right_eq_some.mp hexec
      cases heq
      exact h
  | deleteSubgroup | clearValuesOfSubgroup =>
      cases hexec
      exact h
  | insertValuesOfSubgroup =>
      obtain ⟨rows, -, rfl⟩ := Option.map_eq_some_iff.mp hexec
      exact h
  | clearGroupsOfUser userId =>
      cases hexec
      exact Links.Assigned.kept h (.refl _) (.refl _) id (fun _ => id)
        (Links.of_clear_ne fun heq => hw heq.symm)
  | insertGroupsOfUser userId groupIds =>
      obtain ⟨rows, hrows, rfl⟩ := Option.map_eq_some_iff.mp hexec
      obtain ⟨rfl, -, -⟩ := insertRows_eq hrows
      refine Links.Assigned.kept h (.refl _) (.refl _) id (fun _ => id) ?_
      apply Links.of_append_ne
      intro r hr
      obtain ⟨g, -, rfl⟩ := List.mem_map.mp hr
      exact hw

/-- They keep the values of a subgroup. -/
theorem Holds.exec_values {data : AssignValuesCommand} {w : GroupWrite} (h : (values data).Holds db)
    (hw : ¬(values data).Writes w) (hexec : w.exec db = some db') : (values data).Holds db' := by
  have hdelete (p : Int → UserSubGroupRow → Bool) :
      (values data).Holds { db with groups := db.groups.deleteSubgroups p } := by
    show Links.Assigned _ _ (db.groups.userSubgroups.delete p) _ (db.groups.subgroupValues.filter
      fun r => (db.groups.userSubgroups.get? r.subgroupId).all fun row => !p r.subgroupId row) _ _
    refine Links.Assigned.later h Table.onward_delete (.refl _) ?_
    refine (Links.of_filter fun a _ =>
      (db.groups.userSubgroups.get? a).all fun row => !p a row).trans ?_
    apply List.filter_congr
    intro v hv
    rw [h.links, List.mem_filter, Bool.and_eq_true] at hv
    obtain ⟨row, hrow⟩ := Table.contains_iff.mp hv.2.1
    rw [Table.get?_eq_some.mpr hrow, Bool.eq_iff_iff, Bool.and_eq_true, Table.contains_delete,
      Option.all_some, Bool.not_eq_true']
    constructor
    · exact fun hstays => ⟨⟨row, hrow, hstays⟩, hv.2.2⟩
    · rintro ⟨⟨row', hrow', hstays⟩, -⟩
      rwa [hrow.unique hrow']
  cases w with
  | insertGroup | updateGroup | clearGroupsOfUser =>
      cases hexec
      exact h
  | deleteGroup groupId =>
      cases hexec
      exact hdelete fun _ row => row.groupId = groupId
  | insertSubgroup subgroup =>
      obtain ⟨-, heq⟩ := Option.ite_none_right_eq_some.mp hexec
      cases heq
      exact Links.Assigned.kept h Table.onward_insert (.refl _)
        (fun hb => Table.contains_insert.mpr (.inl hb)) (fun _ => id) rfl
  | updateSubgroup subgroup =>
      obtain ⟨-, heq⟩ := Option.ite_none_right_eq_some.mp hexec
      cases heq
      show Links.Assigned _ _ (db.groups.userSubgroups.modify (fun key _ => key = subgroup.id)
        subgroup.set) _ _ _ _
      exact Links.Assigned.kept h Table.onward_modify (.refl _)
        (fun hb => Table.contains_modify.mpr hb) (fun _ => id) rfl
  | deleteSubgroup subgroupId =>
      cases hexec
      exact hdelete _
  | insertGroupsOfUser =>
      obtain ⟨rows, -, rfl⟩ := Option.map_eq_some_iff.mp hexec
      exact h
  | clearValuesOfSubgroup subgroupId =>
      cases hexec
      exact Links.Assigned.kept h (.refl _) (.refl _) id (fun _ => id)
        (Links.of_clear_ne fun heq => hw heq.symm)
  | insertValuesOfSubgroup subgroupId valueUnitIds =>
      obtain ⟨rows, hrows, rfl⟩ := Option.map_eq_some_iff.mp hexec
      obtain ⟨rfl, -, -⟩ := insertRows_eq hrows
      refine Links.Assigned.kept h (.refl _) (.refl _) id (fun _ => id) ?_
      apply Links.of_append_ne
      intro r hr
      obtain ⟨v, -, rfl⟩ := List.mem_map.mp hr
      exact hw

theorem Holds.exec {a : Assignment} {w : GroupWrite} (h : a.Holds db) (hw : ¬a.Writes w)
    (hexec : w.exec db = some db') : a.Holds db' := by
  cases a with
  | groups data => exact h.exec_groups hw hexec
  | values data => exact h.exec_values hw hexec

/-! ## Other tasks -/

theorem Holds.withAuth {a : Assignment} (h : a.Holds db) {auth : AuthTables}
    (hon : db.auth.users.Onward auth.users) : a.Holds (db.withAuth auth) := by
  cases a with
  | groups data => exact Links.Assigned.cascade h hon (.refl _)
  | values data => exact h

theorem Holds.withMain {a : Assignment} (h : a.Holds db) {main : Tables J}
    (hon : db.main.valueUnits.Onward main.valueUnits) : a.Holds (db.withMain main) := by
  cases a with
  | groups data => exact h
  | values data => exact Links.Assigned.cascade h (.refl _) hon

end Assignment

theorem AuthTables.perform_onward (collation : Collation) (c : Auth.Call) (fate : Auth.Fate)
    (t : AuthTables) : t.users.Onward (Auth.perform collation c fate t).1.users := by
  have hwrite {result : Except WriteError AuthTables}
      (hresult : ∀ t', result = .ok t' → t.users.Onward t'.users) :
      t.users.Onward (fate.write t result).1.users := by
    unfold Auth.Fate.write
    split
    · dsimp only
      split
      · exact hresult _ rfl
      · exact .refl _
    · exact .refl _
  cases c with
  | writeToken token =>
      show t.users.Onward (if fate.sent && fate.applied then t.upsertToken token else t).users
      split
      · unfold upsertToken
        split <;> exact .refl _
      · exact .refl _
  | insertUser user =>
      refine hwrite fun t' heq => ?_
      unfold AuthTables.insertUser at heq
      rw [ite_error_eq_ok] at heq
      obtain ⟨-, heq⟩ := heq
      split at heq
      · cases heq
        exact Table.onward_insert
      · cases heq
  | updateUser user =>
      refine hwrite fun t' heq => ?_
      unfold AuthTables.updateUser at heq
      split at heq
      · cases heq
        exact .refl _
      · rw [ite_error_eq_ok] at heq
        obtain ⟨-, heq⟩ := heq
        split at heq
        · cases heq
          show t.users.Onward (t.users.modify (fun key _ => key = user.id) user.set)
          exact Table.onward_modify
        · cases heq
  | deleteUser id =>
      refine hwrite ?_
      rintro t' ⟨⟩
      show t.users.Onward (t.users.delete fun key _ => key = id)
      exact Table.onward_delete
  | verify | findToken | clock | newUuid | encode | respond | roleById => exact .refl _

theorem perform_onward (c : Call J) (fate : Fate) (t : Tables J) :
    t.valueUnits.Onward (perform c fate t).1.valueUnits := by
  have hnext : NoReturn t (perform c fate t).1 := by
    rcases perform_cases c fate t with hsame | ⟨w, -, hexec⟩ | ⟨ws, -, hexec⟩
    · rw [hsame]
      exact .refl t
    · exact Write.exec_noReturn hexec
    · exact execAll_noReturn hexec
  exact ⟨hnext.next, hnext.old⟩

/-- The calls that the commands on groups make: one statement that assigns nothing, or an assignment. -/
inductive GroupCall.Formed : GroupCall → Prop where
  | write {w : GroupWrite} (h : ∀ a : Assignment, ¬a.Writes w) : (write w).Formed
  | assign (a : Assignment) : (transaction a.statements).Formed

theorem GroupCommand.task_formed (command : GroupCommand) :
    command.task.Every GroupCall.Formed fun _ => True := by
  have hone {w : GroupWrite} {msg : SqlError → String} (hw : ∀ a : Assignment, ¬a.Writes w) :
      (executeGroup w msg).Every GroupCall.Formed fun _ => True := by
    simp only [executeGroup, issue_bind]
    refine ⟨.write hw, fun written => ?_⟩
    dsimp only
    split <;> exact trivial
  have hassign {clear insert : GroupWrite} {noneNew : Bool} {cleared inserted : SqlError → String}
      (a : Assignment) (ha : a.statements = if noneNew then [clear] else [clear, insert]) :
      (assign clear insert noneNew cleared inserted).Every GroupCall.Formed fun _ => True := by
    simp only [assign, issue_bind]
    refine ⟨ha ▸ .assign a, fun committed => ?_⟩
    dsimp only
    split <;> exact trivial
  have hnone {w : GroupWrite} (hw : ∀ data, ¬(Assignment.groups data).Writes w)
      (hw' : ∀ data, ¬(Assignment.values data).Writes w) (a : Assignment) : ¬a.Writes w := by
    cases a with
    | groups data => exact hw data
    | values data => exact hw' data
  cases command with
  | groupCreate | groupUpdate | groupDelete | subGroupCreate | subGroupUpdate | subGroupDelete =>
      exact hone (hnone (fun _ => id) fun _ => id)
  | groups data => exact hassign (.groups data) rfl
  | values data => exact hassign (.values data) rfl

/-- What the tasks of a family issue, as far as assignments go. -/
def Family.Formed : (k : Family) → k.Call J → Prop
  | groups, c => GroupCall.Formed c
  | config, _ | users, _ | measures, _ => True

theorem Family.task_formed (lib : Libraries J) (k : Family) (command : k.Command J) :
    (k.task lib command).Every k.Formed fun _ => True := by
  cases k with
  | groups => exact GroupCommand.task_formed command
  | config | users | measures => exact every_of_forall _ (fun _ => trivial) fun _ => trivial

/-- The assignment is written at the step. -/
def Assignment.TakesEffect (a : Assignment)
    (pool : Pool (Database J) (Families.Calls (Family.Call J)) (Families.Answers (Family.Answer J)) String)
    (s : DatabaseStep J) : Prop :=
  ∃ fate db', pool.issued s = some (⟨.groups, GroupCall.transaction a.statements⟩, fate) ∧
    (fate .groups).applied = true ∧ execGroups pool.world a.statements = .ok db'

variable (lib : Libraries J) (collation : Collation) {db : Database J}

theorem Assignment.TakesEffect.holds {a : Assignment} {steps : List (DatabaseStep J)}
    {s : DatabaseStep J} (h : a.TakesEffect (runDatabase lib collation db steps) s) :
    a.Holds (runDatabase lib collation db (steps ++ [s])).world := by
  obtain ⟨fate, db', hissued, happlied, hexec⟩ := h
  have hworld : (runDatabase lib collation db (steps ++ [s])).world = db' := by
    rw [runDatabase, Families.run, Pool.run_concat, Pool.step_world]
    rw [runDatabase, Families.run] at hissued hexec
    rw [hissued]
    simp [Families.perform, Family.perform, performGroups, hexec, happlied]
  rw [hworld]
  exact holds_of_executed hexec

/-- A call that does not replace the assignment keeps it. -/
theorem Assignment.Holds.perform {a : Assignment} {db : Database J} {c : Families.Calls (Family.Call J)}
    {fate : Families.Fates Family.Fate} (hc : Family.Formed c.1 c.2)
    (hrival : ∀ (a' : Assignment) db', a'.Rivals a → c = ⟨.groups, GroupCall.transaction a'.statements⟩ →
      (fate .groups).applied = true → execGroups db a'.statements ≠ .ok db')
    (h : a.Holds db) : a.Holds (Families.perform (Family.perform collation) c fate db).1 := by
  obtain ⟨k, c⟩ := c
  cases k with
  | config => exact h.withMain (perform_onward c (fate .config) db.main)
  | users => exact h.withAuth (AuthTables.perform_onward collation c (fate .users) db.auth)
  | measures =>
      rcases Family.perform_measures collation c (fate .measures) db with hsame | ⟨main, hinsert, hperform⟩
      · exact hsame.symm ▸ h
      · refine hperform.symm ▸ ?_
        cases a with
        | groups data => exact h
        | values data =>
            show Links.Assigned _ _ _ main.valueUnits _ _ _
            rw [insertMeasures_valueUnits hinsert]
            exact h
  | groups =>
      show a.Holds (performGroups c (fate .groups) db).1
      cases hc with
      | write hw =>
          refine performGroups_keeps (I := fun db => a.Holds db) (fun w heq db' ha hexec => ?_)
            (fun ws heq => ?_) h
          · cases heq
            exact ha.exec (hw a) hexec
          · cases heq
      | assign a' =>
          by_cases hrivals : a'.Rivals a
          · -- a rival that has no effect
            rcases performGroups_cases (.transaction a'.statements) (fate .groups) db with
              hsame | ⟨w, heq, -⟩ | ⟨ws, heq, happlied, hexec⟩
            · rwa [hsame]
            · cases heq
            · cases heq
              exact absurd hexec (hrival a' _ hrivals rfl happlied)
          · refine performGroups_keeps (I := fun db => a.Holds db) (fun w heq => ?_)
              (fun ws heq w hw b b' hb hexec => ?_) h
            · cases heq
            · cases heq
              exact hb.exec (fun hwrites => hrivals (Assignment.rivals_of_writes hw hwrites)) hexec

/-- **Last assignment.** In any run, what a user or a subgroup has is what was assigned to it last,
without what has been deleted since, whatever the order in which the database gives it. -/
theorem last_assignment (db : Database J) (a : Assignment) (pre post : List (DatabaseStep J))
    (s : DatabaseStep J) (hs : a.TakesEffect (runDatabase lib collation db pre) s)
    (hlast : ∀ mid s' rest, post = mid ++ s' :: rest → ∀ a' : Assignment, a'.Rivals a →
      ¬a'.TakesEffect (runDatabase lib collation db (pre ++ s :: mid)) s') (order : HashOrder) :
    (a.assigned order (runDatabase lib collation db (pre ++ s :: post)).world).Perm
      (a.remaining (runDatabase lib collation db (pre ++ s :: post)).world) := by
  have hholds : a.Holds (runDatabase lib collation db ((pre ++ [s]) ++ post)).world := by
    apply Pool.keeps_from (I := a.Holds) _ (hs.holds lib collation)
    intro mid s' rest hpost c fate hissued hmid
    refine hmid.perform collation ?_ ?_
    · exact (Families.run_every (Family.task_formed lib) db _).issued hissued
    · rintro a' db' hrivals rfl happlied hexec
      apply hlast mid s' rest hpost a' hrivals
      rw [← List.singleton_append, ← List.append_assoc]
      exact ⟨fate, db', hissued, happlied, hexec⟩
  rw [List.append_assoc, List.singleton_append] at hholds
  exact hholds.assigned_perm order

/-- A group is created and assigned to the first user. -/
def groupAssigned : List (DatabaseStep Unit) :=
  [.start ⟨.groups, .groupCreate ⟨"boilers", none⟩⟩, .advance 0 allSucceed,
    .start ⟨.groups, .groups ⟨2, [2]⟩⟩]

def groupDeleted : List (DatabaseStep Unit) :=
  [.start ⟨.groups, .groupDelete ⟨2⟩⟩, .advance 2 allSucceed]

theorem last_assignment_groupDeleted :
    ((Assignment.groups ⟨2, [2]⟩).assigned ⟨id, .refl⟩ (runDatabase noSettings Auth.exact initDatabase
        (groupAssigned ++ .advance 1 allSucceed :: groupDeleted)).world).Perm
      ((Assignment.groups ⟨2, [2]⟩).remaining (runDatabase noSettings Auth.exact initDatabase
        (groupAssigned ++ .advance 1 allSucceed :: groupDeleted)).world) := by
  refine last_assignment noSettings Auth.exact initDatabase (.groups ⟨2, [2]⟩) groupAssigned groupDeleted
    (.advance 1 allSucceed) ⟨allSucceed, _, rfl, rfl, rfl⟩ ?_ ⟨id, .refl⟩
  intro mid s' rest hpost a' _ htakes
  obtain ⟨fate, db', hissued, -⟩ := htakes
  match mid with
  | [] =>
      cases hpost
      cases hissued
  | [s₁] =>
      cases hpost
      cases hissued
  | _ :: _ :: _ => simp [groupDeleted] at hpost

end ModbusLogger.Db
