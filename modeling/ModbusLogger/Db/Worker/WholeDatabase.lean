import ModbusLogger.Api.Router.AccessTokens
import ModbusLogger.Db.Worker.DeviceTable
import ModbusLogger.Db.Worker.Integrity
import ModbusLogger.Db.Worker.UserGroupQueries
import ModbusLogger.Lib.Families
import ModbusLogger.Lib.Links

/-!
# The whole database

All tasks write to one database: the commands on nodes, devices and values, the handlers of tokens and
the commands on users, the commands on groups, and the flushes of the measure master. A user and a value
take their rows of the link tables with them (`ON DELETE CASCADE`). Every run keeps what the schema and
the checks of the commands promise, and a link table shows what was assigned last.
-/

namespace ModbusLogger.Db

open Auth Hasher Program

variable {J : Type}

/-! ## The families -/

inductive Family where
  | config
  | users
  | groups
  | measures
  deriving DecidableEq, Repr

namespace Family

/-- A command of the measure master is what it inserts at one flush. -/
abbrev Command (J : Type) : Family → Type
  | config => Db.Command J
  | users => Request
  | groups => GroupCommand
  | measures => List MeasureRow

abbrev Call (J : Type) : Family → Type
  | config => Db.Call J
  | users => Auth.Call
  | groups => GroupCall
  | measures => List MeasureRow

abbrev Answer (J : Type) : (k : Family) → k.Call J → Type
  | config, c => Db.Call.Answer c
  | users, c => Auth.Call.Answer c
  | groups, c => GroupCall.Answer c
  | measures, _ => Except SqlError Unit

abbrev Fate : Family → Type
  | config | groups | measures => Db.Fate
  | users => Auth.Fate

def task (lib : Libraries J) :
    (k : Family) → k.Command J → Program (k.Call J) (k.Answer J) String Unit
  | config, command => command.task lib
  | users, request => request.task
  | groups, command => command.task
  | measures, rows => .call rows fun _ => .done (.ok ())

end Family

/-! ## Cascades -/

/-- Values that are deleted take their assignments with them. -/
def Database.withMain (db : Database J) (main : Tables J) : Database J where
  main := main
  auth := db.auth
  groups := { db.groups with
    subgroupValues := Links.cascade SubgroupValue.subgroupId SubgroupValue.valueUnitId
      db.groups.userSubgroups db.groups.userSubgroups db.main.valueUnits main.valueUnits
      db.groups.subgroupValues }

/-- Users that are deleted take their groups with them. -/
def Database.withAuth (db : Database J) (auth : AuthTables) : Database J where
  main := db.main
  auth := auth
  groups := { db.groups with
    userGroupAccess := Links.cascade GroupAccess.userId GroupAccess.groupId
      db.auth.users auth.users db.groups.userGroups db.groups.userGroups db.groups.userGroupAccess }

def Family.perform (collation : Collation) :
    (k : Family) → (c : k.Call J) → k.Fate → Database J → Database J × k.Answer J c
  | config, c, fate, db =>
    (db.withMain (Db.perform c fate db.main).1, (Db.perform c fate db.main).2)
  | users, c, fate, db =>
    (db.withAuth (Auth.perform collation c fate db.auth).1,
      (Auth.perform collation c fate db.auth).2)
  | groups, c, fate, db => performGroups c fate db
  | measures, rows, fate, db =>
    match insertMeasures db.main rows with
    | some main => (if fate.applied then { db with main } else db,
        if fate.succeeds then .ok () else .error fate.error)
    | none => (db, .error fate.error)

abbrev DatabaseStep (J : Type) : Type := Families.Step (Family.Command J) Family.Fate

/-- The database and all tasks, in the order in which their calls happen. -/
def runDatabase (lib : Libraries J) (collation : Collation) (db : Database J)
    (steps : List (DatabaseStep J)) :
    Pool (Database J) (Families.Calls (Family.Call J)) (Families.Answers (Family.Answer J)) String :=
  Families.run (Family.task lib) (Family.perform collation) db steps

/-! ## The first run (`db/db_init/init_database.rs`) -/

/-- The tables with their `AUTO_INCREMENT`, the four roles and the first user. -/
def initDatabase : Database J where
  main := ⟨.startingAt 11, .startingAt 27, .startingAt 121, .startingAt 1009⟩
  auth := {
    users := (Table.startingAt 2).insert ⟨"Harold_Finch", "L0ng_@dmin_P@ssw0rd!", 1, true⟩
    roles := [1, 2, 3, 4]
    refreshTokens := [] }
  groups := ⟨.startingAt 2, .startingAt 2, [], []⟩

/-! ## Users -/

/-- The unique name, the role, and one record of a refresh token for each user. -/
structure AuthTables.Sound (collation : Collation) (t : AuthTables) : Prop where
  names : ∀ id row id' row', t.users.Has id row → t.users.Has id' row' →
    collation.equal row.username row'.username = true → id = id'
  roles : ∀ id row, t.users.Has id row → row.roleId ∈ t.roles
  tokens : (t.refreshTokens.map (·.userId)).Nodup

namespace AuthTables

variable {collation : Collation} {t t' : AuthTables}

theorem not_nameTaken {self : Option Int} {name : String} (h : t.nameTaken collation self name = false)
    {id : Int} {row : UserRow} (hrow : t.users.Has id row)
    (hname : collation.equal row.username name = true) : some id = self := by
  unfold nameTaken at h
  rw [Option.isSome_eq_false_iff, Option.isNone_iff_eq_none, Table.first?_eq_none] at h
  have hnot := h id row hrow
  rw [hname] at hnot
  simpa using hnot

theorem Sound.insertUser (hsymm : ∀ a b, collation.equal a b = collation.equal b a)
    (h : t.Sound collation) {user : UserCreate} (hinsert : t.insertUser collation user = .ok t') :
    t'.Sound collation := by
  unfold AuthTables.insertUser at hinsert
  rw [ite_error_eq_ok, Bool.not_eq_true] at hinsert
  obtain ⟨hfree, hinsert⟩ := hinsert
  split at hinsert
  · next hrole =>
      cases hinsert
      refine ⟨fun id row id' row' hrow hrow' hname => ?_, fun id row hrow => ?_, h.tokens⟩
      · rcases Table.has_insert.mp hrow with hold | ⟨rfl, rfl⟩
        · rcases Table.has_insert.mp hrow' with hold' | ⟨-, rfl⟩
          · exact h.names id row id' row' hold hold' hname
          · cases not_nameTaken hfree hold hname
        · rcases Table.has_insert.mp hrow' with hold' | ⟨rfl, -⟩
          · rw [hsymm] at hname
            cases not_nameTaken hfree hold' hname
          · rfl
      · rcases Table.has_insert.mp hrow with hold | ⟨-, rfl⟩
        · exact h.roles id row hold
        · exact hrole
  · cases hinsert

theorem Sound.updateUser (hsymm : ∀ a b, collation.equal a b = collation.equal b a)
    (h : t.Sound collation) {user : UserUpdate} (hupdate : t.updateUser collation user = .ok t') :
    t'.Sound collation := by
  unfold AuthTables.updateUser at hupdate
  split at hupdate
  · cases hupdate
    exact h
  · next stored hget =>
      have hstored := Table.get?_eq_some.mp hget
      rw [ite_error_eq_ok, Bool.not_eq_true] at hupdate
      obtain ⟨hfree, hupdate⟩ := hupdate
      split at hupdate
      · next hrole =>
          cases hupdate
          have hnew {id : Int} {row : UserRow}
              (hrow : (t.users.modify (fun key _ => key = user.id) user.set).Has id row) :
              id = user.id ∧ row = user.set stored ∨ t.users.Has id row := by
            obtain ⟨old, hold, rfl⟩ := Table.has_modify.mp hrow
            split
            · next hid =>
                obtain rfl : id = user.id := by simpa using hid
                obtain rfl := hold.unique hstored
                exact .inl ⟨rfl, rfl⟩
            · exact .inr hold
          refine ⟨fun id row id' row' hrow hrow' hname => ?_, fun id row hrow => ?_, h.tokens⟩
          · rcases hnew hrow with ⟨rfl, rfl⟩ | hold
            · rcases hnew hrow' with ⟨rfl, -⟩ | hold'
              · rfl
              · rw [hsymm] at hname
                exact (Option.some.inj (not_nameTaken hfree hold' hname)).symm
            · rcases hnew hrow' with ⟨rfl, rfl⟩ | hold'
              · exact Option.some.inj (not_nameTaken hfree hold hname)
              · exact h.names id row id' row' hold hold' hname
          · rcases hnew hrow with ⟨-, rfl⟩ | hold
            · exact hrole
            · exact h.roles id row hold
      · cases hupdate

theorem Sound.deleteUser (h : t.Sound collation) (id : Int) : (t.deleteUser id).Sound collation where
  names id row id' row' hrow hrow' :=
    h.names id row id' row' (Table.has_delete.mp hrow).1 (Table.has_delete.mp hrow').1
  roles id row hrow := h.roles id row (Table.has_delete.mp hrow).1
  tokens := h.tokens

theorem Sound.upsertToken (h : t.Sound collation) (token : RefreshToken) :
    (t.upsertToken token).Sound collation := by
  have hkeys : ((t.upsertToken token).refreshTokens.map (·.userId)).Nodup := by
    unfold AuthTables.upsertToken
    split
    · -- the record keeps its key
      show ((t.refreshTokens.map _).map _).Nodup
      have hsame : (t.refreshTokens.map fun r => if r.userId = token.userId then token else r).map
          (·.userId) = t.refreshTokens.map (·.userId) := by
        rw [List.map_map]
        apply List.map_congr_left
        intro r _
        show (if r.userId = token.userId then token else r).userId = r.userId
        split
        · next huser => exact huser.symm
        · rfl
      rw [hsame]
      exact h.tokens
    · next hnone =>
        show ((t.refreshTokens ++ [token]).map _).Nodup
        rw [List.map_append, List.map_singleton, List.nodup_append]
        refine ⟨h.tokens, List.nodup_singleton _, ?_⟩
        rintro key hkey key' hkey' rfl
        obtain ⟨r, hr, rfl⟩ := List.mem_map.mp hkey
        refine hnone (List.any_eq_true.mpr ⟨r, hr, ?_⟩)
        exact decide_eq_true (List.mem_singleton.mp hkey')
  refine ⟨?_, ?_, hkeys⟩
  · unfold AuthTables.upsertToken
    split <;> exact h.names
  · unfold AuthTables.upsertToken
    split <;> exact h.roles

theorem Sound.write (h : t.Sound collation) (fate : Auth.Fate) {result : Except WriteError AuthTables}
    (hresult : ∀ t', result = .ok t' → t'.Sound collation) :
    (fate.write t result).1.Sound collation := by
  unfold Auth.Fate.write
  split
  · dsimp only
    split
    · exact hresult _ rfl
    · exact h
  · exact h

theorem perform_sound (hsymm : ∀ a b, collation.equal a b = collation.equal b a)
    (h : t.Sound collation) (c : Auth.Call) (fate : Auth.Fate) :
    (Auth.perform collation c fate t).1.Sound collation := by
  cases c with
  | writeToken token =>
      show (if fate.sent && fate.applied then _ else _ : AuthTables).Sound collation
      split
      · exact h.upsertToken token
      · exact h
  | insertUser user => exact h.write fate fun _ heq => h.insertUser hsymm heq
  | updateUser user => exact h.write fate fun _ heq => h.updateUser hsymm heq
  | deleteUser id =>
      refine h.write fate ?_
      rintro _ ⟨⟩
      exact h.deleteUser id
  | verify | findToken | clock | newUuid | encode | respond | roleById => exact h

end AuthTables

/-! ## Groups -/

structure Database.Sound (collation : Collation) (db : Database J) : Prop where
  main : db.main.Sound
  auth : db.auth.Sound collation
  access : ∀ r ∈ db.groups.userGroupAccess,
    db.auth.users.contains r.userId = true ∧ db.groups.userGroups.contains r.groupId = true
  accessKey : db.groups.userGroupAccess.Nodup
  subgroups : ∀ id row, db.groups.userSubgroups.Has id row →
    db.groups.userGroups.contains row.groupId = true
  values : ∀ r ∈ db.groups.subgroupValues,
    db.groups.userSubgroups.contains r.subgroupId = true ∧
      db.main.valueUnits.contains r.valueUnitId = true
  valuesKey : db.groups.subgroupValues.Nodup

theorem insertRows_eq {R : Type} [DecidableEq R] {allowed : R → Bool} {rows new rows' : List R}
    (h : insertRows allowed rows new = some rows') :
    rows' = rows ++ new ∧ (∀ r ∈ new, allowed r = true) ∧ rows'.Nodup := by
  obtain ⟨⟨hall, hnodup⟩, heq⟩ := Option.ite_none_right_eq_some.mp h
  obtain rfl := Option.some.inj heq
  exact ⟨rfl, List.all_eq_true.mp hall, hnodup⟩

theorem execGroups_cons {db db' : Database J} {w : GroupWrite} {ws : List GroupWrite} :
    execGroups db (w :: ws) = .ok db' ↔
      ∃ next, w.exec db = some next ∧ execGroups next ws = .ok db' := by
  rw [execGroups]
  cases hw : w.exec db with
  | none => simp
  | some next => simp

theorem execGroups_keeps {I : Database J → Prop} {ws : List GroupWrite} {db db' : Database J}
    (hstep : ∀ w ∈ ws, ∀ a b, I a → w.exec a = some b → I b) (h : I db)
    (hexec : execGroups db ws = .ok db') : I db' := by
  induction ws generalizing db with
  | nil =>
      cases hexec
      exact h
  | cons w ws ih =>
      obtain ⟨next, hw, hexec⟩ := execGroups_cons.mp hexec
      have hnext := hstep w List.mem_cons_self db next h hw
      exact ih (fun w' hw' => hstep w' (List.mem_cons_of_mem w hw')) hnext hexec

/-- The statements on groups write to their own tables only. -/
theorem GroupWrite.exec_others {w : GroupWrite} {db db' : Database J} (h : w.exec db = some db') :
    db'.main = db.main ∧ db'.auth = db.auth := by
  cases w with
  | insertGroup | updateGroup | deleteGroup | deleteSubgroup | clearGroupsOfUser |
      clearValuesOfSubgroup =>
      cases h
      exact ⟨rfl, rfl⟩
  | insertSubgroup | updateSubgroup =>
      obtain ⟨-, heq⟩ := Option.ite_none_right_eq_some.mp h
      cases heq
      exact ⟨rfl, rfl⟩
  | insertGroupsOfUser | insertValuesOfSubgroup =>
      obtain ⟨rows, -, rfl⟩ := Option.map_eq_some_iff.mp h
      exact ⟨rfl, rfl⟩

/-- What a call leaves behind. -/
theorem performGroups_cases (c : GroupCall) (fate : Fate) (db : Database J) :
    (performGroups c fate db).1 = db ∨
      (∃ w, c = .write w ∧ w.exec db = some (performGroups c fate db).1) ∨
      ∃ ws, c = .transaction ws ∧ fate.applied = true ∧
        execGroups db ws = .ok (performGroups c fate db).1 := by
  cases c with
  | write w =>
      unfold performGroups
      dsimp only
      split
      · next db' hexec =>
          dsimp only
          split
          · exact .inr (.inl ⟨w, rfl, hexec⟩)
          · exact .inl rfl
      · exact .inl rfl
  | transaction ws =>
      unfold performGroups
      dsimp only
      split
      · next db' hexec =>
          dsimp only
          split
          · next happlied => exact .inr (.inr ⟨ws, rfl, happlied, hexec⟩)
          · exact .inl rfl
      · exact .inl rfl

/-- What each statement keeps, a call keeps. -/
theorem performGroups_keeps {I : Database J → Prop} {c : GroupCall} {fate : Fate} {db : Database J}
    (hwrite : ∀ w, c = .write w → ∀ db', I db → w.exec db = some db' → I db')
    (htransaction : ∀ ws, c = .transaction ws → ∀ w ∈ ws, ∀ a b, I a → w.exec a = some b → I b)
    (h : I db) : I (performGroups c fate db).1 := by
  rcases performGroups_cases c fate db with hsame | ⟨w, rfl, hexec⟩ | ⟨ws, rfl, -, hexec⟩
  · rwa [hsame]
  · exact hwrite w rfl _ h hexec
  · exact execGroups_keeps (htransaction ws rfl) h hexec

namespace Database

variable {collation : Collation} {db db' : Database J}

theorem Sound.withMain (h : db.Sound collation) {main : Tables J} (hmain : main.Sound) :
    (db.withMain main).Sound collation := by
  refine { h with main := hmain, values := ?_, valuesKey := h.valuesKey.filter _ }
  intro r hr
  obtain ⟨hmem, hkept⟩ := List.mem_filter.mp hr
  obtain ⟨hsubgroup, hvalue⟩ := h.values r hmem
  refine ⟨hsubgroup, ?_⟩
  rw [Bool.and_eq_true, Table.lost_self] at hkept
  show main.valueUnits.contains r.valueUnitId = true
  simpa [Table.lost, hvalue] using hkept.2

theorem Sound.withAuth (h : db.Sound collation) {auth : AuthTables} (hauth : auth.Sound collation) :
    (db.withAuth auth).Sound collation := by
  refine { h with auth := hauth, access := ?_, accessKey := h.accessKey.filter _ }
  intro r hr
  obtain ⟨hmem, hkept⟩ := List.mem_filter.mp hr
  obtain ⟨huser, hgroup⟩ := h.access r hmem
  refine ⟨?_, hgroup⟩
  rw [Bool.and_eq_true] at hkept
  show auth.users.contains r.userId = true
  simpa [Table.lost, huser] using hkept.1

/-- Subgroups go, with their values. -/
theorem Sound.deleteSubgroups (h : db.Sound collation) (p : Int → UserSubGroupRow → Bool) :
    ({ db with groups := db.groups.deleteSubgroups p } : Database J).Sound collation := by
  refine { h with subgroups := ?_, values := ?_, valuesKey := h.valuesKey.filter _ }
  · exact fun id row hrow => h.subgroups id row (Table.has_delete.mp hrow).1
  · intro r hr
    obtain ⟨hmem, hkept⟩ := List.mem_filter.mp hr
    obtain ⟨hsubgroup, hvalue⟩ := h.values r hmem
    refine ⟨?_, hvalue⟩
    obtain ⟨row, hrow⟩ := Table.contains_iff.mp hsubgroup
    rw [Table.get?_eq_some.mpr hrow] at hkept
    exact Table.contains_delete.mpr ⟨row, hrow, by simpa using hkept⟩

theorem Sound.deleteGroup (h : db.Sound collation) (id : Int) :
    ({ db with groups := db.groups.deleteGroup id } : Database J).Sound collation := by
  have hcleared := h.deleteSubgroups fun _ row => row.groupId = id
  have hstays {g : Int} (hne : g ≠ id) (hgroup : db.groups.userGroups.contains g = true) :
      (db.groups.userGroups.delete fun key _ => key = id).contains g = true := by
    obtain ⟨row, hrow⟩ := Table.contains_iff.mp hgroup
    exact Table.contains_delete.mpr ⟨row, hrow, decide_eq_false hne⟩
  refine { hcleared with access := ?_, accessKey := h.accessKey.filter _, subgroups := ?_ }
  · intro r hr
    obtain ⟨hmem, hkept⟩ := List.mem_filter.mp hr
    obtain ⟨huser, hgroup⟩ := h.access r hmem
    exact ⟨huser, hstays (by simpa using hkept) hgroup⟩
  · intro a row hrow
    obtain ⟨hold, hother⟩ := Table.has_delete.mp hrow
    exact hstays (by simpa using hother) (h.subgroups a row hold)

end Database

theorem GroupWrite.exec_sound {collation : Collation} {db db' : Database J} {w : GroupWrite}
    (h : db.Sound collation) (hexec : w.exec db = some db') : db'.Sound collation := by
  cases w with
  | insertGroup group =>
      cases hexec
      refine { h with access := fun r hr => ⟨(h.access r hr).1, ?_⟩, subgroups := fun id row hrow => ?_ }
      · exact Table.contains_insert.mpr (.inl (h.access r hr).2)
      · exact Table.contains_insert.mpr (.inl (h.subgroups id row hrow))
  | updateGroup group =>
      cases hexec
      refine { h with access := fun r hr => ⟨(h.access r hr).1, ?_⟩, subgroups := fun id row hrow => ?_ }
      · exact Table.contains_modify.mpr (h.access r hr).2
      · exact Table.contains_modify.mpr (h.subgroups id row hrow)
  | deleteGroup id =>
      cases hexec
      exact h.deleteGroup id
  | insertSubgroup subgroup =>
      obtain ⟨hgroup, heq⟩ := Option.ite_none_right_eq_some.mp hexec
      cases heq
      refine { h with subgroups := fun id row hrow => ?_, values := fun r hr => ⟨?_, (h.values r hr).2⟩ }
      · rcases Table.has_insert.mp hrow with hold | ⟨-, rfl⟩
        · exact h.subgroups id row hold
        · exact hgroup
      · exact Table.contains_insert.mpr (.inl (h.values r hr).1)
  | updateSubgroup subgroup =>
      obtain ⟨hgroup, heq⟩ := Option.ite_none_right_eq_some.mp hexec
      cases heq
      refine { h with subgroups := fun id row hrow => ?_, values := fun r hr => ⟨?_, (h.values r hr).2⟩ }
      · obtain ⟨old, hold, rfl⟩ := Table.has_modify.mp hrow
        have hparent := h.subgroups id old hold
        split
        · next hid =>
            obtain rfl : id = subgroup.id := by simpa using hid
            rcases hgroup with hgroup | habsent
            · show db.groups.userGroups.contains (subgroup.groupId.getD old.groupId) = true
              cases hsent : subgroup.groupId with
              | none => exact hparent
              | some g => simpa [hsent] using hgroup
            · exact absurd hold.contains habsent
        · exact hparent
      · exact Table.contains_modify.mpr (h.values r hr).1
  | deleteSubgroup id =>
      cases hexec
      exact h.deleteSubgroups fun key _ => key = id
  | clearGroupsOfUser userId =>
      cases hexec
      refine { h with access := fun r hr => ?_, accessKey := h.accessKey.filter _ }
      exact h.access r (List.mem_of_mem_filter hr)
  | clearValuesOfSubgroup subgroupId =>
      cases hexec
      refine { h with values := fun r hr => ?_, valuesKey := h.valuesKey.filter _ }
      exact h.values r (List.mem_of_mem_filter hr)
  | insertGroupsOfUser userId groupIds =>
      obtain ⟨rows, hrows, rfl⟩ := Option.map_eq_some_iff.mp hexec
      obtain ⟨rfl, hallowed, hnodup⟩ := insertRows_eq hrows
      refine { h with access := fun r hr => ?_, accessKey := hnodup }
      rcases List.mem_append.mp hr with hold | hnew
      · exact h.access r hold
      · simpa using hallowed r hnew
  | insertValuesOfSubgroup subgroupId valueUnitIds =>
      obtain ⟨rows, hrows, rfl⟩ := Option.map_eq_some_iff.mp hexec
      obtain ⟨rfl, hallowed, hnodup⟩ := insertRows_eq hrows
      refine { h with values := fun r hr => ?_, valuesKey := hnodup }
      rcases List.mem_append.mp hr with hold | hnew
      · exact h.values r hold
      · simpa using hallowed r hnew

/-! ## Runs -/

theorem insertMeasures_sound {t t' : Tables J} {rows : List MeasureRow} (h : t.Sound)
    (hinsert : insertMeasures t rows = some t') : t'.Sound := by
  have hreferential := insertMeasures_referential h.referential hinsert
  obtain ⟨-, heq⟩ := Option.ite_none_right_eq_some.mp hinsert
  obtain rfl := Option.some.inj heq
  exact { h with referential := hreferential }

theorem insertMeasures_valueUnits {t t' : Tables J} {rows : List MeasureRow}
    (hinsert : insertMeasures t rows = some t') : t'.valueUnits = t.valueUnits := by
  obtain ⟨-, heq⟩ := Option.ite_none_right_eq_some.mp hinsert
  rw [← Option.some.inj heq]

/-- What a flush leaves behind. -/
theorem Family.perform_measures (collation : Collation) (rows : List MeasureRow) (fate : Db.Fate)
    (db : Database J) : (Family.measures.perform collation rows fate db).1 = db ∨
      ∃ main, insertMeasures db.main rows = some main ∧
        (Family.measures.perform collation rows fate db).1 = { db with main } := by
  unfold Family.perform
  dsimp only
  split
  · next main hinsert =>
      dsimp only
      split
      · exact .inr ⟨main, hinsert, rfl⟩
      · exact .inl rfl
  · exact .inl rfl

/-- What the tasks of a family issue. -/
def Family.Proper (lib : Libraries J) : (k : Family) → k.Call J → Prop
  | config, c => Db.Call.Proper lib c
  | users, _ | groups, _ | measures, _ => True

theorem Family.task_proper (lib : Libraries J) (k : Family) (command : k.Command J) :
    (k.task lib command).Every (k.Proper lib) fun _ => True := by
  cases k with
  | config => exact Command.task_proper lib command
  | users | groups | measures => exact every_of_forall _ (fun _ => trivial) fun _ => trivial

theorem Family.perform_sound {lib : Libraries J} {collation : Collation}
    (hsymm : ∀ a b, collation.equal a b = collation.equal b a) (k : Family) (c : k.Call J)
    (fate : k.Fate) (db : Database J) (hc : k.Proper lib c) (h : db.Sound collation) :
    (k.perform collation c fate db).1.Sound collation := by
  cases k with
  | config => exact h.withMain (Db.perform_sound hc fate h.main)
  | users => exact h.withAuth (AuthTables.perform_sound hsymm h.auth c fate)
  | groups =>
      exact performGroups_keeps (fun _ _ _ ha hw => GroupWrite.exec_sound ha hw)
        (fun _ _ _ _ _ _ ha hw => GroupWrite.exec_sound ha hw) h
  | measures =>
      rcases Family.perform_measures collation c fate db with hsame | ⟨main, hinsert, hperform⟩
      · rwa [hsame]
      · rw [hperform]
        have hvalues := insertMeasures_valueUnits hinsert
        exact { h with main := insertMeasures_sound h.main hinsert, values := hvalues ▸ h.values }

theorem initDatabase_sound (collation : Collation) : (initDatabase : Database J).Sound collation := by
  have huser {id : Int} {row : UserRow} (hrow : (initDatabase : Database J).auth.users.Has id row) :
      id = 2 ∧ row = ⟨"Harold_Finch", "L0ng_@dmin_P@ssw0rd!", 1, true⟩ :=
    (Table.has_insert.mp hrow).resolve_left Table.not_has_startingAt
  exact {
    main := {
      referential := ⟨fun _ _ h => absurd h Table.not_has_startingAt,
    fun _ _ h => absurd h Table.not_has_startingAt,
        fun _ _ h => absurd h Table.not_has_startingAt⟩
      nodes := fun _ _ h => absurd h Table.not_has_startingAt
      devices := fun _ _ h => absurd h Table.not_has_startingAt
      parents := fun _ _ h => absurd h.1 Table.not_has_startingAt
      names := fun _ _ h => absurd h Table.not_has_startingAt
      types := fun _ _ h => absurd h Table.not_has_startingAt
      tags := fun _ _ _ _ h => absurd h Table.not_has_startingAt }
    auth := {
      names := fun _ _ _ _ h h' _ => (huser h).1.trans (huser h').1.symm
      roles := fun _ _ h => by
        rw [(huser h).2]
        exact List.mem_cons_self
      tokens := List.nodup_nil }
    access := fun _ h => absurd h List.not_mem_nil
    accessKey := List.nodup_nil
    subgroups := fun _ _ h => absurd h Table.not_has_startingAt
    values := fun _ h => absurd h List.not_mem_nil
    valuesKey := List.nodup_nil }

variable (lib : Libraries J) (collation : Collation)
  (hsymm : ∀ a b, collation.equal a b = collation.equal b a)

include hsymm in
theorem runDatabase_sound {db : Database J} (h : db.Sound collation)
    (steps : List (DatabaseStep J)) : (runDatabase lib collation db steps).world.Sound collation :=
  Families.run_keeps (Family.task_proper lib) (Family.perform_sound hsymm) h steps

include hsymm in
/-- **Integrity.** From the first run on, whatever tasks run beside each other and however their calls
end, all keys of the schema hold, and every query of the workers can decode the rows that it finds. -/
theorem database_sound (steps : List (DatabaseStep J)) :
    (runDatabase lib collation initDatabase steps).world.Sound collation ∧
      ∀ r : Read, (r.exec (runDatabase lib collation initDatabase steps).world.main).isSome := by
  have h := runDatabase_sound lib collation hsymm (initDatabase_sound collation) steps
  exact ⟨h, h.main.exec_isSome⟩

def allSucceed : Families.Fates Family.Fate
  | .config => Db.Fate.success
  | .users => Auth.Fate.success
  | .groups => Db.Fate.success
  | .measures => Db.Fate.success

/-- Settings of the type `ComaShift` can be read. -/
def shiftSettings : Libraries Unit :=
  { noSettings with settings :=
    { noSettings.settings with comaShift := fun _ => some ⟨"T1", 5, "holding", 0⟩ } }

/-- After a node, a device and a value, another node is created, and beside it a record of the value is
flushed. -/
def nodeBesideFlush : List (DatabaseStep Unit) :=
  [.start ⟨.config, .nodeCreate ⟨"10.0.0.7", none, none⟩⟩, .advance 0 allSucceed,
    .advance 0 allSucceed,
    .start ⟨.config, .deviceCreate { newDevice with parentNodeId := 11 }⟩,
    .advance 1 allSucceed, .advance 1 allSucceed, .advance 1 allSucceed,
    .start ⟨.config, .valueCreate ⟨27, "voltage", "T1", none, 1, (), true⟩⟩, .advance 2 allSucceed,
    .advance 2 allSucceed,
    .start ⟨.config, .nodeCreate ⟨"10.0.0.8", none, none⟩⟩,
    .start ⟨.measures, [⟨121, Binary64.MIN, 1700000000⟩]⟩, .advance 3 allSucceed, .advance 4 allSucceed,
    .advance 3 allSucceed]

theorem database_sound_nodeBesideFlush :
    (runDatabase shiftSettings exact initDatabase nodeBesideFlush).world.main.measures.rows.length = 1 ∧
    (runDatabase shiftSettings exact initDatabase nodeBesideFlush).world.main.nodes.rows.length = 2 ∧
    (runDatabase shiftSettings exact initDatabase nodeBesideFlush).world.Sound exact ∧
      ∀ r : Read,
        (r.exec (runDatabase shiftSettings exact initDatabase nodeBesideFlush).world.main).isSome := by
  refine ⟨by decide, by decide, ?_⟩
  exact database_sound shiftSettings exact (fun _ _ => decide_eq_decide.mpr eq_comm) nodeBesideFlush

end ModbusLogger.Db
