import Mathlib.Data.List.Dedup
import ModbusLogger.Db.Worker.References
import ModbusLogger.Db.Worker.UserGroupQueries
import ModbusLogger.Lib.Partition

/-!
# The page of a group (`ui_get_group`)

One query for all subgroups, and a hash map from which each subgroup takes its values. The version
before it, which is still there as a comment, had a query for each subgroup. A query has no `ORDER BY`,
so its rows may come in any order, in each of the versions.
-/

namespace ModbusLogger.Db

open WebSockets

variable {J : Type}

/-! ## The joined query -/

/-- The variables of the loop over the rows. -/
structure GroupPage (J : Type) where
  valuesBySubgroup : Std.HashMap Int (List (ValueRead J))
  devices : Std.HashSet Int
  nodes : Std.HashSet Int

namespace GroupPage

def empty : GroupPage J := ⟨∅, ∅, ∅⟩

/-- One turn of the loop. -/
def add (page : GroupPage J) (row : ValueWithSubgroup J) : GroupPage J where
  devices := page.devices.insert row.row.parentDeviceId
  nodes := match row.nodeId with
    | some nodeId => page.nodes.insert nodeId
    | none => page.nodes
  valuesBySubgroup := Partition.push page.valuesBySubgroup row.subgroupId row.value

/-- The loop over the subgroups. -/
def result (page : GroupPage J) (order : HashOrder) (id : Int) (subgroups : List UserSubGroupRead) :
    UiUserGroupRead J where
  id
  nodes := order.order page.nodes.toList
  devices := order.order page.devices.toList
  subGroups := (Partition.takeOut (·.id) subgroups page.valuesBySubgroup).map fun r => ⟨r.1, r.2⟩

end GroupPage

/-- `ui_get_group`, with the rows of its queries. -/
def uiGetGroupOf (order : HashOrder) (id : Int) (subgroups : List UserSubGroupRead)
    (rows : List (ValueWithSubgroup J)) : Option (UiUserGroupRead J) :=
  if subgroups.isEmpty then none
  else some ((rows.foldl .add .empty : GroupPage J).result order id subgroups)

/-! ## A query for each subgroup -/

/-- The join of `value_units` and `subgroup_values`. -/
def valueUnitsOf (db : Database J) (subgroupId : Int) : List (Int × ValueRow J) :=
  (db.groups.subgroupValues.filter (·.subgroupId = subgroupId)).filterMap fun r =>
    (db.main.valueUnits.get? r.valueUnitId).map (r.valueUnitId, ·)

/-- The version of `ui_get_group` that was replaced, with the rows of its queries; nothing if a row
cannot be decoded. -/
def uiGetGroupBefore (id : Int) (subgroups : List UserSubGroupRead)
    (grouped : Int → List (Int × ValueRow J)) : Option (Option (UiUserGroupRead J)) :=
  if subgroups.isEmpty then some none
  else do
    let subGroups ← subgroups.mapM fun subgroup => do
      let values ← decodeAll ValueRow.read? (grouped subgroup.id)
      return ⟨subgroup, values⟩
    return some { id, subGroups, nodes := [], devices := [] }

/-! ## What the queries may give -/

/-- The rows of the two queries, in some order. -/
structure Queried (db : Database J) (groupId : Int) (subgroups : List UserSubGroupRead)
    (rows : List (ValueWithSubgroup J)) : Prop where
  subgroupRows : subgroups.Perm (getByGroupId db groupId)
  valueRows : rows.Perm (valuesWithSubgroup db (subgroups.map (·.id)))

/-- The rows of the queries before, in some order. -/
structure QueriedBefore (db : Database J) (groupId : Int) (subgroups : List UserSubGroupRead)
    (grouped : Int → List (Int × ValueRow J)) : Prop where
  subgroupRows : subgroups.Perm (getByGroupId db groupId)
  valueRows : ∀ a, (grouped a).Perm (valueUnitsOf db a)

/-! ## What the pages have in common -/

/-- The keys of `init_database` that the query relies on. -/
structure Keyed (db : Database J) : Prop where
  main : Referential db.main
  values : ∀ r ∈ db.groups.subgroupValues, db.groups.userSubgroups.contains r.subgroupId = true ∧
    db.main.valueUnits.contains r.valueUnitId = true
  valuesKey : db.groups.subgroupValues.Nodup

/-- No `value_name` is `NULL`. -/
def AllNamed (db : Database J) : Prop :=
  ∀ id row, db.main.valueUnits.Has id row → row.valueName.isSome

/-- The same group, with the same subgroups, and each of them with the same values. -/
def UiUserGroupRead.SameGroups (page page' : UiUserGroupRead J) : Prop :=
  page.id = page'.id ∧ ∃ subGroups, subGroups.Perm page'.subGroups ∧ List.Forall₂
    (fun s s' => s.groupState = s'.groupState ∧ s.values.Perm s'.values) page.subGroups subGroups

/-- The page has the assignments of the group, each once and in its own subgroup, and the parents of
its values. -/
structure UiUserGroupRead.Shows (db : Database J) (groupId : Int) (page : UiUserGroupRead J) :
    Prop where
  id : page.id = groupId
  subGroups : (page.subGroups.map (·.groupState)).Perm (getByGroupId db groupId)
  assignments : (page.subGroups.flatMap fun s => s.values.map fun v =>
    (⟨s.groupState.id, v.id⟩ : SubgroupValue)).Perm
      (db.groups.subgroupValues.filter fun r => r.subgroupId ∈ (getByGroupId db groupId).map (·.id))
  unassigned : ∀ s ∈ page.subGroups, valuesOfSubgroup db s.groupState.id = [] → s.values = []
  devices : page.devices.Nodup ∧ ∀ d, d ∈ page.devices ↔
    ∃ s ∈ page.subGroups, ∃ v ∈ s.values, v.parentDeviceId = d
  nodes : page.nodes.Nodup ∧ ∀ n, n ∈ page.nodes ↔ ∃ s ∈ page.subGroups, ∃ v ∈ s.values,
    ∃ device, db.main.devices.Has v.parentDeviceId device ∧ device.parentNodeId = some n

/-! ## The loop over the rows -/

namespace GroupPage

theorem valuesBySubgroup_foldl (page : GroupPage J) (rows : List (ValueWithSubgroup J)) :
    (rows.foldl add page).valuesBySubgroup =
      Partition.collect (·.subgroupId) (·.value) page.valuesBySubgroup rows := by
  induction rows generalizing page with
  | nil => rfl
  | cons row rows ih => exact ih (page.add row)

theorem mem_devices_foldl (page : GroupPage J) (rows : List (ValueWithSubgroup J)) (d : Int) :
    d ∈ (rows.foldl add page).devices ↔
      d ∈ page.devices ∨ ∃ row ∈ rows, row.row.parentDeviceId = d := by
  induction rows generalizing page with
  | nil => simp
  | cons row rows ih =>
      rw [List.foldl_cons, ih]
      show d ∈ page.devices.insert row.row.parentDeviceId ∨ _ ↔ _
      simp [Std.HashSet.mem_insert, or_assoc, or_left_comm]

theorem mem_nodes_foldl (page : GroupPage J) (rows : List (ValueWithSubgroup J)) (n : Int) :
    n ∈ (rows.foldl add page).nodes ↔ n ∈ page.nodes ∨ ∃ row ∈ rows, row.nodeId = some n := by
  induction rows generalizing page with
  | nil => simp
  | cons row rows ih =>
      have hadd : n ∈ (page.add row).nodes ↔ row.nodeId = some n ∨ n ∈ page.nodes := by
        unfold add
        cases row.nodeId with
        | none => simp
        | some nodeId => simp [Std.HashSet.mem_insert]
      rw [List.foldl_cons, ih, hadd]
      simp [or_assoc, or_left_comm]

theorem nodup_toList (s : Std.HashSet Int) : s.toList.Nodup :=
  s.distinct_toList.imp fun h => by simpa using h

theorem mem_order_toList (order : HashOrder) (s : Std.HashSet Int) (x : Int) :
    x ∈ order.order s.toList ↔ x ∈ s := by
  rw [(order.perm _).mem_iff, Std.HashSet.mem_toList]

end GroupPage

/-! ## The rows of the queries -/

section Rows

variable {db : Database J} {groupId : Int}

theorem getByGroupId_nodup (db : Database J) (groupId : Int) :
    ((getByGroupId db groupId).map (·.id)).Nodup := by
  have hids : (getByGroupId db groupId).map (·.id) =
      (db.groups.userSubgroups.select fun _ row => row.groupId = groupId).map Prod.fst := by
    rw [getByGroupId, List.map_map]
    rfl
  rw [hids]
  exact db.groups.userSubgroups.nodup_keys.sublist (List.filter_sublist.map Prod.fst)

/-- The value of an assignment, with its device. -/
theorem Keyed.joined (h : Keyed db) {r : SubgroupValue} (hr : r ∈ db.groups.subgroupValues) :
    ∃ row device, db.main.valueUnits.Has r.valueUnitId row ∧
      db.main.devices.Has row.parentDeviceId device ∧
      db.main.valueUnits.get? r.valueUnitId = some row ∧
      joinDevice db r.valueUnitId = some (row, device.parentNodeId) := by
  obtain ⟨row, hrow⟩ := Option.isSome_iff_exists.mp (h.values r hr).2
  have hhas := Table.get?_eq_some.mp hrow
  obtain ⟨device, hdevice⟩ := Option.isSome_iff_exists.mp (h.main.devices _ row hhas)
  refine ⟨row, device, hhas, Table.get?_eq_some.mp hdevice, hrow, ?_⟩
  simp [joinDevice, hrow, hdevice]

theorem mem_valuesWithSubgroup {ids : List Int} {row : ValueWithSubgroup J} :
    row ∈ valuesWithSubgroup db ids ↔ (⟨row.subgroupId, row.id⟩ : SubgroupValue) ∈
      db.groups.subgroupValues ∧ row.subgroupId ∈ ids ∧
        joinDevice db row.id = some (row.row, row.nodeId) := by
  unfold valuesWithSubgroup
  rw [List.mem_filterMap]
  constructor
  · rintro ⟨r, hr, hrow⟩
    obtain ⟨hmem, hin⟩ := List.mem_filter.mp hr
    obtain ⟨joined, hjoined, rfl⟩ := Option.map_eq_some_iff.mp hrow
    exact ⟨hmem, of_decide_eq_true hin, hjoined⟩
  · rintro ⟨hmem, hin, hjoined⟩
    exact ⟨⟨row.subgroupId, row.id⟩, List.mem_filter.mpr ⟨hmem, decide_eq_true hin⟩, by
      simp [hjoined]⟩

/-- The join drops no assignment. -/
theorem Keyed.assignments_valuesWithSubgroup (h : Keyed db) (ids : List Int) :
    (valuesWithSubgroup db ids).map (fun row => (⟨row.subgroupId, row.id⟩ : SubgroupValue)) =
      db.groups.subgroupValues.filter fun r => r.subgroupId ∈ ids := by
  unfold valuesWithSubgroup
  rw [List.map_filterMap]
  have hsome : ∀ r ∈ db.groups.subgroupValues.filter (fun r => r.subgroupId ∈ ids),
      ((joinDevice db r.valueUnitId).map fun joined =>
        (⟨r.subgroupId, r.valueUnitId, joined.1, joined.2⟩ : ValueWithSubgroup J)).map
          (fun row => (⟨row.subgroupId, row.id⟩ : SubgroupValue)) = some r := by
    intro r hr
    obtain ⟨row, device, -, -, -, hjoined⟩ := h.joined (List.mem_of_mem_filter hr)
    rw [hjoined]
    rfl
  rw [List.filterMap_congr hsome, List.filterMap_some]

/-- A value as the loop over the rows builds it. -/
def rowValue (r : Int × ValueRow J) : ValueRead J :=
  (⟨0, r.1, r.2, none⟩ : ValueWithSubgroup J).value

/-- Both queries have the same values for a subgroup. -/
theorem Keyed.valueUnitsOf_eq (h : Keyed db) {ids : List Int} {a : Int} (ha : a ∈ ids) :
    (valueUnitsOf db a).map rowValue =
      ((valuesWithSubgroup db ids).filter fun row => row.subgroupId = a).map (·.value) := by
  unfold valueUnitsOf valuesWithSubgroup
  rw [List.map_filterMap, List.filterMap_filter, List.filter_filterMap, List.filterMap_filter,
    List.map_filterMap]
  apply List.filterMap_congr
  intro r hr
  obtain ⟨row, device, -, -, hrow, hjoined⟩ := h.joined hr
  by_cases hsubgroup : r.subgroupId = a
  · simp [hsubgroup, ha, hrow, hjoined, rowValue, ValueWithSubgroup.value]
  · by_cases hin : r.subgroupId ∈ ids
    · simp [hsubgroup, hin, hjoined]
    · simp [hsubgroup, hin]

theorem mapM_eq_some {α β : Type} {f : α → Option β} {g : α → β} {l : List α}
    (h : ∀ x ∈ l, f x = some (g x)) : l.mapM f = some (l.map g) := by
  induction l with
  | nil => rfl
  | cons x l ih =>
      obtain ⟨hfirst, hrest⟩ := List.forall_mem_cons.mp h
      simp [List.mapM_cons, hfirst, ih hrest]

/-- With a name in every row, the old query decodes all of them. -/
theorem AllNamed.decodeAll (h : AllNamed db) {a : Int} {rows : List (Int × ValueRow J)}
    (hrows : rows.Perm (valueUnitsOf db a)) :
    decodeAll ValueRow.read? rows = some (rows.map rowValue) := by
  apply mapM_eq_some
  intro r hr
  obtain ⟨assignment, -, hassigned⟩ := List.mem_filterMap.mp (hrows.mem_iff.mp hr)
  obtain ⟨row, hrow, rfl⟩ := Option.map_eq_some_iff.mp hassigned
  obtain ⟨name, hname⟩ := Option.isSome_iff_exists.mp (h _ row (Table.get?_eq_some.mp hrow))
  simp [ValueRow.read?, rowValue, ValueWithSubgroup.value, hname]

end Rows

/-! ## The page -/

section Page

variable {db : Database J} {groupId : Int} {order : HashOrder} {subgroups : List UserSubGroupRead}
  {rows : List (ValueWithSubgroup J)}

/-- The page of the rows. -/
def pageOf (order : HashOrder) (groupId : Int) (subgroups : List UserSubGroupRead)
    (rows : List (ValueWithSubgroup J)) : UiUserGroupRead J :=
  (rows.foldl .add .empty : GroupPage J).result order groupId subgroups

def valuesIn (rows : List (ValueWithSubgroup J)) (subgroupId : Int) : List (ValueRead J) :=
  (rows.filter fun row => row.subgroupId = subgroupId).map (·.value)

/-- Every subgroup gets the values of its rows. -/
theorem pageOf_subGroups (hnodup : (subgroups.map (·.id)).Nodup) :
    (pageOf order groupId subgroups rows).subGroups =
      subgroups.map fun subgroup => ⟨subgroup, valuesIn rows subgroup.id⟩ := by
  show (Partition.takeOut _ subgroups
    (rows.foldl GroupPage.add GroupPage.empty).valuesBySubgroup).map _ = _
  rw [GroupPage.valuesBySubgroup_foldl, Partition.takeOut_eq hnodup, List.map_map]
  apply List.map_congr_left
  intro subgroup _
  show UiUserSubGroupsRead.mk subgroup ((Partition.collect _ _ ∅ rows).getD subgroup.id []) = _
  rw [Partition.getD_collect]
  simp [valuesIn]

theorem Queried.nodup (h : Queried db groupId subgroups rows) :
    (subgroups.map (·.id)).Nodup :=
  (h.subgroupRows.map _).nodup_iff.mpr (getByGroupId_nodup db groupId)

theorem Queried.mem_ids (h : Queried db groupId subgroups rows) (a : Int) :
    a ∈ subgroups.map (·.id) ↔ a ∈ (getByGroupId db groupId).map (·.id) :=
  (h.subgroupRows.map _).mem_iff

/-- A row has the value of an assignment in one of the subgroups, and the node of its device. -/
theorem Queried.mem_rows (h : Queried db groupId subgroups rows) {row : ValueWithSubgroup J} :
    row ∈ rows ↔ (⟨row.subgroupId, row.id⟩ : SubgroupValue) ∈ db.groups.subgroupValues ∧
      row.subgroupId ∈ subgroups.map (·.id) ∧ joinDevice db row.id = some (row.row, row.nodeId) := by
  rw [h.valueRows.mem_iff, mem_valuesWithSubgroup]

/-- Every row stands on the page. -/
theorem Queried.exists_value_iff (h : Queried db groupId subgroups rows)
    (p : ValueWithSubgroup J → Prop) (q : ValueRead J → Prop)
    (hpq : ∀ row ∈ rows, p row ↔ q row.value) :
    (∃ row ∈ rows, p row) ↔
      ∃ s ∈ (pageOf order groupId subgroups rows).subGroups, ∃ v ∈ s.values, q v := by
  rw [pageOf_subGroups h.nodup]
  constructor
  · rintro ⟨row, hrow, hp⟩
    obtain ⟨-, hsubgroup, -⟩ := h.mem_rows.mp hrow
    obtain ⟨subgroup, hmem, hid⟩ := List.mem_map.mp hsubgroup
    refine ⟨_, List.mem_map_of_mem hmem, row.value, ?_, (hpq row hrow).mp hp⟩
    exact List.mem_map_of_mem (List.mem_filter.mpr ⟨hrow, decide_eq_true hid.symm⟩)
  · rintro ⟨s, hs, v, hv, hq⟩
    obtain ⟨subgroup, -, rfl⟩ := List.mem_map.mp hs
    obtain ⟨row, hrow, rfl⟩ := List.mem_map.mp hv
    have hmem := List.mem_of_mem_filter hrow
    exact ⟨row, hmem, (hpq row hmem).mpr hq⟩

theorem Queried.assignments (h : Queried db groupId subgroups rows) (hdb : Keyed db) :
    ((pageOf order groupId subgroups rows).subGroups.flatMap fun s => s.values.map fun v =>
      (⟨s.groupState.id, v.id⟩ : SubgroupValue)).Perm
        (db.groups.subgroupValues.filter fun r =>
          r.subgroupId ∈ (getByGroupId db groupId).map (·.id)) := by
  have hkeys : ∀ row ∈ rows, row.subgroupId ∈ subgroups.map (·.id) :=
    fun row hrow => (h.mem_rows.mp hrow).2.1
  have hparts : ((pageOf order groupId subgroups rows).subGroups.flatMap fun s => s.values.map
      fun v => (⟨s.groupState.id, v.id⟩ : SubgroupValue)) =
      (subgroups.flatMap fun subgroup => rows.filter fun row => row.subgroupId = subgroup.id).map
        fun row => ⟨row.subgroupId, row.id⟩ := by
    rw [pageOf_subGroups h.nodup, List.flatMap_map, List.map_flatMap]
    apply List.flatMap_congr
    intro subgroup _
    show ((rows.filter _).map _).map _ = _
    rw [List.map_map]
    apply List.map_congr_left
    intro row hrow
    have hid : row.subgroupId = subgroup.id := of_decide_eq_true (List.mem_filter.mp hrow).2
    show SubgroupValue.mk subgroup.id row.id = _
    rw [← hid]
  calc _ = _ := hparts
    List.Perm _ (rows.map fun row => (⟨row.subgroupId, row.id⟩ : SubgroupValue)) :=
        (Partition.flatMap_filter_perm h.nodup hkeys).map _
    List.Perm _ ((valuesWithSubgroup db (subgroups.map (·.id))).map
          fun row => (⟨row.subgroupId, row.id⟩ : SubgroupValue)) := h.valueRows.map _
    _ = db.groups.subgroupValues.filter fun r => r.subgroupId ∈ subgroups.map (·.id) :=
        hdb.assignments_valuesWithSubgroup _
    _ = _ := by simp only [h.mem_ids]

theorem Queried.shows (h : Queried db groupId subgroups rows) (hdb : Keyed db) :
    (pageOf order groupId subgroups rows).Shows db groupId where
  id := rfl
  subGroups := by
    rw [pageOf_subGroups h.nodup, List.map_map]
    exact (List.map_id subgroups).symm ▸ h.subgroupRows
  assignments := h.assignments hdb
  unassigned := by
    intro s hs hnone
    rw [pageOf_subGroups h.nodup] at hs
    obtain ⟨subgroup, -, rfl⟩ := List.mem_map.mp hs
    rw [List.eq_nil_iff_forall_not_mem]
    intro v hv
    obtain ⟨row, hrow, rfl⟩ := List.mem_map.mp hv
    obtain ⟨hmem, hid⟩ := List.mem_filter.mp hrow
    obtain ⟨hassigned, -⟩ := h.mem_rows.mp hmem
    have hvalue : row.id ∈ valuesOfSubgroup db subgroup.id :=
      List.mem_map.mpr ⟨_, List.mem_filter.mpr ⟨hassigned, hid⟩, rfl⟩
    rw [hnone] at hvalue
    exact List.not_mem_nil hvalue
  devices := by
    refine ⟨(order.perm _).nodup_iff.mpr (GroupPage.nodup_toList _), fun d => ?_⟩
    rw [← h.exists_value_iff (fun row => row.row.parentDeviceId = d) _ fun _ _ => .rfl]
    show d ∈ order.order (Std.HashSet.toList _) ↔ _
    rw [GroupPage.mem_order_toList, GroupPage.mem_devices_foldl]
    simp [GroupPage.empty]
  nodes := by
    refine ⟨(order.perm _).nodup_iff.mpr (GroupPage.nodup_toList _), fun n => ?_⟩
    have hnode : ∀ row ∈ rows, row.nodeId = some n ↔ ∃ device,
        db.main.devices.Has row.value.parentDeviceId device ∧ device.parentNodeId = some n := by
      intro row hrow
      obtain ⟨hassigned, -, hjoined⟩ := h.mem_rows.mp hrow
      obtain ⟨value, device, -, hdevice, -, hjoined'⟩ := hdb.joined hassigned
      obtain ⟨rfl, hnodeId⟩ := Prod.mk.inj (Option.some.inj (hjoined'.symm.trans hjoined))
      rw [← hnodeId]
      constructor
      · exact fun hn => ⟨device, hdevice, hn⟩
      · rintro ⟨device', hdevice', hn⟩
        rwa [hdevice.unique hdevice']
    rw [← h.exists_value_iff (fun row => row.nodeId = some n) _ hnode]
    show n ∈ order.order (Std.HashSet.toList _) ↔ _
    rw [GroupPage.mem_order_toList, GroupPage.mem_nodes_foldl]
    simp [GroupPage.empty]

theorem uiGetGroupOf_eq (hne : subgroups ≠ []) :
    uiGetGroupOf order groupId subgroups rows = some (pageOf order groupId subgroups rows) := by
  simp [uiGetGroupOf, pageOf, hne]

/-- With the rows in the order of the tables the page is that of `uiGetGroup`, up to the order in which
the sets come out. -/
theorem uiGetGroup_eq (order : HashOrder) (db : Database J) (groupId : Int) :
    let subgroups := getByGroupId db groupId
    let rows := valuesWithSubgroup db (subgroups.map (·.id))
    let page := pageOf order groupId subgroups rows
    (subgroups = [] ∧ uiGetGroup order db groupId = none) ∨
      ∃ nodes devices, uiGetGroup order db groupId = some { page with nodes, devices } ∧
        nodes.Perm page.nodes ∧ devices.Perm page.devices := by
  intro subgroups rows page
  by_cases hne : subgroups = []
  · exact .inl ⟨hne, by simp [uiGetGroup, show getByGroupId db groupId = [] from hne]⟩
  · have hgroups : page.subGroups = subgroups.map fun subgroup =>
        ⟨subgroup, valuesIn rows subgroup.id⟩ :=
      pageOf_subGroups (getByGroupId_nodup db groupId)
    refine .inr ⟨order.order (rows.filterMap (·.nodeId)).dedup,
      order.order (rows.map (·.row.parentDeviceId)).dedup, ?_, ?_, ?_⟩
    · rw [hgroups, uiGetGroup]
      exact if_neg fun hempty => hne (List.isEmpty_iff.mp hempty)
    · refine (order.perm _).trans (((List.perm_ext_iff_of_nodup (List.nodup_dedup _)
        (GroupPage.nodup_toList _)).mpr fun n => ?_).trans (order.perm _).symm)
      rw [Std.HashSet.mem_toList, GroupPage.mem_nodes_foldl]
      simp [GroupPage.empty]
    · refine (order.perm _).trans (((List.perm_ext_iff_of_nodup (List.nodup_dedup _)
        (GroupPage.nodup_toList _)).mpr fun d => ?_).trans (order.perm _).symm)
      rw [Std.HashSet.mem_toList, GroupPage.mem_devices_foldl]
      simp [GroupPage.empty]

/-! ## The page before -/

section Before

variable {subgroups' : List UserSubGroupRead} {grouped : Int → List (Int × ValueRow J)}

theorem QueriedBefore.page_eq (h : QueriedBefore db groupId subgroups' grouped)
    (hnames : AllNamed db) (hne : subgroups' ≠ []) :
    uiGetGroupBefore groupId subgroups' grouped = some (some {
      id := groupId
      subGroups := subgroups'.map fun subgroup => ⟨subgroup, (grouped subgroup.id).map rowValue⟩
      nodes := []
      devices := [] }) := by
  have hmap : subgroups'.mapM (fun subgroup => do
      let values ← decodeAll ValueRow.read? (grouped subgroup.id)
      return (⟨subgroup, values⟩ : UiUserSubGroupsRead J)) =
      some (subgroups'.map fun subgroup => ⟨subgroup, (grouped subgroup.id).map rowValue⟩) := by
    apply mapM_eq_some
    intro subgroup _
    simp [hnames.decodeAll (h.valueRows subgroup.id)]
  unfold uiGetGroupBefore
  rw [hmap]
  simp [hne]

/-- The rows of a subgroup in both versions. -/
theorem Queried.valuesIn_perm (h : Queried db groupId subgroups rows)
    (h' : QueriedBefore db groupId subgroups' grouped) (hdb : Keyed db) {a : Int}
    (ha : a ∈ subgroups.map (·.id)) : (valuesIn rows a).Perm ((grouped a).map rowValue) := by
  have hrows : (valuesIn rows a).Perm
      (valuesIn (valuesWithSubgroup db (subgroups.map (·.id))) a) := (h.valueRows.filter _).map _
  rw [valuesIn, valuesIn, ← hdb.valueUnitsOf_eq ha] at hrows
  exact hrows.trans ((h'.valueRows a).map _).symm

/-- The page of one joined query is the page of a query for each subgroup, and shows the
assignments. -/
theorem group_page_equal (db : Database J) (hdb : Keyed db) (hnames : AllNamed db) (groupId : Int)
    (order : HashOrder) (subgroups subgroups' : List UserSubGroupRead)
    (rows : List (ValueWithSubgroup J)) (grouped : Int → List (Int × ValueRow J))
    (h : Queried db groupId subgroups rows) (h' : QueriedBefore db groupId subgroups' grouped) :
    (getByGroupId db groupId = [] ∧ uiGetGroupOf order groupId subgroups rows = none ∧
      uiGetGroupBefore groupId subgroups' grouped = some none) ∨
    ∃ page page', uiGetGroupOf order groupId subgroups rows = some page ∧
      uiGetGroupBefore groupId subgroups' grouped = some (some page') ∧
      page.SameGroups page' ∧ page.Shows db groupId := by
  by_cases hnone : getByGroupId db groupId = []
  · obtain rfl : subgroups = [] := (hnone ▸ h.subgroupRows).eq_nil
    obtain rfl : subgroups' = [] := (hnone ▸ h'.subgroupRows).eq_nil
    exact .inl ⟨hnone, rfl, rfl⟩
  · have hne : subgroups ≠ [] := fun hnil => hnone (hnil ▸ h.subgroupRows).symm.eq_nil
    have hne' : subgroups' ≠ [] := fun hnil => hnone (hnil ▸ h'.subgroupRows).symm.eq_nil
    refine .inr ⟨_, _, uiGetGroupOf_eq hne, h'.page_eq hnames hne', ⟨rfl, ?_⟩, h.shows hdb⟩
    refine ⟨subgroups.map fun subgroup => ⟨subgroup, (grouped subgroup.id).map rowValue⟩,
      (h.subgroupRows.trans h'.subgroupRows.symm).map _, ?_⟩
    rw [pageOf_subGroups h.nodup, List.forall₂_map_left_iff, List.forall₂_map_right_iff,
      List.forall₂_same]
    intro subgroup hsubgroup
    exact ⟨rfl, h.valuesIn_perm h' hdb (List.mem_map_of_mem hsubgroup)⟩

end Before

end Page

/-! ## A value in two subgroups -/

/-- The device has lost its node. Its value is in the subgroups 1 and 2, and the subgroup 3 has none. -/
def sharedValue : Database Unit where
  main := { (Tables.empty : Tables Unit) with
    devices := Table.empty.insert
      ⟨none, some "meter", 5, 1000, 500, 3, true, true, some "", false, none⟩
    valueUnits := Table.empty.insert ⟨1, some "power", "meter.power", none, 1, (), true⟩ }
  auth :=
    { users := Table.empty
      roles := [1, 2, 3, 4]
      refreshTokens := [] }
  groups :=
    { userGroups := Table.empty.insert ⟨"melt shop", none⟩
      userSubgroups := ((Table.empty.insert ⟨1, "furnace", none⟩).insert ⟨1, "fans", none⟩).insert
        ⟨1, "office", none⟩
      userGroupAccess := []
      subgroupValues := [⟨1, 1⟩, ⟨2, 1⟩] }

theorem sharedValue_unit {id : Int} {row : ValueRow Unit}
    (h : sharedValue.main.valueUnits.Has id row) :
    id = 1 ∧ row = ⟨1, some "power", "meter.power", none, 1, (), true⟩ := by
  rcases Table.has_insert.mp h with hold | hnew
  · exact absurd hold Table.not_has_empty
  · exact hnew

theorem sharedValue_keyed : Keyed sharedValue where
  main :=
    { nodes := by
        intro id row hrow nodeId hnode
        rcases Table.has_insert.mp hrow with hold | ⟨-, rfl⟩
        · exact absurd hold Table.not_has_empty
        · cases hnode
      devices := by
        intro id row hrow
        obtain ⟨-, rfl⟩ := sharedValue_unit hrow
        rfl
      values := fun _ _ h => absurd h Table.not_has_empty }
  values := by
    intro r hr
    rcases List.mem_cons.mp hr with rfl | hr
    · exact ⟨rfl, rfl⟩
    · obtain rfl := List.mem_singleton.mp hr
      exact ⟨rfl, rfl⟩
  valuesKey := by decide

theorem sharedValue_named : AllNamed sharedValue := by
  intro id row hrow
  obtain ⟨-, rfl⟩ := sharedValue_unit hrow
  rfl

theorem group_page_equal_shared :
    (getByGroupId sharedValue 1 = [] ∧
      uiGetGroupOf ⟨id, .refl⟩ 1 (getByGroupId sharedValue 1)
        (valuesWithSubgroup sharedValue [1, 2, 3]) = none ∧
      uiGetGroupBefore 1 (getByGroupId sharedValue 1) (valueUnitsOf sharedValue) = some none) ∨
    ∃ page page', uiGetGroupOf ⟨id, .refl⟩ 1 (getByGroupId sharedValue 1)
        (valuesWithSubgroup sharedValue [1, 2, 3]) = some page ∧
      uiGetGroupBefore 1 (getByGroupId sharedValue 1) (valueUnitsOf sharedValue) =
        some (some page') ∧ page.SameGroups page' ∧ page.Shows sharedValue 1 :=
  group_page_equal sharedValue sharedValue_keyed sharedValue_named 1 ⟨id, .refl⟩ _ _ _ _
    ⟨.refl _, .refl _⟩ ⟨.refl _, fun _ => .refl _⟩

end ModbusLogger.Db
