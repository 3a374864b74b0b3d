import Mathlib.Data.Fintype.EquivFin
import ModbusLogger.Db.Hasher.RangeQuery
import ModbusLogger.Db.Worker.References
import ModbusLogger.Db.Worker.UserGroupQueries

/-!
# What is assigned to a user

A group is assigned to a user by `user_group_access`, its subgroups and their values come with it. Two
stores agree for a user if they have the same of it. What is not assigned is free: it can be taken out
of a store or put into it, and the result agrees.
-/

namespace ModbusLogger.Db

open Hasher Transducer

variable {J : Type}

namespace Store

/-! ## Stores that the schema allows -/

/-- The keys of the tables, and rings that samples have filled. -/
structure Sound (s : Store J) : Prop where
  main : Referential s.db.main
  tags : ∀ id row id' row', s.db.main.valueUnits.Has id row → s.db.main.valueUnits.Has id' row' →
    row.valueTag = row'.valueTag → id = id'
  types : ∀ id row, s.db.main.valueUnits.Has id row → row.decodingType ∈ decodingTypes
  access : ∀ r ∈ s.db.groups.userGroupAccess,
    s.db.auth.users.contains r.userId = true ∧ s.db.groups.userGroups.contains r.groupId = true
  accessKey : s.db.groups.userGroupAccess.Nodup
  subgroups : ∀ id row, s.db.groups.userSubgroups.Has id row →
    s.db.groups.userGroups.contains row.groupId = true
  values : ∀ r ∈ s.db.groups.subgroupValues, s.db.groups.userSubgroups.contains r.subgroupId = true ∧
    s.db.main.valueUnits.contains r.valueUnitId = true
  valuesKey : s.db.groups.subgroupValues.Nodup
  rings : ∀ id h, s.hashedMap id = some h → ∃ N log, RingOf N h log

/-! ## Assignments -/

variable (s : Store J) (userId : Int)

def assignedGroups : Set Int := {g | ⟨userId, g⟩ ∈ s.db.groups.userGroupAccess}

def assignedSubgroups : Set Int :=
  {a | ∃ row, s.db.groups.userSubgroups.Has a row ∧ row.groupId ∈ s.assignedGroups userId}

def assignedValues : Set Int :=
  {v | ∃ a ∈ s.assignedSubgroups userId, ⟨a, v⟩ ∈ s.db.groups.subgroupValues}

def measuresOf (v : Int) : List HashedValue :=
  ofKey v (s.db.main.measures.rows.map fun r => r.2.entry)

/-- The same groups are assigned, with the same subgroups, and these have the same values, which stand
on the same nodes and have the same measures. -/
structure Agree (s s' : Store J) : Prop where
  access : s.assignedGroups userId = s'.assignedGroups userId
  groups : ∀ g ∈ s.assignedGroups userId, ∀ row,
    s.db.groups.userGroups.Has g row ↔ s'.db.groups.userGroups.Has g row
  subgroups : ∀ a row, row.groupId ∈ s.assignedGroups userId →
    (s.db.groups.userSubgroups.Has a row ↔ s'.db.groups.userSubgroups.Has a row)
  assignments : ∀ ids : List Int, (∀ a ∈ ids, a ∈ s.assignedSubgroups userId) →
    s.db.groups.subgroupValues.filter (fun r => r.subgroupId ∈ ids) =
      s'.db.groups.subgroupValues.filter fun r => r.subgroupId ∈ ids
  units : ∀ v ∈ s.assignedValues userId, joinDevice s.db v = joinDevice s'.db v
  rings : ∀ v ∈ s.assignedValues userId, s.hashedMap v = s'.hashedMap v
  measures : ∀ v ∈ s.assignedValues userId, s.measuresOf v = s'.measuresOf v

variable {s userId} {s' s'' : Store J}

theorem Agree.assignedSubgroups (h : Agree userId s s') :
    s.assignedSubgroups userId = s'.assignedSubgroups userId := by
  ext a
  constructor
  · rintro ⟨row, hrow, hgroup⟩
    exact ⟨row, (h.subgroups a row hgroup).mp hrow, h.access ▸ hgroup⟩
  · rintro ⟨row, hrow, hgroup⟩
    rw [← h.access] at hgroup
    exact ⟨row, (h.subgroups a row hgroup).mpr hrow, hgroup⟩

theorem Agree.assignedValues (h : Agree userId s s') :
    s.assignedValues userId = s'.assignedValues userId := by
  have hmem : ∀ a ∈ s.assignedSubgroups userId, ∀ v,
      ⟨a, v⟩ ∈ s.db.groups.subgroupValues ↔ ⟨a, v⟩ ∈ s'.db.groups.subgroupValues := by
    intro a ha v
    have hrows := h.assignments [a] (by simpa using ha)
    have hin := congrArg (fun rows => (⟨a, v⟩ : SubgroupValue) ∈ rows) hrows
    simpa [List.mem_filter] using hin
  ext v
  constructor
  · rintro ⟨a, ha, hv⟩
    exact ⟨a, h.assignedSubgroups ▸ ha, (hmem a ha v).mp hv⟩
  · rintro ⟨a, ha, hv⟩
    rw [← h.assignedSubgroups] at ha
    exact ⟨a, ha, (hmem a ha v).mpr hv⟩

theorem Agree.refl (s : Store J) : Agree userId s s :=
  ⟨rfl, fun _ _ _ => .rfl, fun _ _ _ => .rfl, fun _ _ => rfl, fun _ _ => rfl, fun _ _ => rfl,
    fun _ _ => rfl⟩

theorem Agree.trans (h : Agree userId s s') (h' : Agree userId s' s'') : Agree userId s s'' where
  access := h.access.trans h'.access
  groups g hg row := (h.groups g hg row).trans (h'.groups g (h.access ▸ hg) row)
  subgroups a row hgroup :=
    (h.subgroups a row hgroup).trans (h'.subgroups a row (h.access ▸ hgroup))
  assignments ids hids := (h.assignments ids hids).trans
    (h'.assignments ids fun a ha => h.assignedSubgroups ▸ hids a ha)
  units v hv := (h.units v hv).trans (h'.units v (h.assignedValues ▸ hv))
  rings v hv := (h.rings v hv).trans (h'.rings v (h.assignedValues ▸ hv))
  measures v hv := (h.measures v hv).trans (h'.measures v (h.assignedValues ▸ hv))

/-! ## Groups and subgroups that are not assigned -/

theorem Sound.assigned_contains (hs : s.Sound) {g : Int} (hg : g ∈ s.assignedGroups userId) :
    s.db.groups.userGroups.contains g = true :=
  (hs.access ⟨userId, g⟩ hg).2

variable (userId) in
theorem exists_group (hs : s.Sound) (g : Int) :
    ∃ s', s'.Sound ∧ Agree userId s s' ∧ s'.db.groups.userGroups.contains g = true := by
  by_cases hg : s.db.groups.userGroups.contains g = true
  · exact ⟨s, hs, .refl s, hg⟩
  · refine ⟨{ s with db := { s.db with groups := { s.db.groups with
      userGroups := s.db.groups.userGroups.put g ⟨"", none⟩ } } }, ?_, ?_, ?_⟩
    · refine { hs with access := ?_, subgroups := ?_ }
      · exact fun r hr => ⟨(hs.access r hr).1, Table.contains_put.mpr (.inr (hs.access r hr).2)⟩
      · exact fun id row hrow => Table.contains_put.mpr (.inr (hs.subgroups id row hrow))
    · refine { Agree.refl s with groups := ?_ }
      intro g' hg' row
      have hne : g' ≠ g := by
        rintro rfl
        exact hg (hs.assigned_contains hg')
      simp [Table.has_put, hne]
    · exact Table.contains_put.mpr (.inl rfl)

/-- A new subgroup of a group that is not assigned. -/
theorem exists_subgroup_of (hs : s.Sound) {g : Int}
    (hg : s.db.groups.userGroups.contains g = true) (hnot : g ∉ s.assignedGroups userId) (a : Int)
    (ha : s.db.groups.userSubgroups.contains a = false) :
    ∃ s', s'.Sound ∧ Agree userId s s' ∧ ∃ row, s'.db.groups.userSubgroups.Has a row ∧
      row.groupId = g := by
  have hnone : ∀ row, ¬s.db.groups.userSubgroups.Has a row := by
    intro row hrow
    rw [hrow.contains] at ha
    cases ha
  refine ⟨{ s with db := { s.db with groups := { s.db.groups with
    userSubgroups := s.db.groups.userSubgroups.put a ⟨g, "", none⟩ } } }, ?_, ?_, ?_⟩
  · refine { hs with subgroups := ?_, values := ?_ }
    · intro id row hrow
      rcases Table.has_put.mp hrow with ⟨-, rfl⟩ | ⟨-, hold⟩
      · exact hg
      · exact hs.subgroups id row hold
    · exact fun r hr => ⟨Table.contains_put.mpr (.inr (hs.values r hr).1), (hs.values r hr).2⟩
  · refine { Agree.refl s with subgroups := ?_ }
    intro a' row hgroup
    show _ ↔ (s.db.groups.userSubgroups.put a ⟨g, "", none⟩).Has a' row
    rw [Table.has_put]
    constructor
    · intro hrow
      refine .inr ⟨?_, hrow⟩
      rintro rfl
      exact hnone row hrow
    · rintro (⟨-, rfl⟩ | ⟨-, hrow⟩)
      · exact absurd hgroup hnot
      · exact hrow
  · exact ⟨⟨g, "", none⟩, Table.has_put.mpr (.inl ⟨rfl, rfl⟩), rfl⟩

variable (userId) in
/-- In a new group, which is assigned to nobody. -/
theorem exists_subgroup (hs : s.Sound) (a : Int) :
    ∃ s', s'.Sound ∧ Agree userId s s' ∧ s'.db.groups.userSubgroups.contains a = true := by
  have hnew : s.db.groups.userGroups.next ∉ s.assignedGroups userId := fun hg =>
    lt_irrefl _ (Table.lt_next_of_contains (hs.assigned_contains hg))
  obtain ⟨s₁, hs₁, hagree₁, hgroup⟩ :=
    exists_group userId hs s.db.groups.userGroups.next
  rw [hagree₁.access] at hnew
  cases ha : s₁.db.groups.userSubgroups.contains a with
  | true => exact ⟨s₁, hs₁, hagree₁, ha⟩
  | false =>
      obtain ⟨s₂, hs₂, hagree₂, row, hrow, -⟩ := exists_subgroup_of hs₁ hgroup hnew a ha
      exact ⟨s₂, hs₂, hagree₁.trans hagree₂, hrow.contains⟩

theorem exists_no_subgroups (hs : s.Sound) {g : Int} (hnot : g ∉ s.assignedGroups userId) :
    ∃ s', s'.Sound ∧ Agree userId s s' ∧
      ∀ a row, s'.db.groups.userSubgroups.Has a row → row.groupId ≠ g := by
  refine ⟨{ s with db := { s.db with
    groups := s.db.groups.deleteSubgroups (fun _ row => row.groupId = g) } }, ?_, ?_, ?_⟩
  · refine { hs with subgroups := ?_, values := ?_, valuesKey := hs.valuesKey.filter _ }
    · exact fun id row hrow => hs.subgroups id row (Table.has_delete.mp hrow).1
    · intro r hr
      obtain ⟨hmem, hkept⟩ := List.mem_filter.mp hr
      obtain ⟨hsub, hvalue⟩ := hs.values r hmem
      refine ⟨?_, hvalue⟩
      obtain ⟨row, hrow⟩ := Table.contains_iff.mp hsub
      rw [Table.get?_eq_some.mpr hrow] at hkept
      exact Table.contains_delete.mpr ⟨row, hrow, by simpa using hkept⟩
  · refine { Agree.refl s with subgroups := ?_, assignments := ?_, .. }
    · intro a row hgroup
      have hne : row.groupId ≠ g := fun heq => hnot (heq ▸ hgroup)
      show _ ↔ (s.db.groups.userSubgroups.delete _).Has a row
      simp [Table.has_delete, hne]
    · intro ids hids
      show _ = (s.db.groups.subgroupValues.filter _).filter _
      rw [List.filter_filter]
      apply List.filter_congr
      intro r _
      by_cases hr : r.subgroupId ∈ ids
      · obtain ⟨row, hrow, hgroup⟩ := hids _ hr
        have hne : row.groupId ≠ g := fun heq => hnot (heq ▸ hgroup)
        simp [hr, Table.get?_eq_some.mpr hrow, hne]
      · simp [hr]
  · intro a row hrow heq
    obtain ⟨-, hp⟩ := Table.has_delete.mp hrow
    simp [heq] at hp

/-! ## Values that are not assigned -/

theorem exists_assignment (hs : s.Sound) {a v : Int}
    (ha : s.db.groups.userSubgroups.contains a = true) (hnot : a ∉ s.assignedSubgroups userId)
    (hv : s.db.main.valueUnits.contains v = true) :
    ∃ s', s'.Sound ∧ Agree userId s s' ∧ ⟨a, v⟩ ∈ s'.db.groups.subgroupValues := by
  by_cases hmem : (⟨a, v⟩ : SubgroupValue) ∈ s.db.groups.subgroupValues
  · exact ⟨s, hs, .refl s, hmem⟩
  · refine ⟨{ s with db := { s.db with groups := { s.db.groups with
      subgroupValues := s.db.groups.subgroupValues ++ [⟨a, v⟩] } } }, ?_, ?_, ?_⟩
    · refine { hs with values := ?_, valuesKey := ?_ }
      · intro r hr
        rcases List.mem_append.mp hr with hr | hr
        · exact hs.values r hr
        · obtain rfl := List.mem_singleton.mp hr
          exact ⟨ha, hv⟩
      · show (s.db.groups.subgroupValues ++ [(⟨a, v⟩ : SubgroupValue)]).Nodup
        rw [List.nodup_append]
        refine ⟨hs.valuesKey, List.nodup_singleton _, ?_⟩
        intro r hr r' hr' heq
        rw [heq, List.mem_singleton.mp hr'] at hr
        exact hmem hr
    · refine { Agree.refl s with assignments := ?_ }
      intro ids hids
      have hout : a ∉ ids := fun hin => hnot (hids a hin)
      simp [hout]
    · exact List.mem_append_right _ List.mem_cons_self

theorem exists_no_assignments (hs : s.Sound) {a : Int} (hnot : a ∉ s.assignedSubgroups userId) :
    ∃ s', s'.Sound ∧ Agree userId s s' ∧ ∀ v, ⟨a, v⟩ ∉ s'.db.groups.subgroupValues := by
  refine ⟨{ s with db := { s.db with groups := { s.db.groups with
    subgroupValues := s.db.groups.subgroupValues.filter fun r => r.subgroupId ≠ a } } }, ?_, ?_, ?_⟩
  · refine { hs with values := ?_, valuesKey := hs.valuesKey.filter _ }
    exact fun r hr => hs.values r (List.mem_of_mem_filter hr)
  · refine { Agree.refl s with assignments := ?_ }
    intro ids hids
    show _ = (s.db.groups.subgroupValues.filter _).filter _
    rw [List.filter_filter]
    apply List.filter_congr
    intro r _
    by_cases hr : r.subgroupId ∈ ids
    · have hne : r.subgroupId ≠ a := fun heq => hnot (heq ▸ hids _ hr)
      simp [hr, hne]
    · simp [hr]
  · intro v hmem
    simpa using (List.mem_filter.mp hmem).2

variable (userId) in
/-- A value that nobody has been assigned is there, or it can be, on a new device. -/
theorem exists_value [Inhabited J] (hs : s.Sound) (v : Int) :
    ∃ s', s'.Sound ∧ Agree userId s s' ∧ s'.db.groups = s.db.groups ∧ s'.hashedMap = s.hashedMap ∧
      s'.db.main.valueUnits.contains v = true := by
  by_cases hv : s.db.main.valueUnits.contains v = true
  · exact ⟨s, hs, .refl s, rfl, rfl, hv⟩
  · -- the tag is one that no value has
    obtain ⟨tag, htag⟩ := Infinite.exists_notMem_finset
      (s.db.main.valueUnits.rows.map fun r => r.2.valueTag).toFinset
    have hfresh : ∀ id row, s.db.main.valueUnits.Has id row → row.valueTag ≠ tag := by
      rintro id row hrow rfl
      exact htag (List.mem_toFinset.mpr (List.mem_map_of_mem hrow))
    have hne : ∀ id row, s.db.main.valueUnits.Has id row → id ≠ v := by
      rintro id row hrow rfl
      exact hv hrow.contains
    refine ⟨{ s with db := { s.db with main := { s.db.main with
      devices := s.db.main.devices.put s.db.main.devices.next
        ⟨none, none, 1, 1000, 1000, 1, true, true, none, false, none⟩
      valueUnits := s.db.main.valueUnits.put v
        ⟨s.db.main.devices.next, none, tag, none, 1, default, true⟩ } } }, ?_, ?_, rfl, rfl, ?_⟩
    · refine { hs with main := ⟨?_, ?_, ?_⟩, tags := ?_, types := ?_, values := ?_ }
      · intro id row hrow nodeId hnode
        rcases Table.has_put.mp hrow with ⟨-, rfl⟩ | ⟨-, hold⟩
        · cases hnode
        · exact hs.main.nodes id row hold nodeId hnode
      · intro id row hrow
        rcases Table.has_put.mp hrow with ⟨-, rfl⟩ | ⟨-, hold⟩
        · exact Table.contains_put.mpr (.inl rfl)
        · exact Table.contains_put.mpr (.inr (hs.main.devices id row hold))
      · exact fun id row hrow => Table.contains_put.mpr (.inr (hs.main.values id row hrow))
      · intro id row id' row' hrow hrow' heq
        rcases Table.has_put.mp hrow with ⟨rfl, rfl⟩ | ⟨-, hold⟩
        · rcases Table.has_put.mp hrow' with ⟨rfl, -⟩ | ⟨-, hold'⟩
          · rfl
          · exact absurd heq.symm (hfresh id' row' hold')
        · rcases Table.has_put.mp hrow' with ⟨rfl, rfl⟩ | ⟨-, hold'⟩
          · exact absurd heq (hfresh id row hold)
          · exact hs.tags id row id' row' hold hold' heq
      · intro id row hrow
        rcases Table.has_put.mp hrow with ⟨-, rfl⟩ | ⟨-, hold⟩
        · exact List.mem_cons_self
        · exact hs.types id row hold
      · exact fun r hr => ⟨(hs.values r hr).1, Table.contains_put.mpr (.inr (hs.values r hr).2)⟩
    · refine { Agree.refl s with units := ?_ }
      rintro w ⟨a, -, hw⟩
      -- a value that is assigned has its row and its device already
      obtain ⟨row, hrow⟩ := Table.contains_iff.mp (hs.values _ hw).2
      obtain ⟨device, hdevice⟩ := Table.contains_iff.mp (hs.main.devices w row hrow)
      have hrow' : (s.db.main.valueUnits.put v
          ⟨s.db.main.devices.next, none, tag, none, 1, default, true⟩).Has w row :=
        Table.has_put.mpr (.inr ⟨hne w row hrow, hrow⟩)
      have hdevice' : (s.db.main.devices.put s.db.main.devices.next
          ⟨none, none, 1, 1000, 1000, 1, true, true, none, false, none⟩).Has row.parentDeviceId
            device := Table.has_put.mpr (.inr ⟨hdevice.lt_next.ne, hdevice⟩)
      simp [joinDevice, Table.get?_eq_some.mpr hrow, Table.get?_eq_some.mpr hdevice,
        Table.get?_eq_some.mpr hrow', Table.get?_eq_some.mpr hdevice']
    · exact Table.contains_put.mpr (.inl rfl)

/-! ## Measures that are not assigned -/

theorem measuresOf_eq (s : Store J) (v : Int) :
    s.measuresOf v = (s.db.main.measures.select fun _ row => row.valueId = v).map
      fun r => ⟨r.2.measureValue, r.2.measureTime⟩ := by
  rw [measuresOf, ofKey, List.filterMap_map, Table.select, ← List.filterMap_eq_map,
    List.filterMap_filter]
  apply List.filterMap_congr
  intro r _
  simp [MeasureRow.entry]

/-- Neither a ring nor rows. -/
theorem exists_no_measures (hs : s.Sound) {v : Int} (hnot : v ∉ s.assignedValues userId) :
    ∃ s', s'.Sound ∧ Agree userId s s' ∧ s'.hashedMap v = none ∧ s'.measuresOf v = [] := by
  refine ⟨⟨{ s.db with main := { s.db.main with
    measures := s.db.main.measures.delete (fun _ row => row.valueId = v) } },
      Function.update s.hashedMap v none⟩, ?_, ?_, Function.update_self _ _ _, ?_⟩
  · refine { hs with main := ⟨hs.main.nodes, hs.main.devices, ?_⟩, rings := ?_ }
    · exact fun id row hrow => hs.main.values id row (Table.has_delete.mp hrow).1
    · intro id h hring
      have hring : Function.update s.hashedMap v none id = some h := hring
      by_cases hid : id = v
      · rw [hid, Function.update_self] at hring
        cases hring
      · rw [Function.update_of_ne hid] at hring
        exact hs.rings id h hring
  · refine { Agree.refl s with rings := ?_, measures := ?_ }
    · intro w hw
      have hne : w ≠ v := fun heq => hnot (heq ▸ hw)
      exact (Function.update_of_ne hne _ _).symm
    · intro w hw
      have hne : w ≠ v := fun heq => hnot (heq ▸ hw)
      rw [measuresOf_eq, measuresOf_eq]
      congr 1
      apply Table.select_congr
      intro id row hrow
      have hrow : row.valueId = w := of_decide_eq_true hrow
      simp [Table.has_delete, hrow, hne]
  · rw [measuresOf_eq, List.map_eq_nil_iff, List.eq_nil_iff_forall_not_mem]
    intro r hr
    obtain ⟨hhas, hv⟩ := Table.mem_select.mp hr
    have hgone := (Table.has_delete.mp hhas).2
    rw [hv] at hgone
    cases hgone

/-- One more row. -/
theorem exists_measure (hs : s.Sound) {v : Int} (hv : s.db.main.valueUnits.contains v = true)
    (hnot : v ∉ s.assignedValues userId) (x : HashedValue) :
    ∃ s', s'.Sound ∧ Agree userId s s' ∧ s'.hashedMap = s.hashedMap ∧ x ∈ s'.measuresOf v := by
  refine ⟨{ s with db := { s.db with main := { s.db.main with
    measures := s.db.main.measures.insert ⟨v, x.val, x.timestamp⟩ } } }, ?_, ?_, rfl, ?_⟩
  · refine { hs with main := ⟨hs.main.nodes, hs.main.devices, ?_⟩ }
    intro id row hrow
    rcases Table.has_insert.mp hrow with hold | ⟨-, rfl⟩
    · exact hs.main.values id row hold
    · exact hv
  · refine { Agree.refl s with measures := ?_ }
    intro w hw
    have hne : v ≠ w := fun heq => hnot (heq ▸ hw)
    rw [measuresOf_eq, measuresOf_eq]
    congr 1
    apply Table.select_congr
    intro id row hrow
    have hrow : row.valueId = w := of_decide_eq_true hrow
    rw [Table.has_insert]
    constructor
    · exact .inl
    · rintro (hold | ⟨-, rfl⟩)
      · exact hold
      · exact absurd hrow hne
  · rw [measuresOf_eq, List.mem_map]
    exact ⟨(s.db.main.measures.next, ⟨v, x.val, x.timestamp⟩),
      Table.mem_select.mpr ⟨Table.has_insert.mpr (.inr ⟨rfl, rfl⟩), by simp⟩, rfl⟩

end Store

end ModbusLogger.Db
