import ModbusLogger.Api.Router.UserGroup
import ModbusLogger.Db.Worker.Assignments
import ModbusLogger.Lib.Noninterference

/-!
# What a restricted user can learn

Two stores that agree on what is assigned to a user should answer the user alike. Only `me` looks at
the user at all. The other routes answer for the ids that they are given, so they keep the rule exactly
for the ids that are assigned.
-/

namespace ModbusLogger.Api

open Db Hasher WebSockets Auth Noninterference

variable {J : Type} {s : Store J} {userId : Int}

/-- The user may not tell `s'` from `s`. -/
def Indistinct (userId : Int) (s s' : Store J) : Prop := s'.Sound ∧ s.Agree userId s'

theorem indistinct_refl (hs : s.Sound) : Indistinct userId s s := ⟨hs, .refl s⟩

/-! ## Groups -/

theorem getAllGroups_reveals (hs : s.Sound) :
    ¬Confined (Indistinct userId) s fun s => Db.getAllGroups s.db := by
  obtain ⟨s', hs', hagree, hnew⟩ := Store.exists_group userId hs s.db.groups.userGroups.next
  apply not_confined (indistinct_refl hs) ⟨hs', hagree⟩
  intro heq
  obtain ⟨row, hrow⟩ := Table.contains_iff.mp hnew
  have hmem : row.read s.db.groups.userGroups.next ∈ Db.getAllGroups s'.db :=
    List.mem_map_of_mem (f := fun r => r.2.read r.1) hrow
  -- the new group would be an old one
  rw [← heq] at hmem
  obtain ⟨r, hr, hread⟩ := List.mem_map.mp hmem
  have hkey : r.1 = s.db.groups.userGroups.next := congrArg UserGroupRead.id hread
  exact (s.db.groups.userGroups.fresh r hr).ne hkey

theorem getGroupByUserId_confined :
    Confined (Indistinct userId) s fun s => getGroupByUserId s.db userId := by
  rintro s' ⟨-, hagree⟩
  show getGroupByUserId s'.db userId = getGroupByUserId s.db userId
  have haccess : ∀ g, (⟨userId, g⟩ : GroupAccess) ∈ s.db.groups.userGroupAccess ↔
      ⟨userId, g⟩ ∈ s'.db.groups.userGroupAccess := fun g => Set.ext_iff.mp hagree.access g
  unfold getGroupByUserId
  simp only [← haccess]
  congr 1
  apply Table.select_congr
  intro g row hg
  have hg : (⟨userId, g⟩ : GroupAccess) ∈ s.db.groups.userGroupAccess := of_decide_eq_true hg
  exact (hagree.groups g hg row).symm

theorem getByGroupId_confined {g : Int} (hg : g ∈ s.assignedGroups userId) :
    Confined (Indistinct userId) s fun s => getByGroupId s.db g := by
  rintro s' ⟨-, hagree⟩
  show getByGroupId s'.db g = getByGroupId s.db g
  unfold getByGroupId
  congr 1
  apply Table.select_congr
  intro a row hrow
  have hrow : row.groupId = g := of_decide_eq_true hrow
  exact (hagree.subgroups a row (hrow ▸ hg)).symm

theorem valuesWithSubgroup_confined {ids : List Int}
    (hids : ∀ a ∈ ids, a ∈ s.assignedSubgroups userId) :
    Confined (Indistinct userId) s fun s => valuesWithSubgroup s.db ids := by
  rintro s' ⟨-, hagree⟩
  show valuesWithSubgroup s'.db ids = valuesWithSubgroup s.db ids
  unfold valuesWithSubgroup
  rw [← hagree.assignments ids hids]
  apply List.filterMap_congr
  intro r hr
  obtain ⟨hmem, hin⟩ := List.mem_filter.mp hr
  have hvalue : r.valueUnitId ∈ s.assignedValues userId := ⟨_, hids _ (of_decide_eq_true hin), hmem⟩
  rw [hagree.units _ hvalue]

theorem uiGetGroup_confined_iff (hs : s.Sound) (order : HashOrder) {g : Int} :
    Confined (Indistinct userId) s (fun s => uiGetGroup order s.db g) ↔
      g ∈ s.assignedGroups userId := by
  constructor
  · intro hconfined
    by_contra hnot
    -- the group may have no subgroups, or one
    obtain ⟨s₀, hs₀, hagree₀, hnone⟩ := Store.exists_no_subgroups hs hnot
    obtain ⟨s₁, hs₁, hagree₁, hgroup⟩ := Store.exists_group userId hs g
    obtain ⟨s₂, hs₂, hagree₂, row, hrow, hrowGroup⟩ := Store.exists_subgroup_of hs₁ hgroup
      (hagree₁.access ▸ hnot) s₁.db.groups.userSubgroups.next Table.not_contains_next
    refine not_confined ⟨hs₀, hagree₀⟩ ⟨hs₂, hagree₁.trans hagree₂⟩ ?_ hconfined
    have hempty : getByGroupId s₀.db g = [] := by
      rw [getByGroupId, List.map_eq_nil_iff, List.eq_nil_iff_forall_not_mem]
      intro r hr
      obtain ⟨hhas, hr⟩ := Table.mem_select.mp hr
      exact hnone r.1 r.2 hhas (of_decide_eq_true hr)
    have hne : getByGroupId s₂.db g ≠ [] := by
      rw [getByGroupId, Ne, List.map_eq_nil_iff]
      have hmem : (s₁.db.groups.userSubgroups.next, row) ∈
          s₂.db.groups.userSubgroups.select fun _ row => row.groupId = g :=
        Table.mem_select.mpr ⟨hrow, decide_eq_true hrowGroup⟩
      exact List.ne_nil_of_mem hmem
    simp [uiGetGroup, hempty, hne]
  · intro hg s' hs'
    have hsubgroups := getByGroupId_confined hg s' hs'
    dsimp only at hsubgroups
    have hids : ∀ a ∈ (getByGroupId s.db g).map (·.id), a ∈ s.assignedSubgroups userId := by
      intro a ha
      obtain ⟨subgroup, hsubgroup, rfl⟩ := List.mem_map.mp ha
      obtain ⟨r, hr, rfl⟩ := List.mem_map.mp hsubgroup
      obtain ⟨hrow, hr⟩ := Table.mem_select.mp hr
      have hr : r.2.groupId = g := of_decide_eq_true hr
      exact ⟨r.2, hrow, hr ▸ hg⟩
    have hrows := valuesWithSubgroup_confined hids s' hs'
    dsimp only at hrows
    unfold uiGetGroup
    simp only [hsubgroups, hrows]

/-! ## Values and measures -/

theorem valuesOfSubgroup_confined_iff [Inhabited J] (hs : s.Sound) {a : Int} :
    Confined (Indistinct userId) s (fun s => valuesOfSubgroup s.db a) ↔
      a ∈ s.assignedSubgroups userId := by
  constructor
  · intro hconfined
    by_contra hnot
    -- the subgroup may have no values, or a new one
    obtain ⟨s₀, hs₀, hagree₀, hnone⟩ := Store.exists_no_assignments hs hnot
    obtain ⟨s₁, hs₁, hagree₁, hsubgroup⟩ := Store.exists_subgroup userId hs a
    obtain ⟨s₂, hs₂, hagree₂, hgroups, -, hvalue⟩ :=
      Store.exists_value userId hs₁ s₁.db.main.valueUnits.next
    have hagree₂ := hagree₁.trans hagree₂
    obtain ⟨s₃, hs₃, hagree₃, hmem⟩ := Store.exists_assignment hs₂ (hgroups ▸ hsubgroup)
      (hagree₂.assignedSubgroups ▸ hnot) hvalue
    refine not_confined ⟨hs₀, hagree₀⟩ ⟨hs₃, hagree₂.trans hagree₃⟩ ?_ hconfined
    have hempty : valuesOfSubgroup s₀.db a = [] := by
      rw [valuesOfSubgroup, List.map_eq_nil_iff, List.eq_nil_iff_forall_not_mem]
      intro r hr
      obtain ⟨hrow, hr⟩ := List.mem_filter.mp hr
      obtain rfl : r.subgroupId = a := of_decide_eq_true hr
      exact hnone r.valueUnitId hrow
    rw [hempty]
    refine (List.ne_nil_of_mem (a := s₁.db.main.valueUnits.next) ?_).symm
    exact List.mem_map.mpr ⟨_, List.mem_filter.mpr ⟨hmem, by simp⟩, rfl⟩
  · rintro ⟨row, hrow, hgroup⟩ s' ⟨-, hagree⟩
    show valuesOfSubgroup s'.db a = valuesOfSubgroup s.db a
    have hrows := hagree.assignments [a] (by simpa using ⟨row, hrow, hgroup⟩)
    simp only [List.mem_singleton] at hrows
    unfold valuesOfSubgroup
    rw [hrows]

/-- What the master answers for one value: its ring, or else the table. -/
def answerOf (s : Store J) (v fromTs toTs : Int) : List HashedValue :=
  (fromRing s.hashedMap v fromTs toTs).join.getD
    (((s.measuresOf v).filter fun x =>
      decide (fromTs ≤ x.timestamp) && decide (x.timestamp ≤ toTs)).mergeSort DbMeasureUnit.earlier)

/-- No ring panics. -/
theorem exists_fromRing (hs : s.Sound) (v fromTs toTs : Int) :
    ∃ answer, fromRing s.hashedMap v fromTs toTs = some answer ∧
      (toTs < fromTs → answer = none) := by
  unfold fromRing
  cases hmap : s.hashedMap v with
  | none => exact ⟨none, rfl, fun _ => rfl⟩
  | some h =>
      obtain ⟨N, log, hr⟩ := hs.rings v h hmap
      obtain ⟨answer, hanswer⟩ := hr.exists_getHashed fromTs toTs
      refine ⟨answer, hanswer, fun hlt => ?_⟩
      exact Option.some.inj (hanswer.symm.trans (getHashed_of_le h hlt.le))

theorem readMeasure_eq (hs : s.Sound) (fromTs toTs : Int) (ids : List Int) :
    s.measureMaster.readMeasure ⟨fromTs, toTs, ids, fun _ => none⟩ =
      some (.ok (ids.map fun v => ⟨v, answerOf s v fromTs toTs, fromTs, toTs⟩)) := by
  induction ids with
  | nil => rfl
  | cons v ids ih =>
      have ih : Hasher.readMeasure s.hashedMap
          (fun id => s.measureMaster.dbUnit.getMeasures none id) fromTs toTs ids = _ := ih
      obtain ⟨answer, hanswer, -⟩ := exists_fromRing hs v fromTs toTs
      show Hasher.readMeasure s.hashedMap (fun id => s.measureMaster.dbUnit.getMeasures none id)
        fromTs toTs (v :: ids) = _
      rw [Hasher.readMeasure, hanswer]
      cases answer with
      | none =>
          have hrows : answerOf s v fromTs toTs =
              (selectMeasures s.measureMaster.dbUnit.measures v fromTs toTs).mergeSort
                DbMeasureUnit.earlier := by
            rw [answerOf, hanswer]
            rfl
          simp [ih, DbMeasureUnit.getMeasures, hrows, Except.map]
      | some values =>
          have hvalues : answerOf s v fromTs toTs = values := by
            rw [answerOf, hanswer]
            rfl
          simp [ih, hvalues, Except.map]

theorem answerOf_confined_iff [Inhabited J] (hs : s.Sound) {v fromTs toTs : Int} :
    Confined (Indistinct userId) s (fun s => answerOf s v fromTs toTs) ↔
      toTs < fromTs ∨ v ∈ s.assignedValues userId := by
  constructor
  · intro hconfined
    by_contra! hnot
    obtain ⟨hle, hnot⟩ := hnot
    -- the value may have no record, or one at the beginning of the range
    obtain ⟨s₀, hs₀, hagree₀, hring₀, hnone⟩ := Store.exists_no_measures hs hnot
    obtain ⟨s₁, hs₁, hagree₁, -, hmap₁, hvalue⟩ := Store.exists_value userId hs₀ v
    have hagree₁ := hagree₀.trans hagree₁
    obtain ⟨s₂, hs₂, hagree₂, hmap₂, hmem⟩ := Store.exists_measure hs₁ hvalue
      (hagree₁.assignedValues ▸ hnot) ⟨Binary64.zero false, fromTs⟩
    refine not_confined ⟨hs₀, hagree₀⟩ ⟨hs₂, hagree₁.trans hagree₂⟩ ?_ hconfined
    have hring₂ : s₂.hashedMap v = none := by rw [hmap₂, hmap₁, hring₀]
    have hempty : answerOf s₀ v fromTs toTs = [] := by
      simp [answerOf, fromRing, hring₀, hnone]
    rw [hempty]
    refine (List.ne_nil_of_mem (a := ⟨Binary64.zero false, fromTs⟩) ?_).symm
    rw [answerOf, fromRing, hring₂]
    show _ ∈ List.mergeSort _ _
    rw [List.mem_mergeSort, List.mem_filter]
    exact ⟨hmem, by simp [hle]⟩
  · rintro (hlt | hv) s' ⟨hs', hagree⟩
    · have hnothing : ∀ s : Store J, s.Sound → answerOf s v fromTs toTs = [] := by
        intro s hs
        obtain ⟨answer, hanswer, hsilent⟩ := exists_fromRing hs v fromTs toTs
        have hempty : (s.measuresOf v).filter (fun x =>
            decide (fromTs ≤ x.timestamp) && decide (x.timestamp ≤ toTs)) = [] := by
          rw [List.filter_eq_nil_iff]
          intro x _
          grind
        simp [answerOf, hanswer, hsilent hlt, hempty]
      exact (hnothing s' hs').trans (hnothing s hs).symm
    · show answerOf s' v fromTs toTs = answerOf s v fromTs toTs
      rw [answerOf, answerOf, fromRing, fromRing, hagree.rings v hv, hagree.measures v hv]

/-! ## Routes -/

/-- A body is sent as it is if nothing fails. -/
theorem confined_receive_iff {failed : String} {lost : String → String} {body : Store J → Body J} :
    (∀ delivery, Confined (Indistinct userId) s fun s => receive delivery failed lost (body s)) ↔
      Confined (Indistinct userId) s body := by
  constructor
  · intro h s' hs'
    exact congrArg Response.body (h .answered s' hs')
  · intro h delivery s' hs'
    cases delivery with
    | answered => exact congrArg (Response.mk 200) (h s' hs')
    | unsent e => rfl
    | failed => rfl
    | lost e => rfl

theorem uiGetByGroupId_confined_iff (hs : s.Sound) {g : Int} :
    (∀ order delivery, Confined (Indistinct userId) s fun s => uiGetByGroupId s order delivery g) ↔
      g ∈ s.assignedGroups userId := by
  have hgroup : ∀ order, (∀ delivery,
      Confined (Indistinct userId) s fun s => uiGetByGroupId s order delivery g) ↔
        g ∈ s.assignedGroups userId := by
    intro order
    rw [← uiGetGroup_confined_iff hs order]
    exact confined_receive_iff.trans (confined_map_iff fun _ _ heq => by injection heq)
  exact ⟨fun h => (hgroup asListed).mp (h asListed), fun h order => (hgroup order).mpr h⟩

theorem uiGetSubgroupsAssign_confined_iff [Inhabited J] (hs : s.Sound) {text : String} :
    (∀ order delivery,
      Confined (Indistinct userId) s fun s => uiGetSubgroupsAssign s order delivery text) ↔
        ∀ ids ∈ parseIds text, ∀ a ∈ ids, a ∈ s.assignedSubgroups userId := by
  unfold uiGetSubgroupsAssign
  cases parseIds text with
  | none => simp [Confined.const]
  | some ids =>
      simp only [Option.mem_some_iff, forall_eq']
      constructor
      · intro h
        have hlists := (confined_map_iff fun _ _ heq => by injection heq).mp
          (confined_receive_iff.mp (h asListed))
        have hview : Confined (Indistinct userId) s (fun s =>
            ids.map fun a => (⟨a, valuesOfSubgroup s.db a⟩ : GetSubgroupAssign)) := hlists
        rw [confined_list_iff fun a (s : Store J) => (⟨a, valuesOfSubgroup s.db a⟩ : GetSubgroupAssign)]
          at hview
        intro a ha
        rw [← valuesOfSubgroup_confined_iff hs]
        exact (confined_map_iff (f := GetSubgroupAssign.mk a) fun _ _ heq => by injection heq).mp
          (hview a ha)
      · intro h order
        refine confined_receive_iff.mpr (Confined.map ?_ Body.assigns)
        rw [show (fun s : Store J => Db.uiGetSubgroupsAssign order s.db ids) = fun s => ids.map fun a =>
          (⟨a, order.order (valuesOfSubgroup s.db a)⟩ : GetSubgroupAssign) from rfl]
        rw [confined_list_iff fun a (s : Store J) =>
          (⟨a, order.order (valuesOfSubgroup s.db a)⟩ : GetSubgroupAssign)]
        intro a ha
        exact ((valuesOfSubgroup_confined_iff hs).mpr (h a ha)).map fun values =>
          GetSubgroupAssign.mk a (order.order values)

theorem getMeasures_eq (hs : s.Sound) {params : MeasureQuery} {ids : List Int}
    (hids : parseIds params.valueIds = some ids) (delivery : Delivery) :
    getMeasures s delivery params =
      receive delivery "Помилка читання бази данних, детальніше в логах"
        (fun e => s!"Помилка каналу: \n{e}") (.measures (ids.map fun v =>
          ⟨v, answerOf s v params.startTime params.endTime, params.startTime, params.endTime⟩)) := by
  rw [getMeasures, hids]
  dsimp only
  rw [readMeasure_eq hs]
  cases delivery <;> rfl

theorem getMeasures_confined_iff [Inhabited J] (hs : s.Sound) {params : MeasureQuery} :
    (∀ delivery, Confined (Indistinct userId) s fun s => getMeasures s delivery params) ↔
      params.endTime < params.startTime ∨
        ∀ ids ∈ parseIds params.valueIds, ∀ v ∈ ids, v ∈ s.assignedValues userId := by
  cases hids : parseIds params.valueIds with
  | none => simp [getMeasures, hids, Confined.const]
  | some ids =>
      let views := fun v (s : Store J) => (⟨v, answerOf s v params.startTime params.endTime,
        params.startTime, params.endTime⟩ : MeasureResponse)
      have hviews : Confined (Indistinct userId) s (fun s => ids.map fun v => views v s) ↔
          ∀ v ∈ ids, params.endTime < params.startTime ∨ v ∈ s.assignedValues userId := by
        rw [confined_list_iff views]
        refine forall₂_congr fun v _ => ?_
        rw [← answerOf_confined_iff hs]
        exact confined_map_iff (f := fun values => MeasureResponse.mk v values _ _)
          fun _ _ heq => by injection heq
      have hanswers : (∀ delivery,
          Confined (Indistinct userId) s fun s => getMeasures s delivery params) ↔
            ∀ v ∈ ids, params.endTime < params.startTime ∨ v ∈ s.assignedValues userId := by
        rw [← hviews, ← confined_map_iff (f := Body.measures (J := J)) fun _ _ heq => by injection heq,
          ← confined_receive_iff]
        refine forall_congr' fun delivery => ?_
        apply confined_congr (getMeasures_eq hs hids delivery)
        exact fun s' hs' => getMeasures_eq hs'.1 hids delivery
      rw [hanswers]
      simp only [Option.mem_some_iff, forall_eq', forall_or_left]

/-- All that the request asks for is assigned to the user, or the answer does not depend on it. -/
def UserRequest.Assigned (s : Store J) (userId : Int) : UserRequest → Prop
  | .getAllGroups => False
  | .uiGetByGroupId groupId => groupId ∈ s.assignedGroups userId
  | .me => True
  | .uiGetSubgroupsAssign groupId =>
    ∀ ids ∈ parseIds groupId, ∀ a ∈ ids, a ∈ s.assignedSubgroups userId
  | .getMeasures params => params.endTime < params.startTime ∨
    ∀ ids ∈ parseIds params.valueIds, ∀ v ∈ ids, v ∈ s.assignedValues userId

theorem me_confined {claims : Claims} (hrole : claims.roleId = 3 ∨ claims.roleId = 4)
    (delivery : Delivery) : Confined (Indistinct claims.id) s fun s => me s delivery claims := by
  simp only [me, if_pos hrole]
  exact confined_receive_iff.mpr (getGroupByUserId_confined.map Body.groups) delivery

/-- A restricted user learns nothing about the rest of the store from a request exactly if all that it
asks for is assigned to the user. -/
theorem restricted_responses_iff [Inhabited J] (claims : Claims)
    (hrole : claims.roleId = 3 ∨ claims.roleId = 4) (hs : s.Sound) (request : UserRequest) :
    (∀ order delivery,
      Confined (Indistinct claims.id) s fun s => respond claims order delivery s request) ↔
        request.Assigned s claims.id := by
  cases request with
  | getAllGroups =>
      have hall : ¬∀ delivery, Confined (Indistinct claims.id) s fun s => getAllGroups s delivery := by
        intro h
        have hgroups := confined_receive_iff.mp h
        rw [confined_map_iff (f := Body.groups (J := J)) fun _ _ heq => by injection heq] at hgroups
        exact getAllGroups_reveals hs hgroups
      exact ⟨fun h => hall (h asListed), False.elim⟩
  | uiGetByGroupId groupId => exact uiGetByGroupId_confined_iff hs
  | me => exact ⟨fun _ => trivial, fun _ _ delivery => me_confined hrole delivery⟩
  | uiGetSubgroupsAssign groupId => exact uiGetSubgroupsAssign_confined_iff hs
  | getMeasures params =>
      exact ⟨fun h => (getMeasures_confined_iff hs).mp (h asListed),
        fun h _ => (getMeasures_confined_iff hs).mpr h⟩

/-! ## A melt shop and an office -/

/-- The user 1 is assigned to the only group. -/
def meltShop : Store Unit where
  db :=
    { main := Tables.empty
      auth :=
        { users := Table.empty.insert ⟨"ivan", "", 3, true⟩
          roles := [1, 2, 3, 4]
          refreshTokens := [] }
      groups :=
        { userGroups := Table.empty.insert ⟨"melt shop", none⟩
          userSubgroups := Table.empty.insert ⟨1, "furnace", none⟩
          userGroupAccess := [⟨1, 1⟩]
          subgroupValues := [] } }
  hashedMap := fun _ => none

/-- The group 2 is assigned to nobody. -/
def withOffice : Store Unit :=
  { meltShop with
    db :=
      { meltShop.db with
        groups :=
          { meltShop.db.groups with
            userGroups := meltShop.db.groups.userGroups.insert ⟨"office", none⟩
            userSubgroups := meltShop.db.groups.userSubgroups.insert ⟨2, "heating", none⟩ } } }

theorem meltShop_sound : meltShop.Sound where
  main := referential_empty
  tags _ _ _ _ h := absurd h Table.not_has_empty
  types _ _ h := absurd h Table.not_has_empty
  access r hr := by
    obtain rfl := List.mem_singleton.mp hr
    exact ⟨rfl, rfl⟩
  accessKey := List.nodup_singleton _
  subgroups id row hrow := by
    rcases Table.has_insert.mp hrow with hold | ⟨-, rfl⟩
    · exact absurd hold Table.not_has_empty
    · rfl
  values _ hr := absurd hr List.not_mem_nil
  valuesKey := .nil
  rings _ _ h := by cases h

theorem withOffice_sound : withOffice.Sound :=
  { meltShop_sound with
    access := fun r hr =>
      ⟨(meltShop_sound.access r hr).1, Table.contains_insert.mpr (.inl (meltShop_sound.access r hr).2)⟩
    subgroups := by
      intro id row hrow
      rcases Table.has_insert.mp hrow with hold | ⟨-, rfl⟩
      · exact Table.contains_insert.mpr (.inl (meltShop_sound.subgroups id row hold))
      · rfl
    values := fun _ hr => absurd hr List.not_mem_nil }

theorem meltShop_agree : meltShop.Agree 1 withOffice := by
  have hassigned : ∀ g, g ∈ meltShop.assignedGroups 1 → g = 1 := by
    intro g hg
    have hg : (⟨1, g⟩ : GroupAccess) ∈ [⟨1, 1⟩] := hg
    simpa using hg
  refine { Store.Agree.refl meltShop with groups := ?_, subgroups := ?_ }
  · intro g hg row
    obtain rfl := hassigned g hg
    show _ ↔ (meltShop.db.groups.userGroups.insert _).Has 1 row
    rw [Table.has_insert]
    constructor
    · exact .inl
    · rintro (hold | ⟨hkey, -⟩)
      · exact hold
      · exact absurd hkey (by decide)
  · intro a row hgroup
    have hgroup : row.groupId = 1 := hassigned _ hgroup
    show _ ↔ (meltShop.db.groups.userSubgroups.insert _).Has a row
    rw [Table.has_insert]
    constructor
    · exact .inl
    · rintro (hold | ⟨-, rfl⟩)
      · exact hold
      · cases hgroup

theorem meltShop_page_iff :
    (∀ order delivery, Confined (Indistinct 1) meltShop fun s =>
      respond ⟨1, 3, 900, 0⟩ order delivery s (.uiGetByGroupId 1)) ↔
        UserRequest.Assigned meltShop 1 (.uiGetByGroupId 1) :=
  restricted_responses_iff ⟨1, 3, 900, 0⟩ (.inl rfl) meltShop_sound (.uiGetByGroupId 1)

/-- The user 1 asks for all groups, or for the group 2, and learns that there is an office. -/
theorem office_revealed : meltShop.Sound ∧ withOffice.Sound ∧ meltShop.Agree 1 withOffice ∧
    ∀ order,
      respond ⟨1, 3, 900, 0⟩ order .answered withOffice .getAllGroups ≠
        respond ⟨1, 3, 900, 0⟩ order .answered meltShop .getAllGroups ∧
      respond ⟨1, 3, 900, 0⟩ order .answered withOffice (.uiGetByGroupId 2) ≠
        respond ⟨1, 3, 900, 0⟩ order .answered meltShop (.uiGetByGroupId 2) := by
  refine ⟨meltShop_sound, withOffice_sound, meltShop_agree, fun order => ⟨fun heq => ?_, fun heq => ?_⟩⟩
  · have hgroups : Db.getAllGroups withOffice.db = Db.getAllGroups meltShop.db := by
      injection heq with _ hbody
      injection hbody
    exact absurd hgroups (by decide)
  · have hgroup : uiGetGroup order withOffice.db 2 = uiGetGroup order meltShop.db 2 := by
      injection heq with _ hbody
      injection hbody
    have hnone : uiGetGroup order meltShop.db 2 = none := rfl
    have hsome : (uiGetGroup order withOffice.db 2).isSome = true := rfl
    rw [hgroup, hnone] at hsome
    cases hsome

end ModbusLogger.Api
