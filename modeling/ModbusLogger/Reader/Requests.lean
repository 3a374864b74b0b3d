import ModbusLogger.Reader.PlanCoverage

/-!
# The requests of a plan

A step asks for the registers from its start on. The registers of a type are asked for once each if
no two values share one and the casts keep them; the arithmetic on them is exact below the last
address; and the requests are legal if no run is longer than the protocol allows.
-/

namespace ModbusLogger.Reader

open FixedWidth

/-! ## Starts and lengths -/

/-- The register belongs to the request. -/
def ReadStep.Covers (s : ReadStep) (a : Int) : Prop := s.start ≤ a ∧ a < s.start + s.length

def ReadStep.extent (s : ReadStep) : Int × Nat := (s.start, s.length)

/-- What `ReadStep::new` keeps of a bin. -/
def castExtent (bin : List Int) : Int × Nat := (asU16 (bin.headD 0), asU16 (asI32 bin.length))

theorem asU16_lt (x : Int) : asU16 x < 65536 := by
  unfold asU16
  omega

theorem asU16_of_lt {x : Int} (h : 0 ≤ x) (h' : x < 65536) : (asU16 x : Int) = x := by
  unfold asU16
  omega

theorem asU16_le {x : Int} (h : 0 ≤ x) : (asU16 x : Int) ≤ x := by
  unfold asU16
  omega

theorem asU16_length_le (n : Nat) : asU16 (asI32 n) ≤ n := by
  have hcast : asU16 (asI32 n) = n % 65536 := by
    unfold asU16 asI32
    dsimp only [Int.bmod]
    split <;> omega
  omega

theorem stepOf_extent (regType : RegType) (bin : List Int) (content : List RegisterDecodingPlugin) :
    (stepOf regType bin content).extent = castExtent bin := by
  simp only [stepOf, ReadStep.new, ReadStep.extent, castExtent]

section Steps

variable {J : Type*} {env : Settings J} {values : List (ValueRead J)} {readByGroup : Bool}
  {regType : RegType}

/-- The extents of the steps are the cast extents of the bins. -/
theorem extent_stepsOf :
    (stepsOf env values readByGroup regType).map ReadStep.extent =
      (binsOf env values readByGroup regType).map castExtent := by
  refine List.ext_getElem? fun k => ?_
  rw [List.getElem?_map, List.getElem?_map]
  cases hbin : (binsOf env values readByGroup regType)[k]? with
  | none =>
      have hlen : (stepsOf env values readByGroup regType).length =
          (binsOf env values readByGroup regType).length := by
        rw [stepsOf, planSteps, List.length_zipWith, FirstFit.length_fill, Nat.min_self]
      rw [List.getElem?_eq_none_iff] at hbin
      rw [List.getElem?_eq_none_iff.mpr (hlen ▸ hbin)]
      rfl
  | some bin =>
      obtain ⟨content, -, hstep⟩ := exists_step hbin
      rw [hstep, Option.map_some, Option.map_some, stepOf_extent]

end Steps

/-! ## Each register once -/

/-- The steps of one register type request each of the registers once. -/
structure RequestOnce (readByGroup : Bool) (registers : List Int) (steps : List ReadStep) : Prop where
  disjoint : steps.Pairwise fun s s' => ∀ a, ¬(s.Covers a ∧ s'.Covers a)
  union : ∀ a, (∃ s ∈ steps, s.Covers a) ↔ a ∈ registers
  runs : readByGroup = true → Runs.AreMaximal (· ∈ registers) (steps.map ReadStep.extent)

/-- No register is repeated, and the registers survive the casts: read one by one, each of them is an
address; read in groups, each run starts at an address and its length fits a `u16`. -/
def Separate (readByGroup : Bool) (registers : List Int) : Prop :=
  registers.Nodup ∧
    if readByGroup then
      (∀ a ∈ registers, a - 1 ∉ registers → 0 ≤ a ∧ a ≤ 65535) ∧
        ∀ a : Int, ∃ i : Nat, i < 65536 ∧ a + i ∉ registers
    else ∀ a ∈ registers, 0 ≤ a ∧ a ≤ 65535

theorem RequestOnce.of_areMaximal {readByGroup : Bool} {registers : List Int} {steps : List ReadStep}
    (h : Runs.AreMaximal (· ∈ registers) (steps.map ReadStep.extent)) :
    RequestOnce readByGroup registers steps := by
  refine ⟨List.pairwise_map.mp h.disjoint, fun a => ?_, fun _ => h⟩
  rw [← h.covers_iff a]
  constructor
  · rintro ⟨s, hs, ha⟩
    exact ⟨s.extent, List.mem_map_of_mem hs, ha⟩
  · rintro ⟨r, hr, ha⟩
    obtain ⟨s, hs, rfl⟩ := List.mem_map.mp hr
    exact ⟨s, hs, ha⟩

/-! ### Single reading -/

section Single

variable {J : Type*} {env : Settings J} {values : List (ValueRead J)} {regType : RegType}

theorem extent_single :
    (stepsOf env values false regType).map ReadStep.extent =
      (registersOf env values regType).map fun reg => ((asU16 reg : Int), 1) := by
  rw [extent_stepsOf, binsOf, if_neg Bool.false_ne_true, List.map_map]
  refine List.map_congr_left fun reg _ => ?_
  show ((asU16 reg : Int), asU16 (asI32 1)) = _
  rfl

theorem requestOnce_single_iff :
    RequestOnce false (registersOf env values regType) (stepsOf env values false regType) ↔
      Separate false (registersOf env values regType) := by
  have hcovers : ∀ a, (∃ s ∈ stepsOf env values false regType, s.Covers a) ↔
      ∃ reg ∈ registersOf env values regType, (asU16 reg : Int) = a := by
    intro a
    have hmem : ∀ r, (∃ s ∈ stepsOf env values false regType, s.extent = r) ↔
        ∃ reg ∈ registersOf env values regType, ((asU16 reg : Int), 1) = r := by
      intro r
      rw [← List.mem_map, extent_single, List.mem_map]
    constructor
    · rintro ⟨s, hs, hle, hlt⟩
      obtain ⟨reg, hreg, heq⟩ := (hmem s.extent).mp ⟨s, hs, rfl⟩
      obtain ⟨hstart, hlength⟩ := Prod.mk.inj heq
      exact ⟨reg, hreg, by omega⟩
    · rintro ⟨reg, hreg, rfl⟩
      obtain ⟨s, hs, heq⟩ := (hmem _).mpr ⟨reg, hreg, rfl⟩
      obtain ⟨hstart, hlength⟩ := Prod.mk.inj heq
      exact ⟨s, hs, by omega, by omega⟩
  have hdisjoint : (stepsOf env values false regType).Pairwise
      (fun s s' => ∀ a, ¬(s.Covers a ∧ s'.Covers a)) ↔
        ((registersOf env values regType).map asU16).Nodup := by
    rw [List.Nodup, List.pairwise_map]
    have hextents : (stepsOf env values false regType).Pairwise
        (fun s s' => ∀ a, ¬(s.Covers a ∧ s'.Covers a)) ↔
          ((stepsOf env values false regType).map ReadStep.extent).Pairwise fun r r' => ∀ a : Int,
            ¬((r.1 ≤ a ∧ a < r.1 + r.2) ∧ r'.1 ≤ a ∧ a < r'.1 + r'.2) := by
      rw [List.pairwise_map]
      exact Iff.rfl
    rw [hextents, extent_single, List.pairwise_map]
    refine List.Pairwise.iff fun reg reg' => ?_
    constructor
    · intro h heq
      exact h (asU16 reg) ⟨⟨by omega, by omega⟩, by omega, by omega⟩
    · rintro h a ⟨⟨hle, hlt⟩, hle', hlt'⟩
      exact h (by omega)
  constructor
  · rintro ⟨hsteps, hunion, -⟩
    have hnodup := hdisjoint.mp hsteps
    refine ⟨hnodup.of_map, ?_⟩
    rw [if_neg Bool.false_ne_true]
    intro a ha
    obtain ⟨reg, -, rfl⟩ := (hcovers a).mp ((hunion a).mpr ha)
    have := asU16_lt reg
    omega
  · rintro ⟨hnodup, hin⟩
    rw [if_neg Bool.false_ne_true] at hin
    have hcast : ∀ a ∈ registersOf env values regType, (asU16 a : Int) = a :=
      fun a ha => asU16_of_lt (hin a ha).1 (by have := (hin a ha).2; omega)
    refine ⟨hdisjoint.mpr ?_, fun a => ?_, fun h => by cases h⟩
    · refine hnodup.map_on fun a ha b hb heq => ?_
      rw [← hcast a ha, ← hcast b hb, heq]
    · rw [hcovers]
      constructor
      · rintro ⟨reg, hreg, rfl⟩
        rwa [hcast reg hreg]
      · intro ha
        exact ⟨a, ha, hcast a ha⟩

end Single

/-! ### Group reading -/

theorem castExtent_le (bin : List Int) :
    0 ≤ (castExtent bin).1 ∧ (0 ≤ (Runs.extent bin).1 → (castExtent bin).1 ≤ (Runs.extent bin).1) ∧
      (castExtent bin).2 ≤ (Runs.extent bin).2 := by
  simp only [castExtent, Runs.extent]
  exact ⟨Int.natCast_nonneg _, asU16_le, asU16_length_le bin.length⟩

theorem castExtent_eq {bin : List Int} (h : 0 ≤ (Runs.extent bin).1 ∧ (Runs.extent bin).1 ≤ 65535)
    (hlen : (Runs.extent bin).2 < 65536) : castExtent bin = Runs.extent bin := by
  simp only [castExtent, Runs.extent] at *
  have hlength : asI32 bin.length = bin.length := asI32_of_lt (by omega) (by omega)
  have hcast : asU16 bin.length = bin.length := by
    unfold asU16
    omega
  rw [hlength, hcast, asU16_of_lt h.1 (by omega)]

/-- A cast makes no register larger and no bin longer. So bins whose cast extents are the maximal
stretches of the registers were the maximal stretches before the cast. -/
theorem exact_of_areMaximal {bins : List (List Int)} (hnil : [] ∉ bins)
    (hcons : ∀ g ∈ bins, Runs.Consecutive g) (hsorted : bins.flatten.Pairwise (· ≤ ·))
    (h : Runs.AreMaximal (· ∈ bins.flatten) (bins.map castExtent)) :
    bins.flatten.Nodup ∧ ∀ g ∈ bins, castExtent g = Runs.extent g := by
  induction bins with
  | nil => exact ⟨List.nodup_nil, fun g hg => absurd hg List.not_mem_nil⟩
  | cons g bins ih =>
      have hne : g ≠ [] := fun h => hnil (h ▸ List.mem_cons_self)
      have hg := hcons g List.mem_cons_self
      have hmem := fun a => hg.mem_extent hne (a := a)
      have hpos : 0 < (Runs.extent g).2 := List.length_pos_iff.mpr hne
      rw [List.flatten_cons, List.pairwise_append] at hsorted
      obtain ⟨-, hrest, hcross⟩ := hsorted
      have hin : ∀ a ∈ g, a ∈ (g :: bins).flatten := fun a ha => by
        rw [List.flatten_cons]
        exact List.mem_append_left _ ha
      have hnonneg : ∀ a ∈ (g :: bins).flatten, 0 ≤ a := by
        intro a ha
        obtain ⟨r, hr, hle, -⟩ := h.covers a ha
        obtain ⟨g', -, rfl⟩ := List.mem_map.mp hr
        exact (castExtent_le g').1.trans hle
      have hhead : (Runs.extent g).1 ∈ g := by
        rw [hmem]
        omega
      -- the first stretch starts where the first bin does, and ends where it does
      have hfirst := h.maximal (castExtent g) List.mem_cons_self
      obtain ⟨-, hstart, hlen⟩ := castExtent_le g
      have hstart := hstart (hnonneg _ (hin _ hhead))
      have heq : (castExtent g).1 = (Runs.extent g).1 := by
        have hle := h.head_le (hin _ hhead)
        have hback : (Runs.extent g).1 ≤ (castExtent g).1 := by
          have := hfirst.head_mem
          rw [List.flatten_cons, List.mem_append] at this
          rcases this with hc | hc
          · exact ((hmem _).mp hc).1
          · exact hcross _ hhead _ hc
        omega
      have heq' : (castExtent g).2 = (Runs.extent g).2 := by
        by_contra hne'
        refine hfirst.after (hin _ ?_)
        rw [hmem, heq]
        omega
      have hcast : castExtent g = Runs.extent g := Prod.ext heq heq'
      rw [hcast] at hfirst
      -- what follows begins behind a gap
      have hlater : ∀ b ∈ bins.flatten, (Runs.extent g).1 + (Runs.extent g).2 < b := by
        intro b hb
        obtain ⟨g', hg', hb'⟩ := List.mem_flatten.mp hb
        have hne' : g' ≠ [] := List.ne_nil_of_mem hb'
        have hmem' := fun a => (hcons g' (List.mem_cons_of_mem g hg')).mem_extent hne' (a := a)
        have hpos' : 0 < (Runs.extent g').2 := List.length_pos_iff.mpr hne'
        have hhead' : (Runs.extent g').1 ∈ g' := by
          rw [hmem']
          omega
        have hin' : castExtent g' ∈ bins.map castExtent := List.mem_map_of_mem hg'
        have hgap := hfirst.gap (h.maximal _ (List.mem_cons_of_mem _ hin'))
          (hcast ▸ (List.pairwise_cons.mp h.sorted).1 _ hin')
        have hnonneg' := hnonneg _ (List.mem_flatten_of_mem (List.mem_cons_of_mem g hg') hhead')
        have hle := (castExtent_le g').2.1 hnonneg'
        have hb' := (hmem' b).mp hb'
        omega
      have hout : ∀ b ∈ bins.flatten, b ∉ g := by
        intro b hb hbg
        have := hlater b hb
        have := (hmem b).mp hbg
        omega
      obtain ⟨hnodup, hexact⟩ := ih (fun h => hnil (List.mem_cons_of_mem g h))
        (fun g' hg' => hcons g' (List.mem_cons_of_mem g hg')) hrest
        { sorted := (List.pairwise_cons.mp h.sorted).2
          maximal := by
            intro r hr
            have hr' := h.maximal r (List.mem_cons_of_mem _ hr)
            have hgap := hfirst.gap hr' (hcast ▸ (List.pairwise_cons.mp h.sorted).1 r hr)
            have hsub : ∀ a, a ∈ bins.flatten → a ∈ (g :: bins).flatten := fun a ha => by
              rw [List.flatten_cons]
              exact List.mem_append_right _ ha
            refine ⟨hr'.pos, fun a hle hlt => ?_, fun h => hr'.before (hsub _ h),
              fun h => hr'.after (hsub _ h)⟩
            have ha := hr'.mem a hle hlt
            rw [List.flatten_cons, List.mem_append] at ha
            refine ha.resolve_left fun hag => ?_
            have := (hmem a).mp hag
            omega
          covers := by
            intro a ha
            obtain ⟨r, hr, hle, hlt⟩ := h.covers a (by
              rw [List.flatten_cons]
              exact List.mem_append_right _ ha)
            rcases List.mem_cons.mp hr with rfl | hr
            · have := hlater a ha
              rw [hcast] at hle hlt
              omega
            · exact ⟨r, hr, hle, hlt⟩ }
      refine ⟨?_, List.forall_mem_cons.mpr ⟨hcast, hexact⟩⟩
      rw [List.flatten_cons, List.nodup_append]
      exact ⟨hg.nodup, hnodup, fun a ha b hb heq => hout b hb (heq ▸ ha)⟩

section Group

variable {J : Type*} {env : Settings J} {values : List (ValueRead J)} {regType : RegType}

theorem extent_group :
    (stepsOf env values true regType).map ReadStep.extent =
      (regSort (registersOf env values regType)).map castExtent := by
  rw [extent_stepsOf, binsOf, if_pos rfl]

theorem requestOnce_group_iff :
    RequestOnce true (registersOf env values regType) (stepsOf env values true regType) ↔
      Separate true (registersOf env values regType) := by
  generalize hreg : registersOf env values regType = registers
  have hextents : (stepsOf env values true regType).map ReadStep.extent =
      (regSort registers).map castExtent := by
    rw [extent_group, hreg]
  have hsorted := List.pairwise_mergeSort' (· ≤ ·) registers
  constructor
  · rintro ⟨-, -, hruns⟩
    have hmaximal := hruns rfl
    rw [hextents] at hmaximal
    have hnonneg : ∀ a ∈ registers, 0 ≤ a := by
      intro a ha
      obtain ⟨r, hr, hle, -⟩ := hmaximal.covers a ha
      obtain ⟨g, -, rfl⟩ := List.mem_map.mp hr
      exact (castExtent_le g).1.trans hle
    have hflat : Runs.AreMaximal (· ∈ (regSort registers).flatten)
        ((regSort registers).map castExtent) := by
      simpa only [mem_flatten_regSort] using hmaximal
    obtain ⟨hnodup, hexact⟩ := exact_of_areMaximal (nil_notMem_regSort registers)
      (fun g hg => consecutive_of_mem_regSort hg fun a ha =>
        hnonneg a (mem_flatten_regSort.mp (List.mem_flatten_of_mem hg ha)))
      (by rwa [flatten_regSort]) hflat
    rw [flatten_regSort, (List.mergeSort_perm registers _).nodup_iff] at hnodup
    refine ⟨hnodup, ?_⟩
    rw [if_pos rfl]
    have hcast : ∀ r ∈ (regSort registers).map castExtent, r.1 ≤ 65535 ∧ r.2 < 65536 := by
      intro r hr
      obtain ⟨g, -, rfl⟩ := List.mem_map.mp hr
      simp only [castExtent]
      have := asU16_lt (g.headD 0)
      exact ⟨by omega, asU16_lt _⟩
    refine ⟨?_, ?_⟩
    · intro a ha hfirst
      obtain ⟨r, hr, hle, hlt⟩ := hmaximal.covers a ha
      have := hcast r hr
      refine ⟨hnonneg a ha, ?_⟩
      -- a register without its predecessor starts the stretch that covers it
      by_contra hfar
      exact hfirst ((hmaximal.maximal r hr).mem (a - 1) (by omega) (by omega))
    · intro a
      by_contra hall
      push Not at hall
      have ha : a ∈ registers := by simpa using hall 0 (by omega)
      obtain ⟨r, hr, hle, hlt⟩ := hmaximal.covers a ha
      have hlen := (hcast r hr).2
      refine (hmaximal.maximal r hr).after ?_
      have := hall (r.1 + r.2 - a).toNat (by omega)
      rwa [show a + ((r.1 + r.2 - a).toNat : Int) = r.1 + r.2 by omega] at this
  · rintro ⟨hnodup, hrange⟩
    rw [if_pos rfl] at hrange
    obtain ⟨hstarts, hshort⟩ := hrange
    have hperm := List.mergeSort_perm registers (· ≤ ·)
    have hmaximal := Runs.areMaximal_runs hsorted (hperm.nodup_iff.mpr hnodup)
    simp only [List.mem_mergeSort] at hmaximal
    have hrun : ∀ r ∈ (Runs.runs (registers.mergeSort (· ≤ ·))).map Runs.extent,
        (0 ≤ r.1 ∧ r.1 ≤ 65535) ∧ r.2 < 65536 := by
      intro r hr
      have hmax := hmaximal.maximal r hr
      refine ⟨hstarts r.1 hmax.head_mem hmax.before, ?_⟩
      by_contra hlong
      obtain ⟨i, hi, hnot⟩ := hshort r.1
      exact hnot (hmax.mem (r.1 + i) (by omega) (by omega))
    have hlt : ∀ a ∈ registers, 0 ≤ a ∧ a < 2147483647 := by
      intro a ha
      obtain ⟨r, hr, hle, hlt⟩ := hmaximal.covers a ha
      have := hrun r hr
      omega
    apply RequestOnce.of_areMaximal
    rw [hextents, regSort_eq_runs_of_lt hlt]
    refine Eq.mp (congrArg _ (List.map_congr_left fun g hg => ?_)) hmaximal
    obtain ⟨hstart, hlen⟩ := hrun _ (List.mem_map_of_mem hg)
    exact (castExtent_eq hstart hlen).symm

end Group

section Plan

variable {J : Type*} (env : Settings J) (values : List (ValueRead J)) (readByGroup : Bool)

/-- **Each register once.** The steps of a register type request each of its registers once exactly
if no register is asked for twice and the registers survive the casts. -/
theorem registers_requested_once : ∃ pool, PollValueIterator.init env values readByGroup = some pool ∧
    ∀ regType, RequestOnce readByGroup (registersOf env values regType) (pool.ofType regType) ↔
      Separate readByGroup (registersOf env values regType) := by
  refine ⟨_, init_eq readByGroup, fun regType => ?_⟩
  rw [ofType_eq (init_eq readByGroup)]
  cases readByGroup with
  | false => exact requestOnce_single_iff
  | true => exact requestOnce_group_iff

end Plan

/-- Two bits of one word. -/
def sharedWord : List (ValueRead (Int × Int)) := [⟨1, 3, (5, 0), true⟩, ⟨2, 3, (5, 1), true⟩]

/-- There are two requests for the word, in both modes. -/
theorem shared_word_requested_twice :
    (¬∃ pool, PollValueIterator.init pairSettings sharedWord false = some pool ∧
      RequestOnce false (registersOf pairSettings sharedWord .holding) (pool.ofType .holding)) ∧
    ¬∃ pool, PollValueIterator.init pairSettings sharedWord true = some pool ∧
      RequestOnce true (registersOf pairSettings sharedWord .holding) (pool.ofType .holding) := by
  have hnodup : ¬(registersOf pairSettings sharedWord .holding).Nodup := by decide
  refine ⟨?_, ?_⟩
  · rintro ⟨pool, hpool, h⟩
    rw [ofType_eq hpool] at h
    exact hnodup (requestOnce_single_iff.mp h).1
  · rintro ⟨pool, hpool, h⟩
    rw [ofType_eq hpool] at h
    exact hnodup (requestOnce_group_iff.mp h).1

/-! ## Legal requests -/

/-- The most registers or bits that one request may ask for. -/
def RegType.protocolMax : RegType → Nat
  | .coils => 2000
  | .discrete => 2000
  | .input => 125
  | .holding => 125

/-- The protocol allows the request. -/
structure ReadStep.Legal (s : ReadStep) : Prop where
  pos : 1 ≤ s.length
  short : s.length ≤ s.regType.protocolMax
  inside : s.start + s.length ≤ 65536

section Legal

variable {J : Type*} {env : Settings J} {values : List (ValueRead J)} {readByGroup : Bool}

/-- A request is legal exactly if its bin is not too long. -/
theorem stepOf_legal_iff (hrange : AddressesInRange env values) {regType : RegType} {bin : List Int}
    (h : bin ∈ binsOf env values readByGroup regType) (content : List RegisterDecodingPlugin) :
    (stepOf regType bin content).Legal ↔ bin.length ≤ regType.protocolMax := by
  obtain ⟨hne, hcons, hin⟩ := bin_spec hrange h
  have hpos := List.length_pos_iff.mpr hne
  obtain ⟨hstart, hlong, hlength⟩ := step_range hrange h content hpos
  have htype : (stepOf regType bin content).regType = regType := rfl
  have hmax : regType.protocolMax < 65536 := by cases regType <;> decide
  constructor
  · rintro ⟨hpos', hshort, -⟩
    rw [htype] at hshort
    split at hlength <;> omega
  · intro hshort
    have hlast := hin (bin[bin.length - 1]) (List.getElem_mem (by omega))
    rw [hcons _ (by omega)] at hlast
    rw [if_neg (by omega)] at hlength
    refine ⟨by omega, ?_, by omega⟩
    rw [htype]
    omega

/-- Some bin of group reading is longer than `n` exactly if more than `n` consecutive registers are
asked for and only the outer ones of them repeatedly. -/
theorem exists_long_bin_iff (hrange : AddressesInRange env values) {regType : RegType} {n : Nat}
    (hn : 0 < n) : (∃ bin ∈ binsOf env values true regType, n < bin.length) ↔
      ∃ a, Runs.FullRange a (a + n) (registersOf env values regType) := by
  have hperm := List.mergeSort_perm (registersOf env values regType) (· ≤ ·)
  have hfull : ∀ a, Runs.FullRange a (a + n) (registersOf env values regType) ↔
      ∃ g ∈ binsOf env values true regType, a ∈ g ∧ a + n ∈ g := by
    intro a
    rw [binsOf, if_pos rfl, regSort_eq_runs hrange, Runs.full_run_iff
      (List.pairwise_mergeSort' (· ≤ ·) (registersOf env values regType)) (by omega)]
    simp only [Runs.FullRange, hperm.mem_iff, hperm.count_eq]
  constructor
  · rintro ⟨bin, hbin, hlong⟩
    obtain ⟨-, hcons, -⟩ := bin_spec hrange hbin
    refine ⟨bin[0], (hfull _).mpr ⟨bin, hbin, ?_, ?_⟩⟩
    · exact List.getElem_mem (by omega)
    · rw [hcons.mem_iff (by omega)]
      omega
  · rintro ⟨a, ha⟩
    obtain ⟨bin, hbin, hlo, hhi⟩ := (hfull a).mp ha
    obtain ⟨-, hcons, -⟩ := bin_spec hrange hbin
    refine ⟨bin, hbin, ?_⟩
    have hpos := List.length_pos_of_mem hlo
    rw [hcons.mem_iff hpos] at hlo hhi
    omega

theorem mem_steps_iff {pool : PollValueIterator}
    (hpool : PollValueIterator.init env values readByGroup = some pool) {step : ReadStep} :
    step ∈ pool.steps ↔ ∃ regType, step ∈ stepsOf env values readByGroup regType := by
  simp only [← ofType_eq hpool, PollValueIterator.steps, List.mem_append]
  constructor
  · rintro (((h | h) | h) | h)
    · exact ⟨.coils, h⟩
    · exact ⟨.discrete, h⟩
    · exact ⟨.holding, h⟩
    · exact ⟨.input, h⟩
  · rintro ⟨regType, h⟩
    cases regType with
    | coils => exact .inl (.inl (.inl h))
    | discrete => exact .inl (.inl (.inr h))
    | input => exact .inr h
    | holding => exact .inl (.inr h)

/-- The steps are legal if the bins are short. -/
theorem steps_legal_iff (hrange : AddressesInRange env values) {pool : PollValueIterator}
    (hpool : PollValueIterator.init env values readByGroup = some pool) :
    (∀ step ∈ pool.steps, step.Legal) ↔
      ∀ regType, ∀ bin ∈ binsOf env values readByGroup regType, bin.length ≤ regType.protocolMax := by
  simp only [mem_steps_iff hpool]
  constructor
  · intro h regType bin hbin
    obtain ⟨k, hk⟩ := List.mem_iff_getElem?.mp hbin
    obtain ⟨content, -, hstep⟩ := exists_step hk
    exact (stepOf_legal_iff hrange hbin content).mp (h _ ⟨regType, List.mem_of_getElem? hstep⟩)
  · rintro h step ⟨regType, hstep⟩
    obtain ⟨k, hk⟩ := List.mem_iff_getElem?.mp hstep
    obtain ⟨bin, content, hbin, -, rfl⟩ := getElem?_stepsOf hk
    exact (stepOf_legal_iff hrange (List.mem_of_getElem? hbin) content).mpr
      (h regType bin (List.mem_of_getElem? hbin))

end Legal

/-- **Legal requests.** Register by register every request is legal. In groups all are, exactly if
no register type has more consecutive registers than one request may ask for, those between the first
and the last of them asked for once. -/
theorem requests_legal_iff {J : Type*} (env : Settings J) (values : List (ValueRead J))
    (readByGroup : Bool) (hrange : AddressesInRange env values) :
    (∃ pool, PollValueIterator.init env values readByGroup = some pool ∧
      ∀ step ∈ pool.steps, step.Legal) ↔
    (readByGroup = true → ∀ regType : RegType, ∀ a : Int,
      ¬Runs.FullRange a (a + regType.protocolMax) (registersOf env values regType)) := by
  have hmax : ∀ regType : RegType, 0 < regType.protocolMax := fun regType => by
    cases regType <;> decide
  have hlegal : (∃ pool, PollValueIterator.init env values readByGroup = some pool ∧
      ∀ step ∈ pool.steps, step.Legal) ↔
        ∀ regType, ∀ bin ∈ binsOf env values readByGroup regType, bin.length ≤ regType.protocolMax := by
    constructor
    · rintro ⟨pool, hpool, h⟩
      exact (steps_legal_iff hrange hpool).mp h
    · intro h
      exact ⟨_, init_eq readByGroup, (steps_legal_iff hrange (init_eq readByGroup)).mpr h⟩
  rw [hlegal]
  cases readByGroup with
  | false =>
      refine ⟨fun _ h => (by cases h), fun _ regType bin hbin => ?_⟩
      rw [binsOf, if_neg Bool.false_ne_true, List.mem_map] at hbin
      obtain ⟨reg, -, rfl⟩ := hbin
      exact hmax regType
  | true =>
      constructor
      · intro h _ regType a ha
        obtain ⟨bin, hbin, hlong⟩ := (exists_long_bin_iff hrange (hmax regType)).mpr ⟨a, ha⟩
        have := h regType bin hbin
        omega
      · intro h regType bin hbin
        by_contra hlong
        obtain ⟨a, ha⟩ := (exists_long_bin_iff hrange (hmax regType)).mp ⟨bin, hbin, by omega⟩
        exact h rfl regType a ha

/-- A pair in one run. -/
theorem requests_legal_iff_pair :
    (∃ pool, PollValueIterator.init pairSettings [⟨2, 2, (6, 5), true⟩] true = some pool ∧
      ∀ step ∈ pool.steps, step.Legal) ↔
    (true = true → ∀ regType : RegType, ∀ a : Int, ¬Runs.FullRange a (a + regType.protocolMax)
      (registersOf pairSettings [⟨2, 2, (6, 5), true⟩] regType)) :=
  requests_legal_iff pairSettings _ true (by unfold AddressesInRange; decide)

/-- Values on 126 consecutive registers are read with one request for all of them. -/
theorem long_run_illegal :
    AddressesInRange pairSettings (firstAddresses 126) ∧
      ¬∃ pool, PollValueIterator.init pairSettings (firstAddresses 126) true = some pool ∧
        ∀ step ∈ pool.steps, step.Legal := by
  have hrange := firstAddresses_inRange 126 (by decide)
  refine ⟨hrange, ?_⟩
  rintro ⟨pool, hpool, h⟩
  obtain ⟨bin, hbin, hlong⟩ := (exists_long_bin_iff hrange (n := 125) (by decide)).mpr
    ⟨0, firstAddresses_fullRange 126⟩
  have hshort := (steps_legal_iff hrange hpool).mp h .holding bin hbin
  exact absurd hlong (Nat.not_lt.mpr hshort)

/-! ## Address arithmetic -/

/-- The numbers that `ReadStep::new` is called with. -/
def planned (readByGroup : Bool) (registers : List Int) : List (Int × Nat) :=
  if readByGroup then (regSort registers).map Runs.extent else registers.map fun reg => (reg, 1)

/-- The sums `last + 1` that `reg_sort` computes. -/
def successors (registers : List Int) : List Int :=
  ((registers.mergeSort (· ≤ ·)).foldl
    (fun s reg => (extendRun s.1 reg, s.2 ++ (s.1.2.getLast?.map (· + 1)).toList))
    (([], []), [])).2

/-- `get_start() + get_length()` in the message about a removed step, unless the `u16` overflows. -/
def ReadStep.addrEnd (s : ReadStep) : Option Nat :=
  if s.start + s.length < 65536 then some (s.start + s.length) else none

/-- The arithmetic of planning and of polling is exact on the registers of a device. -/
structure ExactArithmetic {J : Type*} (env : Settings J) (values : List (ValueRead J))
    (readByGroup : Bool) (pool : PollValueIterator) : Prop where
  casts : ∀ regType, (pool.ofType regType).map ReadStep.extent =
    planned readByGroup (initPlugins env values regType).registers
  sums : readByGroup = true → ∀ regType,
    ∀ next ∈ successors (initPlugins env values regType).registers, next < 2147483648
  ends : ∀ step ∈ pool.steps, step.addrEnd.isSome

/-- What is computed are the successors of registers. -/
theorem exists_of_mem_successors {registers : List Int} {next : Int}
    (h : next ∈ successors registers) : ∃ a ∈ registers, next = a + 1 := by
  suffices hfold : ∀ l : List Int,
      let s := l.foldl (fun s reg => (extendRun s.1 reg, s.2 ++ (s.1.2.getLast?.map (· + 1)).toList))
        ((([], []), []) : (List (List Int) × List Int) × List Int)
      (∀ a ∈ s.1.2.getLast?, a ∈ l) ∧ ∀ next ∈ s.2, ∃ a ∈ l, next = a + 1 by
    obtain ⟨a, ha, hnext⟩ := (hfold _).2 next h
    exact ⟨a, List.mem_mergeSort.mp ha, hnext⟩
  intro l
  induction l using List.reverseRecOn with
  | nil => simp
  | append_singleton l reg ih =>
      rw [List.foldl_append, List.foldl_cons, List.foldl_nil]
      generalize l.foldl _ _ = s at ih
      obtain ⟨hlast, hnexts⟩ := ih
      refine ⟨fun a ha => ?_, fun next hnext => ?_⟩
      · -- the run ends with the register that was added
        have hreg : a = reg := by
          simp only [extendRun] at ha
          split at ha
          · simpa using ha.symm
          · split at ha <;> simpa using ha.symm
        rw [hreg]
        exact List.mem_concat_self
      · rcases List.mem_append.mp hnext with hnext | hnext
        · obtain ⟨a, ha, rfl⟩ := hnexts next hnext
          exact ⟨a, List.mem_append_left _ ha, rfl⟩
        · rw [Option.mem_toList, Option.map_eq_some_iff] at hnext
          obtain ⟨a, ha, rfl⟩ := hnext
          exact ⟨a, List.mem_append_left _ (hlast a ha), rfl⟩

theorem extent_le_of_mem_regSort {registers g : List Int} (hg : g ∈ regSort registers) {a : Int}
    (ha : a ∈ g) : (Runs.extent g).1 ≤ a := by
  have hsorted := List.pairwise_mergeSort' (· ≤ ·) registers
  rw [← flatten_regSort, List.pairwise_flatten] at hsorted
  obtain ⟨b, t, rfl⟩ := List.exists_cons_of_ne_nil (List.ne_nil_of_mem ha)
  rcases List.mem_cons.mp ha with rfl | ha
  · exact le_refl _
  · exact (List.pairwise_cons.mp (hsorted.1 _ hg)).1 a ha

section Exact

variable {J : Type*} {env : Settings J} {values : List (ValueRead J)} {regType : RegType}

theorem registers_initPlugins :
    (initPlugins env values regType).registers = registersOf env values regType := by
  rw [initPlugins_eq]

theorem planned_eq (readByGroup : Bool) :
    planned readByGroup (registersOf env values regType) =
      (binsOf env values readByGroup regType).map Runs.extent := by
  cases readByGroup with
  | false =>
      rw [planned, binsOf, if_neg Bool.false_ne_true, if_neg Bool.false_ne_true, List.map_map]
      rfl
  | true => rw [planned, binsOf, if_pos rfl, if_pos rfl]

/-- A bin without negative registers. -/
theorem bin_mem_extent {readByGroup : Bool} {bin : List Int}
    (h : bin ∈ binsOf env values readByGroup regType) :
    bin ≠ [] ∧ (∀ a ∈ bin, (Runs.extent bin).1 ≤ a) ∧ ((∀ a ∈ bin, 0 ≤ a) →
      ∀ a, a ∈ bin ↔ (Runs.extent bin).1 ≤ a ∧ a < (Runs.extent bin).1 + (Runs.extent bin).2) := by
  cases readByGroup with
  | false =>
      rw [binsOf, if_neg Bool.false_ne_true, List.mem_map] at h
      obtain ⟨reg, -, rfl⟩ := h
      refine ⟨List.cons_ne_nil _ _, fun a ha => ?_, fun _ a => ?_⟩
      · rw [List.mem_singleton.mp ha]
        exact le_refl _
      · rw [List.mem_singleton]
        show a = reg ↔ reg ≤ a ∧ a < reg + 1
        omega
  | true =>
      rw [binsOf, if_pos rfl] at h
      have hne : bin ≠ [] := fun hnil => nil_notMem_regSort _ (hnil ▸ h)
      exact ⟨hne, fun a ha => extent_le_of_mem_regSort h ha,
        fun hin a => (consecutive_of_mem_regSort h hin).mem_extent hne⟩

/-- The numbers of a bin survive the casts and their sum does not overflow exactly if its registers
are addresses other than the last one. -/
theorem bin_exact_iff {readByGroup : Bool} {bin : List Int}
    (h : bin ∈ binsOf env values readByGroup regType) :
    (castExtent bin = Runs.extent bin ∧ (castExtent bin).1 + (castExtent bin).2 < 65536) ↔
      ∀ a ∈ bin, 0 ≤ a ∧ a ≤ 65534 := by
  obtain ⟨hne, hle, hmem⟩ := bin_mem_extent h
  have hpos : 0 < (Runs.extent bin).2 := List.length_pos_iff.mpr hne
  constructor
  · rintro ⟨hcast, hend⟩
    have hnonneg : ∀ a ∈ bin, 0 ≤ a := fun a ha =>
      (hcast ▸ (castExtent_le bin).1).trans (hle a ha)
    intro a ha
    have := (hmem hnonneg a).mp ha
    rw [hcast] at hend
    exact ⟨hnonneg a ha, by omega⟩
  · intro hin
    have hmem := hmem fun a ha => (hin a ha).1
    have hfirst := hin _ ((hmem (Runs.extent bin).1).mpr ⟨le_refl _, by omega⟩)
    have hlast := hin _ ((hmem ((Runs.extent bin).1 + (Runs.extent bin).2 - 1)).mpr
      ⟨by omega, by omega⟩)
    have hcast : castExtent bin = Runs.extent bin :=
      castExtent_eq ⟨hfirst.1, by omega⟩ (by omega)
    exact ⟨hcast, by rw [hcast]; omega⟩

end Exact

/-- **Exact arithmetic.** The numbers of the requests are those that were planned, and neither the
successors nor the ends of the ranges overflow, exactly if every register is in `0..=65534`. -/
theorem exact_arithmetic_iff {J : Type*} (env : Settings J) (values : List (ValueRead J))
    (readByGroup : Bool) : ∃ pool, PollValueIterator.init env values readByGroup = some pool ∧
      (ExactArithmetic env values readByGroup pool ↔
        ∀ regType, ∀ a ∈ (initPlugins env values regType).registers, 0 ≤ a ∧ a ≤ 65534) := by
  refine ⟨_, init_eq readByGroup, ?_⟩
  generalize hpool : PollValueIterator.mk _ _ _ _ = pool
  have hinit : PollValueIterator.init env values readByGroup = some pool := by
    rw [init_eq, hpool]
  have hbins : (∀ regType, ∀ a ∈ registersOf env values regType, 0 ≤ a ∧ a ≤ 65534) ↔
      ∀ regType, ∀ bin ∈ binsOf env values readByGroup regType, ∀ a ∈ bin, 0 ≤ a ∧ a ≤ 65534 := by
    refine forall_congr' fun regType => ?_
    have hmem : ∀ a, a ∈ (binsOf env values readByGroup regType).flatten ↔
        a ∈ registersOf env values regType := fun a => mem_binsOf
    simp only [← hmem, List.mem_flatten]
    constructor
    · intro h bin hbin a ha
      exact h a ⟨bin, hbin, ha⟩
    · rintro h a ⟨bin, hbin, ha⟩
      exact h bin hbin a ha
  simp only [registers_initPlugins]
  rw [hbins]
  constructor
  · rintro ⟨hcasts, -, hends⟩ regType bin hbin
    rw [← bin_exact_iff hbin]
    have hcast := hcasts regType
    rw [registers_initPlugins, ofType_eq hinit, extent_stepsOf, planned_eq] at hcast
    refine ⟨List.map_inj_left.mp hcast bin hbin, ?_⟩
    obtain ⟨step, hstep, heq⟩ : ∃ step ∈ stepsOf env values readByGroup regType,
        step.extent = castExtent bin := by
      rw [← List.mem_map, extent_stepsOf]
      exact List.mem_map_of_mem hbin
    have hend := hends step ((mem_steps_iff hinit).mpr ⟨regType, hstep⟩)
    rw [← heq]
    unfold ReadStep.addrEnd at hend
    split at hend
    · next hlt =>
      simp only [ReadStep.extent]
      omega
    · cases hend
  · intro hin
    have hexact := fun regType bin hbin => (bin_exact_iff hbin).mpr (hin regType bin hbin)
    refine ⟨fun regType => ?_, fun _ regType next hnext => ?_, fun step hstep => ?_⟩
    · rw [registers_initPlugins, ofType_eq hinit, extent_stepsOf, planned_eq]
      exact List.map_congr_left fun bin hbin => (hexact regType bin hbin).1
    · rw [registers_initPlugins] at hnext
      obtain ⟨a, ha, rfl⟩ := exists_of_mem_successors hnext
      have := hbins.mpr hin regType a ha
      omega
    · obtain ⟨regType, hstep⟩ := (mem_steps_iff hinit).mp hstep
      obtain ⟨bin, hbin, heq⟩ := List.mem_map.mp
        (extent_stepsOf ▸ List.mem_map_of_mem (f := ReadStep.extent) hstep)
      have hend := (hexact regType bin hbin).2
      rw [heq] at hend
      simp only [ReadStep.extent] at hend
      unfold ReadStep.addrEnd
      rw [if_pos (by omega)]
      rfl

/-- A value on the last address is accepted, and the end of its range overflows. -/
theorem last_address_overflows :
    checkJson pairSettings (fun _ => "") 1 (65535, 0) = .ok () ∧
      ¬∃ pool, PollValueIterator.init pairSettings [⟨1, 1, (65535, 0), true⟩] false = some pool ∧
        ExactArithmetic pairSettings [⟨1, 1, (65535, 0), true⟩] false pool := by
  refine ⟨rfl, ?_⟩
  rintro ⟨pool, hpool, h⟩
  have hbin : [65535] ∈ binsOf pairSettings [⟨1, 1, (65535, 0), true⟩] false .holding := by decide
  have hextents := h.casts .holding
  rw [registers_initPlugins, planned_eq] at hextents
  obtain ⟨step, hstep, heq⟩ := List.mem_map.mp (hextents ▸ List.mem_map_of_mem hbin)
  obtain ⟨hstart, hlength⟩ := Prod.mk.inj heq
  have hend := h.ends step ((mem_steps_iff hpool).mpr ⟨.holding, ofType_eq hpool .holding ▸ hstep⟩)
  rw [ReadStep.addrEnd, if_neg] at hend
  · cases hend
  · simp only [List.headD_cons, List.length_singleton] at hstart hlength
    omega

end ModbusLogger.Reader
