import ModbusLogger.Lib.FirstFit
import ModbusLogger.Lib.Runs
import ModbusLogger.Reader.PoolIterator

/-!
# How the plugins are distributed

Both planners are first fit: the bins are lists of registers, and a bin accepts a plugin if it has
all registers that the plugin needs. They differ in the bins only. Single reading has a bin for each
register, group reading a bin for each run of consecutive registers.
-/

namespace ModbusLogger.Reader

open FixedWidth

/-! ## What decides about a plugin -/

namespace SatecDoubleRegistersInt32

def config (p : SatecDoubleRegistersInt32) : SatecDoubleRegistersInt32 :=
  { p with hiPosRegister := 0, loPosRegister := 0, isInit := false }

/-- One turn of the scan changes positions only. -/
theorem scan_config (s : SatecDoubleRegistersInt32 × Bool × Bool) (entry : Int × Nat) :
    (scan s entry).1.config = s.1.config ∧ (scan s entry).1.isInit = s.1.isInit := by
  unfold scan config
  dsimp only
  by_cases h : s.1.hiRegister = entry.1 <;> by_cases h' : s.1.loRegister = entry.1 <;>
    simp [h, h']

theorem scan_hi (s : SatecDoubleRegistersInt32 × Bool × Bool) (entry : Int × Nat) :
    (scan s entry).1.hiRegister = s.1.hiRegister ∧
      (scan s entry).1.hiPosRegister =
        (if s.1.hiRegister = entry.1 then asI32 entry.2 else s.1.hiPosRegister) ∧
      (scan s entry).2.1 = (decide (s.1.hiRegister = entry.1) || s.2.1) := by
  unfold scan
  dsimp only
  by_cases h : s.1.hiRegister = entry.1 <;> by_cases h' : s.1.loRegister = entry.1 <;>
    simp [h, h']

theorem scan_lo (s : SatecDoubleRegistersInt32 × Bool × Bool) (entry : Int × Nat) :
    (scan s entry).1.loRegister = s.1.loRegister ∧
      (scan s entry).1.loPosRegister =
        (if s.1.loRegister = entry.1 then asI32 entry.2 else s.1.loPosRegister) ∧
      (scan s entry).2.2 = (decide (s.1.loRegister = entry.1) || s.2.2) := by
  unfold scan
  dsimp only
  by_cases h : s.1.hiRegister = entry.1 <;> by_cases h' : s.1.loRegister = entry.1 <;>
    simp [h, h']

/-- The whole scan: the flags say which registers occur, and the position of one that occurs is an
index of it. -/
theorem foldl_scan (entries : List (Int × Nat)) (s : SatecDoubleRegistersInt32 × Bool × Bool) :
    (entries.foldl scan s).1.config = s.1.config ∧
      (entries.foldl scan s).1.isInit = s.1.isInit ∧
      (entries.foldl scan s).2.1 = (decide (s.1.hiRegister ∈ entries.map Prod.fst) || s.2.1) ∧
      (entries.foldl scan s).2.2 = (decide (s.1.loRegister ∈ entries.map Prod.fst) || s.2.2) ∧
      ((s.1.hiRegister ∉ entries.map Prod.fst ∧
          (entries.foldl scan s).1.hiPosRegister = s.1.hiPosRegister) ∨
        ∃ i, (s.1.hiRegister, i) ∈ entries ∧ (entries.foldl scan s).1.hiPosRegister = asI32 i) ∧
      ((s.1.loRegister ∉ entries.map Prod.fst ∧
          (entries.foldl scan s).1.loPosRegister = s.1.loPosRegister) ∨
        ∃ i, (s.1.loRegister, i) ∈ entries ∧ (entries.foldl scan s).1.loPosRegister = asI32 i) := by
  induction entries generalizing s with
  | nil => simp
  | cons entry entries ih =>
      obtain ⟨hconfig, hinit⟩ := scan_config s entry
      obtain ⟨hhi, hhiPos, hhiFound⟩ := scan_hi s entry
      obtain ⟨hlo, hloPos, hloFound⟩ := scan_lo s entry
      obtain ⟨iconfig, iinit, ihiFound, iloFound, ihiPos, iloPos⟩ := ih (scan s entry)
      rw [hhi] at ihiFound ihiPos
      rw [hlo] at iloFound iloPos
      rw [List.foldl_cons]
      refine ⟨iconfig.trans hconfig, iinit.trans hinit, ?_, ?_, ?_, ?_⟩
      · rw [ihiFound, hhiFound, List.map_cons]
        by_cases h : s.1.hiRegister = entry.1 <;>
          by_cases h' : s.1.hiRegister ∈ entries.map Prod.fst <;> simp [h, h', List.mem_cons]
      · rw [iloFound, hloFound, List.map_cons]
        by_cases h : s.1.loRegister = entry.1 <;>
          by_cases h' : s.1.loRegister ∈ entries.map Prod.fst <;> simp [h, h', List.mem_cons]
      · rcases ihiPos with ⟨hnot, hpos⟩ | ⟨i, hi, hpos⟩
        · by_cases h : s.1.hiRegister = entry.1
          · exact .inr ⟨entry.2, by simp [h], by rw [hpos, hhiPos, if_pos h]⟩
          · exact .inl ⟨by simp [h, hnot], by rw [hpos, hhiPos, if_neg h]⟩
        · exact .inr ⟨i, List.mem_cons_of_mem entry hi, hpos⟩
      · rcases iloPos with ⟨hnot, hpos⟩ | ⟨i, hi, hpos⟩
        · by_cases h : s.1.loRegister = entry.1
          · exact .inr ⟨entry.2, by simp [h], by rw [hpos, hloPos, if_pos h]⟩
          · exact .inl ⟨by simp [h, hnot], by rw [hpos, hloPos, if_neg h]⟩
        · exact .inr ⟨i, List.mem_cons_of_mem entry hi, hpos⟩

end SatecDoubleRegistersInt32

namespace RegisterDecodingPlugin

/-- The registers that a plugin looks for. -/
def needs : RegisterDecodingPlugin → List Int
  | .bit p => [p.addr]
  | .satec p => [p.hiRegister, p.loRegister]
  | .shift p => [p.addr]

def isInit : RegisterDecodingPlugin → Bool
  | .bit p => p.isInit
  | .satec p => p.isInit
  | .shift p => p.isInit

/-- A plugin without what it learns from the search. -/
def config : RegisterDecodingPlugin → RegisterDecodingPlugin
  | .bit p => .bit { p with posInList := 0, isInit := false }
  | .satec p => .satec p.config
  | .shift p => .shift { p with posInList := 0, isInit := false }

def accepts (reg : List Int) (plugin : RegisterDecodingPlugin) : Bool :=
  plugin.needs.all fun a => decide (a ∈ reg)

@[simp] theorem config_needs (plugin : RegisterDecodingPlugin) :
    plugin.config.needs = plugin.needs := by
  cases plugin <;> rfl

@[simp] theorem config_getId (plugin : RegisterDecodingPlugin) :
    plugin.config.getId = plugin.getId := by
  cases plugin <;> rfl

theorem accepts_iff {reg : List Int} {plugin : RegisterDecodingPlugin} :
    accepts reg plugin = true ↔ ∀ a ∈ plugin.needs, a ∈ reg := by
  simp [accepts]

/-- What the search of a free plugin among the registers `reg` comes to. -/
structure Searched (reg : List Int) (plugin : RegisterDecodingPlugin)
    (result : RegisterDecodingPlugin × Bool) : Prop where
  decides : result.2 = accepts reg plugin
  config : result.1.config = plugin.config
  free : result.2 = false → result.1.isInit = false

/-- A plugin that looks for the register `addr` alone has one outcome if it is there, and stays as it
is if not. -/
theorem Searched.of_single {reg : List Int} {addr : Int} {plugin : RegisterDecodingPlugin}
    {result : RegisterDecodingPlugin × Bool} (hfree : plugin.isInit = false)
    (hneeds : plugin.needs = [addr])
    (hfound : ∀ i, reg.idxOf? addr = some i → result.2 = true ∧ result.1.config = plugin.config)
    (hnone : reg.idxOf? addr = none → result = (plugin, false)) : Searched reg plugin result := by
  have hmem : accepts reg plugin = (reg.idxOf? addr).isSome := by
    rw [Bool.eq_iff_iff, accepts_iff, hneeds, List.isSome_idxOf?]
    apply List.forall_mem_singleton
  cases hidx : reg.idxOf? addr with
  | none =>
      rw [hnone hidx]
      refine ⟨?_, rfl, fun _ => hfree⟩
      rw [hmem, hidx]
      rfl
  | some i =>
      obtain ⟨htrue, hconfig⟩ := hfound i hidx
      refine ⟨?_, hconfig, fun hfalse => ?_⟩
      · rw [htrue, hmem, hidx]
        rfl
      · rw [htrue] at hfalse
        cases hfalse

theorem searched_bit {p : BitInWord} (hfree : p.isInit = false) (reg : List Int) :
    Searched reg (.bit p) (findYourRegisters (.bit p) reg) := by
  refine .of_single ?_ rfl ?_ ?_
  · exact hfree
  · intro i hidx
    simp [findYourRegisters, BitInWord.findYourRegisters, hfree, hidx, config]
  · intro hidx
    simp [findYourRegisters, BitInWord.findYourRegisters, hfree, hidx]

theorem searched_shift {p : ComaShift} (hfree : p.isInit = false) (reg : List Int) :
    Searched reg (.shift p) (findYourRegisters (.shift p) reg) := by
  refine .of_single ?_ rfl ?_ ?_
  · exact hfree
  · intro i hidx
    simp [findYourRegisters, ComaShift.findYourRegisters, hfree, hidx, config]
  · intro hidx
    simp [findYourRegisters, ComaShift.findYourRegisters, hfree, hidx]

theorem searched_satec {p : SatecDoubleRegistersInt32} (hfree : p.isInit = false)
    (reg : List Int) : Searched reg (.satec p) (findYourRegisters (.satec p) reg) := by
  obtain ⟨hconfig, hinit, hhi, hlo, -, -⟩ :=
    SatecDoubleRegistersInt32.foldl_scan reg.zipIdx (p, false, false)
  simp only [List.zipIdx_map_fst, Bool.or_false] at hhi hlo
  have haccepts : accepts reg (.satec p) =
      (decide (p.hiRegister ∈ reg) && decide (p.loRegister ∈ reg)) := by
    simp [accepts, needs]
  unfold findYourRegisters SatecDoubleRegistersInt32.findYourRegisters
  simp only [hfree, Bool.false_eq_true, if_false, hhi, hlo]
  split
  · next hfound => exact ⟨hfound.symm.trans haccepts.symm, congrArg satec hconfig, nofun⟩
  · next hfound =>
    refine ⟨?_, congrArg satec hconfig, fun _ => hinit.trans hfree⟩
    rw [haccepts]
    exact (Bool.eq_false_iff.mpr hfound).symm

theorem searched {plugin : RegisterDecodingPlugin} (hfree : plugin.isInit = false)
    (reg : List Int) : Searched reg plugin (findYourRegisters plugin reg) := by
  cases plugin with
  | bit p => exact searched_bit hfree reg
  | satec p => exact searched_satec hfree reg
  | shift p => exact searched_shift hfree reg

/-- The search is decided by the registers and the configuration. -/
theorem findYourRegisters_lawful :
    FirstFit.Lawful (fun reg plugin => findYourRegisters plugin reg) config accepts
      fun plugin => plugin.isInit = false where
  decides reg plugin hfree := by
    rw [(searched hfree reg).decides, accepts, accepts, config_needs]
  key reg _ hfree := (searched hfree reg).config
  free reg _ hfree := (searched hfree reg).free

end RegisterDecodingPlugin

/-! ## One step -/

/-- The step for the registers `reg`, with the plugins in the order in which they were added. -/
def stepOf (regType : RegType) (reg : List Int) (content : List RegisterDecodingPlugin) : ReadStep :=
  { ReadStep.new (reg.headD 0) (asI32 reg.length) regType with values := content.reverse }

theorem indexes_concat (found : List (RegisterDecodingPlugin × Bool))
    (entry : RegisterDecodingPlugin × Bool) :
    indexes (found ++ [entry]) = indexes found ++ if entry.2 then [found.length] else [] := by
  rw [indexes, indexes, List.zipIdx_append, List.filterMap_append]
  cases h : entry.2 <;> simp [h]

theorem indexes_lt (found : List (RegisterDecodingPlugin × Bool)) :
    ∀ i ∈ indexes found, i < found.length := by
  induction found using List.reverseRecOn with
  | nil => intro i hi; cases hi
  | append_singleton found entry ih =>
      intro i hi
      rw [indexes_concat, List.mem_append] at hi
      rw [List.length_append, List.length_singleton]
      rcases hi with hi | hi
      · have := ih i hi
        grind
      · split at hi
        · rw [List.mem_singleton.mp hi]
          grind
        · cases hi

/-- The indexes are collected in order, so sorting them changes nothing. -/
theorem indexes_sorted (found : List (RegisterDecodingPlugin × Bool)) :
    (indexes found).mergeSort (· ≤ ·) = indexes found := by
  have hsorted : (indexes found).Pairwise (· ≤ ·) := by
    induction found using List.reverseRecOn with
    | nil => exact List.Pairwise.nil
    | append_singleton found entry ih =>
        rw [indexes_concat, List.pairwise_append]
        refine ⟨ih, by split <;> simp, ?_⟩
        intro i hi j hj
        have := indexes_lt found i hi
        split at hj
        · rw [List.mem_singleton.mp hj]
          grind
        · cases hj
  exact List.mergeSort_of_pairwise (hsorted.imp fun h => by simpa using h)

/-- Taking the plugins out from the last to the first leaves the others in their order. -/
theorem moveUnits (found : List (RegisterDecodingPlugin × Bool)) (step : ReadStep)
    (rest : List RegisterDecodingPlugin) :
    (indexes found).reverse.foldlM moveUnit (step, found.map Prod.fst ++ rest) =
      some ({ step with values := step.values ++ ((found.filter Prod.snd).map Prod.fst).reverse },
        (found.filter fun r => !r.2).map Prod.fst ++ rest) := by
  induction found using List.reverseRecOn generalizing step rest with
  | nil => simp [indexes]
  | append_singleton found entry ih =>
      obtain ⟨plugin, accepted⟩ := entry
      rw [indexes_concat, List.map_append, List.filter_append, List.filter_append]
      cases accepted with
      | true =>
          have hget : (found.map Prod.fst ++ [plugin] ++ rest)[found.length]? = some plugin := by
            rw [List.append_assoc, List.getElem?_append_right (by simp)]
            simp
          have herase : (found.map Prod.fst ++ [plugin] ++ rest).eraseIdx found.length =
              found.map Prod.fst ++ rest := by
            rw [List.append_assoc, List.eraseIdx_append_of_length_le (by simp)]
            simp
          have hmove : moveUnit (step, found.map Prod.fst ++ [plugin] ++ rest) found.length =
              some (step.addUnit plugin, found.map Prod.fst ++ rest) := by
            simp only [moveUnit, hget, herase, Option.bind_eq_bind, Option.bind_some]
            rfl
          simp only [if_true, List.reverse_append, List.reverse_singleton, List.singleton_append,
            List.foldlM_cons, List.map_cons, List.map_nil, hmove, Option.bind_eq_bind,
            Option.bind_some, ih, ReadStep.addUnit]
          simp
      | false =>
          have hrest := ih step (plugin :: rest)
          simp only [Bool.false_eq_true, if_false, List.append_nil, List.map_cons, List.map_nil,
            List.append_assoc, List.singleton_append, hrest]
          simp

/-- `fillStep` is one bin of first fit. -/
theorem fillStep_eq (step : ReadStep) (reg : List Int) (values : List RegisterDecodingPlugin) :
    fillStep step reg values =
      some ({ step with values := step.values ++
          (FirstFit.taken (fun plugin => plugin.findYourRegisters reg) values).reverse },
        FirstFit.left (fun plugin => plugin.findYourRegisters reg) values) := by
  have hmove := moveUnits (values.map fun plugin => plugin.findYourRegisters reg) step []
  rw [List.append_nil, List.append_nil] at hmove
  rw [fillStep, indexes_sorted]
  exact hmove

/-! ## All steps of a register type -/

/-- The steps for some bins. -/
def planSteps (regType : RegType) (bins : List (List Int)) (values : List RegisterDecodingPlugin) :
    List ReadStep :=
  List.zipWith (stepOf regType) bins
    (FirstFit.fill (fun reg plugin => plugin.findYourRegisters reg) bins values)

theorem stepOf_single (regType : RegType) (reg : Int) (content : List RegisterDecodingPlugin) :
    stepOf regType [reg] content =
      { ReadStep.new reg 1 regType with values := content.reverse } := by
  have hone : asI32 ([reg].length : Nat) = 1 := asI32_of_lt (by simp) (by simp)
  rw [stepOf, hone]
  rfl

theorem singleSteps_eq (regType : RegType) (registers : List Int)
    (values : List RegisterDecodingPlugin) :
    singleSteps regType registers values =
      some (planSteps regType (registers.map fun reg => [reg]) values) := by
  induction registers generalizing values with
  | nil => rfl
  | cons reg registers ih =>
      rw [singleSteps, fillStep_eq, List.map_cons, planSteps, FirstFit.fill, List.zipWith_cons_cons,
        stepOf_single]
      simp only [Option.bind_eq_bind, Option.bind_some, ih, ReadStep.new, List.nil_append]
      rfl

theorem groupSteps_eq (regType : RegType) {bins : List (List Int)} (hbins : [] ∉ bins)
    (values : List RegisterDecodingPlugin) :
    groupSteps regType bins values = some (planSteps regType bins values) := by
  induction bins generalizing values with
  | nil => rfl
  | cons reg bins ih =>
      obtain ⟨first, reg, rfl⟩ :=
        List.exists_cons_of_ne_nil fun h : reg = [] => hbins (h ▸ List.mem_cons_self)
      have hrest := ih fun h => hbins (List.mem_cons_of_mem _ h)
      rw [groupSteps, List.head?_cons]
      simp only [Option.bind_eq_bind, Option.bind_some, fillStep_eq, hrest]
      rfl

/-! ## The runs -/

/-- `reg_sort` cuts the sorted registers where the next one is not the successor. -/
theorem foldl_extendRun (registers : List Int) :
    let s := registers.foldl extendRun ([], [])
    if registers = [] then s = ([], [])
    else s.2 ≠ [] ∧
      s.1 ++ [s.2] = registers.splitBy fun a b => decide (b = asI32 (a + 1)) := by
  induction registers using List.reverseRecOn with
  | nil => rfl
  | append_singleton registers reg ih =>
      rw [List.foldl_append, List.foldl_cons, List.foldl_nil]
      generalize hs : registers.foldl extendRun ([], []) = s at ih
      obtain ⟨res, group⟩ := s
      rcases List.eq_nil_or_concat' registers with rfl | ⟨older, last, rfl⟩
      · obtain ⟨rfl, rfl⟩ := Prod.mk.inj ih
        simp [extendRun, List.splitBy_of_isChain]
      · simp only [List.append_eq_nil_iff, List.cons_ne_nil, and_false, if_false] at ih ⊢
        obtain ⟨hgroup, hsplit⟩ := ih
        obtain ⟨start, rfl⟩ := Runs.exists_concat_of_splitBy hsplit.symm
        simp only [extendRun, List.getLast?_concat]
        by_cases hreg : reg = asI32 (last + 1)
        · rw [if_pos hreg]
          refine ⟨by simp, (Runs.splitBy_concat_of_rel hsplit.symm ?_).symm⟩
          exact decide_eq_true hreg
        · rw [if_neg hreg]
          refine ⟨by simp, (Runs.splitBy_concat_of_not_rel hsplit.symm ?_).symm⟩
          exact decide_eq_false hreg

theorem regSort_eq (registers : List Int) :
    regSort registers = (registers.mergeSort (· ≤ ·)).splitBy
      fun a b => decide (b = asI32 (a + 1)) := by
  have h := foldl_extendRun (registers.mergeSort (· ≤ ·))
  rw [regSort]
  generalize (registers.mergeSort (· ≤ ·)).foldl extendRun ([], []) = s at h
  obtain ⟨res, group⟩ := s
  by_cases hnil : registers.mergeSort (· ≤ ·) = []
  · simp only [hnil, if_true] at h
    obtain ⟨rfl, rfl⟩ := Prod.mk.inj h
    rw [hnil]
    rfl
  · simp only [hnil, if_false] at h
    obtain ⟨hgroup, hsplit⟩ := h
    have hempty : group.isEmpty = false := by simpa using hgroup
    simp only [hempty, Bool.false_eq_true, if_false]
    exact hsplit

theorem nil_notMem_regSort (registers : List Int) : [] ∉ regSort registers := by
  rw [regSort_eq]
  exact List.nil_notMem_splitBy _ _

end ModbusLogger.Reader
