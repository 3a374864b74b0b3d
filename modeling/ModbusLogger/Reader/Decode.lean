import ModbusLogger.Reader.PlanCoverage

/-!
# Every plugin decodes its own registers

The search of a plugin remembers positions in the bin, decoding uses them as positions in the
response. A bin is consecutive, so both mean the same register, as long as the response has a word
for each register of the bin.
-/

namespace ModbusLogger.Reader

open FixedWidth RegisterDecodingPlugin

variable {J : Type*} {env : Settings J} {values : List (ValueRead J)}

/-- What the plugin makes of the contents of the registers in its settings. -/
def RegisterDecodingPlugin.decodeAt (plugin : RegisterDecodingPlugin) (content : Int → Word)
    (timestamp : Int) : ModbusMeasure :=
  match plugin with
  | .bit p => p.decode (content p.addr) timestamp
  | .satec p => p.decode (content p.hiRegister) (content p.loRegister) timestamp
  | .shift p => p.decode (content p.addr) timestamp

/-- The response has the contents of the registers that the step asks for. -/
def Responds (step : ReadStep) (content : Int → Word) (response : List Word) : Prop :=
  response.length = step.length ∧
    ∀ i (h : i < response.length), response[i] = content (step.start + i)

/-- Each plugin of the plan belongs to a value, and decodes the registers of its settings. -/
def DecodesOwn (env : Settings J) (values : List (ValueRead J)) (readByGroup : Bool) : Prop :=
  ∃ pool, PollValueIterator.init env values readByGroup = some pool ∧
    ∀ step ∈ pool.steps, ∀ plugin ∈ step.values,
      (∃ value ∈ values, ∃ addrs, loadPlugin env value = some (plugin.config, addrs)) ∧
        ∀ content response timestamp, Responds step content response →
          plugin.getValue response timestamp = some (plugin.decodeAt content timestamp)

/-! ## What the search remembers -/

theorem SatecDoubleRegistersInt32.found_positions {free p : SatecDoubleRegistersInt32}
    {reg : List Int} (hfree : free.isInit = false) (h : free.findYourRegisters reg = (p, true)) :
    (∃ i, p.hiPosRegister = asI32 (i : Nat) ∧ reg[i]? = some p.hiRegister) ∧
      ∃ i, p.loPosRegister = asI32 (i : Nat) ∧ reg[i]? = some p.loRegister := by
  obtain ⟨hconfig, -, hhi, hlo, hhiPos, hloPos⟩ := foldl_scan reg.zipIdx (free, false, false)
  rw [findYourRegisters, hfree] at h
  simp only [Bool.false_eq_true, if_false] at h
  simp only [List.zipIdx_map_fst, Bool.or_false] at hhi hlo hhiPos hloPos
  rw [config, config, SatecDoubleRegistersInt32.mk.injEq] at hconfig
  obtain ⟨hhiReg, hloReg, -⟩ := hconfig
  split at h
  · next hfound =>
    rw [hhi, hlo, Bool.and_eq_true, decide_eq_true_eq, decide_eq_true_eq] at hfound
    obtain ⟨rfl, -⟩ := Prod.mk.inj h
    dsimp only at hhiReg hloReg ⊢
    rw [hhiReg, hloReg]
    refine ⟨?_, ?_⟩
    · rcases hhiPos with ⟨hnot, -⟩ | ⟨i, hi, hpos⟩
      · exact absurd hfound.1 hnot
      · exact ⟨i, hpos, List.mem_zipIdx_iff_getElem?.mp hi⟩
    · rcases hloPos with ⟨hnot, -⟩ | ⟨i, hi, hpos⟩
      · exact absurd hfound.2 hnot
      · exact ⟨i, hpos, List.mem_zipIdx_iff_getElem?.mp hi⟩
  · cases h

theorem getElem?_of_idxOf? {reg : List Int} {a : Int} {i : Nat} (h : reg.idxOf? a = some i) :
    reg[i]? = some a := by
  obtain ⟨hi, heq, -⟩ := List.idxOf?_eq_some_iff.mp h
  rw [List.getElem?_eq_getElem hi, heq]

theorem ComaShift.found_position {free p : ComaShift} {reg : List Int}
    (hfree : free.isInit = false) (h : free.findYourRegisters reg = (p, true)) :
    reg[p.posInList]? = some p.addr := by
  rw [findYourRegisters, hfree] at h
  cases hidx : reg.idxOf? free.addr with
  | none => simp [hidx] at h
  | some i =>
      rw [hidx] at h
      obtain ⟨rfl, -⟩ := Prod.mk.inj h
      exact getElem?_of_idxOf? hidx

theorem BitInWord.found_position {free p : BitInWord} {reg : List Int}
    (hfree : free.isInit = false) (h : free.findYourRegisters reg = (p, true)) :
    reg[p.posInList]? = some p.addr := by
  rw [findYourRegisters, hfree] at h
  cases hidx : reg.idxOf? free.addr with
  | none => simp [hidx] at h
  | some i =>
      rw [hidx] at h
      obtain ⟨rfl, -⟩ := Prod.mk.inj h
      exact getElem?_of_idxOf? hidx

/-! ## Decoding -/

section Step

variable (hrange : AddressesInRange env values) {readByGroup : Bool} {regType : RegType}

include hrange

/-- A word of the response is the content of the register at that position of the bin. -/
theorem response_at {bin : List Int} (hbin : bin ∈ binsOf env values readByGroup regType)
    (hshort : bin.length ≠ 65536) {units : List RegisterDecodingPlugin} {content : Int → Word}
    {response : List Word} (hresponse : Responds (stepOf regType bin units) content response)
    {i : Nat} {a : Int} (ha : bin[i]? = some a) : response[i]? = some (content a) := by
  obtain ⟨hlt, rfl⟩ := List.getElem?_eq_some_iff.mp ha
  obtain ⟨hstart, -, hlength⟩ := step_range hrange hbin units (by omega)
  obtain ⟨hlen, hwords⟩ := hresponse
  rw [hlength, if_neg hshort] at hlen
  rw [List.getElem?_eq_getElem (by omega), hwords i (by omega), hstart]
  obtain ⟨-, hcons, -⟩ := bin_spec hrange hbin
  rw [hcons i hlt]

theorem found_decodes {bin : List Int} (hbin : bin ∈ binsOf env values readByGroup regType)
    (hshort : bin.length ≠ 65536) {units : List RegisterDecodingPlugin} {content : Int → Word}
    {response : List Word} (hresponse : Responds (stepOf regType bin units) content response)
    {free plugin : RegisterDecodingPlugin} (hfree : free.isInit = false)
    (hfound : free.findYourRegisters bin = (plugin, true)) (timestamp : Int) :
    plugin.getValue response timestamp = some (plugin.decodeAt content timestamp) := by
  have hat := fun i a => response_at hrange hbin hshort hresponse (i := i) (a := a)
  cases free with
  | bit free =>
      obtain ⟨p, hp, rfl⟩ : ∃ p, free.findYourRegisters bin = (p, true) ∧ .bit p = plugin := by
        obtain ⟨hplugin, htrue⟩ := Prod.mk.inj hfound
        exact ⟨_, Prod.ext rfl htrue, hplugin⟩
      have hword := hat _ _ (BitInWord.found_position hfree hp)
      simp [getValue, BitInWord.getValue, hword, decodeAt]
  | shift free =>
      obtain ⟨p, hp, rfl⟩ : ∃ p, free.findYourRegisters bin = (p, true) ∧ .shift p = plugin := by
        obtain ⟨hplugin, htrue⟩ := Prod.mk.inj hfound
        exact ⟨_, Prod.ext rfl htrue, hplugin⟩
      have hword := hat _ _ (ComaShift.found_position hfree hp)
      simp [getValue, ComaShift.getValue, hword, decodeAt]
  | satec free =>
      obtain ⟨p, hp, rfl⟩ : ∃ p, free.findYourRegisters bin = (p, true) ∧ .satec p = plugin := by
        obtain ⟨hplugin, htrue⟩ := Prod.mk.inj hfound
        exact ⟨_, Prod.ext rfl htrue, hplugin⟩
      obtain ⟨⟨i, hi, hhi⟩, ⟨j, hj, hlo⟩⟩ := SatecDoubleRegistersInt32.found_positions hfree hp
      -- the positions are small, so their casts change nothing
      have hcast : ∀ {n : Nat} {a : Int}, bin[n]? = some a → asU64 (asI32 n) = n := by
        intro n a hn
        obtain ⟨hlt, -⟩ := List.getElem?_eq_some_iff.mp hn
        obtain ⟨-, hle, -⟩ := step_range hrange hbin units (by omega)
        rw [asI32_of_lt (by omega) (by omega), asU64]
        grind
      have hhiWord := hat _ _ hhi
      have hloWord := hat _ _ hlo
      simp [getValue, SatecDoubleRegistersInt32.getValue, hi, hj, hcast hhi, hcast hlo, hhiWord,
        hloWord, decodeAt]

end Step

theorem mem_steps {pool : PollValueIterator} {readByGroup : Bool}
    (h : PollValueIterator.init env values readByGroup = some pool) {step : ReadStep} :
    step ∈ pool.steps ↔
      ∃ (regType : RegType) (k : Nat), (stepsOf env values readByGroup regType)[k]? = some step := by
  have hsteps : step ∈ pool.steps ↔ ∃ regType, step ∈ pool.ofType regType := by
    rw [PollValueIterator.steps]
    simp only [List.mem_append]
    constructor
    · rintro (((h | h) | h) | h)
      exacts [⟨.coils, h⟩, ⟨.discrete, h⟩, ⟨.holding, h⟩, ⟨.input, h⟩]
    · rintro ⟨regType, h⟩
      cases regType with
      | coils => exact .inl (.inl (.inl h))
      | discrete => exact .inl (.inl (.inr h))
      | holding => exact .inl (.inr h)
      | input => exact .inr h
  rw [hsteps]
  simp only [ofType_eq h, List.mem_iff_getElem?]

/-- The plan decodes if no step asks for the whole address space. -/
theorem decodesOwn_of_short (hrange : AddressesInRange env values) {readByGroup : Bool}
    (hshort : ∀ regType, ∀ bin ∈ binsOf env values readByGroup regType, bin.length ≠ 65536) :
    DecodesOwn env values readByGroup := by
  refine ⟨_, init_eq readByGroup, ?_⟩
  intro step hstep plugin hplugin
  obtain ⟨regType, k, hk⟩ := (mem_steps (init_eq readByGroup)).mp hstep
  obtain ⟨bin, hbin, ⟨units, rfl⟩, ⟨free, hfree, hfound⟩, hconfig⟩ := mem_step hk hplugin
  have hmem := List.mem_of_getElem? hbin
  refine ⟨(mem_pluginsOf hconfig).2, ?_⟩
  intro content response timestamp hresponse
  exact found_decodes hrange hmem (hshort regType bin hmem) hresponse hfree hfound timestamp

/-- The step that asks for the whole address space gets an empty response, and its plugins panic. -/
theorem not_decodesOwn_of_full (hrange : AddressesInRange env values) {regType : RegType}
    (hfull : FullRange env values regType) : ¬DecodesOwn env values true := by
  rintro ⟨pool, hpool, hdecodes⟩
  -- a value that needs register 1 is in that step
  obtain ⟨value, hvalue, plugin, addrs, hload, rfl, hone⟩ :=
    mem_registersOf.mp (hfull.1 1 (by decide) (by decide))
  obtain ⟨-, -, rfl | rfl⟩ := loadPlugin_spec hload
  · have hloads : Loads env value plugin := hload
    obtain ⟨hplugin, hneeds⟩ := hloads.mem hvalue
    obtain ⟨k, hfirst⟩ : ∃ k, (binsOf env values true plugin.getType).findIdx?
        (fun bin => accepts bin plugin) = some k := by
      rw [← Option.isSome_iff_exists, List.findIdx?_isSome, List.any_eq_true]
      have hperm := List.mergeSort_perm (registersOf env values plugin.getType) (· ≤ ·)
      have hfull' : Runs.FullRange 0 65535
          ((registersOf env values plugin.getType).mergeSort (· ≤ ·)) := by
        rw [FullRange, Runs.FullRange] at hfull
        simpa only [Runs.FullRange, hperm.mem_iff, hperm.count_eq] using hfull
      obtain ⟨bin, hbin, hlo, hhi⟩ := (Runs.full_run_iff
        (List.pairwise_mergeSort' (· ≤ ·) _) (by decide)).mpr hfull'
      refine ⟨bin, by rwa [binsOf, if_pos rfl, regSort_eq_runs hrange], accepts_iff.mpr ?_⟩
      intro a ha
      obtain ⟨h, h'⟩ := registersOf_inRange hrange a (hneeds a ha)
      exact (Runs.consecutive_of_mem hbin).covers hlo hhi h h'
    obtain ⟨hlt, -⟩ := List.findIdx?_eq_some_iff_getElem.mp hfirst
    have hget := List.getElem?_eq_getElem hlt
    have hlength := (first_bin_full_iff hrange hfirst hget).mpr ⟨hfull, fun h => by
      have := h.1 1 hone
      omega⟩
    obtain ⟨units, -, hstep⟩ := exists_step hget
    have hcount := count_step plugin hstep
    rw [if_pos hfirst] at hcount
    have hmem : plugin ∈ (stepOf plugin.getType _ units).values.map config :=
      List.count_pos_iff.mp (hcount ▸ List.count_pos_iff.mpr hplugin)
    obtain ⟨p, hp, -⟩ := List.mem_map.mp hmem
    obtain ⟨-, -, hzero⟩ := step_range hrange (List.mem_of_getElem? hget) units (by omega)
    rw [if_pos hlength] at hzero
    have hvalue := (hdecodes _ ((mem_steps hpool).mpr ⟨_, k, hstep⟩) p hp).2 (fun _ => 0) [] 0
      ⟨hzero.symm, fun i hi => absurd hi (Nat.not_lt_zero i)⟩
    cases p <;> simp [getValue, BitInWord.getValue, ComaShift.getValue,
      SatecDoubleRegistersInt32.getValue] at hvalue
  · cases hone

/-- A bin of the whole address space is a run of group reading, and the range is full. -/
theorem full_of_long (hrange : AddressesInRange env values) {readByGroup : Bool} {regType : RegType}
    {bin : List Int} (hbin : bin ∈ binsOf env values readByGroup regType)
    (hlong : bin.length = 65536) : readByGroup = true ∧ FullRange env values regType := by
  cases readByGroup with
  | false =>
      rw [binsOf, if_neg Bool.false_ne_true, List.mem_map] at hbin
      obtain ⟨reg, -, rfl⟩ := hbin
      cases hlong
  | true =>
      refine ⟨rfl, ?_⟩
      obtain ⟨hlo, hhi⟩ := (bin_full_iff hrange hbin).mp hlong
      rw [binsOf, if_pos rfl, regSort_eq_runs hrange] at hbin
      have hperm := List.mergeSort_perm (registersOf env values regType) (· ≤ ·)
      have hfull : Runs.FullRange 0 65535
          ((registersOf env values regType).mergeSort (· ≤ ·)) :=
        (Runs.full_run_iff (List.pairwise_mergeSort' (· ≤ ·) _) (by decide)).mp
          ⟨bin, hbin, hlo, hhi⟩
      rw [FullRange, Runs.FullRange]
      simpa only [Runs.FullRange, hperm.mem_iff, hperm.count_eq] using hfull

/-- **Every plugin decodes its own registers, unless a group request covers the whole address
space.** -/
theorem plugins_decode_own (env : Settings J) (values : List (ValueRead J))
    (hrange : AddressesInRange env values) (readByGroup : Bool) :
    DecodesOwn env values readByGroup ↔
      ¬(readByGroup = true ∧ ∃ regType, FullRange env values regType) := by
  constructor
  · rintro hdecodes ⟨rfl, regType, hfull⟩
    exact not_decodesOwn_of_full hrange hfull hdecodes
  · intro hnot
    refine decodesOwn_of_short hrange fun regType bin hbin hlong => hnot ?_
    obtain ⟨hgroup, hfull⟩ := full_of_long hrange hbin hlong
    exact ⟨hgroup, regType, hfull⟩

/-- A pair that is found in parts in an earlier run, and a value in the middle of a run. -/
theorem plugins_decode_own_pair :
    DecodesOwn pairSettings [⟨1, 2, (6, 5), true⟩, ⟨2, 1, (5, 0), true⟩, ⟨3, 1, (7, 0), true⟩] true ↔
      ¬(true = true ∧ ∃ regType, FullRange pairSettings
        [⟨1, 2, (6, 5), true⟩, ⟨2, 1, (5, 0), true⟩, ⟨3, 1, (7, 0), true⟩] regType) :=
  plugins_decode_own pairSettings _ (by unfold AddressesInRange; decide) true

/-- With a value on every address the plugins index an empty response. -/
theorem plugins_panic_on_full_range :
    AddressesInRange pairSettings (firstAddresses 65536) ∧
      ¬DecodesOwn pairSettings (firstAddresses 65536) true :=
  ⟨firstAddresses_inRange 65536 (le_refl _),
    not_decodesOwn_of_full (firstAddresses_inRange 65536 (le_refl _)) firstAddresses_full⟩

end ModbusLogger.Reader
