import ModbusLogger.Reader.Plugins

/-!
# The numbers that plugins decode

`SatecDoubleRegistersInt32` reads two registers as one number and `BitInWord` one bit of a register.
The words are converted to `f64` before they are combined, which is exact as the numbers have at most
32 bits, so what is divided by the multiplier is an integer. It is the 32-bit number of the registers
only in the mode without a sign: the other mode adds the words and leaves out the factor `65536`. The
bit is the one that the settings name only if the register has it: the settings are not checked.
-/

namespace ModbusLogger.Reader

open FixedWidth

/-! ## Two registers -/

/-- The 32-bit number of two registers, in two's complement if it is signed. -/
def int32 (isSigned : Bool) (hiWord loWord : Word) : Int :=
  let n := (hiWord.toNat : Int) * 65536 + loWord.toNat
  if isSigned then
    if hiWord.toNat ≤ 32767 then n else n - 4294967296
  else n

theorem int32_signed (hiWord loWord : Word) :
    int32 true hiWord loWord = (hiWord ++ loWord).toInt := by
  have hhi := hiWord.isLt
  have hlo := loWord.isLt
  have happend : (hiWord ++ loWord).toNat = hiWord.toNat * 65536 + loWord.toNat := by
    rw [BitVec.toNat_append, Nat.shiftLeft_eq, Nat.mul_comm, ← Nat.two_pow_add_eq_or_of_lt hlo,
      Nat.mul_comm]
  rw [BitVec.toInt_eq_toNat_cond, happend]
  simp only [int32, if_true]
  split <;> split <;> omega

namespace SatecDoubleRegistersInt32

variable (p : SatecDoubleRegistersInt32) (hiWord loWord : Word)

/-- What `get_value` divides by the multiplier. -/
def numerator : Binary64 :=
  let hiData := Binary64.ofInt hiWord.toNat
  let loData := Binary64.ofInt loWord.toNat
  if p.isSigned then
    let hiData := if Binary64.lt (Binary64.ofInt 32767) hiData then -hiData else hiData
    hiData + loData
  else hiData * Binary64.ofInt 65536 + loData

theorem decode_measureValue (timestamp : Int) :
    (p.decode hiWord loWord timestamp).measureValue =
      p.numerator hiWord loWord / p.multiplier := by
  unfold decode numerator
  dsimp only
  split <;> rfl

end SatecDoubleRegistersInt32

/-- The same in exact integers. -/
def dividend (isSigned : Bool) (hiWord loWord : Word) : Int :=
  if isSigned then
    if hiWord.toNat ≤ 32767 then (hiWord.toNat : Int) + loWord.toNat
    else -(hiWord.toNat : Int) + loWord.toNat
  else (hiWord.toNat : Int) * 65536 + loWord.toNat

theorem dividend_holds (isSigned : Bool) (hiWord loWord : Word) :
    Binary64.Holds (dividend isSigned hiWord loWord) := by
  have hhi := hiWord.isLt
  have hlo := loWord.isLt
  unfold Binary64.Holds dividend
  split
  · split <;> omega
  · omega

theorem int32_holds (isSigned : Bool) (hiWord loWord : Word) :
    Binary64.Holds (int32 isSigned hiWord loWord) := by
  have hhi := hiWord.isLt
  have hlo := loWord.isLt
  unfold Binary64.Holds int32
  dsimp only
  split
  · split <;> omega
  · omega

theorem word_holds (word : Word) : Binary64.Holds word.toNat := by
  have := word.isLt
  unfold Binary64.Holds
  omega

/-- Nothing is rounded. -/
theorem numerator_eq (p : SatecDoubleRegistersInt32) (hiWord loWord : Word) :
    p.numerator hiWord loWord = Binary64.ofInt (dividend p.isSigned hiWord loWord) := by
  have hhi := hiWord.isLt
  have hlo := loWord.isLt
  unfold SatecDoubleRegistersInt32.numerator dividend
  dsimp only
  cases p.isSigned with
  | true =>
      have hbound : Binary64.Holds 32767 := by decide
      have hneg : Binary64.Holds (-(hiWord.toNat : Int)) := by
        unfold Binary64.Holds
        omega
      rw [if_pos rfl, if_pos rfl, Binary64.ofInt_lt hbound (word_holds hiWord)]
      by_cases hle : hiWord.toNat ≤ 32767
      · have hnot : ¬(32767 : Int) < hiWord.toNat := by omega
        rw [if_neg (by simpa using hnot), if_pos hle,
          Binary64.ofInt_add (word_holds hiWord) (word_holds loWord)]
      · have hgt : (32767 : Int) < hiWord.toNat := by omega
        rw [if_pos (decide_eq_true hgt), if_neg hle, Binary64.ofInt_neg (by omega),
          Binary64.ofInt_add hneg (word_holds loWord)]
  | false =>
      have hfactor : Binary64.Holds 65536 := by decide
      have hproduct : Binary64.Holds ((hiWord.toNat : Int) * 65536) := by
        unfold Binary64.Holds
        omega
      rw [if_neg Bool.false_ne_true, if_neg Bool.false_ne_true,
        Binary64.ofInt_mul (word_holds hiWord) hfactor (Int.natCast_nonneg _) (by decide),
        Binary64.ofInt_add hproduct (word_holds loWord)]

/-! ### Which numbers are right -/

theorem numerator_eq_iff {p p' : SatecDoubleRegistersInt32} {hiWord hiWord' loWord loWord' : Word} :
    p.numerator hiWord loWord = p'.numerator hiWord' loWord' ↔
      dividend p.isSigned hiWord loWord = dividend p'.isSigned hiWord' loWord' := by
  rw [numerator_eq, numerator_eq,
    Binary64.ofInt_inj (dividend_holds _ _ _) (dividend_holds _ _ _)]

theorem dividend_eq_int32_iff {isSigned : Bool} {hiWord loWord : Word} :
    dividend isSigned hiWord loWord = int32 isSigned hiWord loWord ↔
      isSigned = false ∨ hiWord.toNat = 0 := by
  have hhi := hiWord.isLt
  have hlo := loWord.isLt
  cases isSigned with
  | true =>
      simp only [dividend, int32, if_true, Bool.true_eq_false, false_or]
      split <;> omega
  | false => exact iff_of_true rfl (.inl rfl)

theorem dividend_agrees_iff {hiWord loWord : Word} :
    dividend true hiWord loWord = dividend false hiWord loWord ↔ hiWord.toNat = 0 := by
  simp only [dividend, if_true, Bool.false_eq_true, if_false]
  split <;> omega

/-- Two pairs of words with the same sum, unless the sum is the greatest or the least of all. -/
theorem exists_same_dividend {hiWord loWord : Word}
    (hmax : ¬(hiWord.toNat = 32767 ∧ loWord.toNat = 65535))
    (hmin : ¬(hiWord.toNat = 65535 ∧ loWord.toNat = 0)) :
    ∃ hiWord' loWord' : Word, dividend true hiWord' loWord' = dividend true hiWord loWord ∧
      hiWord' ≠ hiWord := by
  have hhi := hiWord.isLt
  have hlo := loWord.isLt
  suffices h : ∃ hi lo : Nat, hi < 65536 ∧ lo < 65536 ∧ hi ≠ hiWord.toNat ∧
      (if hi ≤ 32767 then (hi : Int) + lo else -(hi : Int) + lo) = dividend true hiWord loWord by
    obtain ⟨hi, lo, hhi', hlo', hne, hsum⟩ := h
    refine ⟨BitVec.ofNat 16 hi, BitVec.ofNat 16 lo, ?_, ?_⟩
    · rw [← hsum]
      simp [dividend, Nat.mod_eq_of_lt hhi', Nat.mod_eq_of_lt hlo']
    · rintro rfl
      exact hne (by simp [Nat.mod_eq_of_lt hhi'])
  simp only [dividend, if_true]
  by_cases hpositive : hiWord.toNat ≤ 32767
  · rw [if_pos hpositive]
    by_cases hshift : 1 ≤ hiWord.toNat ∧ loWord.toNat < 65535
    · exact ⟨hiWord.toNat - 1, loWord.toNat + 1, by omega, by omega, by omega, by
        rw [if_pos (by omega)]; omega⟩
    · by_cases hzero : loWord.toNat = 0
      · -- the pair (0, 0); a negative high word is cancelled by the low one
        exact ⟨40000, 40000, by omega, by omega, by omega, by rw [if_neg (by omega)]; omega⟩
      · exact ⟨hiWord.toNat + 1, loWord.toNat - 1, by omega, by omega, by omega, by
          rw [if_pos (by omega)]; omega⟩
  · rw [if_neg hpositive]
    by_cases hshift : hiWord.toNat < 65535 ∧ loWord.toNat < 65535
    · exact ⟨hiWord.toNat + 1, loWord.toNat + 1, by omega, by omega, by omega, by
        rw [if_neg (by omega)]; omega⟩
    · by_cases hleast : hiWord.toNat = 32768
      · -- as large as a number without a high word
        exact ⟨0, 32767, by omega, by omega, by omega, by rw [if_pos (by omega)]; omega⟩
      · exact ⟨hiWord.toNat - 1, loWord.toNat - 1, by omega, by omega, by omega, by
          rw [if_neg (by omega)]; omega⟩

theorem dividend_unique_iff {isSigned : Bool} {hiWord loWord : Word} :
    (∀ hiWord' loWord' : Word,
      dividend isSigned hiWord' loWord' = dividend isSigned hiWord loWord →
        hiWord' = hiWord ∧ loWord' = loWord) ↔
      isSigned = false ∨ hiWord.toNat = 32767 ∧ loWord.toNat = 65535 ∨
        hiWord.toNat = 65535 ∧ loWord.toNat = 0 := by
  have hhi := hiWord.isLt
  have hlo := loWord.isLt
  cases isSigned with
  | false =>
      refine iff_of_true (fun hiWord' loWord' heq => ?_) (.inl rfl)
      have hhi' := hiWord'.isLt
      have hlo' := loWord'.isLt
      simp only [dividend, Bool.false_eq_true, if_false] at heq
      exact ⟨BitVec.eq_of_toNat_eq (by omega), BitVec.eq_of_toNat_eq (by omega)⟩
  | true =>
      constructor
      · intro hunique
        by_contra hnot
        obtain ⟨hiWord', loWord', heq, hne⟩ := @exists_same_dividend hiWord loWord
          (fun hmax => hnot (.inr (.inl hmax))) (fun hmin => hnot (.inr (.inr hmin)))
        exact hne (hunique hiWord' loWord' heq).1
      · rintro (hfalse | hextreme) hiWord' loWord' heq
        · cases hfalse
        · have hhi' := hiWord'.isLt
          have hlo' := loWord'.isLt
          simp only [dividend, if_true] at heq
          have hboth : hiWord'.toNat = hiWord.toNat ∧ loWord'.toNat = loWord.toNat := by
            split at heq <;> split at heq <;> omega
          exact ⟨BitVec.eq_of_toNat_eq hboth.1, BitVec.eq_of_toNat_eq hboth.2⟩

/-- **Two registers as one number.** What is divided is the number of the registers exactly in the mode
without a sign, or if the high word is 0; the modes agree on a number below `2 ^ 31` exactly if its high
word is 0; and no other registers give the same number exactly in the mode without a sign, or for the
greatest and the least of the sums. -/
theorem satec_int32_iff (p : SatecDoubleRegistersInt32) (hiWord loWord : Word) :
    (∀ timestamp, (p.decode hiWord loWord timestamp).measureValue =
        p.numerator hiWord loWord / p.multiplier) ∧
      (p.numerator hiWord loWord = Binary64.ofInt (int32 p.isSigned hiWord loWord) ↔
        p.isSigned = false ∨ hiWord.toNat = 0) ∧
      ((hiWord.toNat ≤ 32767 → { p with isSigned := true }.numerator hiWord loWord =
          { p with isSigned := false }.numerator hiWord loWord) ↔
        hiWord.toNat = 0 ∨ 32767 < hiWord.toNat) ∧
      ((∀ hiWord' loWord' : Word, p.numerator hiWord' loWord' = p.numerator hiWord loWord →
          hiWord' = hiWord ∧ loWord' = loWord) ↔
        p.isSigned = false ∨ hiWord.toNat = 32767 ∧ loWord.toNat = 65535 ∨
          hiWord.toNat = 65535 ∧ loWord.toNat = 0) := by
  refine ⟨p.decode_measureValue hiWord loWord, ?_, ?_, ?_⟩
  · rw [numerator_eq, Binary64.ofInt_inj (dividend_holds _ _ _) (int32_holds _ _ _)]
    exact dividend_eq_int32_iff
  · rw [numerator_eq_iff]
    show (_ → dividend true hiWord loWord = dividend false hiWord loWord) ↔ _
    rw [dividend_agrees_iff]
    omega
  · simp only [numerator_eq_iff]
    exact dividend_unique_iff

/-- The number -1 is decoded as 0. -/
theorem satec_minus_one : ¬({ isSigned := true } : SatecDoubleRegistersInt32).numerator 65535 65535 =
    Binary64.ofInt (int32 true 65535 65535) := by
  decide +kernel

/-! ## One bit of a register -/

namespace BitInWord

variable {J : Type*} (p : BitInWord) (word : Word)

/-- The distance of the shift is less than the width of a `u16`. -/
def ShiftFits : Prop := asU32 p.bitAddr < 16

instance : Decidable p.ShiftFits := inferInstanceAs (Decidable (_ < _))

/-- `get_value` reads the bit that the settings name: its shift does not overflow, and the measure is
that bit. -/
def ReadsNamedBit : Prop :=
  p.ShiftFits ∧ ∀ regList timestamp, regList[p.posInList]? = some word →
    ∃ measure, p.getValue regList timestamp = some measure ∧
      measure.measureValue = Binary64.ofInt ((word.toNat : Int) / 2 ^ p.bitAddr.toNat % 2)

theorem shiftFits_iff {p : BitInWord} (hlo : -2147483648 ≤ p.bitAddr)
    (hhi : p.bitAddr < 2147483648) : p.ShiftFits ↔ 0 ≤ p.bitAddr ∧ p.bitAddr ≤ 15 := by
  unfold ShiftFits asU32
  omega

/-- The bit behind the shift. -/
theorem shifted_bit (distance : Nat) :
    (((word >>> distance) &&& 1).toNat : Int) = (word.toNat : Int) / 2 ^ distance % 2 := by
  have hone : (1 : Word).toNat = 1 := rfl
  rw [BitVec.toNat_and, BitVec.toNat_ushiftRight, hone, Nat.and_one_is_mod,
    Nat.shiftRight_eq_div_pow]
  push_cast
  rfl

theorem readsNamedBit_iff {p : BitInWord} (hlo : -2147483648 ≤ p.bitAddr)
    (hhi : p.bitAddr < 2147483648) (word : Word) :
    p.ReadsNamedBit word ↔ 0 ≤ p.bitAddr ∧ p.bitAddr ≤ 15 := by
  unfold ReadsNamedBit
  rw [shiftFits_iff hlo hhi]
  refine and_iff_left_of_imp fun hbit regList timestamp hword => ?_
  have hdistance : asU32 p.bitAddr % 16 = p.bitAddr.toNat := by
    unfold asU32
    omega
  refine ⟨p.decode word timestamp, ?_, ?_⟩
  · rw [getValue, hword]
    rfl
  · show Binary64.ofInt _ = _
    rw [hdistance, shifted_bit]

theorem init_bitAddr {env : Settings J} {settings : J} {initData : BitInWordSerde}
    (hread : env.bitInWord settings = some initData) (id : Int) (logging : Bool) (dataset : List Int) :
    (((p.init env settings id logging).1).findYourRegisters dataset).1.bitAddr =
      initData.bitAddr := by
  simp only [init, hread, findYourRegisters]
  split
  · rfl
  · split <;> rfl

end BitInWord

/-- **Accepted bits.** Settings that pass `check_json` are decoded as the bit they name, in every
register, exactly if the bit is one of those from 0 to 15. The range of an `i32` is all that is known of
it. -/
theorem accepted_bit_read_iff {J : Type*} {env : Settings J} {serdeError : J → String} {settings : J}
    (haccepted : checkJson env serdeError 3 settings = .ok ())
    (hi32 : ∀ initData ∈ env.bitInWord settings,
      -2147483648 ≤ initData.bitAddr ∧ initData.bitAddr < 2147483648)
    (id : Int) (logging : Bool) (dataset : List Int) (word : Word) :
    ∃ initData, env.bitInWord settings = some initData ∧
      (((({} : BitInWord).init env settings id logging).1.findYourRegisters dataset).1.ReadsNamedBit
        word ↔ 0 ≤ initData.bitAddr ∧ initData.bitAddr ≤ 15) := by
  have hread : (env.bitInWord settings).isSome = true := by
    by_contra hnot
    simp [checkJson, hnot] at haccepted
  obtain ⟨initData, hinit⟩ := Option.isSome_iff_exists.mp hread
  refine ⟨initData, hinit, ?_⟩
  obtain ⟨hlo, hhi⟩ := hi32 initData hinit
  rw [← BitInWord.init_bitAddr {} hinit id logging dataset] at hlo hhi ⊢
  exact BitInWord.readsNamedBit_iff hlo hhi word

/-- Settings of bit values: the number of the bit, in holding register 0. -/
def bitSettings : Settings Int where
  comaShift _ := none
  satec _ := none
  bitInWord bit := if -2147483648 ≤ bit ∧ bit < 2147483648 then some ⟨"", 0, bit, "holding"⟩ else none
  powf x _ := x

theorem accepted_bit_read_iff_third :
    ∃ initData, bitSettings.bitInWord 3 = some initData ∧
      (((({} : BitInWord).init bitSettings 3 1 true).1.findYourRegisters [0]).1.ReadsNamedBit 8 ↔
        0 ≤ initData.bitAddr ∧ initData.bitAddr ≤ 15) :=
  @accepted_bit_read_iff Int bitSettings (fun _ => "") 3 rfl (by decide) 1 true [0] 8

/-- A bit that no register has is accepted. The shift overflows, or reads bit 0 instead. -/
theorem missing_bit_accepted :
    checkJson bitSettings (fun _ => "") 3 16 = .ok () ∧
      ¬((({} : BitInWord).init bitSettings 16 1 true).1.findYourRegisters [0]).1.ReadsNamedBit 1 := by
  refine ⟨rfl, fun hreads => ?_⟩
  exact absurd hreads.1 (by decide)

end ModbusLogger.Reader
