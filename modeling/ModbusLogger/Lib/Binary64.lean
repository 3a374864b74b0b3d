import Mathlib.Data.Rat.Floor
import Mathlib.Algebra.Order.Field.Power

/-!
# IEEE 754 binary64

The format as a datum (sign, exponent field, fraction field) with the comparison and the
arithmetic a program sees through an `f64`. Equality is IEEE equality, not equality of data: no
NaN equals anything, itself included, and the two zeros are equal although their data differ.

Arithmetic is computed exactly over `ℚ` and rounded once, to nearest with ties to even. NaN
payloads are not tracked: every operation that makes a NaN makes the canonical one.
-/

/-- A binary64 datum: sign, biased exponent field and fraction field. -/
structure Binary64 where
  sign : Bool
  exponent : Fin 2048
  fraction : Fin (2 ^ 52)
  deriving DecidableEq, Repr

namespace Binary64

/-! ## Special data -/

def zero (sign : Bool) : Binary64 := ⟨sign, 0, 0⟩

def infinity (sign : Bool) : Binary64 := ⟨sign, 2047, 0⟩

def nan : Binary64 := ⟨false, 2047, ⟨2 ^ 51, by decide⟩⟩

/-- The most negative finite datum. -/
def MIN : Binary64 := ⟨true, 2046, ⟨2 ^ 52 - 1, by decide⟩⟩

instance : Inhabited Binary64 := ⟨zero false⟩

def isNaN (x : Binary64) : Bool := x.exponent == 2047 && x.fraction != 0

def isInfinite (x : Binary64) : Bool := x.exponent == 2047 && x.fraction == 0

def isZero (x : Binary64) : Bool := x.exponent == 0 && x.fraction == 0

/-! ## Equality -/

/-- IEEE equality. -/
def eq (x y : Binary64) : Bool :=
  !x.isNaN && !y.isNaN && (decide (x = y) || (x.isZero && y.isZero))

instance : BEq Binary64 := ⟨eq⟩

theorem beq_eq (x y : Binary64) : (x == y) = eq x y := rfl

/-- Two data stand for the same number: they are one datum, or IEEE equality identifies them. -/
def Same (x y : Binary64) : Prop := x = y ∨ (x == y) = true

instance (x y : Binary64) : Decidable (Same x y) := inferInstanceAs (Decidable (_ ∨ _))

@[simp] theorem Same.refl (x : Binary64) : Same x x := Or.inl rfl

theorem Same.of_beq {x y : Binary64} (h : (x == y) = true) : Same x y := Or.inr h

/-- Only the datum itself equals `MIN`, which is neither a NaN nor a zero. -/
theorem beq_MIN {x : Binary64} : (x == MIN) = true ↔ x = MIN := by
  constructor
  · intro h
    rw [beq_eq, eq] at h
    have hz : MIN.isZero = false := by decide
    simp only [hz, Bool.and_false, Bool.or_false, Bool.and_eq_true, decide_eq_true_eq] at h
    exact h.2
  · rintro rfl
    decide

theorem beq_symm {x y : Binary64} (h : (x == y) = true) : (y == x) = true := by
  rw [beq_eq, eq] at h ⊢
  simp only [Bool.and_eq_true, Bool.or_eq_true, decide_eq_true_eq] at h ⊢
  obtain ⟨⟨hx, hy⟩, hxy | ⟨hzx, hzy⟩⟩ := h
  · exact ⟨⟨hy, hx⟩, Or.inl hxy.symm⟩
  · exact ⟨⟨hy, hx⟩, Or.inr ⟨hzy, hzx⟩⟩

theorem beq_trans {x y z : Binary64} (hxy : (x == y) = true) (hyz : (y == z) = true) :
    (x == z) = true := by
  rw [beq_eq, eq] at hxy hyz ⊢
  simp only [Bool.and_eq_true, Bool.or_eq_true, decide_eq_true_eq] at hxy hyz ⊢
  obtain ⟨⟨hx, -⟩, hxy⟩ := hxy
  obtain ⟨⟨-, hz⟩, hyz⟩ := hyz
  refine ⟨⟨hx, hz⟩, ?_⟩
  rcases hxy with rfl | ⟨hzx, hzy⟩
  · exact hyz
  · rcases hyz with rfl | ⟨-, hzz⟩
    · exact Or.inr ⟨hzx, hzy⟩
    · exact Or.inr ⟨hzx, hzz⟩

/-- Equality does not distinguish data that stand for the same number. -/
theorem Same.beq {x y z : Binary64} (h : Same x y) (hxz : (x == z) = true) : (y == z) = true := by
  rcases h with rfl | h
  · exact hxz
  · exact beq_trans (beq_symm h) hxz

/-! ## Rounding -/

/-- `⌊log₂ q⌋` of a positive rational. The quotient of the leading powers of two is off by at most
one, always upwards. -/
def log2 (q : ℚ) : ℤ :=
  let guess := (q.num.toNat.log2 : ℤ) - q.den.log2
  if (2 : ℚ) ^ guess ≤ q then guess else guess - 1

/-- The nearest integer, the even one of two equally near. -/
def roundHalfEven (q : ℚ) : ℤ :=
  let below := q.floor
  let rest := q - below
  if rest < 1 / 2 then below
  else if 1 / 2 < rest then below + 1
  else if below % 2 = 0 then below else below + 1

/-- The datum nearest to a non-negative magnitude, under a given sign. -/
def round (sign : Bool) (magnitude : ℚ) : Binary64 :=
  if magnitude ≤ 0 then zero sign
  else
    -- `-1074` is the exponent of the smallest subnormal, `971` that of the largest finite datum
    let e := max (-1074) (log2 magnitude - 52)
    let m := roundHalfEven (magnitude / 2 ^ e)
    if m < 2 ^ 52 then ⟨sign, 0, Fin.ofNat _ m.toNat⟩
    else
      let (m, e) := if m = 2 ^ 53 then (2 ^ 52, e + 1) else (m, e)
      if 971 < e then infinity sign
      else ⟨sign, Fin.ofNat _ (e + 1075).toNat, Fin.ofNat _ (m - 2 ^ 52).toNat⟩

/-- The value of a finite datum. -/
def toRat (x : Binary64) : ℚ :=
  let magnitude : ℚ :=
    if x.exponent = 0 then (x.fraction.val : ℚ) * 2 ^ (-1074 : ℤ)
    else ((2 ^ 52 + x.fraction.val : ℕ) : ℚ) * 2 ^ ((x.exponent.val : ℤ) - 1075)
  if x.sign then -magnitude else magnitude

def ofRat (q : ℚ) : Binary64 := round (decide (q < 0)) |q|

def ofInt (n : ℤ) : Binary64 := ofRat n

/-! ## Arithmetic -/

def neg (x : Binary64) : Binary64 := { x with sign := !x.sign }

def lt (x y : Binary64) : Bool :=
  !x.isNaN && !y.isNaN &&
    if x.isInfinite then x.sign && !(y.isInfinite && y.sign)
    else if y.isInfinite then !y.sign
    else decide (x.toRat < y.toRat)

def add (x y : Binary64) : Binary64 :=
  if x.isNaN || y.isNaN then nan
  else if x.isInfinite then (if y.isInfinite && x.sign != y.sign then nan else x)
  else if y.isInfinite then y
  else if x.isZero && y.isZero then zero (x.sign && y.sign)
  else ofRat (x.toRat + y.toRat)

def mul (x y : Binary64) : Binary64 :=
  let sign := x.sign != y.sign
  if x.isNaN || y.isNaN then nan
  else if x.isInfinite || y.isInfinite then
    (if x.isZero || y.isZero then nan else infinity sign)
  else round sign |x.toRat * y.toRat|

def div (x y : Binary64) : Binary64 :=
  let sign := x.sign != y.sign
  if x.isNaN || y.isNaN then nan
  else if x.isInfinite then (if y.isInfinite then nan else infinity sign)
  else if y.isInfinite then zero sign
  else if y.isZero then (if x.isZero then nan else infinity sign)
  else round sign |x.toRat / y.toRat|

instance : Neg Binary64 := ⟨neg⟩
instance : Add Binary64 := ⟨add⟩
instance : Mul Binary64 := ⟨mul⟩
instance : Div Binary64 := ⟨div⟩

example : (zero true == zero false) = true ∧ (nan == nan) = false := by decide

/-! ## Integers -/

theorem log2_natCast {n : ℕ} (hn : n ≠ 0) : log2 (n : ℚ) = n.log2 := by
  have hle : (2 : ℚ) ^ (n.log2 : ℤ) ≤ n := by
    rw [zpow_natCast]
    exact_mod_cast Nat.log2_self_le hn
  have hone : Nat.log2 1 = 0 := by decide
  simp only [log2, Rat.num_natCast, Rat.den_natCast, Int.toNat_natCast, hone, Nat.cast_zero,
    sub_zero, if_pos hle]

theorem roundHalfEven_natCast (n : ℕ) : roundHalfEven (n : ℚ) = n := by
  have hfloor : (n : ℚ).floor = n := Rat.floor_intCast n
  simp [roundHalfEven, hfloor]

/-- The significand of an integer, shifted into its 53 bits. -/
theorem shifted_bounds {n : ℕ} (hn : n ≠ 0) (hlt : n < 2 ^ 53) :
    2 ^ 52 ≤ n * 2 ^ (52 - n.log2) ∧ n * 2 ^ (52 - n.log2) < 2 ^ 53 := by
  have hlog : n.log2 ≤ 52 := Nat.le_of_lt_succ ((Nat.log2_lt hn).mpr hlt)
  constructor
  · calc 2 ^ 52 = 2 ^ n.log2 * 2 ^ (52 - n.log2) := by rw [← pow_add, Nat.add_sub_cancel' hlog]
      _ ≤ n * 2 ^ (52 - n.log2) := Nat.mul_le_mul_right _ (Nat.log2_self_le hn)
  · calc n * 2 ^ (52 - n.log2) < 2 ^ (n.log2 + 1) * 2 ^ (52 - n.log2) :=
        Nat.mul_lt_mul_of_pos_right Nat.lt_log2_self (Nat.two_pow_pos _)
      _ = 2 ^ 53 := by rw [← pow_add]; congr 1; omega

/-- An integer of at most 53 bits is not rounded. -/
theorem round_natCast (sign : Bool) {n : ℕ} (hn : n ≠ 0) (hlt : n < 2 ^ 53) :
    round sign n = ⟨sign, Fin.ofNat _ (n.log2 + 1023), Fin.ofNat _ (n * 2 ^ (52 - n.log2) - 2 ^ 52)⟩ := by
  have hlog : n.log2 ≤ 52 := Nat.le_of_lt_succ ((Nat.log2_lt hn).mpr hlt)
  obtain ⟨hlo, hhi⟩ := shifted_bounds hn hlt
  have hpos : ¬(n : ℚ) ≤ 0 := by
    rw [not_le]
    exact_mod_cast Nat.pos_of_ne_zero hn
  have he : max (-1074) (log2 (n : ℚ) - 52) = (n.log2 : ℤ) - 52 := by
    rw [log2_natCast hn]
    omega
  have hquotient : (n : ℚ) / 2 ^ ((n.log2 : ℤ) - 52) = ((n * 2 ^ (52 - n.log2) : ℕ) : ℚ) := by
    rw [show (n.log2 : ℤ) - 52 = -((52 - n.log2 : ℕ) : ℤ) by omega, zpow_neg, zpow_natCast,
      div_inv_eq_mul]
    push_cast
    rfl
  rw [round, if_neg hpos]
  simp only [he, hquotient, roundHalfEven_natCast]
  generalize n * 2 ^ (52 - n.log2) = m at hlo hhi ⊢
  have hnormal : ¬(m : ℤ) < 2 ^ 52 := by omega
  have hfits : ¬(m : ℤ) = 2 ^ 53 := by omega
  have hfinite : ¬971 < (n.log2 : ℤ) - 52 := by omega
  have hexponent : ((n.log2 : ℤ) - 52 + 1075).toNat = n.log2 + 1023 := by omega
  have hfraction : ((m : ℤ) - 2 ^ 52).toNat = m - 2 ^ 52 := by omega
  simp only [hnormal, hfits, hfinite, if_false, hexponent, hfraction]

theorem toRat_round_natCast (sign : Bool) {n : ℕ} (hn : n ≠ 0) (hlt : n < 2 ^ 53) :
    (round sign n).toRat = if sign then -(n : ℚ) else n := by
  have hlog : n.log2 ≤ 52 := Nat.le_of_lt_succ ((Nat.log2_lt hn).mpr hlt)
  obtain ⟨hlo, hhi⟩ := shifted_bounds hn hlt
  have hexp : (Fin.ofNat 2048 (n.log2 + 1023)).val = n.log2 + 1023 := Nat.mod_eq_of_lt (by omega)
  have hfrac : (Fin.ofNat (2 ^ 52) (n * 2 ^ (52 - n.log2) - 2 ^ 52)).val =
      n * 2 ^ (52 - n.log2) - 2 ^ 52 := Nat.mod_eq_of_lt (by omega)
  have hne : Fin.ofNat 2048 (n.log2 + 1023) ≠ 0 := by
    intro h
    have := congrArg Fin.val h
    rw [hexp] at this
    exact absurd this (Nat.succ_ne_zero _)
  have hmagnitude : ((n * 2 ^ (52 - n.log2) : ℕ) : ℚ) * 2 ^ ((n.log2 : ℤ) - 52) = n := by
    rw [show (n.log2 : ℤ) - 52 = -((52 - n.log2 : ℕ) : ℤ) by omega, zpow_neg, zpow_natCast]
    push_cast
    rw [mul_assoc, mul_inv_cancel₀ (by positivity), mul_one]
  rw [round_natCast sign hn hlt, toRat]
  simp only [hne, if_false, hexp, hfrac, Nat.add_sub_cancel' hlo]
  rw [show ((n.log2 + 1023 : ℕ) : ℤ) - 1075 = (n.log2 : ℤ) - 52 by omega, hmagnitude]

/-- An integer that the format holds. -/
def Holds (n : ℤ) : Prop := n.natAbs < 2 ^ 53

instance (n : ℤ) : Decidable (Holds n) := inferInstanceAs (Decidable (_ < _))

theorem toRat_zero (sign : Bool) : (zero sign).toRat = 0 := by
  cases sign <;> simp [toRat, zero]

theorem ofInt_zero : ofInt 0 = zero false := rfl

theorem ofInt_eq_round (n : ℤ) : ofInt n = round (decide (n < 0)) (n.natAbs : ℚ) := by
  have hsign : decide ((n : ℚ) < 0) = decide (n < 0) := by simp
  have habs : |(n : ℚ)| = (n.natAbs : ℚ) := by
    rw [Nat.cast_natAbs, Int.cast_abs]
  rw [ofInt, ofRat, hsign, habs]

/-- Such an integer is converted without loss. -/
theorem toRat_ofInt {n : ℤ} (hn : Holds n) : (ofInt n).toRat = n := by
  by_cases hzero : n = 0
  · subst hzero
    rw [ofInt_zero, toRat_zero, Int.cast_zero]
  · rw [ofInt_eq_round, toRat_round_natCast _ (Int.natAbs_ne_zero.mpr hzero) hn,
      Nat.cast_natAbs, Int.cast_abs]
    rcases lt_or_gt_of_ne hzero with hneg | hpos
    · rw [if_pos (decide_eq_true hneg), abs_of_neg (by exact_mod_cast hneg), neg_neg]
    · rw [if_neg (by simpa using hpos.le), abs_of_pos (by exact_mod_cast hpos)]

theorem ofInt_inj {m n : ℤ} (hm : Holds m) (hn : Holds n) : ofInt m = ofInt n ↔ m = n := by
  constructor
  · intro h
    have hrat := congrArg toRat h
    rw [toRat_ofInt hm, toRat_ofInt hn] at hrat
    exact_mod_cast hrat
  · rintro rfl
    rfl

/-- It is an ordinary datum. -/
theorem ofInt_finite {n : ℤ} (hn : Holds n) : (ofInt n).isNaN = false ∧
    (ofInt n).isInfinite = false ∧ ((ofInt n).isZero = true ↔ n = 0) := by
  by_cases hzero : n = 0
  · subst hzero
    rw [ofInt_zero]
    decide
  · have hpos := Int.natAbs_ne_zero.mpr hzero
    have hlog : n.natAbs.log2 ≤ 52 := Nat.le_of_lt_succ ((Nat.log2_lt hpos).mpr hn)
    have hexp : (ofInt n).exponent.val = n.natAbs.log2 + 1023 := by
      rw [ofInt_eq_round, round_natCast _ hpos hn]
      exact Nat.mod_eq_of_lt (by omega)
    have hlast : ((ofInt n).exponent == 2047) = false := by
      rw [beq_eq_false_iff_ne]
      intro h
      rw [h] at hexp
      change 2047 = _ at hexp
      omega
    have hfirst : ((ofInt n).exponent == 0) = false := by
      rw [beq_eq_false_iff_ne]
      intro h
      rw [h] at hexp
      change 0 = _ at hexp
      omega
    simp [isNaN, isInfinite, isZero, hlast, hfirst, hzero]

/-- Sums that the format holds are exact. -/
theorem ofInt_add {m n : ℤ} (hm : Holds m) (hn : Holds n) :
    ofInt m + ofInt n = ofInt (m + n) := by
  obtain ⟨hmNaN, hmInf, hmZero⟩ := ofInt_finite hm
  obtain ⟨hnNaN, hnInf, hnZero⟩ := ofInt_finite hn
  show add _ _ = _
  rw [add, hmNaN, hnNaN, hmInf, hnInf]
  simp only [Bool.or_self, Bool.false_eq_true, if_false, Bool.and_eq_true]
  split
  · next hzero =>
    rw [hmZero, hnZero] at hzero
    obtain ⟨rfl, rfl⟩ := hzero
    rfl
  · rw [toRat_ofInt hm, toRat_ofInt hn, ofInt]
    push_cast
    rfl

theorem neg_round (sign : Bool) (q : ℚ) : -round sign q = round (!sign) q := by
  show neg _ = _
  unfold round neg
  dsimp only
  split
  · rfl
  · split
    · rfl
    · split <;> split <;> rfl

theorem ofInt_neg {n : ℤ} (hn : n ≠ 0) : -ofInt n = ofInt (-n) := by
  have hsign : (!decide (n < 0)) = decide (-n < 0) := by
    rw [← decide_not, decide_eq_decide]
    omega
  rw [ofInt_eq_round, ofInt_eq_round, neg_round, hsign, Int.natAbs_neg]

theorem sign_round (sign : Bool) (q : ℚ) : (round sign q).sign = sign := by
  unfold round
  dsimp only
  split
  · rfl
  · split
    · rfl
    · split <;> split <;> rfl

/-- So are products of such integers, if none of them is negative. -/
theorem ofInt_mul {m n : ℤ} (hm : Holds m) (hn : Holds n) (hm0 : 0 ≤ m) (hn0 : 0 ≤ n) :
    ofInt m * ofInt n = ofInt (m * n) := by
  obtain ⟨hmNaN, hmInf, -⟩ := ofInt_finite hm
  obtain ⟨hnNaN, hnInf, -⟩ := ofInt_finite hn
  have hpositive {k : ℤ} (hk : 0 ≤ k) : decide ((k : ℚ) < 0) = false := by
    rw [decide_eq_false_iff_not, not_lt]
    exact_mod_cast hk
  have hproduct : decide ((m : ℚ) * n < 0) = false := by
    rw [← Int.cast_mul]
    exact hpositive (mul_nonneg hm0 hn0)
  show mul _ _ = _
  rw [mul, hmNaN, hnNaN, hmInf, hnInf, toRat_ofInt hm, toRat_ofInt hn]
  simp only [ofInt, ofRat, sign_round, hpositive hm0, hpositive hn0, Int.cast_mul, hproduct]
  rfl

theorem ofInt_lt {m n : ℤ} (hm : Holds m) (hn : Holds n) :
    lt (ofInt m) (ofInt n) = decide (m < n) := by
  obtain ⟨hmNaN, hmInf, -⟩ := ofInt_finite hm
  obtain ⟨hnNaN, hnInf, -⟩ := ofInt_finite hn
  rw [lt, hmNaN, hnNaN, hmInf, hnInf, toRat_ofInt hm, toRat_ofInt hn]
  simp

end Binary64
