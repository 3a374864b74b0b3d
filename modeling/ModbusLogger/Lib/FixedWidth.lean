import Mathlib.Data.Int.Basic

/-!
# Casts to fixed-width integers

An `as` cast keeps the low bits of its argument and reads them as the target type.
-/

namespace FixedWidth

/-- `x as u8` -/
def asU8 (x : Int) : Nat := (x % 256).toNat

/-- `x as u16` -/
def asU16 (x : Int) : Nat := (x % 65536).toNat

/-- `x as u32` -/
def asU32 (x : Int) : Nat := (x % 4294967296).toNat

/-- `x as u64` -/
def asU64 (x : Int) : Nat := (x % 18446744073709551616).toNat

/-- `x + y` of two `u64` in a build without overflow checks. -/
def addU64 (x y : Nat) : Nat := (x + y) % 18446744073709551616

/-- `x as i32` -/
def asI32 (x : Int) : Int := x.bmod 4294967296

theorem asI32_of_lt {x : Int} (h : -2147483648 ≤ x) (h' : x < 2147483648) : asI32 x = x := by
  unfold asI32
  rw [Int.bmod_eq_of_le] <;> omega

end FixedWidth
