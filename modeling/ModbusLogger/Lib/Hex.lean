import Mathlib.Data.List.Basic
import Mathlib.Tactic.IntervalCases

/-!
# Bytes in hexadecimal digits

Two digits a byte, the upper half first. What is written has lower-case digits; what is read may have
both.
-/

namespace Hex

def digit (c : Char) : Option Nat :=
  if '0' ≤ c ∧ c ≤ '9' then some (c.toNat - 48)
  else if 'a' ≤ c ∧ c ≤ 'f' then some (c.toNat - 87)
  else if 'A' ≤ c ∧ c ≤ 'F' then some (c.toNat - 55)
  else none

def decode : List Char → Option (List UInt8)
  | [] => some []
  | [_] => none
  | a :: b :: text =>
    match digit a, digit b with
    | some x, some y => (decode text).map (UInt8.ofNat (16 * x + y) :: ·)
    | _, _ => none

def encode (bytes : List UInt8) : List Char :=
  bytes.flatMap fun b => [Nat.digitChar (b.toNat / 16), Nat.digitChar (b.toNat % 16)]

/-! ## Digits -/

theorem digit_digitChar {n : Nat} (h : n < 16) : digit (Nat.digitChar n) = some n := by
  interval_cases n <;> rfl

/-- The code points of the digits. -/
theorem digit_bounds {c : Char} {n : Nat} (h : digit c = some n) : c.toNat < 128 ∧ n < 16 := by
  unfold digit at h
  have hle (a b : Char) : a ≤ b ↔ a.toNat ≤ b.toNat := Iff.rfl
  simp only [hle] at h
  have h0 : '0'.toNat = 48 := rfl
  have h9 : '9'.toNat = 57 := rfl
  have ha : 'a'.toNat = 97 := rfl
  have hf : 'f'.toNat = 102 := rfl
  have hA : 'A'.toNat = 65 := rfl
  have hF : 'F'.toNat = 70 := rfl
  split at h
  · cases h
    omega
  · split at h
    · cases h
      omega
    · split at h
      · cases h
        omega
      · cases h

theorem digit_lt {c : Char} {n : Nat} (h : digit c = some n) : n < 16 := (digit_bounds h).2

/-- A digit is one byte. -/
theorem utf8Size_of_digit {c : Char} (h : (digit c).isSome) : c.utf8Size = 1 := by
  obtain ⟨n, hn⟩ := Option.isSome_iff_exists.mp h
  rw [Char.utf8Size_eq_one_iff]
  exact Nat.le_of_lt_succ (digit_bounds hn).1

/-! ## Round trip -/

theorem decode_cons {a b : Char} {x y : Nat} (ha : digit a = some x) (hb : digit b = some y)
    (text : List Char) :
    decode (a :: b :: text) = (decode text).map (UInt8.ofNat (16 * x + y) :: ·) := by
  rw [decode, ha, hb]

theorem decode_eq_none {a b : Char} (h : ¬((digit a).isSome ∧ (digit b).isSome)) (text : List Char) :
    decode (a :: b :: text) = none := by
  rw [decode]
  split
  · next x y ha hb => simp [ha, hb] at h
  · rfl

theorem decode_encode (bytes : List UInt8) : decode (encode bytes) = some bytes := by
  induction bytes with
  | nil => rfl
  | cons b bytes ih =>
      have hb : b.toNat < 256 := b.toNat_lt
      have hupper := digit_digitChar (n := b.toNat / 16) (by omega)
      have hlower := digit_digitChar (n := b.toNat % 16) (by omega)
      show decode (_ :: _ :: encode bytes) = _
      rw [decode_cons hupper hlower, ih, Nat.div_add_mod, UInt8.ofNat_toNat]
      rfl

/-- What is read is an even number of digits. -/
theorem decode_isSome_iff (text : List Char) :
    (decode text).isSome ↔ text.length % 2 = 0 ∧ ∀ c ∈ text, (digit c).isSome := by
  induction text using decode.induct with
  | case1 => simp [decode]
  | case2 c => simp [decode]
  | case3 a b text x y hb ha ih =>
      have heven : (a :: b :: text).length % 2 = text.length % 2 := by
        rw [List.length_cons, List.length_cons]
        omega
      rw [decode_cons ha hb, Option.isSome_map, ih, heven]
      simp [ha, hb]
  | case4 a b text hnot =>
      have hnot : ¬((digit a).isSome ∧ (digit b).isSome) := by
        rintro ⟨ha, hb⟩
        obtain ⟨x, hx⟩ := Option.isSome_iff_exists.mp ha
        obtain ⟨y, hy⟩ := Option.isSome_iff_exists.mp hb
        exact hnot x y hx hy
      rw [decode_eq_none hnot]
      refine iff_of_false Bool.false_ne_true fun h => hnot ?_
      exact ⟨h.2 a List.mem_cons_self, h.2 b (List.mem_cons_of_mem _ List.mem_cons_self)⟩

end Hex
