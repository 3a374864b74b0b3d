import Mathlib.Algebra.GroupWithZero.Nat
import Mathlib.Data.List.Basic

/-!
# Texts that are cut by bytes

A text is UTF-8, and its length and the bounds of a slice count bytes. A bound inside a character, or
behind the text, is an error.
-/

namespace Utf8Text

def len (text : List Char) : Nat := (text.map Char.utf8Size).sum

/-- The text from a byte on. -/
def drop : List Char → Nat → Option (List Char)
  | text, 0 => some text
  | [], _ + 1 => none
  | c :: text, n + 1 => if c.utf8Size ≤ n + 1 then drop text (n + 1 - c.utf8Size) else none

/-- The text up to a byte. -/
def take : List Char → Nat → Option (List Char)
  | _, 0 => some []
  | [], _ + 1 => none
  | c :: text, n + 1 =>
    if c.utf8Size ≤ n + 1 then (take text (n + 1 - c.utf8Size)).map (c :: ·) else none

def slice (text : List Char) (first last : Nat) : Option (List Char) :=
  (drop text first).bind fun rest => take rest (last - first)

@[simp] theorem len_nil : len [] = 0 := rfl

@[simp] theorem len_cons (c : Char) (text : List Char) : len (c :: text) = c.utf8Size + len text := by
  simp [len]

@[simp] theorem len_append (a b : List Char) : len (a ++ b) = len a + len b := by simp [len]

theorem eq_nil_of_len {text : List Char} (h : len text = 0) : text = [] := by
  cases text with
  | nil => rfl
  | cons c text =>
      have := c.utf8Size_pos
      rw [len_cons] at h
      omega

@[simp] theorem drop_zero (text : List Char) : drop text 0 = some text := by
  cases text <;> rfl

@[simp] theorem take_zero (text : List Char) : take text 0 = some [] := by
  cases text <;> rfl

/-- The end of a character is a bound. -/
theorem drop_len (a b : List Char) : drop (a ++ b) (len a) = some b := by
  induction a with
  | nil => simp
  | cons c a ih =>
      obtain ⟨n, hn⟩ : ∃ n, len (c :: a) = n + 1 :=
        ⟨len (c :: a) - 1, by have := c.utf8Size_pos; simp; omega⟩
      rw [List.cons_append, hn, drop, ← hn, if_pos (by simp), len_cons, Nat.add_sub_cancel_left, ih]

theorem slice_append (a b : List Char) (n : Nat) : slice (a ++ b) (len a) (len a + n) = take b n := by
  simp [slice, drop_len]

/-- The first two bytes are two characters, or one, or they end inside a character. -/
theorem take_two {c : Char} {text : List Char} (h : 2 ≤ len (c :: text)) :
    (c.utf8Size = 2 ∧ take (c :: text) 2 = some [c]) ∨
    (∃ d rest, text = d :: rest ∧ c.utf8Size = 1 ∧ d.utf8Size = 1 ∧
      take (c :: text) 2 = some [c, d]) ∨
    (c.utf8Size ≠ 2 ∧ (∀ d rest, text = d :: rest → c.utf8Size = 1 → d.utf8Size ≠ 1) ∧
      take (c :: text) 2 = none) := by
  have hpos := c.utf8Size_pos
  by_cases htwo : c.utf8Size = 2
  · exact .inl ⟨htwo, by simp [take, htwo]⟩
  · by_cases hone : c.utf8Size = 1
    · cases text with
      | nil => simp [hone] at h
      | cons d rest =>
          have hpos' := d.utf8Size_pos
          by_cases hone' : d.utf8Size = 1
          · exact .inr (.inl ⟨d, rest, rfl, hone, hone', by simp [take, hone, hone']⟩)
          · refine .inr (.inr ⟨htwo, ?_, ?_⟩)
            · rintro d' rest' heq -
              obtain ⟨rfl, -⟩ := List.cons.inj heq
              exact hone'
            · have hwide : ¬d.utf8Size ≤ 1 := by omega
              simp [take, hone, hwide]
    · have hwide : ¬c.utf8Size ≤ 2 := by omega
      exact .inr (.inr ⟨htwo, fun _ _ _ h => absurd h hone, by simp [take, hwide]⟩)

end Utf8Text
