import Mathlib.Data.List.Rotate
import Mathlib.Data.Nat.ModEq

/-!
# Windows into a cyclic array

`window slots start len` reads `len` consecutive slots of a circular array, from `start` on and past
the end back to the front. It is the abstract content of a ring buffer, so the lemmas here say what
each physical operation of a ring does to it: writing the slot behind the window appends, writing
it when the window is full also drops the oldest element, writing the last slot replaces the last
element, shrinking the length forgets it.

`push` is the operation on plain lists that a ring of bounded capacity implements.
-/

namespace CyclicWindow

variable {α : Type*}

/-- `len` slots in ring order, from `start` on. -/
def window (slots : List α) (start len : Nat) : List α := (slots.rotate start).take len

/-- Append to a list of bounded length: the oldest element goes when the bound would be passed. -/
def push (capacity : Nat) (log : List α) (x : α) : List α :=
  if (log ++ [x]).length > capacity then (log ++ [x]).tail else log ++ [x]

/-! ## Reading a window -/

theorem length_window {slots : List α} {start len : Nat} (h : len ≤ slots.length) :
    (window slots start len).length = len := by
  rw [window, List.length_take, List.length_rotate]
  exact Nat.min_eq_left h

theorem getElem?_window (slots : List α) (start : Nat) {len i : Nat} (hi : i < len)
    (h : len ≤ slots.length) :
    (window slots start len)[i]? = slots[(start + i) % slots.length]? := by
  rw [window, List.getElem?_take_of_lt hi, List.getElem?_rotate (by omega), Nat.add_comm]

theorem window_mod (slots : List α) (start len : Nat) :
    window slots (start % slots.length) len = window slots start len := by
  rw [window, window, List.rotate_mod]

/-- A window is determined by its slots. -/
theorem window_ext {slots slots' : List α} {start start' len : Nat} (h : len ≤ slots.length)
    (h' : len ≤ slots'.length)
    (hslot : ∀ i < len,
      slots[(start + i) % slots.length]? = slots'[(start' + i) % slots'.length]?) :
    window slots start len = window slots' start' len := by
  apply List.ext_getElem?
  intro i
  by_cases hi : i < len
  · rw [getElem?_window _ _ hi h, getElem?_window _ _ hi h', hslot i hi]
  · rw [List.getElem?_eq_none (by rw [length_window h]; omega),
      List.getElem?_eq_none (by rw [length_window h']; omega)]

/-! ## Shrinking and growing -/

/-- Forgetting the last slot forgets the last element. -/
theorem window_dropLast {slots : List α} {start len : Nat} (h : len ≤ slots.length) :
    (window slots start len).dropLast = window slots start (len - 1) := by
  rw [List.dropLast_eq_take, length_window h, window, window, List.take_take]
  rw [Nat.min_eq_left (Nat.sub_le len 1)]

/-- A window one slot longer ends with the content of that slot. -/
theorem window_succ {slots : List α} {start len : Nat} (h : len < slots.length) :
    window slots start (len + 1) =
      window slots start len ++
        [slots.get ⟨(start + len) % slots.length, Nat.mod_lt _ (by omega)⟩] := by
  have hlen : len < (slots.rotate start).length := by rw [List.length_rotate]; exact h
  rw [window, window, List.take_succ_eq_append_getElem hlen, List.getElem_rotate]
  simp only [Nat.add_comm start len, List.get_eq_getElem]

/-- Starting one slot later drops the oldest element. -/
theorem window_tail {slots : List α} {start len : Nat} (h : len < slots.length) :
    (window slots start (len + 1)).tail = window slots (start + 1) len := by
  apply List.ext_getElem?
  intro i
  rw [List.getElem?_tail]
  by_cases hi : i < len
  · rw [getElem?_window _ _ (by omega) (by omega), getElem?_window _ _ hi (by omega)]
    congr 2
    grind
  · rw [List.getElem?_eq_none (by rw [length_window (by omega)]; omega),
      List.getElem?_eq_none (by rw [length_window (by omega)]; omega)]

/-! ## Writing a slot -/

/-- Distinct offsets below the length of the ring hit distinct slots. -/
theorem offset_inj {n start i j : Nat} (hi : i < n) (hj : j < n)
    (h : (start + i) % n = (start + j) % n) : i = j := by
  have hmod : i % n = j % n := Nat.ModEq.add_left_cancel' start h
  rwa [Nat.mod_eq_of_lt hi, Nat.mod_eq_of_lt hj] at hmod

/-- A write outside the window leaves it alone. -/
theorem window_set_outside {slots : List α} {start len i : Nat} (x : α) (hi : len ≤ i)
    (h : i < slots.length) :
    window (slots.set ((start + i) % slots.length) x) start len = window slots start len := by
  apply window_ext (by rw [List.length_set]; omega) (by omega)
  intro j hj
  rw [List.length_set, List.getElem?_set_ne]
  intro heq
  have := offset_inj h (by omega) heq
  grind

/-- Writing the slot behind the window appends to it. -/
theorem window_set_next (slots : List α) (start len : Nat) (x : α) (h : len < slots.length) :
    window (slots.set ((start + len) % slots.length) x) start (len + 1) =
      window slots start len ++ [x] := by
  rw [window_succ (by rw [List.length_set]; exact h), window_set_outside x (Nat.le_refl len) h]
  simp only [List.length_set, List.get_eq_getElem, List.getElem_set_self]

/-- Writing the slot behind a full window overwrites its oldest element. -/
theorem window_set_full (slots : List α) (start : Nat) (x : α) (h : 0 < slots.length) :
    window (slots.set (start % slots.length) x) (start + 1) slots.length =
      (window slots start slots.length).tail ++ [x] := by
  obtain ⟨n, hn⟩ : ∃ n, slots.length = n + 1 := ⟨slots.length - 1, by omega⟩
  have hlast : start % slots.length = (start + 1 + n) % slots.length := by
    rw [show start + 1 + n = start + slots.length by omega, Nat.add_mod_right]
  have hwin := window_set_next slots (start + 1) n x (by omega)
  rw [← hlast, ← hn] at hwin
  rw [hwin, hn, window_tail (by omega)]

/-- Writing the last slot of the window replaces the last element. -/
theorem window_set_last (slots : List α) (start : Nat) {len : Nat} (x : α) (hpos : 0 < len)
    (h : len ≤ slots.length) :
    window (slots.set ((start + (len - 1)) % slots.length) x) start len =
      (window slots start len).dropLast ++ [x] := by
  have hwin := window_set_next slots start (len - 1) x (by omega)
  rwa [Nat.sub_add_cancel hpos, ← window_dropLast h] at hwin

/-- The last element of a window is the content of its last slot. -/
theorem getLast?_window (slots : List α) (start : Nat) {len : Nat} (hpos : 0 < len)
    (h : len ≤ slots.length) :
    (window slots start len).getLast? = slots[(start + (len - 1)) % slots.length]? := by
  rw [List.getLast?_eq_getElem?, length_window h, getElem?_window _ _ (by omega) h]

/-! ## Bounded append -/

theorem push_of_lt {capacity : Nat} {log : List α} (x : α) (h : log.length < capacity) :
    push capacity log x = log ++ [x] := by
  rw [push, if_neg (by rw [List.length_append, List.length_singleton]; omega)]

theorem push_of_full {capacity : Nat} {log : List α} (x : α) (h : log.length = capacity)
    (hpos : 0 < capacity) : push capacity log x = log.tail ++ [x] := by
  rw [push, if_pos (by rw [List.length_append, List.length_singleton]; omega)]
  exact List.tail_append_of_ne_nil (by rintro rfl; simp at h; omega)

theorem length_push {capacity : Nat} {log : List α} (x : α) (h : log.length ≤ capacity)
    (hpos : 0 < capacity) :
    (push capacity log x).length = if log.length < capacity then log.length + 1 else capacity := by
  split
  · next hlt => rw [push_of_lt x hlt, List.length_append, List.length_singleton]
  · next hge =>
    have hfull : log.length = capacity := Nat.le_antisymm h (not_lt.mp hge)
    rw [push_of_full x hfull hpos, List.length_append, List.length_tail, List.length_singleton]
    omega

/-- **A push in the ring.** Writing the slot behind the window appends; the start moves on if all slots
are in use. -/
theorem window_push {slots : List α} {start : Nat} {log : List α}
    (hlive : window slots start log.length = log) (hle : log.length ≤ slots.length)
    (hpos : 0 < slots.length) (x : α) :
    window (slots.set ((start + log.length) % slots.length) x)
        (if log.length < slots.length then start else (start + 1) % slots.length)
        (push slots.length log x).length = push slots.length log x := by
  rw [length_push x hle hpos]
  split
  · next hlt =>
    rw [window_set_next slots start log.length x hlt, hlive, push_of_lt x hlt]
  · next hge =>
    have hfull : log.length = slots.length := Nat.le_antisymm hle (not_lt.mp hge)
    have hset := window_set_full slots start x hpos
    have hmod := window_mod (slots.set (start % slots.length) x) (start + 1) slots.length
    rw [List.length_set] at hmod
    rw [hfull] at hlive
    rw [hlive] at hset
    rw [push_of_full x hfull hpos, hfull, Nat.add_mod_right, hmod, hset]

/-- What was kept is a final part of what there was, followed by the new element. -/
theorem push_eq_drop (capacity : Nat) (log : List α) (x : α) :
    ∃ k ≤ 1, push capacity log x = (log ++ [x]).drop k := by
  rw [push]
  split
  · exact ⟨1, Nat.le_refl 1, List.drop_one.symm⟩
  · exact ⟨0, Nat.zero_le 1, rfl⟩

/-- With room for two, the newest element survives the next append. -/
theorem push_concat {capacity : Nat} (hcap : 2 ≤ capacity) (older : List α) (y x : α) :
    ∃ k, push capacity (older ++ [y]) x = older.drop k ++ [y, x] := by
  rw [push]
  split
  · next hfull =>
    cases older with
    | nil => simp at hfull; omega
    | cons z older => exact ⟨1, by simp⟩
  · exact ⟨0, by simp⟩

/-- A list that has lost older elements goes on having lost them. -/
theorem push_suffix (capacity : Nat) {log log' : List α} (h : log' <:+ log) (x : α) :
    push capacity log' x <:+ push capacity log x := by
  obtain ⟨lost, rfl⟩ := h
  cases lost with
  | nil => exact List.suffix_refl _
  | cons y lost =>
      have htail : log' ++ [x] <:+ (y :: lost ++ log' ++ [x]).tail := ⟨lost, by simp⟩
      have hshort : push capacity log' x <:+ log' ++ [x] := by
        obtain ⟨k, -, hk⟩ := push_eq_drop capacity log' x
        rw [hk]
        exact List.drop_suffix k _
      have hlong : (y :: lost ++ log' ++ [x]).tail <:+ push capacity (y :: lost ++ log') x := by
        rw [push]
        split
        · exact List.suffix_refl _
        · exact List.tail_suffix _
      exact (hshort.trans htail).trans hlong

theorem getLast?_push {capacity : Nat} (hcap : 1 ≤ capacity) (log : List α) (x : α) :
    (push capacity log x).getLast? = some x := by
  rw [push]
  split
  · next hfull =>
    rw [List.length_append, List.length_singleton] at hfull
    rw [List.tail_append_of_ne_nil (List.ne_nil_of_length_pos (by omega)), List.getLast?_concat]
  · exact List.getLast?_concat

end CyclicWindow
