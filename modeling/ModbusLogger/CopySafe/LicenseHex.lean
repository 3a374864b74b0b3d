import ModbusLogger.CopySafe.CopyCheck

/-!
# Which texts are read as licences

`hex_to_bytes` goes through the pairs of bytes from the left. A pair of digits is read, and so is a plus
sign with a digit. The first pair of whole characters that is not read ends it well; before that, a pair
that ends inside a character is a panic.
-/

namespace ModbusLogger.CopySafe

open Api

/-! ## Pairs -/

/-- `u8::from_str_radix` takes the pair. -/
def PairRead (a b : Char) : Prop := (a = '+' ∨ (Hex.digit a).isSome) ∧ (Hex.digit b).isSome

theorem fromStrRadix_digits {a b : Char} {x y : Nat} (ha : Hex.digit a = some x)
    (hb : Hex.digit b = some y) : fromStrRadix [a, b] = some (UInt8.ofNat (16 * x + y)) := by
  have hx := Hex.digit_lt ha
  have hy := Hex.digit_lt hb
  have hplus : a ≠ '+' := by
    rintro rfl
    cases ha
  have hsmall : 16 * x + y < 256 := by omega
  have hsmall' : x < 256 := by omega
  simp [fromStrRadix, hplus, fromDigits, ha, hb, hsmall, hsmall']

theorem fromStrRadix_plus {b : Char} {y : Nat} (hb : Hex.digit b = some y) :
    fromStrRadix ['+', b] = some (UInt8.ofNat y) := by
  have hy := Hex.digit_lt hb
  have hsmall : y < 256 := by omega
  simp [fromStrRadix, fromDigits, hb, hsmall]

theorem fromStrRadix_pair_none {a b : Char} (h : ¬PairRead a b) : fromStrRadix [a, b] = none := by
  by_cases hplus : a = '+'
  · subst hplus
    have hb : Hex.digit b = none := by
      rw [← Option.not_isSome_iff_eq_none]
      exact fun hb => h ⟨.inl rfl, hb⟩
    simp [fromStrRadix, fromDigits, hb]
  · cases ha : Hex.digit a with
    | none => simp [fromStrRadix, hplus, fromDigits, ha]
    | some x =>
        have hb : Hex.digit b = none := by
          rw [← Option.not_isSome_iff_eq_none]
          exact fun hb => h ⟨.inr (by rw [ha]; rfl), hb⟩
        have hsmall : x < 256 := Nat.lt_trans (Hex.digit_lt ha) (by decide)
        simp [fromStrRadix, hplus, fromDigits, ha, hb, hsmall]

theorem PairRead.exists_byte {a b : Char} (h : PairRead a b) :
    ∃ byte, fromStrRadix [a, b] = some byte := by
  obtain ⟨ha | ha, hb⟩ := h <;> obtain ⟨y, hy⟩ := Option.isSome_iff_exists.mp hb
  · subst ha
    exact ⟨_, fromStrRadix_plus hy⟩
  · obtain ⟨x, hx⟩ := Option.isSome_iff_exists.mp ha
    exact ⟨_, fromStrRadix_digits hx hy⟩

theorem PairRead.utf8Size {a b : Char} (h : PairRead a b) : a.utf8Size = 1 ∧ b.utf8Size = 1 := by
  obtain ⟨ha | ha, hb⟩ := h
  · subst ha
    exact ⟨rfl, Hex.utf8Size_of_digit hb⟩
  · exact ⟨Hex.utf8Size_of_digit ha, Hex.utf8Size_of_digit hb⟩

/-- A character of two bytes is no digit. -/
theorem fromStrRadix_wide {c : Char} (h : c.utf8Size = 2) : fromStrRadix [c] = none := by
  have hplus : c ≠ '+' := by
    rintro rfl
    cases h
  have hminus : c ≠ '-' := by
    rintro rfl
    cases h
  have hdigit : Hex.digit c = none := by
    rw [← Option.not_isSome_iff_eq_none]
    intro hdigit
    rw [Hex.utf8Size_of_digit hdigit] at h
    cases h
  simp [fromStrRadix, hplus, hminus, fromDigits, hdigit]

/-! ## The pairs of a text -/

/-- The loop over the pairs, without indices. -/
def scan : List Char → Option (Option (List UInt8))
  | [] => some (some [])
  | [c] => if c.utf8Size = 2 then some none else none
  | c :: d :: text =>
    if c.utf8Size = 2 then some none
    else if c.utf8Size = 1 ∧ d.utf8Size = 1 then
      match fromStrRadix [c, d] with
      | none => some none
      | some byte => (scan text).map (Option.map (byte :: ·))
    else none

theorem scan_wide {c : Char} (h : c.utf8Size = 2) (text : List Char) :
    scan (c :: text) = some none := by
  cases text <;> simp [scan, h]

theorem scan_pair {c d : Char} (hc : c.utf8Size = 1) (hd : d.utf8Size = 1) (text : List Char) :
    scan (c :: d :: text) =
      match fromStrRadix [c, d] with
      | none => some none
      | some byte => (scan text).map (Option.map (byte :: ·)) := by
  simp [scan, hc, hd]

theorem scan_cut {c : Char} {text : List Char} (hc : c.utf8Size ≠ 2)
    (hcut : ∀ d rest, text = d :: rest → c.utf8Size = 1 → d.utf8Size ≠ 1) :
    scan (c :: text) = none := by
  cases text with
  | nil => simp [scan, hc]
  | cons d rest =>
      rw [scan, if_neg hc, if_neg]
      rintro ⟨hone, hone'⟩
      exact hcut d rest rfl hone hone'

theorem readPairs_eq_scan (n : Nat) (front text : List Char) (h : Utf8Text.len text = 2 * n) :
    readPairs (front ++ text) (List.range' (Utf8Text.len front) n 2) = scan text := by
  induction n generalizing front text with
  | zero =>
      obtain rfl := Utf8Text.eq_nil_of_len h
      rfl
  | succ n ih =>
      cases text with
      | nil => simp at h
      | cons c text =>
          rw [List.range'_succ, readPairs, Utf8Text.slice_append]
          rcases @Utf8Text.take_two c text (by omega) with
            ⟨hwide, htake⟩ | ⟨d, rest, rfl, hc, hd, htake⟩ | ⟨hwide, hcut, htake⟩
          · rw [htake, scan_wide hwide, Option.bind_some, fromStrRadix_wide hwide]
          · have hrest : Utf8Text.len rest = 2 * n := by
              rw [Utf8Text.len_cons, Utf8Text.len_cons] at h
              omega
            have hfront : Utf8Text.len (front ++ [c, d]) = Utf8Text.len front + 2 := by
              simp [hc, hd]
            have hnext := ih (front ++ [c, d]) rest hrest
            rw [hfront, List.append_assoc] at hnext
            rw [htake, scan_pair hc hd, Option.bind_some, ← hnext]
            rfl
          · rw [htake, scan_cut hwide hcut, Option.bind_none]

theorem hexToBytes_eq (text : List Char) :
    hexToBytes text = if Utf8Text.len text % 2 = 1 then some none else scan text := by
  unfold hexToBytes
  by_cases hodd : Utf8Text.len text % 2 = 1
  · rw [if_pos (by omega), if_pos hodd]
  · rw [if_neg (by omega), if_neg hodd]
    exact readPairs_eq_scan _ [] text (by omega)

/-! ## When the answer is right -/

/-- After some pairs that are read comes a pair of whole characters that is not. -/
inductive Stops : List Char → Prop where
  | wide {c : Char} {text : List Char} : c.utf8Size = 2 → Stops (c :: text)
  | refused {a b : Char} {text : List Char} : a.utf8Size = 1 → b.utf8Size = 1 → ¬PairRead a b →
      Stops (a :: b :: text)
  | later {a b : Char} {text : List Char} : PairRead a b → Stops text → Stops (a :: b :: text)

/-- The length in bytes is odd, or all characters are digits, or a pair ends the search. -/
def Plain (text : List Char) : Prop :=
  Utf8Text.len text % 2 = 1 ∨ (∀ c ∈ text, (Hex.digit c).isSome) ∨ Stops text

/-- A refused pair ends the search. -/
theorem Stops.scan_eq {text : List Char} (h : Stops text) : scan text = some none := by
  induction h with
  | wide hc => exact scan_wide hc _
  | refused ha hb hnot => rw [scan_pair ha hb, fromStrRadix_pair_none hnot]
  | later hread _ ih =>
      obtain ⟨byte, hbyte⟩ := hread.exists_byte
      rw [scan_pair hread.utf8Size.1 hread.utf8Size.2, hbyte, ih]
      rfl

theorem Stops.decode_eq {text : List Char} (h : Stops text) : Hex.decode text = none := by
  rw [← Option.not_isSome_iff_eq_none, Hex.decode_isSome_iff]
  rintro ⟨-, hall⟩
  induction h with
  | wide hc =>
      have := Hex.utf8Size_of_digit (hall _ List.mem_cons_self)
      omega
  | refused _ _ hnot =>
      exact hnot ⟨.inr (hall _ List.mem_cons_self),
        hall _ (List.mem_cons_of_mem _ List.mem_cons_self)⟩
  | later _ _ ih => exact ih fun c hc => hall c (List.mem_cons_of_mem _ (List.mem_cons_of_mem _ hc))

/-- Digits are read as they are spelled. -/
theorem scan_eq_decode {text : List Char} (heven : text.length % 2 = 0)
    (hall : ∀ c ∈ text, (Hex.digit c).isSome) : scan text = some (Hex.decode text) := by
  induction text using Hex.decode.induct with
  | case1 => rfl
  | case2 c => simp at heven
  | case3 a b text x y hb ha ih =>
      have hsizes : a.utf8Size = 1 ∧ b.utf8Size = 1 :=
        ⟨Hex.utf8Size_of_digit (by simp [ha]), Hex.utf8Size_of_digit (by simp [hb])⟩
      have hrest : text.length % 2 = 0 := by
        rw [List.length_cons, List.length_cons] at heven
        omega
      have hdigits : ∀ c ∈ text, (Hex.digit c).isSome := fun c hc =>
        hall c (List.mem_cons_of_mem _ (List.mem_cons_of_mem _ hc))
      rw [scan_pair hsizes.1 hsizes.2, fromStrRadix_digits ha hb, ih hrest hdigits,
        Hex.decode_cons ha hb]
      rfl
  | case4 a b text hnot =>
      exfalso
      obtain ⟨x, hx⟩ := Option.isSome_iff_exists.mp (hall a List.mem_cons_self)
      obtain ⟨y, hy⟩ := Option.isSome_iff_exists.mp
        (hall b (List.mem_cons_of_mem _ List.mem_cons_self))
      exact hnot x y hx hy

theorem stops_of_scan {text : List Char} (h : scan text = some none) : Stops text := by
  induction text using scan.induct with
  | case1 => cases h
  | case2 c hwide => exact .wide hwide
  | case3 c hwide =>
      rw [scan, if_neg hwide] at h
      cases h
  | case4 c d text hwide => exact .wide hwide
  | case5 c d text hwide hsizes hnone =>
      refine .refused hsizes.1 hsizes.2 fun hread => ?_
      obtain ⟨byte, hbyte⟩ := hread.exists_byte
      rw [hnone] at hbyte
      cases hbyte
  | case6 c d text hwide hsizes byte hbyte ih =>
      rw [scan_pair hsizes.1 hsizes.2, hbyte] at h
      obtain ⟨result, hresult, hnone⟩ := Option.map_eq_some_iff.mp h
      have hread : PairRead c d := by
        by_contra hnot
        rw [fromStrRadix_pair_none hnot] at hbyte
        cases hbyte
      exact .later hread (ih (by rw [hresult, Option.map_eq_none_iff.mp hnone]))
  | case7 c d text hwide hsizes =>
      rw [scan, if_neg hwide, if_neg hsizes] at h
      cases h

theorem len_of_digits {text : List Char} (h : ∀ c ∈ text, (Hex.digit c).isSome) :
    Utf8Text.len text = text.length := by
  induction text with
  | nil => rfl
  | cons c text ih =>
      rw [Utf8Text.len_cons, List.length_cons, Hex.utf8Size_of_digit (h c List.mem_cons_self),
        ih fun d hd => h d (List.mem_cons_of_mem _ hd), Nat.add_comm]

/-- The text is read as the digits that it spells, or refused where it spells none. -/
theorem hexToBytes_eq_decode_iff (text : List Char) :
    hexToBytes text = some (Hex.decode text) ↔ Plain text := by
  rw [hexToBytes_eq]
  by_cases hodd : Utf8Text.len text % 2 = 1
  · rw [if_pos hodd]
    refine iff_of_true ?_ (.inl hodd)
    have hnone : Hex.decode text = none := by
      rw [← Option.not_isSome_iff_eq_none, Hex.decode_isSome_iff]
      rintro ⟨heven, hall⟩
      rw [← len_of_digits hall] at heven
      omega
    rw [hnone]
  · rw [if_neg hodd]
    constructor
    · intro h
      cases hdecode : Hex.decode text with
      | none =>
          rw [hdecode] at h
          exact .inr (.inr (stops_of_scan h))
      | some bytes =>
          have hall := ((Hex.decode_isSome_iff text).mp (by rw [hdecode]; rfl)).2
          exact .inr (.inl hall)
    · rintro (hodd' | hall | hstops)
      · exact absurd hodd' hodd
      · have heven : text.length % 2 = 0 := by
          rw [← len_of_digits hall]
          omega
        exact scan_eq_decode heven hall
      · rw [hstops.scan_eq, hstops.decode_eq]

/-- What was written is read. -/
theorem hexToBytes_bytesToHex (bytes : List UInt8) :
    hexToBytes (bytesToHex bytes) = some (some bytes) := by
  have hdecode : Hex.decode (bytesToHex bytes) = some bytes := Hex.decode_encode bytes
  have hall := ((Hex.decode_isSome_iff (bytesToHex bytes)).mp (by rw [hdecode]; rfl)).2
  rw [(hexToBytes_eq_decode_iff _).mpr (.inr (.inl hall)), hdecode]

/-! ## Licences -/

/-- The text spells the id of the disk, xored with the byte of the licence. -/
def IsLicense (currentId : String) (text : List Char) : Prop :=
  Hex.decode text = some (xorCipher (bytesOf currentId) XOR_KEY_LICENSE)

instance (currentId : String) (text : List Char) : Decidable (IsLicense currentId text) :=
  inferInstanceAs (Decidable (_ = _))

theorem xorCipher_xorCipher (data : List UInt8) (key : UInt8) :
    xorCipher (xorCipher data key) key = data := by
  unfold xorCipher
  rw [List.map_map]
  calc data.map _ = data.map id := by
        apply List.map_congr_left
        intro b _
        show b ^^^ key ^^^ key = b
        rw [UInt8.xor_assoc, UInt8.xor_self, UInt8.xor_zero]
    _ = data := List.map_id data

theorem fromUtf8_eq_some_iff {bytes : List UInt8} {text : String} :
    fromUtf8 bytes = some text ↔ bytes = bytesOf text := by
  unfold fromUtf8 String.fromUTF8?
  constructor
  · intro h
    split at h
    · obtain rfl := Option.some.inj h
      rfl
    · cases h
  · rintro rfl
    exact dif_pos text.isValidUTF8

/-- With exact digits, exactly the licences are accepted. -/
theorem accepts_eq {currentId : String} {text : List Char}
    (h : hexToBytes (trim text) = some (Hex.decode (trim text))) :
    accepts currentId text = some (decide (IsLicense currentId (trim text))) := by
  unfold accepts
  rw [h, Option.map_some]
  cases hdecode : Hex.decode (trim text) with
  | none => simp [IsLicense, hdecode]
  | some bytes =>
      have hiff : fromUtf8 (xorCipher bytes XOR_KEY_LICENSE) = some currentId ↔
          IsLicense currentId (trim text) := by
        rw [fromUtf8_eq_some_iff, IsLicense, hdecode, Option.some.injEq]
        constructor
        · intro heq
          rw [← heq, xorCipher_xorCipher]
        · intro heq
          rw [heq, xorCipher_xorCipher]
      simp [hiff]

/-! ## The loop -/

/-- The texts of a turn. -/
def Attempt.Reads (a : Attempt) (text : List Char) : Prop :=
  a.licenseHex = some text ∨ a.userInput = some text

/-- The file is a licence, or the line is one and is written to the file. -/
def Attempt.Licensed (a : Attempt) : Prop :=
  (∃ text ∈ a.licenseHex, IsLicense a.currentId (trim text)) ∨
    a.written = true ∧ ∃ text ∈ a.userInput, IsLicense a.currentId (trim text)

theorem acceptsSome_eq (currentId : String) {text : Option (List Char)}
    (h : ∀ t ∈ text, Plain (trim t)) :
    ∃ accepted : Bool, acceptsSome currentId text = some accepted ∧
      (accepted = true ↔ ∃ t ∈ text, IsLicense currentId (trim t)) := by
  cases text with
  | none => exact ⟨false, rfl, by simp⟩
  | some t =>
      refine ⟨_, accepts_eq ((hexToBytes_eq_decode_iff _).mpr (h t rfl)), ?_⟩
      simp

theorem turn_leaves_iff {a : Attempt} (h : ∀ text, a.Reads text → Plain (trim text))
    (printed : List (List Char)) :
    (∃ result, turn printed a = .leave result) ↔ a.Licensed := by
  obtain ⟨file, hfile, hfileIff⟩ := acceptsSome_eq a.currentId
    fun t ht => h t (.inl ht)
  obtain ⟨line, hline, hlineIff⟩ := acceptsSome_eq a.currentId
    fun t ht => h t (.inr ht)
  unfold turn Attempt.Licensed
  rw [hfile, ← hfileIff, ← hlineIff]
  cases file with
  | true => simp
  | false =>
      cases line with
      | false => simp [hline]
      | true => cases a.written <;> simp [hline]

theorem turn_leave_eq {a : Attempt} (h : ∀ text, a.Reads text → Plain (trim text))
    {printed : List (List Char)} {result : Ended} (hturn : turn printed a = .leave result) :
    result = .activated := by
  obtain ⟨file, hfile, -⟩ := acceptsSome_eq a.currentId fun t ht => h t (.inl ht)
  obtain ⟨line, hline, -⟩ := acceptsSome_eq a.currentId fun t ht => h t (.inr ht)
  unfold turn at hturn
  rw [hfile] at hturn
  cases file with
  | true => cases hturn; rfl
  | false =>
      dsimp only at hturn
      rw [hline] at hturn
      cases line with
      | false => cases hturn
      | true =>
          dsimp only at hturn
          split at hturn
          · cases hturn; rfl
          · cases hturn

/-- If all texts are read exactly, the program is let in by the licences, and by nothing else. -/
theorem checkKeyAndActivate_iff {attempts : Nat → Attempt}
    (h : ∀ k text, (attempts k).Reads text → Plain (trim text)) (n : Nat) :
    (checkKeyAndActivate n attempts = some .activated ↔ ∃ k < n, (attempts k).Licensed) ∧
      checkKeyAndActivate n attempts ≠ some .panicked := by
  have hleaves := Retry.within_isSome_iff (n := n) (s := ([] : List (List Char)))
    fun printed k => turn_leaves_iff (h k) printed
  have hresult {result : Ended} (hsome : checkKeyAndActivate n attempts = some result) :
      result = .activated :=
    Retry.within_result (Q := (· = .activated))
      (fun printed k r hturn => turn_leave_eq (h k) hturn) hsome
  constructor
  · rw [← hleaves]
    constructor
    · intro hsome
      rw [← checkKeyAndActivate, hsome]
      rfl
    · intro hsome
      obtain ⟨result, hsome⟩ := Option.isSome_iff_exists.mp hsome
      rw [← hresult hsome]
      exact hsome
  · intro hpanic
    cases hresult hpanic

/-! ## The result -/

/-- `hex_to_bytes` gives the bytes that the text spells and refuses what spells none, and so licences
are told from other texts. -/
def ReadExactly (text : List Char) : Prop :=
  hexToBytes text = some (Hex.decode text) ∧ ∀ currentId content, trim content = text →
    accepts currentId content = some (decide (IsLicense currentId text))

/-- What `bytes_to_hex` writes is read. A text is read exactly if it is plain, and if all texts of a run
are, `check_key_and_activate` returns for the licences and for nothing else. -/
theorem license_hex_exact_iff (bytes : List UInt8) (text : List Char) (attempts : Nat → Attempt) :
    hexToBytes (bytesToHex bytes) = some (some bytes) ∧
    (ReadExactly text ↔ Plain text) ∧
    ((∀ k text, (attempts k).Reads text → Plain (trim text)) →
      ∀ n, (checkKeyAndActivate n attempts = some .activated ↔ ∃ k < n, (attempts k).Licensed) ∧
        checkKeyAndActivate n attempts ≠ some .panicked) := by
  refine ⟨hexToBytes_bytesToHex bytes, ⟨?_, ?_⟩, fun h n => ?_⟩
  · exact fun h => (hexToBytes_eq_decode_iff text).mp h.1
  · intro h
    have hexact := (hexToBytes_eq_decode_iff text).mpr h
    refine ⟨hexact, ?_⟩
    rintro currentId content rfl
    exact accepts_eq hexact
  · exact checkKeyAndActivate_iff h n

/-- A plus sign stands for a zero, a wide character is cut, and the line "+516" is taken as the licence
of the disk "PC". -/
theorem sign_is_digit :
    hexToBytes ['+', 'f'] = some (some [15]) ∧ Hex.decode ['+', 'f'] = none ∧
      hexToBytes ['a', 'é', 'b'] = none ∧
      accepts "PC" ['+', '5', '1', '6'] = some true ∧ ¬IsLicense "PC" ['+', '5', '1', '6'] := by
  refine ⟨rfl, rfl, rfl, ?_, by decide⟩
  have hread : hexToBytes (trim ['+', '5', '1', '6']) = some (some [5, 22]) := by decide
  unfold accepts
  rw [hread, Option.map_some]
  have hdecrypted : fromUtf8 (xorCipher [5, 22] XOR_KEY_LICENSE) = some "PC" :=
    fromUtf8_eq_some_iff.mpr rfl
  simp [hdecrypted]

end ModbusLogger.CopySafe
