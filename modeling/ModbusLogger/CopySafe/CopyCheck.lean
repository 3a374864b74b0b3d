import ModbusLogger.Api.Router.UserGroup
import ModbusLogger.Lib.Hex
import ModbusLogger.Lib.Retry
import ModbusLogger.Lib.Utf8Text

/-!
# The licence (`minimal_copy_safe/copy_check.rs`)

The licence key is the id of the disk, xored with a byte and spelled in hexadecimal digits. A slice of a
text that cuts a character is a panic, which is `none`; and `u8::from_str_radix` takes a plus sign in
front of a digit. What is printed is left out, apart from the code for the developer.
-/

namespace ModbusLogger.CopySafe

open Api

def XOR_KEY_CHALLENGE : UInt8 := 0xAA

def XOR_KEY_LICENSE : UInt8 := 0x55

def bytesToHex (bytes : List UInt8) : List Char := Hex.encode bytes

/-- The digits of `u8::from_str_radix(_, 16)`; a value that is too large is refused. -/
def fromDigits (digits : List Char) : Option Nat :=
  digits.foldlM (fun n c => do
    let digit ← Hex.digit c
    let n := 16 * n + digit
    if n < 256 then some n else none) 0

/-- `u8::from_str_radix(_, 16)` -/
def fromStrRadix : List Char → Option UInt8
  | [] => none
  | ['+'] => none
  | ['-'] => none
  | '+' :: digits => (fromDigits digits).map UInt8.ofNat
  | digits => (fromDigits digits).map UInt8.ofNat

/-- The bytes from the given indices on, until a pair is refused. -/
def readPairs (hex : List Char) : List Nat → Option (Option (List UInt8))
  | [] => some (some [])
  | i :: indices =>
    (Utf8Text.slice hex i (i + 2)).bind fun pair =>
      match fromStrRadix pair with
      | none => some none
      | some byte => (readPairs hex indices).map (Option.map (byte :: ·))

def hexToBytes (hex : List Char) : Option (Option (List UInt8)) :=
  if Utf8Text.len hex % 2 ≠ 0 then some none
  else readPairs hex (List.range' 0 (Utf8Text.len hex / 2) 2)

def xorCipher (data : List UInt8) (key : UInt8) : List UInt8 := data.map (· ^^^ key)

/-- `as_bytes` -/
def bytesOf (text : String) : List UInt8 := text.toByteArray.data.toList

/-- `String::from_utf8` -/
def fromUtf8 (bytes : List UInt8) : Option String := String.fromUTF8? ⟨bytes.toArray⟩

/-- Whether a text is a licence for the disk. -/
def accepts (currentId : String) (text : List Char) : Option Bool :=
  (hexToBytes (trim text)).map fun
    | some bytes => fromUtf8 (xorCipher bytes XOR_KEY_LICENSE) = some currentId
    | none => false

/-- What a turn of the loop reads: the id of the disk, the file of the licence, a line of the console,
and whether the file can be written. -/
structure Attempt where
  currentId : String
  licenseHex : Option (List Char)
  userInput : Option (List Char)
  written : Bool

inductive Ended where
  | activated
  | panicked
  deriving DecidableEq

def challenge (currentId : String) : List Char :=
  bytesToHex (xorCipher (bytesOf currentId) XOR_KEY_CHALLENGE)

/-- Nothing is read where there is no text. -/
def acceptsSome (currentId : String) (text : Option (List Char)) : Option Bool :=
  match text with
  | some text => accepts currentId text
  | none => some false

/-- One turn of the loop, with the codes that were printed so far. -/
def turn (printed : List (List Char)) (a : Attempt) : Retry.Turn Ended (List (List Char)) :=
  match acceptsSome a.currentId a.licenseHex with
  | none => .leave .panicked
  | some true => .leave .activated
  | some false =>
    match acceptsSome a.currentId a.userInput with
    | none => .leave .panicked
    | some true =>
      if a.written then .leave .activated else .again (printed ++ [challenge a.currentId])
    | some false => .again (printed ++ [challenge a.currentId])

/-- `check_key_and_activate`, for a number of turns. -/
def checkKeyAndActivate (n : Nat) (attempts : Nat → Attempt) : Option Ended :=
  Retry.within turn n attempts []

end ModbusLogger.CopySafe
