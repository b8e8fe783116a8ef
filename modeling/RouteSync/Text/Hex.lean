import RouteSync.Text.Quoted
import RouteSync.Text.Utf8

/-!
# Hexadecimal bytes

Every byte is two digits, written in lower case and read in either.  Reading looks at the number of
digits first and then reports the leftmost character that is no digit.
-/

namespace RouteSync.Text.Hex

/-- Why a text is not the hexadecimal form of the bytes asked for. -/
inductive HexError where
  | oddLength
  | wrongLength
  | invalidCharacter (c : Char) (index : Nat)
  deriving DecidableEq, Repr

/-- The wording of a `HexError`. -/
def HexError.message : HexError → String
  | .oddLength => "OddLength"
  | .wrongLength => "InvalidStringLength"
  | .invalidCharacter c index =>
    "InvalidHexCharacter \x7b c: " ++ quoteOne c ++ ", index: " ++ toString index ++ " \x7d"

/-- The digit for a number below sixteen. -/
def digit (n : Nat) : Char :=
  Nat.digitChar n

/-- The two digits of a byte. -/
def byteDigits (b : UInt8) : List Char :=
  [digit (b.toNat / 16), digit (b.toNat % 16)]

/-- The digits of bytes. -/
def encode (bs : Bytes) : List Char :=
  bs.flatMap byteDigits

/-- The number that a digit stands for, the digit given as a byte. -/
def value? (b : UInt8) : Option Nat :=
  if 48 ≤ b ∧ b ≤ 57 then some (b.toNat - 48)
  else if 97 ≤ b ∧ b ≤ 102 then some (b.toNat - 87)
  else if 65 ≤ b ∧ b ≤ 70 then some (b.toNat - 55)
  else none

/-- The value of a digit, or the complaint about it at its index. -/
def valueAt (index : Nat) (b : UInt8) : Except HexError Nat :=
  match value? b with
  | some n => .ok n
  | none => .error (.invalidCharacter (Char.ofNat b.toNat) index)

/-- Read digits two by two, the first of them at `index`. -/
def decodePairs (index : Nat) : Bytes → Except HexError Bytes
  | [] => .ok []
  | [_] => .error .oddLength
  | high :: low :: rest => do
    let h ← valueAt index high
    let l ← valueAt (index + 1) low
    let bytes ← decodePairs (index + 2) rest
    return UInt8.ofNat (h * 16 + l) :: bytes

/-- Read any number of bytes. -/
def decode (text : String) : Except HexError Bytes :=
  let digits := utf8Bytes text
  if digits.length % 2 ≠ 0 then .error .oddLength else decodePairs 0 digits

end RouteSync.Text.Hex
