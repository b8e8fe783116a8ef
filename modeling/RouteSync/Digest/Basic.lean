import RouteSync.Text.Hex

/-!
# Values of thirty-two bytes

Authentication tags, secrets, conditions and fulfillments are all exactly thirty-two bytes; the
length is part of the type.
-/

namespace RouteSync

/-- Exactly thirty-two bytes. -/
structure Bytes32 where
  bytes : Bytes
  length_eq : bytes.length = 32
  deriving DecidableEq

namespace Bytes32

open Text.Hex

/-- The same byte thirty-two times. -/
def replicate (b : UInt8) : Bytes32 :=
  ⟨List.replicate 32 b, List.length_replicate⟩

/-- The hexadecimal digits of the value. -/
def hex (v : Bytes32) : String :=
  String.ofList (encode v.bytes)

/-- Bytes as a value, if there are thirty-two. -/
def ofBytes? (bs : Bytes) : Option Bytes32 :=
  if h : bs.length = 32 then some ⟨bs, h⟩ else none

/-- Read sixty-four hexadecimal digits.  The number of digits is looked at before the digits. -/
def parse (text : String) : Except HexError Bytes32 := do
  let digits := Text.utf8Bytes text
  if digits.length % 2 ≠ 0 then throw .oddLength
  if digits.length ≠ 64 then throw .wrongLength
  match ofBytes? (← decodePairs 0 digits) with
  | some v => return v
  | none => throw .wrongLength

end Bytes32

end RouteSync
