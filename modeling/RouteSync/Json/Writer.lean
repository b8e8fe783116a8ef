import RouteSync.Json.Tree

/-!
# Writing JSON

The compact form: no blanks, and in strings nothing escaped but quotes, backslashes and control
characters.
-/

namespace RouteSync.Json

open Text (utf8Bytes)

/-- A byte of a string as it is written. -/
def escapeByte (b : UInt8) : Bytes :=
  if b = 0x22 ∨ b = 0x5c then [0x5c, b]
  else if b = 0x08 then [0x5c, 0x62]
  else if b = 0x09 then [0x5c, 0x74]
  else if b = 0x0a then [0x5c, 0x6e]
  else if b = 0x0c then [0x5c, 0x66]
  else if b = 0x0d then [0x5c, 0x72]
  else if b < 0x20 then
    [0x5c, 0x75, 0x30, 0x30] ++ (Text.Hex.byteDigits b).map fun c => UInt8.ofNat c.toNat
  else [b]

/-- A text between quotes. -/
def writeText (s : String) : Bytes :=
  0x22 :: (utf8Bytes s).flatMap escapeByte ++ [0x22]

/-- The digits of a natural number. -/
def writeNat (n : Nat) : Bytes :=
  (Nat.toDigits 10 n).map fun c => UInt8.ofNat c.toNat

/-- A numeral. -/
def writeNumeral (n : Numeral) : Bytes :=
  (if n.negative then [0x2d] else []) ++ writeNat n.whole ++
    (if n.fraction.isEmpty then [] else 0x2e :: n.fraction) ++
    match n.exponent with
    | none => []
    | some (.ofNat e) => 0x65 :: writeNat e
    | some (.negSucc e) => 0x65 :: 0x2d :: writeNat (e + 1)

mutual

/-- A tree as text.  Only trees without faults and unreadable strings are meant to be written; in
the place of those stands `null`. -/
def Tree.write : Tree → Bytes
  | .null | .fault | .text none => [0x6e, 0x75, 0x6c, 0x6c]
  | .bool true => [0x74, 0x72, 0x75, 0x65]
  | .bool false => [0x66, 0x61, 0x6c, 0x73, 0x65]
  | .number n => writeNumeral n
  | .text (some s) => writeText s
  | .array items => 0x5b :: Tree.writeItems items
  | .object fields => 0x7b :: Tree.writeFields fields

/-- Items and the closing bracket. -/
def Tree.writeItems : List Tree → Bytes
  | [] => [0x5d]
  | [t] => t.write ++ [0x5d]
  | t :: ts => t.write ++ 0x2c :: Tree.writeItems ts

/-- Fields and the closing brace. -/
def Tree.writeFields : List (Option String × Tree) → Bytes
  | [] => [0x7d]
  | [(k, t)] => writeText (k.getD "") ++ 0x3a :: t.write ++ [0x7d]
  | (k, t) :: fields => writeText (k.getD "") ++ 0x3a :: t.write ++ 0x2c :: Tree.writeFields fields

end

end RouteSync.Json
