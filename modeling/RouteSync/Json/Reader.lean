import RouteSync.Json.Tree

/-!
# Reading JSON

The reader goes over the bytes once.  Where they stop being JSON it puts a `fault` into the tree and
gives no rest; otherwise it gives the bytes that follow the value.
-/

namespace RouteSync.Json

open Text (utf8Bytes ofUtf8?)

/-- The four bytes that may stand between tokens. -/
def isBlank (b : UInt8) : Bool :=
  b == 0x20 || b == 0x09 || b == 0x0a || b == 0x0d

def skipBlanks (bs : Bytes) : Bytes :=
  bs.dropWhile isBlank

def isDigit (b : UInt8) : Bool :=
  0x30 ≤ b && b ≤ 0x39

/-! ### Strings -/

/-- A string is made of bytes and of sixteen-bit units given by their number. -/
inductive Piece where
  | byte (b : UInt8)
  | unit (n : Nat)
  deriving DecidableEq

/-- The byte that a letter after a backslash stands for. -/
def escaped? (b : UInt8) : Option UInt8 :=
  if b = 0x22 ∨ b = 0x5c ∨ b = 0x2f then some b
  else if b = 0x62 then some 0x08
  else if b = 0x66 then some 0x0c
  else if b = 0x6e then some 0x0a
  else if b = 0x72 then some 0x0d
  else if b = 0x74 then some 0x09
  else none

/-- The number with the given four digits. -/
def unit? (a b c d : UInt8) : Option Nat := do
  let a ← Text.Hex.value? a
  let b ← Text.Hex.value? b
  let c ← Text.Hex.value? c
  let d ← Text.Hex.value? d
  return ((a * 16 + b) * 16 + c) * 16 + d

/-- The pieces up to the closing quote, and what follows it. -/
def pieces? : Bytes → Option (List Piece × Bytes)
  | [] => none
  | 0x22 :: rest => some ([], rest)
  | 0x5c :: 0x75 :: a :: b :: c :: d :: rest => do
    let n ← unit? a b c d
    let (ps, rest) ← pieces? rest
    return (.unit n :: ps, rest)
  | 0x5c :: e :: rest => do
    let b ← escaped? e
    let (ps, rest) ← pieces? rest
    return (.byte b :: ps, rest)
  | b :: rest =>
    if b < 0x20 then none
    else do
      let (ps, rest) ← pieces? rest
      return (.byte b :: ps, rest)

/-- The first and second half of a pair of units that stands for one character. -/
def isHighHalf (n : Nat) : Bool := 0xD800 ≤ n && n < 0xDC00
def isLowHalf (n : Nat) : Bool := 0xDC00 ≤ n && n < 0xE000

/-- The bytes of a character. -/
def charBytes (n : Nat) : Bytes :=
  String.utf8EncodeChar (Char.ofNat n)

/-- The bytes that pieces stand for; half of a pair on its own stands for none. -/
def assemble? : List Piece → Option Bytes
  | [] => some []
  | .byte b :: ps => (assemble? ps).map (b :: ·)
  | .unit n :: .unit m :: ps =>
    if isHighHalf n then
      if isLowHalf m then
        (assemble? ps).map (charBytes (0x10000 + (n - 0xD800) * 0x400 + (m - 0xDC00)) ++ ·)
      else none
    else if isLowHalf n then none
    else (assemble? (.unit m :: ps)).map (charBytes n ++ ·)
  | .unit n :: ps =>
    if isHighHalf n || isLowHalf n then none
    else (assemble? ps).map (charBytes n ++ ·)

/-- The text of a string after its opening quote, and what follows the closing one. -/
def readText? (bs : Bytes) : Option (Option String × Bytes) :=
  (pieces? bs).map fun (ps, rest) => ((assemble? ps).bind ofUtf8?, rest)

/-! ### Numbers -/

/-- The number with the given digits, read after those of `n`. -/
def digitsValue (n : Nat) (digits : Bytes) : Nat :=
  digits.foldl (fun n b => n * 10 + (b.toNat - 48)) n

/-- A run of at least one digit. -/
def digits? (bs : Bytes) : Option (Bytes × Bytes) :=
  match bs.span isDigit with
  | ([], _) => none
  | (ds, rest) => some (ds, rest)

/-- The digits behind a point, none if there is no point. -/
def fraction? : Bytes → Option (Bytes × Bytes)
  | 0x2e :: rest => digits? rest
  | rest => some ([], rest)

/-- An exponent, if there is one. -/
def exponent? : Bytes → Option (Option Int × Bytes)
  | e :: rest =>
    if e = 0x65 ∨ e = 0x45 then
      match rest with
      | 0x2d :: rest =>
        (digits? rest).map fun (ds, rest) => (some (-(digitsValue 0 ds : Int)), rest)
      | 0x2b :: rest => (digits? rest).map fun (ds, rest) => (some (digitsValue 0 ds : Int), rest)
      | rest => (digits? rest).map fun (ds, rest) => (some (digitsValue 0 ds : Int), rest)
    else some (none, e :: rest)
  | [] => some (none, [])

/-- A number without its sign.  A zero in front of further digits is refused. -/
def unsigned? (negative : Bool) (bs : Bytes) : Option (Numeral × Bytes) := do
  let (whole, rest) ← digits? bs
  if whole.head? = some 0x30 ∧ whole.length ≠ 1 then none
  else
    let (fraction, rest) ← fraction? rest
    let (exponent, rest) ← exponent? rest
    return (⟨negative, digitsValue 0 whole, fraction, exponent⟩, rest)

/-- A number. -/
def numeral? : Bytes → Option (Numeral × Bytes)
  | 0x2d :: rest => unsigned? true rest
  | bs => unsigned? false bs

/-! ### Values -/

/-- A word or a number. -/
def readScalar : Bytes → Tree × Option Bytes
  | 0x6e :: 0x75 :: 0x6c :: 0x6c :: rest => (.null, some rest)
  | 0x74 :: 0x72 :: 0x75 :: 0x65 :: rest => (.bool true, some rest)
  | 0x66 :: 0x61 :: 0x6c :: 0x73 :: 0x65 :: rest => (.bool false, some rest)
  | bs =>
    match numeral? bs with
    | some (n, rest) => (.number n, some rest)
    | none => (.fault, none)

mutual

/-- A value and what follows it.  The first argument bounds the depth of the calls. -/
def readValue : Nat → Bytes → Tree × Option Bytes
  | 0, _ => (.fault, none)
  | n + 1, bs =>
    match skipBlanks bs with
    | 0x22 :: rest =>
      match readText? rest with
      | some (s, rest) => (.text s, some rest)
      | none => (.fault, none)
    | 0x5b :: rest =>
      match skipBlanks rest with
      | 0x5d :: rest => (.array [], some rest)
      | rest =>
        let (items, rest) := readItems n rest
        (.array items, rest)
    | 0x7b :: rest =>
      match skipBlanks rest with
      | 0x7d :: rest => (.object [], some rest)
      | rest =>
        let (fields, rest) := readFields n rest
        (.object fields, rest)
    | rest => readScalar rest

/-- At least one item, up to the closing bracket. -/
def readItems : Nat → Bytes → List Tree × Option Bytes
  | 0, _ => ([.fault], none)
  | n + 1, bs =>
    match readValue n bs with
    | (item, none) => ([item], none)
    | (item, some rest) =>
      match skipBlanks rest with
      | 0x2c :: rest =>
        let (items, rest) := readItems n rest
        (item :: items, rest)
      | 0x5d :: rest => ([item], some rest)
      | _ => ([item, .fault], none)

/-- At least one field, up to the closing brace. -/
def readFields : Nat → Bytes → List (Option String × Tree) × Option Bytes
  | 0, _ => ([(none, .fault)], none)
  | n + 1, bs =>
    match skipBlanks bs with
    | 0x22 :: rest =>
      match readText? rest with
      | none => ([(none, .fault)], none)
      | some (key, rest) =>
        match skipBlanks rest with
        | 0x3a :: rest =>
          match readValue n rest with
          | (value, none) => ([(key, value)], none)
          | (value, some rest) =>
            match skipBlanks rest with
            | 0x2c :: rest =>
              let (fields, rest) := readFields n rest
              ((key, value) :: fields, rest)
            | 0x7d :: rest => ([(key, value)], some rest)
            | _ => ([(key, value), (none, .fault)], none)
        | _ => ([(key, .fault)], none)
    | _ => ([(none, .fault)], none)

end

/-- The value at the front of a text, and whether nothing but blanks follows it.  Every call on the
way down leaves at least one byte behind or is followed by one that does, which bounds their
depth. -/
def read (bs : Bytes) : Tree × Bool :=
  match readValue (2 * bs.length + 2) bs with
  | (t, some rest) => (t, (skipBlanks rest).isEmpty)
  | (t, none) => (t, false)

end RouteSync.Json
