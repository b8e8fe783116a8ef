/-!
# Bytes of a text

Texts travel as UTF-8.  `utf8Bytes` and `ofUtf8?` are the strict pair; `ofUtf8Lossy` reads any bytes
and shows each stretch that cannot be part of a text as one replacement character, where a stretch
is the longest beginning of an encoded character, or a single byte.
-/

namespace RouteSync

/-- Data as it travels. -/
abbrev Bytes := List UInt8

namespace Text

/-- The bytes of a text. -/
def utf8Bytes (s : String) : Bytes :=
  s.toByteArray.data.toList

/-- The bytes of a text are those of its characters. -/
theorem utf8Bytes_ofList (cs : List Char) :
    utf8Bytes (String.ofList cs) = cs.flatMap String.utf8EncodeChar := by
  rw [utf8Bytes, String.toByteArray_ofList, List.utf8Encode, List.data_toByteArray]

/-- The text with the given bytes, if they are one. -/
def ofUtf8? (bs : Bytes) : Option String :=
  String.fromUTF8? ⟨bs.toArray⟩

theorem ofUtf8?_utf8Bytes (s : String) : ofUtf8? (utf8Bytes s) = some s := by
  show String.fromUTF8? s.toByteArray = some s
  exact dif_pos s.isValidUTF8

/-- What the first byte of a character of several bytes announces: how many bytes follow, the
least and the greatest that the next one may be, and the first bits of the code point. -/
def lead? (b : UInt8) : Option (Nat × UInt8 × UInt8 × Nat) :=
  if b < 0xC2 then none
  else if b ≤ 0xDF then some (1, 0x80, 0xBF, b.toNat - 0xC0)
  else if b = 0xE0 then some (2, 0xA0, 0xBF, 0)
  else if b = 0xED then some (2, 0x80, 0x9F, 0xD)
  else if b ≤ 0xEF then some (2, 0x80, 0xBF, b.toNat - 0xE0)
  else if b = 0xF0 then some (3, 0x90, 0xBF, 0)
  else if b ≤ 0xF3 then some (3, 0x80, 0xBF, b.toNat - 0xF0)
  else if b = 0xF4 then some (3, 0x80, 0x8F, 4)
  else none

/-- Read the bytes that follow a first byte.  A byte out of its range is left for the next
character. -/
def followers : Nat → UInt8 → UInt8 → Nat → Bytes → Option Char × Bytes
  | 0, _, _, bits, rest => (some (Char.ofNat bits), rest)
  | _ + 1, _, _, _, [] => (none, [])
  | n + 1, low, high, bits, b :: rest =>
    if low ≤ b ∧ b ≤ high then followers n 0x80 0xBF (bits * 64 + (b.toNat - 0x80)) rest
    else (none, b :: rest)

/-- One character off the front, or nothing for a stretch that is none. -/
def nextChar (b : UInt8) (rest : Bytes) : Option Char × Bytes :=
  if b < 0x80 then (some (Char.ofNat b.toNat), rest)
  else
    match lead? b with
    | none => (none, rest)
    | some (n, low, high, bits) => followers n low high bits rest

/-- The characters read off, at most one for each unit of the first argument. -/
def lossyChars : Nat → Bytes → List Char
  | 0, _ => []
  | _, [] => []
  | n + 1, b :: rest =>
    let (c, rest) := nextChar b rest
    c.getD '\uFFFD' :: lossyChars n rest

/-- Any bytes as a text. -/
def ofUtf8Lossy (bs : Bytes) : String :=
  String.ofList (lossyChars bs.length bs)

end Text

end RouteSync
