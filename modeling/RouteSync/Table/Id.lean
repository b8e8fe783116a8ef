import RouteSync.Text.Hex

/-!
# Names of routing tables

A node that starts over with a fresh table picks a new id for it, which tells its peers to begin
again from epoch zero.  An id is sixteen bytes, written as groups of hexadecimal digits.
-/

namespace RouteSync

/-- The name of one generation of a routing table. -/
structure TableId where
  bytes : Bytes
  length_eq : bytes.length = 16
  deriving DecidableEq

namespace TableId

open Text

/-- Put a list of characters into groups of the given sizes, joined by hyphens. -/
def grouped : List Nat → List Char → List Char
  | [], cs => cs
  | n :: ns, cs => cs.take n ++ '-' :: grouped ns (cs.drop n)

/-- The text of an id: five groups of lower-case digits. -/
def text (id : TableId) : String :=
  String.ofList (grouped [8, 4, 4, 4] (Hex.encode id.bytes))

/-- The digits of a grouped text, if a hyphen follows each group. -/
def ungrouped? : List Nat → Bytes → Option Bytes
  | [], digits => some digits
  | n :: ns, digits =>
    match digits.drop n with
    | 45 :: rest => (ungrouped? ns rest).map (digits.take n ++ ·)
    | _ => none

/-- The id with thirty-two plain digits. -/
def ofDigits? (digits : Bytes) : Option TableId :=
  match Hex.decodePairs 0 digits with
  | .ok bytes => if h : bytes.length = 16 then some ⟨bytes, h⟩ else none
  | .error _ => none

/-- What may stand in front of a grouped id. -/
def marker : Bytes :=
  utf8Bytes "urn:uuid:"

/-- Read an id: thirty-two digits, plain or grouped, the grouped form also behind the marker. -/
def parse? (s : String) : Option TableId :=
  let bs := utf8Bytes s
  if bs.length = 32 then ofDigits? bs
  else if bs.length = 36 then (ungrouped? [8, 4, 4, 4] bs).bind ofDigits?
  else if bs.length = 45 ∧ marker.isPrefixOf bs then
    (ungrouped? [8, 4, 4, 4] (bs.drop 9)).bind ofDigits?
  else none

end TableId

end RouteSync
