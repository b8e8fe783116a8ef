import RouteSync.Json.Decode
import RouteSync.Number.Shortest

/-!
# Documents of settings

Settings are written in one of several formats, all of which give a `Document`: scalars, lists and
tables.  What a document says is taken generously: a number can be given as text or as a truth value
and the other way round.
-/

namespace RouteSync

/-- What a document of settings holds. -/
inductive Document where
  | null
  | bool (b : Bool)
  | whole (n : Int)
  | real (x : Binary64)
  | text (s : String)
  | list (items : List Document)
  | table (fields : List (String × Document))

namespace Document

/-- How many whole numbers there are of sixty-four bits. -/
def wholeCount : Nat := 18446744073709551616

/-- Whether a whole number fits into sixty-four bits with a sign. -/
def fitsWhole (n : Int) : Bool :=
  decide (Binary64.leastWhole ≤ n) && decide (n ≤ Binary64.greatestWhole)

/-- A text in lower case, as far as the words are concerned that it is compared with. -/
def lowered (s : String) : String :=
  String.ofList (s.toList.map Char.toLower)

def trueWords : List String := ["true", "on", "yes"]
def falseWords : List String := ["false", "off", "no"]

/-- The value of decimal digits, if there are digits and nothing else. -/
def digitsValue? (cs : List Char) : Option Nat :=
  if cs.isEmpty || !cs.all Char.isDigit then none
  else some (cs.foldl (fun n c => n * 10 + (c.toNat - '0'.toNat)) 0)

/-- A whole number of sixty-four bits, with or without a sign. -/
def wholeOfChars? (cs : List Char) : Option Int := do
  let n : Int ←
    match cs with
    | '-' :: digits => (digitsValue? digits).map fun n => -(n : Int)
    | '+' :: digits => (digitsValue? digits).map Int.ofNat
    | digits => (digitsValue? digits).map Int.ofNat
  if fitsWhole n then some n else none

/-- The text of a scalar. -/
def asText : Document → Decoded String
  | .text s => .ok s
  | .bool b => .ok (if b then "true" else "false")
  | .whole n => .ok (toString n)
  | .real x => .ok x.text
  | _ => .error .malformed

/-- A truth value; every number but zero counts as true. -/
def asBool : Document → Decoded Bool
  | .bool b => .ok b
  | .whole n => .ok (n != 0)
  | .real x => .ok !x.isZero
  | .text s =>
    if ("1" :: trueWords).contains (lowered s) then .ok true
    else if ("0" :: falseWords).contains (lowered s) then .ok false
    else .error .malformed
  | _ => .error .malformed

/-- A whole number of sixty-four bits with a sign. -/
def asWhole : Document → Decoded Int
  | .whole n => .ok n
  | .bool b => .ok (if b then 1 else 0)
  | .real x => .ok x.toWhole
  | .text s =>
    if trueWords.contains (lowered s) then .ok 1
    else if falseWords.contains (lowered s) then .ok 0
    else
      match wholeOfChars? s.toList with
      | some n => .ok n
      | none => .error .malformed
  | _ => .error .malformed

/-- A natural number of sixty-four bits; negative numbers count from the far end. -/
def asCount (d : Document) : Decoded Nat :=
  d.asWhole.map fun n => (n % (wholeCount : Int)).toNat

/-- A list of values. -/
def asList {α : Type} (item : Document → Decoded α) : Document → Decoded (List α)
  | .list items => items.mapM item
  | _ => .error .malformed

/-- A value in whose place `null` says that there is none. -/
def asOptional {α : Type} (value : Document → Decoded α) : Document → Decoded (Option α)
  | .null => .ok none
  | d => (value d).map some

def asAddress (d : Document) : Decoded Address := do
  Decoded.ofRead .address (Address.parse (← d.asText))

def asPrefix (d : Document) : Decoded Prefix := do
  Decoded.ofRead .address (Prefix.parse (← d.asText))

def asAccountId (d : Document) : Decoded AccountId := do
  Decoded.ofRead .accountId (AccountId.parse (← d.asText))

def asBytes32 (d : Document) : Decoded Bytes32 := do
  Decoded.ofRead .hex (Bytes32.parse (← d.asText))

/-- The fields of a record, as far as they were given. -/
structure Fields where
  get? : String → Option Document
  /-- The complaint about a field that has to be given. -/
  missing : String → DecodeError

/-- The fields of a record: those of a table by their names, those of a list by their order. -/
def fieldsOf (names : List String) : Document → Decoded Fields
  | .table fields => .ok ⟨fun name => fields.lookup name, .missingField⟩
  | .list items => .ok ⟨fun name => (names.zip items).lookup name, fun _ => .malformed⟩
  | _ => .error .malformed

namespace Fields

/-- A field that may be left out. -/
def optional {α : Type} (fs : Fields) (name : String) (value : Document → Decoded α) :
    Decoded (Option α) :=
  match fs.get? name with
  | some d => (value d).map some
  | none => .ok none

/-- A field with a default. -/
def withDefault {α : Type} (fs : Fields) (name : String) (default : α)
    (value : Document → Decoded α) : Decoded α := do
  return (← fs.optional name value).getD default

/-- What was read of a field that has to be given. -/
def demand {α : Type} (fs : Fields) (name : String) : Option α → Decoded α
  | some a => .ok a
  | none => .error (fs.missing name)

end Fields

end Document

end RouteSync
