import RouteSync.Account.Basic
import RouteSync.Json.Reader
import RouteSync.Table.Id

/-!
# Decoding

Decoders walk a tree from left to right and stop at the first complaint.  Records may be given as an
object, whose unknown fields are skipped, or as an array of their fields in order.
-/

namespace RouteSync

/-- Why a document does not give the value asked for. -/
inductive DecodeError where
  /-- The document goes wrong, or has another shape than the value. -/
  | malformed
  | address (e : AddressError)
  | accountId (e : AccountIdError)
  | hex (e : Text.Hex.HexError)
  | missingField (name : String)
  | duplicateField (name : String)
  | unknownVariant (name : String) (expected : List String)
  deriving DecidableEq, Repr

/-- A list of words to choose from. -/
def choice (words : List String) : String :=
  match words.map fun w => "`" ++ w ++ "`" with
  | [w] => w
  | [v, w] => v ++ " or " ++ w
  | ws => "one of " ++ ", ".intercalate ws

/-- The wording of a `DecodeError`, where it has one of its own. -/
def DecodeError.message? : DecodeError → Option String
  | .malformed => none
  | .address e => some e.message
  | .accountId e => some e.message
  | .hex e => some ("Invalid hex value (must be 32 hex-encoded bytes): " ++ e.message)
  | .missingField name => some ("missing field `" ++ name ++ "`")
  | .duplicateField name => some ("duplicate field `" ++ name ++ "`")
  | .unknownVariant name expected =>
    some ("unknown variant `" ++ name ++ "`, expected " ++ choice expected)

/-- The result of a decoder. -/
abbrev Decoded := Except DecodeError

/-- Take over the error of reading a text. -/
def Decoded.ofRead {ε α : Type} (wrap : ε → DecodeError) : Except ε α → Decoded α
  | .ok a => .ok a
  | .error e => .error (wrap e)

/-- A field that may be given once. -/
def Decoded.once {α : Type} (name : String) (slot : Option α) (value : Unit → Decoded α) :
    Decoded (Option α) :=
  if slot.isSome then .error (.duplicateField name) else (value ()).map some

/-- A field that has to be given. -/
def Decoded.required {α : Type} (name : String) (slot : Option α) : Decoded α :=
  match slot with
  | some a => .ok a
  | none => .error (.missingField name)

/-- What the four-byte numbers of messages stay below. -/
def wordLimit : Nat := 4294967296

namespace Json.Tree

/-- Pass over a value that nobody asks for. -/
def skip (t : Tree) : Decoded Unit :=
  if t.isWhole then .ok () else .error .malformed

def asText : Tree → Decoded String
  | .text (some s) => .ok s
  | _ => .error .malformed

def asBool : Tree → Decoded Bool
  | .bool b => .ok b
  | _ => .error .malformed

/-- A natural number of four bytes, written without a sign, a fraction or an exponent. -/
def asWord : Tree → Decoded Nat
  | .number ⟨false, n, [], none⟩ => if n < wordLimit then .ok n else .error .malformed
  | _ => .error .malformed

def asList {α : Type} (item : Tree → Decoded α) : Tree → Decoded (List α)
  | .array items => items.mapM item
  | _ => .error .malformed

/-- A value for which `null` may stand. -/
def asOptional {α : Type} (value : Tree → Decoded α) : Tree → Decoded (Option α)
  | .null => .ok none
  | t => (value t).map some

/-- One of a few words, given as such or as the one key of an object with the value `null`. -/
def asVariant {α : Type} (words : List (String × α)) : Tree → Decoded α
  | .text (some s) => pick s
  | .object ((some s, t) :: rest) => do
    let a ← pick s
    match t, rest with
    | .null, [] => return a
    | _, _ => throw .malformed
  | _ => .error .malformed
where
  /-- The value of a word. -/
  pick (s : String) : Decoded α :=
    match words.lookup s with
    | some a => .ok a
    | none => .error (.unknownVariant s (words.map Prod.fst))

def asAddress (t : Tree) : Decoded Address := do
  Decoded.ofRead .address (Address.parse (← t.asText))

def asPrefix (t : Tree) : Decoded Prefix := do
  Decoded.ofRead .address (Prefix.parse (← t.asText))

def asAccountId (t : Tree) : Decoded AccountId := do
  Decoded.ofRead .accountId (AccountId.parse (← t.asText))

def asBytes32 (t : Tree) : Decoded Bytes32 := do
  Decoded.ofRead .hex (Bytes32.parse (← t.asText))

def asTableId (t : Tree) : Decoded TableId := do
  match TableId.parse? (← t.asText) with
  | some id => return id
  | none => throw .malformed

/-- Fill a draft of a record with the fields of an object, in the order in which they stand. -/
def fillFrom {δ : Type} (field : δ → String → Tree → Decoded δ) :
    δ → List (Option String × Tree) → Decoded δ
  | draft, [] => .ok draft
  | _, (none, _) :: _ => .error .malformed
  | draft, (some key, t) :: fields => do
    let draft ← field draft key t
    fillFrom field draft fields

/-- The next field of a record given as an array. -/
def next {α : Type} (value : Tree → Decoded α) : List Tree → Decoded (α × List Tree)
  | [] => .error .malformed
  | t :: ts => (value t).map (·, ts)

/-- The next field of a record given as an array, or a default behind its end. -/
def nextOr {α : Type} (default : α) (value : Tree → Decoded α) :
    List Tree → Decoded (α × List Tree)
  | [] => .ok (default, [])
  | t :: ts => (value t).map (·, ts)

/-- An array has no items behind the last field of a record. -/
def noMore : List Tree → Decoded Unit
  | [] => .ok ()
  | _ :: _ => .error .malformed

/-- An object with fields of known names. -/
def fields (fs : List (String × Tree)) : Tree :=
  .object (fs.map fun f => (some f.1, f.2))

/-- Decode a whole text: a value and nothing behind it. -/
def decode {α : Type} (value : Tree → Decoded α) (bs : Bytes) : Decoded α :=
  match read bs with
  | (t, atEnd) => do
    let a ← value t
    if atEnd then return a else throw .malformed

end Json.Tree

end RouteSync
