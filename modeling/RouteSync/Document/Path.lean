import RouteSync.Document.Basic

/-!
# Places in a document

A place is named by a path such as `routing.static_routes[0].target`.  Writing to a place makes room
for it: tables and lists come into being where the path asks for them, and a table is written into
another one field by field.
-/

namespace RouteSync.Document

/-- One step down into a document. -/
inductive Step where
  | key (name : String)
  /-- A negative index counts from the end. -/
  | index (i : Int)
  deriving DecidableEq, Repr

/-! ### Reading paths -/

/-- The characters of a name in a path. -/
def isNameChar (c : Char) : Bool :=
  c.isAlphanum || c == ' ' || c == '_' || c == '-'

/-- A name at the front of a text. -/
def name? (cs : List Char) : Option (Step × List Char) :=
  match cs.span isNameChar with
  | ([], _) => none
  | (name, rest) => some (.key (String.ofList name), rest)

/-- An index between brackets, the opening one already read. -/
def index? (cs : List Char) : Option (Step × List Char) := do
  let isBlank (c : Char) : Bool := c == ' ' || c == '\t'
  let (signed, rest) :=
    match cs.dropWhile isBlank with
    | '-' :: rest => (true, rest)
    | rest => (false, rest)
  let (digits, rest) := rest.span Char.isDigit
  let i ← wholeOfChars? (if signed then '-' :: digits else digits)
  match rest.dropWhile isBlank with
  | ']' :: rest => some (.index i, rest)
  | _ => none

/-- The steps behind the first name, at most one for each unit of the first argument. -/
def steps? : Nat → List Char → Option (List Step)
  | _, [] => some []
  | 0, _ => none
  | fuel + 1, c :: cs => do
    let (step, rest) ←
      match c with
      | '.' => name? cs
      | '[' => index? cs
      | _ => none
    return step :: (← steps? fuel rest)

/-- The place that a key names.  A key that is no path names the field with just this name. -/
def pathOf (key : String) : Step × List Step :=
  let path := do
    let (first, rest) ← name? key.toList
    return (first, ← steps? rest.length rest)
  path.getD (.key key, [])

/-! ### Writing to places -/

/-- The fields of a table; anything else gives way to an empty table. -/
def openTable : Document → List (String × Document)
  | .table fields => fields
  | _ => []

/-- The items of a list; anything else gives way to an empty list. -/
def openList : Document → List Document
  | .list items => items
  | _ => []

/-- Change the field with the given name, which is added with the given value if there is none. -/
def modifyField (name : String) (missing : Document) (f : Document → Document) :
    List (String × Document) → List (String × Document)
  | [] => [(name, f missing)]
  | (key, d) :: fields =>
    if key = name then (key, f d) :: fields else (key, d) :: modifyField name missing f fields

/-- The position that an index stands for. -/
def position (i : Int) (length : Nat) : Nat :=
  (if i < 0 then i + length else i).toNat

/-- Change the item at an index, filling the list up to it. -/
def modifyItem (i : Int) (f : Document → Document) (items : List Document) : List Document :=
  let n := position i items.length
  (items ++ List.replicate (n + 1 - items.length) Document.null).modify n f

mutual

/-- Write a value into the field of a table: a table goes into what is there field by field,
anything else takes the place of it. -/
def put (parent : Document) (name : String) : Document → Document
  | .table fields =>
    .table (modifyField name (.table []) (fun target => target.putAll fields) parent.openTable)
  | value => .table (modifyField name .null (fun _ => value) parent.openTable)

/-- Write several fields into a table. -/
def putAll (parent : Document) : List (String × Document) → Document
  | [] => parent
  | (name, d) :: fields => (parent.put name d).putAll fields

end

/-- Write a value to a place below a document. -/
def write (value : Document) : Step → List Step → Document → Document
  | .key name, [], parent => parent.put name value
  | .index i, [], parent => .list (modifyItem i (fun _ => value) parent.openList)
  | .key name, step :: steps, parent =>
    .table (modifyField name .null (write value step steps) parent.openTable)
  | .index i, step :: steps, parent =>
    .list (modifyItem i (write value step steps) parent.openList)

/-- Write a value to the place that a key names. -/
def writeKey (d : Document) (key : String) (value : Document) : Document :=
  let (first, steps) := pathOf key
  write value first steps d

/-- Write all fields of a table to the places that their names stand for. -/
def overlay (d : Document) (fields : List (String × Document)) : Document :=
  fields.foldl (fun d field => d.writeKey field.1 field.2) d

end RouteSync.Document
