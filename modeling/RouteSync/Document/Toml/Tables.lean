import RouteSync.Document.Basic

/-!
# Tables in the making

A TOML text builds its tables line by line, and what a line may add depends on how a table came into
being.  A value is closed.  A table made by dotted keys takes further dotted keys, but only in the
place where it was begun.  A table that was only passed on the way to a header may get a header of
its own once.
-/

namespace RouteSync.Document.Toml

/-- An entry of a table in the making. -/
inductive Entry where
  | value (d : Document)
  /-- A table made by dotted keys. -/
  | dotted (fields : List (String × Entry))
  /-- A table made by headers; it is open until it gets a header of its own. -/
  | headed (isOpen : Bool) (fields : List (String × Entry))
  /-- A list of tables made by headers; only the last one grows. -/
  | listed (earlier : List (List (String × Entry))) (last : List (String × Entry))

/-- A table in the making. -/
abbrev Fields := List (String × Entry)

namespace Fields

/-- Whether there is an entry with this name. -/
def has (fs : Fields) (name : String) : Bool :=
  (List.lookup name fs).isSome

/-- Replace the entry with this name. -/
def replace (fs : Fields) (name : String) (e : Entry) : Fields :=
  fs.map fun f => if f.1 = name then (name, e) else f

/-- Add a value under a dotted key. -/
def addValue (d : Document) : String → List String → Fields → Option Fields
  | name, [], fs => if fs.has name then none else some (fs ++ [(name, .value d)])
  | name, next :: path, fs =>
    match List.lookup name fs with
    | none => (addValue d next path []).map fun inner => fs ++ [(name, .dotted inner)]
    | some (.dotted inner) => (addValue d next path inner).map fun inner =>
        fs.replace name (.dotted inner)
    | some _ => none

/-- Add the table or list item that a header with the last name begins. -/
def addLast (isList : Bool) (body : Fields) (name : String) (fs : Fields) : Option Fields :=
  match isList, List.lookup name fs with
  | false, none => some (fs ++ [(name, .headed false body)])
  | false, some (.headed true inner) =>
    if body.any (has inner ·.1) then none
    else some (fs.replace name (.headed false (inner ++ body)))
  | true, none => some (fs ++ [(name, .listed [] body)])
  | true, some (.listed earlier last) =>
    some (fs.replace name (.listed (earlier ++ [last]) body))
  | _, some _ => none

/-- Add the table or list item that a header begins. -/
def addSection (isList : Bool) (body : Fields) : String → List String → Fields → Option Fields
  | name, [], fs => addLast isList body name fs
  | name, next :: path, fs =>
    match List.lookup name fs with
    | none => (addSection isList body next path []).map fun inner =>
        fs ++ [(name, .headed true inner)]
    | some (.headed isOpen inner) => (addSection isList body next path inner).map fun inner =>
        fs.replace name (.headed isOpen inner)
    | some (.listed earlier last) => (addSection isList body next path last).map fun last =>
        fs.replace name (.listed earlier last)
    | some _ => none

end Fields

mutual

/-- The document that an entry has become. -/
def Entry.toDocument : Entry → Document
  | .value d => d
  | .dotted fs => .table (fieldsToDocument fs)
  | .headed _ fs => .table (fieldsToDocument fs)
  | .listed earlier last => .list (itemsToDocument earlier ++ [.table (fieldsToDocument last)])

def fieldsToDocument : List (String × Entry) → List (String × Document)
  | [] => []
  | (name, e) :: fs => (name, e.toDocument) :: fieldsToDocument fs

def itemsToDocument : List (List (String × Entry)) → List Document
  | [] => []
  | fs :: items => .table (fieldsToDocument fs) :: itemsToDocument items

end

end RouteSync.Document.Toml
