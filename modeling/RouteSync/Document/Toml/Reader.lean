import RouteSync.Document.Toml.Number
import RouteSync.Document.Toml.Tables

/-!
# Documents in TOML

A text is a run of lines with keys and values, then headers, each with further such lines.  A text
either gives a document as a whole or none.
-/

namespace RouteSync.Document.Toml

/-! ### Keys -/

/-- A single key: a bare word or a string on one line. -/
def key? : List Char → Option (String × List Char)
  | [] => none
  | c :: cs =>
    if c = '"' ∨ c = '\'' then do
      let q ← quoted? c cs
      if q.several then none else some (q.text, q.rest)
    else (bareWord? (c :: cs)).map fun (word, rest) => (String.ofList word, rest)

/-- The keys behind further points, and the spaces that follow. -/
def moreKeys? : Nat → List Char → Option (List String × List Char)
  | 0, _ => none
  | fuel + 1, cs =>
    match skipSpaces cs with
    | '.' :: rest => do
      let (name, rest) ← key? (skipSpaces rest)
      let (names, rest) ← moreKeys? fuel rest
      return (name :: names, rest)
    | rest => some ([], rest)

/-- A key with its points: the first name, the further ones, and what follows the spaces. -/
def dottedKey? (cs : List Char) : Option (String × List String × List Char) := do
  let (name, rest) ← key? cs
  let (names, rest) ← moreKeys? (rest.length + 1) rest
  return (name, names, rest)

/-- A dotted key and the equals sign behind it. -/
def assigned? (cs : List Char) : Option (String × List String × List Char) := do
  let (name, names, rest) ← dottedKey? cs
  match rest with
  | '=' :: rest => some (name, names, skipSpaces rest)
  | _ => none

/-! ### Values -/

mutual

/-- A value and what follows it.  The first argument bounds the depth of the calls. -/
def value? : Nat → List Char → Option (Document × List Char)
  | 0, _ => none
  | _, [] => none
  | fuel + 1, c :: cs =>
    if c = '"' ∨ c = '\'' then (quoted? c cs).map fun q => (.text q.text, q.rest)
    else if c = '[' then (items? fuel cs).map fun (items, rest) => (.list items, rest)
    else if c = '\x7b' then
      match skipSpaces cs with
      | '\x7d' :: rest => some (.table [], rest)
      | cs => (pairs? fuel [] cs).map fun (fs, rest) => (.table (fieldsToDocument fs), rest)
    else bareScalar? (c :: cs)

/-- The items of a list up to the closing bracket.  Lines may end between them. -/
def items? : Nat → List Char → Option (List Document × List Char)
  | 0, _ => none
  | fuel + 1, cs => do
    match ← skipLines? (cs.length + 1) cs with
    | ']' :: rest => some ([], rest)
    | cs =>
      let (item, rest) ← value? fuel cs
      match ← skipLines? (rest.length + 1) rest with
      | ',' :: rest =>
        let (items, rest) ← items? fuel rest
        return (item :: items, rest)
      | ']' :: rest => some ([item], rest)
      | _ => none

/-- The pairs of a table on one line up to the closing brace, at least one. -/
def pairs? : Nat → Fields → List Char → Option (Fields × List Char)
  | 0, _, _ => none
  | fuel + 1, fs, cs => do
    let (name, names, rest) ← assigned? cs
    let (d, rest) ← value? fuel rest
    let fs ← fs.addValue d name names
    match skipSpaces rest with
    | '\x7d' :: rest => some (fs, rest)
    | ',' :: rest => pairs? fuel fs (skipSpaces rest)
    | _ => none

end

/-! ### Lines -/

/-- The lines with keys and values up to the next header. -/
def body? : Nat → Fields → List Char → Option (Fields × List Char)
  | 0, _, _ => none
  | fuel + 1, fs, cs => do
    match ← skipLines? (cs.length + 1) cs with
    | [] => some (fs, [])
    | '[' :: rest => some (fs, '[' :: rest)
    | cs =>
      let (name, names, rest) ← assigned? cs
      let (d, rest) ← value? (rest.length + 1) rest
      body? fuel (← fs.addValue d name names) (← lineRest? rest)

/-- The names in a header, whether it begins a list item, and what follows its line. -/
structure Header where
  isList : Bool
  name : String
  names : List String
  rest : List Char

/-- A header, its first bracket already read. -/
def header? (cs : List Char) : Option Header := do
  let (isList, cs) :=
    match cs with
    | '[' :: cs => (true, cs)
    | cs => (false, cs)
  let (name, names, rest) ← dottedKey? (skipSpaces cs)
  let rest ←
    match isList, rest with
    | true, ']' :: ']' :: rest => some rest
    | false, ']' :: rest => some rest
    | _, _ => none
  return ⟨isList, name, names, ← lineRest? rest⟩

/-- The headers with their lines, put into the tables that were read before. -/
def sections? : Nat → Fields → List Char → Option Fields
  | 0, _, _ => none
  | fuel + 1, fs, cs =>
    match cs with
    | '[' :: cs => do
      let header ← header? cs
      let (body, rest) ← body? (header.rest.length + 1) [] header.rest
      sections? fuel (← Fields.addSection header.isList body header.name header.names fs) rest
    | _ => some fs

/-- Line ends of two characters become single ones. -/
def joinLineEnds : List Char → List Char
  | '\r' :: '\n' :: cs => '\n' :: joinLineEnds cs
  | c :: cs => c :: joinLineEnds cs
  | [] => []

/-- A mark of the byte order at the front does not count. -/
def withoutMark : List Char → List Char
  | '\uFEFF' :: cs => cs
  | cs => cs

end Toml

/-- Read a document in TOML; it is always a table. -/
def ofToml? (text : String) : Option Document := do
  let cs := Toml.joinLineEnds (Toml.withoutMark text.toList)
  let (fs, rest) ← Toml.body? (cs.length + 1) [] cs
  let fs ← Toml.sections? (rest.length + 1) fs rest
  return .table (Toml.fieldsToDocument fs)

end RouteSync.Document
