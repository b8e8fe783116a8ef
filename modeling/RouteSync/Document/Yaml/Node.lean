import RouteSync.Document.Yaml.Layout
import RouteSync.Document.Yaml.Scalar

/-!
# Documents in YAML

`node?` reads a node from the tokens of a text.  A text holds at most one document; one without any
is an empty table.

A node may stand for nothing at all: a scalar whose tag promises another kind, or a name that is
used within the very node that it names.  Such a node is no key of a table: where it stands in the
place of a key, the next node takes that place.
-/

namespace RouteSync.Document.Yaml

/-! ### Tables -/

/-- Put a field into a table; only texts count as names, and the last value counts. -/
def addField (key value : Document) (fields : List (String × Document)) :
    List (String × Document) :=
  match key with
  | .text name => fields.filter (·.1 != name) ++ [(name, value)]
  | _ => fields

/-- Put keys and values that alternate into a table, behind a key that waits for its value. -/
def addNodes (key : Option Document) (fields : List (String × Document)) :
    List (Option Document) → List (String × Document)
  | [] => fields
  | node :: nodes =>
    match key with
    | none => addNodes node fields nodes
    | some key => addNodes none (addField key (node.getD .null) fields) nodes

/-- The table with the given keys and values in turn. -/
def tableOf (nodes : List (Option Document)) : Document :=
  .table (addNodes none [] nodes)

/-- The list with the given items. -/
def listOf (nodes : List (Option Document)) : Document :=
  .list (nodes.map (·.getD .null))

/-! ### Names of nodes -/

/-- The names that were given to nodes, latest first, and the nodes themselves as far as they are
complete.  A name may be given again; then it means the later node. -/
structure Anchors where
  names : List (String × Nat) := []
  nodes : List (Nat × Option Document) := []

namespace Anchors

/-- Give a name to the next node. -/
def add (a : Anchors) (name : String) : Anchors :=
  { a with names := (name, a.names.length) :: a.names }

/-- Note a node once it is complete, if it has a name. -/
def note (a : Anchors) (number : Option Nat) (node : Option Document) : Anchors :=
  match number with
  | none => a
  | some number => { a with nodes := (number, node) :: a.nodes }

/-- The node with a name, if the name was given. -/
def get? (a : Anchors) (name : String) : Option (Option Document) :=
  (a.names.lookup name).map fun number => (a.nodes.lookup number).join

end Anchors

/-! ### Nodes -/

/-- Where a node stands. -/
inductive Context where
  /-- Between brackets. -/
  | flow
  /-- In a block. -/
  | block
  /-- In a table outside of brackets, where the items of a list need not be indented further. -/
  | field
  deriving DecidableEq, Repr

/-- What a reader of nodes goes on with. -/
structure Source where
  tokens : List Token
  anchors : Anchors := {}

/-- A node and what follows it. -/
abbrev Read := Option (Option Document × Source)

/-- Several nodes and what follows them. -/
abbrev ReadAll := Option (List (Option Document) × Source)

namespace Source

/-- Leave out a token. -/
def skip (s : Source) : Source :=
  { s with tokens := s.tokens.drop 1 }

/-- Whether the next token is one of these. -/
def isAt (s : Source) (ts : List Token) : Bool :=
  s.tokens.head?.any ts.contains

end Source

/-- What may stand in front of a node: a tag, and the number of the name that it is given. -/
structure Properties where
  tag : Option (String × String) := none
  number : Option Nat := none

namespace Properties

def isEmpty (p : Properties) : Bool :=
  p.tag.isNone && p.number.isNone

/-- The properties in front of a node: a name, a tag or both in any order. -/
def read (s : Source) : Properties × Source :=
  let number := s.anchors.names.length
  match s.tokens with
  | .anchor name :: .tag handle suffix :: ts =>
    (⟨(handle, suffix), number⟩, ⟨ts, s.anchors.add name⟩)
  | .tag handle suffix :: .anchor name :: ts =>
    (⟨(handle, suffix), number⟩, ⟨ts, s.anchors.add name⟩)
  | .anchor name :: ts => (⟨none, number⟩, ⟨ts, s.anchors.add name⟩)
  | .tag handle suffix :: ts => (⟨(handle, suffix), none⟩, ⟨ts, s.anchors⟩)
  | _ => ({}, s)

/-- What a scalar stands for.  Only a plain one heeds its tag; one that is not of the standard kind
says that it is a text. -/
def scalar (p : Properties) (plain : Bool) (content : String) : Option Document :=
  match p.tag with
  | some (handle, suffix) =>
    if plain && handle == "!!" then ofTagged? suffix content.toList else some (.text content)
  | none => some (if plain then ofPlain content.toList else .text content)

end Properties

mutual

/-- The node that comes next.  The first argument bounds the depth of the calls. -/
def node? : Nat → Context → Source → Read
  | 0, _, _ => none
  | fuel + 1, context, s =>
    match s.tokens with
    | .reference name :: _ => (s.anchors.get? name).map fun node => (node, s.skip)
    | _ => do
      let (properties, s) := Properties.read s
      let (node, s) ←
        match s.tokens with
        | .scalar plain content :: _ => pure (properties.scalar plain content, s.skip)
        | .flowListStart :: _ => (flowItems? fuel true s.skip).map fun (ns, s) => (listOf ns, s)
        | .flowTableStart :: _ => (flowFields? fuel true s.skip).map fun (ns, s) => (tableOf ns, s)
        | t :: _ =>
          if t = .blockItem ∧ context = .field then
            (bareItems? fuel s).map fun (ns, s) => (listOf ns, s)
          else if t = .blockListStart ∧ context ≠ .flow then
            (items? fuel s.skip).map fun (ns, s) => (listOf ns, s)
          else if t = .blockTableStart ∧ context ≠ .flow then
            (fields? fuel s.skip).map fun (ns, s) => (tableOf ns, s)
          else if properties.isEmpty then none
          else pure (properties.scalar true "", s)
        | [] => if properties.isEmpty then none else pure (properties.scalar true "", s)
      return (node, { s with anchors := s.anchors.note properties.number node })

/-- The node that comes next, unless one of the given tokens does: then there is nothing. -/
def nodeUnless? : Nat → List Token → Context → Source → Read
  | 0, _, _, _ => none
  | fuel + 1, ends, context, s =>
    if s.isAt ends then some (some .null, s) else node? fuel context s

/-- The items of a list up to the end of its block. -/
def items? : Nat → Source → ReadAll
  | 0, _ => none
  | fuel + 1, s =>
    match s.tokens with
    | .blockEnd :: _ => some ([], s.skip)
    | .blockItem :: _ => do
      let (item, s) ← nodeUnless? fuel [.blockItem, .blockEnd] .block s.skip
      let (items, s) ← items? fuel s
      return (item :: items, s)
    | _ => none

/-- The items of a list that is no block of its own. -/
def bareItems? : Nat → Source → ReadAll
  | 0, _ => none
  | fuel + 1, s =>
    match s.tokens with
    | .blockItem :: _ => do
      let (item, s) ← nodeUnless? fuel [.blockItem, .key, .value, .blockEnd] .block s.skip
      let (items, s) ← bareItems? fuel s
      return (item :: items, s)
    | _ => some ([], s)

/-- The keys and values of a table up to the end of its block. -/
def fields? : Nat → Source → ReadAll
  | 0, _ => none
  | fuel + 1, s =>
    let empty : List Token := [.key, .value, .blockEnd]
    if s.isAt [.blockEnd] then some ([], s.skip)
    else if !s.isAt [.key, .value] then none
    else do
      let (key, s) ←
        if s.isAt [.key] then nodeUnless? fuel empty .field s.skip else pure (some .null, s)
      let (value, s) ←
        if s.isAt [.value] then nodeUnless? fuel empty .field s.skip else pure (some .null, s)
      let (nodes, s) ← fields? fuel s
      return (key :: value :: nodes, s)

/-- The items of a list up to its closing bracket.  In front of all but the first stands a comma. -/
def flowItems? : Nat → Bool → Source → ReadAll
  | 0, _, _ => none
  | fuel + 1, isFirst, s =>
    if s.isAt [.flowListEnd] then some ([], s.skip)
    else if !isFirst && !s.isAt [.flowComma] then none
    else
      let s := if isFirst then s else s.skip
      if s.isAt [.flowListEnd] then some ([], s.skip)
      else do
        let (item, s) ← if s.isAt [.key] then pair? fuel s.skip else node? fuel .flow s
        let (items, s) ← flowItems? fuel false s
        return (item :: items, s)

/-- A table with one field that is an item of a list between brackets.  Where there is no key, the
token in its place is lost. -/
def pair? : Nat → Source → Read
  | 0, _ => none
  | fuel + 1, s => do
    let (key, s) ←
      if s.isAt [.value, .flowComma, .flowListEnd] then pure (some Document.null, s.skip)
      else node? fuel .flow s
    let (value, s) ←
      if s.isAt [.value] then nodeUnless? fuel [.flowComma, .flowListEnd] .flow s.skip
      else pure (some .null, s)
    return (tableOf [key, value], s)

/-- The keys and values of a table up to its closing brace.  In front of all but the first stands a
comma.  What begins with neither the sign for a key nor that for a value is a key without a
value. -/
def flowFields? : Nat → Bool → Source → ReadAll
  | 0, _, _ => none
  | fuel + 1, isFirst, s =>
    if s.isAt [.flowTableEnd] then some ([], s.skip)
    else if !isFirst && !s.isAt [.flowComma] then none
    else
      let s := if isFirst then s else s.skip
      if s.isAt [.flowTableEnd] then some ([], s.skip)
      else do
        let (key, value, s) ←
          if s.isAt [.key, .value] then flowField? fuel s
          else (node? fuel .flow s).map fun (key, s) => (key, some .null, s)
        let (nodes, s) ← flowFields? fuel false s
        return (key :: value :: nodes, s)

/-- A key and a value between braces that begin with one of their signs. -/
def flowField? : Nat → Source → Option (Option Document × Option Document × Source)
  | 0, _ => none
  | fuel + 1, s => do
    let (key, s) ←
      if s.isAt [.key] then nodeUnless? fuel [.value, .flowComma, .flowTableEnd] .flow s.skip
      else pure (some .null, s)
    let (value, s) ←
      if s.isAt [.value] then nodeUnless? fuel [.flowComma, .flowTableEnd] .flow s.skip
      else pure (some .null, s)
    return (key, value, s)

end

/-! ### Whole texts -/

/-- The content of a document behind its mark. -/
def content? (s : Source) : Read :=
  if s.tokens.isEmpty || s.isAt [.directive, .documentStart, .documentEnd] then
    some (some .null, s)
  else node? (4 * s.tokens.length + 4) .block s

/-- The only document of a text.  Directives need a mark behind them. -/
def document? (ts : List Token) : Option Document :=
  if ts.isEmpty then some (.table [])
  else do
    let (node, s) ←
      if ts.head? = some .directive ∨ ts.head? = some .documentStart then
        match ts.dropWhile (· = .directive) with
        | .documentStart :: ts => content? { tokens := ts }
        | _ => none
      else node? (4 * ts.length + 4) .block { tokens := ts }
    if s.tokens.all (· = .documentEnd) then some (node.getD .null) else none

end Yaml

/-- Read a document in YAML.  A character with the number zero ends the text. -/
def ofYaml? (text : String) : Option Document :=
  (Yaml.tokens? (text.toList.takeWhile (· != '\x00'))).bind Yaml.document?

end RouteSync.Document
