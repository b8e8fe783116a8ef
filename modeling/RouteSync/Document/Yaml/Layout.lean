import RouteSync.Document.Yaml.Block
import RouteSync.Document.Yaml.Text
import RouteSync.Document.Yaml.Token

/-!
# The layout of a text in YAML

Outside of brackets, blocks begin and end with the indentation of their lines.  What is the key of a
table shows only when its colon comes: until then the layout remembers where a key may have begun,
for every level of brackets one place, and the colon puts the token for the key there.  A key has to
stand on one line with its colon and may be 1024 characters long.

`tokens?` turns a text into its tokens.
-/

namespace RouteSync.Document.Yaml

/-- A place where a key may have begun: where it stands in the text and how many tokens are in front
of it.  Some keys have to be ended by a colon. -/
structure KeyPlace where
  index : Nat
  line : Nat
  column : Nat
  number : Nat
  required : Bool

/-- Whether a key cannot go on up to here. -/
def KeyPlace.isPast (k : KeyPlace) (c : Cursor) : Bool :=
  k.line < c.line || k.index + 1024 < c.index

/-- How far a text has been turned into tokens. -/
structure Layout where
  cursor : Cursor
  /-- The tokens so far, latest first. -/
  tokens : List Token := []
  /-- The columns of the blocks that are open, innermost first. -/
  columns : List Nat := []
  /-- Whether a key may begin here. -/
  keyAllowed : Bool := true
  /-- Where a key may have begun on the present level of brackets. -/
  key : Option KeyPlace := none
  /-- The same for the levels outside of it. -/
  outerKeys : List (Option KeyPlace) := []
  /-- Where the last text between quotation marks ended: a colon there needs no gap behind it. -/
  quoteEnd : Nat := 0

namespace Layout

/-- Whether the text stands between brackets. -/
def inFlow (l : Layout) : Bool :=
  !l.outerKeys.isEmpty

/-- How many levels of brackets there may be. -/
def maxDepth : Nat := 255

/-- Add a token. -/
def push (l : Layout) (t : Token) : Layout :=
  { l with tokens := t :: l.tokens }

/-- Put a token behind the first `number` ones. -/
def insert (l : Layout) (number : Nat) (t : Token) : Layout :=
  let later := l.tokens.length - number
  { l with tokens := l.tokens.take later ++ t :: l.tokens.drop later }

/-- Add a token for so many characters. -/
def take (l : Layout) (count : Nat) (t : Token) : Layout :=
  { l.push t with cursor := l.cursor.skip count }

/-! ### Blocks -/

/-- End the blocks whose columns do not stay. -/
def closeBlocks (l : Layout) (stays : Nat → Bool) : Layout :=
  if l.inFlow then l
  else
    let ended := (l.columns.takeWhile (!stays ·)).length
    { l with
      columns := l.columns.drop ended
      tokens := List.replicate ended .blockEnd ++ l.tokens }

/-- Begin a block at a column that is further to the right than the innermost one. -/
def openBlock (l : Layout) (column number : Nat) (t : Token) : Layout :=
  if !l.inFlow && l.columns.head?.all (· < column) then
    { l.insert number t with columns := column :: l.columns }
  else l

/-- Begin a block here. -/
def openBlockHere (l : Layout) (t : Token) : Layout :=
  l.openBlock l.cursor.column l.tokens.length t

/-! ### Keys -/

/-- No key has begun on this level, whatever was thought before. -/
def dropKey? (l : Layout) : Option Layout :=
  if l.key.any (·.required) then none else some { l with key := none }

/-- A key may begin here, if one may begin at all. -/
def saveKey? (l : Layout) : Option Layout :=
  if l.keyAllowed then do
    let l ← l.dropKey?
    let c := l.cursor
    let required := l.inFlow && l.columns.head? == some c.column
    return { l with key := some ⟨c.index, c.line, c.column, l.tokens.length, required⟩ }
  else some l

/-- Forget a key that cannot go on up to here. -/
def freshKey? (c : Cursor) (key : Option KeyPlace) : Option (Option KeyPlace) :=
  match key.filter (·.isPast c) with
  | none => some key
  | some k => if k.required then none else some none

/-- Forget the keys that cannot go on up to here. -/
def freshKeys? (l : Layout) : Option Layout := do
  let key ← freshKey? l.cursor l.key
  let outerKeys ← l.outerKeys.mapM (freshKey? l.cursor)
  return { l with key := key, outerKeys := outerKeys }

/-! ### Signs -/

/-- A bracket that opens. -/
def openFlow? (l : Layout) (t : Token) : Option Layout := do
  let l ← l.saveKey?
  if maxDepth ≤ l.outerKeys.length then none
  else
    let l := l.take 1 t
    return { l with key := none, outerKeys := l.key :: l.outerKeys, keyAllowed := true }

/-- A bracket that closes. -/
def closeFlow? (l : Layout) (t : Token) : Option Layout := do
  let l := { (← l.dropKey?).take 1 t with keyAllowed := false }
  match l.outerKeys with
  | [] => return l
  | key :: outerKeys => return { l with key := key, outerKeys := outerKeys }

/-- A comma between brackets. -/
def comma? (l : Layout) : Option Layout := do
  return { (← l.dropKey?).take 1 .flowComma with keyAllowed := true }

/-- A hyphen that begins a list item. -/
def item? (l : Layout) : Option Layout := do
  if l.inFlow || !l.keyAllowed then none
  else
    let l ← (l.openBlockHere .blockListStart).dropKey?
    return { l.take 1 .blockItem with keyAllowed := true }

/-- A question mark that begins a key. -/
def keySign? (l : Layout) : Option Layout := do
  if !l.inFlow && !l.keyAllowed then none
  else
    let l ← (l.openBlockHere .blockTableStart).dropKey?
    return { l.take 1 .key with keyAllowed := !l.inFlow }

/-- A colon that begins a value. -/
def valueSign? (l : Layout) : Option Layout :=
  match l.key with
  | some k =>
    let l := (l.insert k.number .key).openBlock k.column k.number .blockTableStart
    some { l.take 1 .value with key := none, keyAllowed := false }
  | none =>
    if !l.inFlow && !l.keyAllowed then none
    else some { (l.openBlockHere .blockTableStart).take 1 .value with keyAllowed := !l.inFlow }

/-- A mark between documents. -/
def documentMark? (l : Layout) (t : Token) : Option Layout := do
  let l ← (l.closeBlocks fun _ => false).dropKey?
  return { l.take 3 t with keyAllowed := false }

/-- A directive. -/
def directive? (l : Layout) : Option Layout := do
  let l ← (l.closeBlocks fun _ => false).dropKey?
  let c ← Yaml.directive? l.cursor.next
  return { l.push .directive with cursor := c, keyAllowed := false }

/-! ### Scalars, names and tags -/

/-- A token with which a key may begin but behind which none may. -/
def word? (l : Layout) (read : Cursor → Option (Token × Cursor)) : Option Layout := do
  let l ← l.saveKey?
  let (t, c) ← read l.cursor
  return { l.push t with cursor := c, keyAllowed := false }

/-- A text between quotation marks. -/
def quoted? (l : Layout) (mark : Char) : Option Layout := do
  let l ← l.word? fun c => do
    let (cs, c) ← Yaml.quoted? mark c.next
    return (.scalar false (String.ofList cs), c)
  return { l with quoteEnd := l.cursor.index }

/-- A plain text.  Behind the end of its last line a key may begin. -/
def plain? (l : Layout) : Option Layout := do
  let l ← l.saveKey?
  let plain ← Yaml.plain? l.inFlow (l.columns.head?.elim 0 (· + 1)) l.cursor
  let l := l.push (.scalar true (String.ofList plain.text))
  return { l with cursor := plain.cursor, keyAllowed := plain.broken }

/-- A block of text.  A key may begin behind it. -/
def block? (l : Layout) (folded : Bool) : Option Layout := do
  let l ← l.saveKey?
  let (cs, c) ← Yaml.block? folded l.columns.head? l.cursor.next
  return { l.push (.scalar false (String.ofList cs)) with cursor := c, keyAllowed := true }

/-- A name of a node. -/
def name? (l : Layout) (token : String → Token) : Option Layout :=
  l.word? fun c => do
    let (name, c) ← nodeName? c.next
    return (token name, c)

/-! ### One token after the other -/

/-- Skip blanks, line ends and comments.  A tab counts as a blank only where no key may begin.  The
first argument bounds the number of steps. -/
def skipGap : Nat → Layout → Layout
  | 0, l => l
  | fuel + 1, l =>
    match l.cursor.rest with
    | [] => l
    | ch :: _ =>
      if ch == ' ' || (ch == '\t' && (l.inFlow || !l.keyAllowed)) then
        skipGap fuel { l with cursor := l.cursor.next }
      else if isBreak ch then
        skipGap fuel
          { l with cursor := l.cursor.skipBreak, keyAllowed := l.keyAllowed || !l.inFlow }
      else if ch == '#' then skipGap fuel { l with cursor := l.cursor.skipComment }
      else l

/-- Whether a colon stands here that begins a value. -/
def atValueSign (l : Layout) : Bool :=
  match l.cursor.rest with
  | ':' :: rest =>
    endsWord rest ||
      (l.inFlow && (rest.head?.any isFlowSign || l.cursor.index == l.quoteEnd))
  | _ => false

/-- The token that begins with the given character, which stands here. -/
def step? (l : Layout) (ch : Char) (rest : List Char) : Option Layout :=
  if l.cursor.column == 0 && ch == '%' then l.directive?
  else if l.cursor.atMark '-' then l.documentMark? .documentStart
  else if l.cursor.atMark '.' then l.documentMark? .documentEnd
  else if ch == '[' then l.openFlow? .flowListStart
  else if ch == '\x7b' then l.openFlow? .flowTableStart
  else if ch == ']' then l.closeFlow? .flowListEnd
  else if ch == '\x7d' then l.closeFlow? .flowTableEnd
  else if ch == ',' then l.comma?
  else if ch == '-' && endsWord rest then l.item?
  else if ch == '?' && endsWord rest then l.keySign?
  else if l.atValueSign then l.valueSign?
  else if ch == '*' then l.name? .reference
  else if ch == '&' then l.name? .anchor
  else if ch == '!' then l.word? tag?
  else if ch == '|' && !l.inFlow then l.block? false
  else if ch == '>' && !l.inFlow then l.block? true
  else if ch == '\'' || ch == '"' then l.quoted? ch
  else if ch == '%' || ch == '@' || ch == '\x60' then none
  else l.plain?

/-- The tokens of the rest of a text behind those that there are.  The first argument bounds the
number of steps. -/
def finish? : Nat → Layout → Option (List Token)
  | 0, _ => none
  | fuel + 1, l => do
    let l ← (skipGap (l.cursor.rest.length + 1) l).freshKeys?
    let l := l.closeBlocks (· ≤ l.cursor.column)
    match l.cursor.rest with
    | [] => return (← (l.closeBlocks fun _ => false).dropKey?).tokens.reverse
    | ch :: rest => finish? fuel (← l.step? ch rest)

end Layout

/-- The tokens of a text. -/
def tokens? (cs : List Char) : Option (List Token) :=
  Layout.finish? (cs.length + 1) { cursor := { rest := cs } }

end RouteSync.Document.Yaml
