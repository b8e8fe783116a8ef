import RouteSync.Document.Yaml.Cursor

/-!
# Blocks of text of YAML

A block of text is a run of lines that are indented alike.  A header in front of it says whether its
lines are folded, perhaps how far they are indented, and what happens to the line ends behind the
last line.
-/

namespace RouteSync.Document.Yaml

/-! ### Headers -/

/-- What happens to the line ends at the end of a block of text. -/
inductive Chomp where
  | strip
  | clip
  | keep
  deriving DecidableEq, Repr

/-- The sign for the end of a block, if there is one. -/
def chompSign (c : Cursor) : Option Chomp × Cursor :=
  match c.rest with
  | '+' :: _ => (some .keep, c.next)
  | '-' :: _ => (some .strip, c.next)
  | _ => (none, c)

/-- How much further than its surroundings a block is indented; zero if that is not said. -/
def depthDigit? (c : Cursor) : Option (Nat × Cursor) :=
  match c.rest with
  | '0' :: _ => none
  | d :: _ => some (if d.isDigit then (d.toNat - '0'.toNat, c.next) else (0, c))
  | [] => some (0, c)

/-- The header of a block, its first sign already read, up to the end of its line. -/
def blockHeader? (c : Cursor) : Option (Chomp × Nat × Cursor) := do
  let (before, c) := chompSign c
  let (depth, c) ← depthDigit? c
  let (behind, c) := if before.isSome || depth == 0 then (none, c) else chompSign c
  return ((before.or behind).getD .clip, depth, ← c.lineRest?)

/-! ### Lines -/

/-- Blank lines of a block: how many there are, how far the widest of them and the line behind them
are indented, and where the content of that line begins. -/
structure BlankLines where
  count : Nat := 0
  widest : Nat := 0
  cursor : Cursor

/-- Skip blank lines and the indentation of the line behind them, which is `column` wide, or as wide
as there are spaces if that is zero.  A tab within the indentation is an error.  The second argument
bounds the number of lines. -/
def blankLines? (column : Nat) : Nat → BlankLines → Option BlankLines
  | 0, _ => none
  | fuel + 1, b =>
    let spaces := (b.cursor.rest.takeWhile (· == ' ')).length
    let c := b.cursor.skip (if column = 0 then spaces else min spaces (column - b.cursor.column))
    let b : BlankLines := ⟨b.count, max b.widest c.column, c⟩
    if (column = 0 || c.column < column) && c.rest.head? == some '\t' then none
    else if c.rest.head?.any isBreak then
      blankLines? column fuel { b with count := b.count + 1, cursor := c.skipBreak }
    else some b

/-- Skip blank lines from here. -/
def skipBlankLines? (column : Nat) (c : Cursor) : Option BlankLines :=
  blankLines? column (c.rest.length + 1) { cursor := c }

/-- What becomes of the line ends behind the last line of a block: that of the line itself, if it
has one, and those of the blank lines behind it. -/
def Chomp.ending (chomp : Chomp) (ended : Bool) (blank : Nat) : List Char :=
  match chomp with
  | .strip => []
  | .clip => if ended then ['\n'] else []
  | .keep => List.replicate (if ended then blank + 1 else blank) '\n'

/-- How a block stands and what is to be done with it. -/
structure BlockStyle where
  folded : Bool
  chomp : Chomp
  column : Nat

/-- What stands in front of a line of a block: the blank lines there and, unless the line is the
first one, the end of the line before.  Arguments are whether that line began with a blank, if there
is one, and whether this line does.  In a folded block the line end becomes a space or is lost if
neither does. -/
def BlockStyle.joint (style : BlockStyle) (before : Option Bool) (deep : Bool) (blank : Nat) :
    List Char :=
  match before with
  | none => List.replicate blank '\n'
  | some wasDeep =>
    if style.folded && !wasDeep && !deep then
      if blank = 0 then [' '] else List.replicate blank '\n'
    else List.replicate (blank + 1) '\n'

/-- The lines of a block behind some blank lines.  The second argument tells whether the line in
front of those began with a blank, if there is such a line.  The first one bounds the number of
lines. -/
def lines? (style : BlockStyle) : Nat → Option Bool → BlankLines → Option (List Char × Cursor)
  | 0, _, _ => none
  | fuel + 1, before, b =>
    let c := b.cursor
    if c.column != style.column || c.rest.isEmpty then
      some (style.chomp.ending before.isSome b.count, c)
    else
      let deep := c.rest.head?.any isBlank
      let (line, c) := c.span (!isBreak ·)
      let text := style.joint before deep b.count ++ line
      if c.rest.isEmpty then some (text, c)
      else do
        let b ← skipBlankLines? style.column c.skipBreak
        let (more, c) ← lines? style fuel (some deep) b
        return (text ++ more, c)

/-- A block of text below lines that are indented by `parent`, if they are indented at all.  The
first sign of the header was read. -/
def block? (folded : Bool) (parent : Option Nat) (c : Cursor) : Option (List Char × Cursor) := do
  let (chomp, depth, c) ← blockHeader? c
  let said := if depth = 0 then 0 else parent.getD 0 + depth
  let b ← skipBlankLines? said c
  let column := if said = 0 then max b.widest (max 1 (parent.elim 0 (· + 1))) else said
  lines? ⟨folded, chomp, column⟩ (b.cursor.rest.length + 1) none b

end RouteSync.Document.Yaml
