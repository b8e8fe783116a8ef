/-!
# Places in a text

In YAML it matters where things stand.  A `Cursor` is the rest of a text together with its place.
A carriage return ends a line of words like a line feed does, but only a line feed begins to count
columns anew.
-/

namespace RouteSync.Document.Yaml

/-! ### Characters -/

def isBlank (c : Char) : Bool :=
  c == ' ' || c == '\t'

def isBreak (c : Char) : Bool :=
  c == '\n' || c == '\r'

/-- Blanks and line ends. -/
def isGap (c : Char) : Bool :=
  isBlank c || isBreak c

/-- The signs of lists and tables between brackets. -/
def isFlowSign (c : Char) : Bool :=
  [',', '[', ']', '\x7b', '\x7d'].contains c

/-- The characters of names. -/
def isNameChar (c : Char) : Bool :=
  c.isAlphanum || c == '_' || c == '-'

/-- Whether a word ends here: at a gap or at the end of the text. -/
def endsWord : List Char → Bool
  | [] => true
  | c :: _ => isGap c

/-- Whether a line ends here. -/
def endsLine : List Char → Bool
  | [] => true
  | c :: _ => isBreak c

/-! ### Cursors -/

/-- What is left of a text, and how many characters, lines and columns are in front of it. -/
structure Cursor where
  rest : List Char
  index : Nat := 0
  line : Nat := 0
  column : Nat := 0

namespace Cursor

/-- Go on by one character. -/
def next (c : Cursor) : Cursor :=
  match c.rest with
  | [] => c
  | '\n' :: rest => ⟨rest, c.index + 1, c.line + 1, 0⟩
  | _ :: rest => ⟨rest, c.index + 1, c.line, c.column + 1⟩

/-- Go on by so many characters. -/
def skip : Nat → Cursor → Cursor
  | 0, c => c
  | n + 1, c => skip n c.next

/-- The characters at the front that have a property, and what follows them. -/
def span (c : Cursor) (p : Char → Bool) : List Char × Cursor :=
  let run := c.rest.takeWhile p
  (run, c.skip run.length)

def skipWhile (c : Cursor) (p : Char → Bool) : Cursor :=
  (c.span p).2

/-- Go on behind the end of a line, if one stands here. -/
def skipBreak (c : Cursor) : Cursor :=
  match c.rest with
  | '\r' :: '\n' :: _ => c.skip 2
  | ch :: _ => if isBreak ch then c.next else c
  | [] => c

/-- Go on to the end of the line, if a comment stands here. -/
def skipComment (c : Cursor) : Cursor :=
  match c.rest with
  | '#' :: _ => c.skipWhile (!isBreak ·)
  | _ => c

/-- Go on behind the line, which may hold blanks and a comment but nothing else. -/
def lineRest? (c : Cursor) : Option Cursor :=
  let c := (c.skipWhile isBlank).skipComment
  if endsLine c.rest then some c.skipBreak else none

/-- Whether three signs of the given kind stand alone at the front of a line. -/
def atMark (sign : Char) (c : Cursor) : Bool :=
  c.column == 0 && [sign, sign, sign].isPrefixOf c.rest && endsWord (c.rest.drop 3)

/-- Whether a mark between documents stands here. -/
def atDocumentMark (c : Cursor) : Bool :=
  c.atMark '-' || c.atMark '.'

end Cursor

end RouteSync.Document.Yaml
