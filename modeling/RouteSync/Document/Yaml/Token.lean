import RouteSync.Document.Toml.Text
import RouteSync.Document.Yaml.Cursor

/-!
# Tokens of YAML

A text in YAML is a list of tokens.  Besides the signs and scalars that stand in the text there are
tokens for what its layout says: where blocks begin and end, and where the keys of tables are.

This module also reads the names, tags and directives among them.
-/

namespace RouteSync.Document.Yaml

/-- A token.  Of directives only the place matters. -/
inductive Token where
  | directive
  | documentStart
  | documentEnd
  | blockListStart
  | blockTableStart
  | blockEnd
  | flowListStart
  | flowListEnd
  | flowTableStart
  | flowTableEnd
  | blockItem
  | flowComma
  | key
  | value
  /-- The name of a node that was given before. -/
  | reference (name : String)
  /-- A name for the node that follows. -/
  | anchor (name : String)
  | tag (handle suffix : String)
  | scalar (plain : Bool) (text : String)
  deriving DecidableEq, Repr

/-! ### Names -/

/-- What may stand behind a name of a node, gaps apart. -/
def isNameEnd (c : Char) : Bool :=
  ['?', ':', ',', ']', '\x7d', '%', '@', '\x60'].contains c

/-- The name of a node, the sign in front of it already read. -/
def nodeName? (c : Cursor) : Option (String × Cursor) :=
  let (name, c) := c.span isNameChar
  if name.isEmpty || !(endsWord c.rest || c.rest.head?.any isNameEnd) then none
  else some (String.ofList name, c)

/-! ### Tags -/

/-- The characters of tags, names apart. -/
def isTagSign (c : Char) : Bool :=
  [';', '/', '?', ':', '@', '&', '=', '+', '$', ',', '.', '!', '~', '*', '\'', '(', ')', '[', ']']
    |>.contains c

/-- The octet that a percent sign and two digits stand for. -/
def octet? : List Char → Option Nat
  | '%' :: a :: b :: _ => do return 16 * (← Toml.hexValue? a) + (← Toml.hexValue? b)
  | _ => none

/-- Append further octets to a number, so many of them. -/
def followers? : Nat → Nat → Cursor → Option (Nat × Cursor)
  | 0, n, c => some (n, c)
  | count + 1, n, c => do
    let octet ← octet? c.rest
    if 0x80 ≤ octet ∧ octet < 0xC0 then followers? count (n * 256 + octet) (c.skip 3) else none

/-- How many octets follow the first one of a character. -/
def followerCount? (octet : Nat) : Option Nat :=
  if octet < 0x80 then some 0
  else if octet < 0xC0 then none
  else if octet < 0xE0 then some 1
  else if octet < 0xF0 then some 2
  else if octet < 0xF8 then some 3
  else none

/-- A character given by its octets, which are taken as the digits of its number. -/
def tagEscape? (c : Cursor) : Option (Char × Cursor) := do
  let octet ← octet? c.rest
  let (n, c) ← followers? (← followerCount? octet) octet (c.skip 3)
  if n.isValidChar then some (Char.ofNat n, c) else none

/-- The longest run of characters of a tag.  The first argument bounds its length. -/
def tagText? : Nat → Cursor → Option (List Char × Cursor)
  | 0, _ => none
  | fuel + 1, c =>
    match c.rest with
    | [] => some ([], c)
    | ch :: _ =>
      if ch == '%' then do
        let (ch, c) ← tagEscape? c
        let (more, c) ← tagText? fuel c
        return (ch :: more, c)
      else if isNameChar ch || isTagSign ch then
        (tagText? fuel c.next).map fun (more, c) => (ch :: more, c)
      else some ([], c)

/-- At least one character of a tag. -/
def tagWord? (c : Cursor) : Option (List Char × Cursor) :=
  (tagText? (c.rest.length + 1) c).filter (!·.1.isEmpty)

/-- The beginning of a tag: an exclamation mark, a name, and perhaps a second mark.  Whether that is
there is given too. -/
def tagHandle? (c : Cursor) : Option (List Char × Bool × Cursor) :=
  match c.rest with
  | '!' :: _ =>
    let (name, c) := c.next.span isNameChar
    if c.rest.head? == some '!' then some ('!' :: name ++ ['!'], true, c.next)
    else some ('!' :: name, false, c)
  | _ => none

/-- A tag: given as a whole between angle brackets, or behind a handle, or behind a single mark,
where it may also be missing. -/
def tag? (c : Cursor) : Option (Token × Cursor) := do
  let (tag, c) ←
    if ['!', '<'].isPrefixOf c.rest then do
      let (suffix, c) ← tagWord? (c.skip 2)
      if c.rest.head? = some '>' then pure (Token.tag "" (String.ofList suffix), c.next) else none
    else do
      let (handle, closed, c) ← tagHandle? c
      if closed then do
        let (suffix, c) ← tagWord? c
        pure (Token.tag (String.ofList handle) (String.ofList suffix), c)
      else do
        let (more, c) ← tagText? (c.rest.length + 1) c
        let suffix := handle.drop 1 ++ more
        pure (if suffix.isEmpty then Token.tag "" "!" else Token.tag "!" (String.ofList suffix), c)
  if endsWord c.rest then some (tag, c) else none

/-! ### Directives -/

/-- A number of a version, of up to nine digits. -/
def versionNumber? (c : Cursor) : Option Cursor :=
  let (digits, c) := c.span Char.isDigit
  if digits.isEmpty || 9 < digits.length then none else some c

/-- A version: two numbers with a point between them. -/
def version? (c : Cursor) : Option Cursor := do
  let c ← versionNumber? (c.skipWhile isBlank)
  if c.rest.head? = some '.' then versionNumber? c.next else none

/-- The meaning of a handle: the handle and the beginning of the tags that it stands for. -/
def handleMeaning? (c : Cursor) : Option Cursor := do
  let (handle, closed, c) ← tagHandle? (c.skipWhile isBlank)
  if closed || handle.length = 1 then
    let (_, c) ← tagWord? (c.skipWhile isBlank)
    if endsWord c.rest then some c else none
  else none

/-- Skip a directive with its line, the percent sign already read.  Unknown ones may say
anything. -/
def directive? (c : Cursor) : Option Cursor := do
  let (name, c) := c.span isNameChar
  if name.isEmpty || !endsWord c.rest then none
  else
    let c ←
      if name = "YAML".toList then version? c
      else if name = "TAG".toList then handleMeaning? c
      else some (c.skipWhile (!isBreak ·))
    c.lineRest?

end RouteSync.Document.Yaml
