import RouteSync.Document.Toml.Text
import RouteSync.Document.Yaml.Cursor

/-!
# Texts of YAML on several lines

Plain texts and texts between quotation marks may go over several lines.  The lines are folded: a
single line end becomes a space together with the blanks around it, and of several line ends one is
lost.
-/

namespace RouteSync.Document.Yaml

open Toml (numbered?)

/-! ### Gaps -/

/-- How many lines end in a gap. -/
def breakCount : List Char → Nat
  | [] => 0
  | '\r' :: '\n' :: cs => breakCount cs + 1
  | c :: cs => if isBreak c then breakCount cs + 1 else breakCount cs

/-- What a gap within a text becomes. -/
def foldedGap (gap : List Char) : List Char :=
  match breakCount gap with
  | 0 => gap
  | 1 => [' ']
  | n + 2 => List.replicate (n + 1) '\n'

/-- Whether a tab stands in a gap where the line is not yet indented far enough.  Arguments are also
whether a line has ended before and the column. -/
def hasEarlyTab (least : Nat) : Bool → Nat → List Char → Bool
  | _, _, [] => false
  | broken, column, c :: cs =>
    (broken && column < least && c == '\t') ||
      hasEarlyTab least (broken || isBreak c) (if c == '\n' then 0 else column + 1) cs

/-! ### Plain texts -/

/-- Whether a plain text cannot go on here: at a gap, at a colon that ends a key, and between
brackets also at their signs. -/
def stopsPlain (flow : Bool) : List Char → Bool
  | [] => true
  | ':' :: rest => endsWord rest || (flow && rest.head?.any isFlowSign)
  | c :: _ => isGap c || (flow && isFlowSign c)

/-- The next part of a plain text without gaps. -/
def plainWord (flow : Bool) : List Char → List Char
  | [] => []
  | c :: cs => if stopsPlain flow (c :: cs) then [] else c :: plainWord flow cs

/-- A plain text that was read, and whether a line ended behind it. -/
structure PlainText where
  text : List Char
  broken : Bool
  cursor : Cursor

/-- The rest of a plain text whose lines are indented by at least `least` unless it stands between
brackets; `gap` was read just before.  The first argument bounds the number of words. -/
def plainRest? (flow : Bool) (least : Nat) : Nat → List Char → Cursor → Option PlainText
  | 0, _, _ => none
  | fuel + 1, gap, c =>
    if c.atDocumentMark || c.rest.head? == some '#' then some ⟨[], breakCount gap != 0, c⟩
    else
      let word := plainWord flow c.rest
      let text := if word.isEmpty then [] else foldedGap gap ++ word
      let gap := if word.isEmpty then gap else []
      let c := c.skip word.length
      if !c.rest.head?.any isGap then some ⟨text, breakCount gap != 0, c⟩
      else
        let (gap, behind) := c.span isGap
        if hasEarlyTab least false c.column gap then none
        else if !flow && behind.column < least then some ⟨text, breakCount gap != 0, behind⟩
        else
          (plainRest? flow least fuel gap behind).map fun more =>
            { more with text := text ++ more.text }

/-- A plain text. -/
def plain? (flow : Bool) (least : Nat) (c : Cursor) : Option PlainText :=
  plainRest? flow least (c.rest.length + 1) [] c

/-! ### Quotation marks -/

/-- What a letter behind a backslash stands for. -/
def escaped? : Char → Option Char
  | '0' => some '\x00'
  | 'a' => some '\x07'
  | 'b' => some '\x08'
  | 't' | '\t' => some '\t'
  | 'n' => some '\n'
  | 'v' => some '\x0b'
  | 'f' => some '\x0c'
  | 'r' => some '\r'
  | 'e' => some '\x1b'
  | ' ' => some ' '
  | '"' => some '"'
  | '\'' => some '\''
  | '\\' => some '\\'
  | 'N' => some '\u0085'
  | '_' => some '\u00A0'
  | 'L' => some '\u2028'
  | 'P' => some '\u2029'
  | _ => none

/-- What a backslash within a line stands for, the backslash already read, and how many characters
belong to it. -/
def escape? : List Char → Option (List Char × Nat)
  | [] => none
  | 'x' :: rest => (numbered? 2 rest).map fun (cs, _) => (cs, 3)
  | 'u' :: rest => (numbered? 4 rest).map fun (cs, _) => (cs, 5)
  | 'U' :: rest => (numbered? 8 rest).map fun (cs, _) => (cs, 9)
  | c :: _ => (escaped? c).map fun c => ([c], 1)

/-- The text up to the closing mark, and what follows.  Only between double marks the backslash has
a meaning; at the end of a line it takes the line end away together with the blanks behind it.  The
first argument bounds the number of steps. -/
def quotedRest? (mark : Char) : Nat → Cursor → Option (List Char × Cursor)
  | 0, _ => none
  | fuel + 1, c =>
    let go (out : List Char) (c : Cursor) : Option (List Char × Cursor) :=
      (quotedRest? mark fuel c).map fun (more, c) => (out ++ more, c)
    if c.atDocumentMark then none
    else
      match c.rest with
      | [] => none
      | ch :: rest =>
        if ch == '\'' && mark == '\'' && rest.head? == some '\'' then go ['\''] (c.skip 2)
        else if ch == mark then some ([], c.next)
        else if isGap ch then
          let (gap, c) := c.span isGap
          go (foldedGap gap) c
        else if ch == '\\' && mark == '"' then
          if rest.head?.any isBreak then
            let (gap, c) := c.next.skipBreak.span isGap
            go (List.replicate (breakCount gap) '\n') c
          else (escape? rest).bind fun (out, count) => go out (c.skip (count + 1))
        else go [ch] c.next

/-- A text between marks of the given kind, the first one already read. -/
def quoted? (mark : Char) (c : Cursor) : Option (List Char × Cursor) :=
  quotedRest? mark (c.rest.length + 1) c

end RouteSync.Document.Yaml
