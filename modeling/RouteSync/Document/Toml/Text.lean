/-!
# Strings and comments of TOML

A string stands between quotation marks of one of two kinds, on one line or, between three marks, on
several.  Only double marks give the backslash a meaning.  Line ends are taken to be single
characters here.
-/

namespace RouteSync.Document.Toml

def isSpace (c : Char) : Bool :=
  c == ' ' || c == '\t'

def skipSpaces (cs : List Char) : List Char :=
  cs.dropWhile isSpace

/-- The characters of keys and scalars that stand without quotation marks. -/
def isBareChar (c : Char) : Bool :=
  c.isAlphanum || c == '-' || c == '_'

/-- A run of such characters. -/
def bareWord? (cs : List Char) : Option (List Char × List Char) :=
  match cs.span isBareChar with
  | ([], _) => none
  | run => some run

/-! ### Comments -/

/-- The characters that may stand in a comment. -/
def isCommentChar (c : Char) : Bool :=
  c == '\t' || ' ' ≤ c

/-- The end of a line or of the text. -/
def lineEnd? : List Char → Option (List Char)
  | [] => some []
  | '\n' :: rest => some rest
  | _ => none

/-- What follows a comment, its mark already read. -/
def commentEnd? (cs : List Char) : Option (List Char) :=
  lineEnd? (cs.dropWhile isCommentChar)

/-- Skip blank lines and comments, at most as many as the first argument says. -/
def skipLines? : Nat → List Char → Option (List Char)
  | 0, _ => none
  | fuel + 1, cs =>
    match skipSpaces cs with
    | '\n' :: rest => skipLines? fuel rest
    | '#' :: rest => (commentEnd? rest).bind (skipLines? fuel)
    | rest => some rest

/-- What may follow a whole line: spaces, a comment, the end. -/
def lineRest? (cs : List Char) : Option (List Char) :=
  match skipSpaces cs with
  | '#' :: rest => commentEnd? rest
  | rest => lineEnd? rest

/-! ### Strings -/

/-- The characters that may stand in a string, line ends apart. -/
def isTextChar (c : Char) : Bool :=
  c == '\t' || (' ' ≤ c && c != '\x7f')

/-- The number that a hexadecimal digit stands for. -/
def hexValue? (c : Char) : Option Nat :=
  if c.isDigit then some (c.toNat - '0'.toNat)
  else if 'a' ≤ c ∧ c ≤ 'f' then some (c.toNat - 'a'.toNat + 10)
  else if 'A' ≤ c ∧ c ≤ 'F' then some (c.toNat - 'A'.toNat + 10)
  else none

/-- The character with the number that the next digits give. -/
def numbered? (count : Nat) (cs : List Char) : Option (List Char × List Char) := do
  let digits := cs.take count
  let values ← digits.mapM hexValue?
  let n := values.foldl (fun n v => n * 16 + v) 0
  if digits.length = count ∧ n.isValidChar then some ([Char.ofNat n], cs.drop count) else none

/-- What a backslash stands for, the backslash already read.  At the end of a line of a string on
several lines it takes all blanks and line ends away that follow. -/
def escape? (several : Bool) : List Char → Option (List Char × List Char)
  | '"' :: rest => some (['"'], rest)
  | '\\' :: rest => some (['\\'], rest)
  | 'b' :: rest => some (['\x08'], rest)
  | 'f' :: rest => some (['\x0c'], rest)
  | 'n' :: rest => some (['\n'], rest)
  | 'r' :: rest => some (['\r'], rest)
  | 't' :: rest => some (['\t'], rest)
  | 'u' :: rest => numbered? 4 rest
  | 'U' :: rest => numbered? 8 rest
  | cs =>
    if !several then none
    else
      match skipSpaces cs with
      | '\n' :: rest => some ([], rest.dropWhile fun c => isSpace c || c == '\n')
      | _ => none

/-- How many marks in a row a text begins with, counted up to five. -/
def marks (mark : Char) (cs : List Char) : Nat :=
  ((cs.take 5).takeWhile (· == mark)).length

/-- The characters up to the closing marks, and what follows those.  Up to two marks in front of
three closing ones belong to the string.  The first argument bounds the number of steps. -/
def stringRest? (mark : Char) (several : Bool) : Nat → List Char → Option (List Char × List Char)
  | 0, _ => none
  | _, [] => none
  | fuel + 1, c :: rest =>
    let go (out rest : List Char) : Option (List Char × List Char) :=
      (stringRest? mark several fuel rest).map fun (more, rest) => (out ++ more, rest)
    if c = mark then
      if several then
        let n := marks mark (c :: rest)
        if n < 3 then go (List.replicate n mark) ((c :: rest).drop n)
        else some (List.replicate (n - 3) mark, (c :: rest).drop n)
      else some ([], rest)
    else if c = '\\' ∧ mark = '"' then
      (escape? several rest).bind fun (out, rest) => go out rest
    else if isTextChar c ∨ (several ∧ c = '\n') then go [c] rest
    else none

/-- A string, and whether it may go over several lines. -/
structure Quoted where
  text : String
  several : Bool
  rest : List Char

/-- A string, its first mark already read. -/
def quoted? (mark : Char) (cs : List Char) : Option Quoted :=
  match marks mark (cs.take 2), cs with
  | 0, cs => (stringRest? mark false (cs.length + 1) cs).map fun (s, rest) =>
      ⟨String.ofList s, false, rest⟩
  | 1, cs => some ⟨"", false, cs.drop 1⟩
  | _, cs =>
    let body :=
      match cs.drop 2 with
      | '\n' :: body => body
      | body => body
    (stringRest? mark true (body.length + 1) body).map fun (s, rest) =>
      ⟨String.ofList s, true, rest⟩

end RouteSync.Document.Toml
