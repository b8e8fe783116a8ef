import RouteSync.Document.Basic
import RouteSync.Document.Toml.Text

/-!
# What scalars of YAML stand for

A plain scalar is what it looks like: a number, a truth value, nothing, or else a text.  A tag in
front of it says what it is to be; if it is none of that kind, it stands for nothing at all.
-/

namespace RouteSync.Document.Yaml

open Toml (numbered?)

/-- Digits of a base, with or without a sign, as a whole number of sixty-four bits. -/
def basedWhole? (radix : Nat) (cs : List Char) : Option Int := do
  let (negative, digits) :=
    match cs with
    | '-' :: rest => (true, rest)
    | '+' :: rest => (false, rest)
    | rest => (false, rest)
  let values ← digits.mapM fun c => (Toml.hexValue? c).filter (· < radix)
  let magnitude : Nat := values.foldl (fun n v => n * radix + v) 0
  let n : Int := if negative then -magnitude else magnitude
  if values.isEmpty || !fitsWhole n then none else some n

/-- The digits in front of and behind a point. -/
def decimalDigits? (cs : List Char) : Option (List Char × List Char × List Char) :=
  let (before, rest) := cs.span Char.isDigit
  let (behind, rest) :=
    match rest with
    | '.' :: rest => rest.span Char.isDigit
    | rest => ([], rest)
  if before.isEmpty && behind.isEmpty then none else some (before, behind, rest)

/-- The exponent at the end of a number. -/
def exponentAtEnd? : List Char → Option Int
  | [] => some 0
  | mark :: rest =>
    if mark ≠ 'e' ∧ mark ≠ 'E' then none
    else
      match rest with
      | '-' :: digits => (digitsValue? digits).map fun n => -(n : Int)
      | '+' :: digits => (digitsValue? digits).map Int.ofNat
      | digits => (digitsValue? digits).map Int.ofNat

/-- The words for an infinite number that begin with a point. -/
def infiniteWords : List String := [".inf", ".Inf", ".INF"]

/-- The words for what is no number that begin with a point; they have no sign. -/
def nanWords : List String := [".nan", ".NaN", ".NAN"]

/-- A floating-point number without its sign. -/
def unsignedReal? (negative : Bool) (cs : List Char) : Option Binary64 :=
  let word := String.ofList cs
  if ["inf", "infinity"].contains (lowered word) || infiniteWords.contains word then
    some (.infinite negative)
  else if lowered word = "nan" then some .nan
  else do
    let (before, behind, rest) ← decimalDigits? cs
    let e ← exponentAtEnd? rest
    let mantissa ← digitsValue? (before ++ behind)
    return Binary64.ofDecimal negative mantissa (e - behind.length)

/-- A floating-point number. -/
def real? : List Char → Option Binary64
  | '-' :: rest => unsignedReal? true rest
  | '+' :: rest => unsignedReal? false rest
  | rest => if nanWords.contains (String.ofList rest) then some .nan else unsignedReal? false rest

/-- A whole number with one of the marks that whole numbers may have in front. -/
def markedWhole? : List Char → Option Int
  | '0' :: 'x' :: digits => basedWhole? 16 digits
  | '0' :: 'o' :: digits => basedWhole? 8 digits
  | '+' :: digits => wholeOfChars? digits
  | _ => none

/-- What a plain scalar stands for. -/
def ofPlain (cs : List Char) : Document :=
  match markedWhole? cs with
  | some n => .whole n
  | none =>
    let word := String.ofList cs
    if word = "~" ∨ word = "null" then .null
    else if word = "true" then .bool true
    else if word = "false" then .bool false
    else
      match wholeOfChars? cs, real? cs with
      | some n, _ => .whole n
      | none, some x => .real x
      | none, none => .text word

/-- What a plain scalar with a tag of the standard kind stands for, if it is of that kind. -/
def ofTagged? (kind : String) (cs : List Char) : Option Document :=
  let word := String.ofList cs
  if kind = "bool" then
    if word = "true" then some (.bool true) else if word = "false" then some (.bool false) else none
  else if kind = "int" then (wholeOfChars? cs).map .whole
  else if kind = "float" then (real? cs).map .real
  else if kind = "null" then if word = "~" ∨ word = "null" then some .null else none
  else some (.text word)

end RouteSync.Document.Yaml
