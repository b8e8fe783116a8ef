import RouteSync.Document.Basic
import RouteSync.Document.Toml.Date
import RouteSync.Document.Toml.Text

/-!
# Scalars of TOML without quotation marks

Such a scalar begins with a run of bare characters.  What the run looks like decides whether it is a
date, a whole number or a floating-point number, and so which further characters belong to it.
-/

namespace RouteSync.Document.Toml

/-! ### Digits -/

/-- How far a run of digits has got. -/
structure DigitState where
  first : Bool := true
  zero : Bool := false
  underscore : Bool := false

/-- Digits with single underscores between them, and what follows.  Unless it is allowed, no zero
stands in front of further digits. -/
def digitsFrom (radix : Nat) (zeros : Bool) (s : DigitState) :
    List Char → Option (List Nat × List Char)
  | [] => if s.first || s.underscore then none else some ([], [])
  | c :: rest =>
    match (hexValue? c).filter (· < radix) with
    | some v =>
      if !s.first && s.zero && !zeros then none
      else
        let next : DigitState := ⟨false, if s.first then v == 0 else s.zero, false⟩
        (digitsFrom radix zeros next rest).map fun (vs, rest) => (v :: vs, rest)
    | none =>
      if c == '_' && s.first then none
      else if c == '_' && !s.underscore then
        digitsFrom radix zeros { s with underscore := true } rest
      else if s.first || s.underscore then none
      else some ([], c :: rest)

def digits? (radix : Nat) (zeros : Bool) (cs : List Char) : Option (List Nat × List Char) :=
  digitsFrom radix zeros {} cs

/-- The number with the given digits. -/
def valueOf (radix : Nat) (digits : List Nat) : Nat :=
  digits.foldl (fun n v => n * radix + v) 0

/-- A sign in front of digits. -/
def sign : List Char → Bool × List Char
  | '-' :: rest => (true, rest)
  | rest => (false, rest)

/-! ### Numbers -/

/-- A whole number in base ten. -/
def wholeNumber? (word : List Char) : Option Document := do
  let (negative, digits) := sign word
  let (digits, rest) ← digits? 10 false digits
  let n : Int := valueOf 10 digits
  let n := if negative then -n else n
  if rest.isEmpty && fitsWhole n then some (.whole n) else none

/-- A whole number in another base, without its mark. -/
def basedNumber? (radix : Nat) (word : List Char) : Option Document := do
  let (digits, rest) ← digits? radix true word
  let n : Int := valueOf radix digits
  if rest.isEmpty && fitsWhole n then some (.whole n) else none

/-- The digits of an exponent. -/
def exponentDigits? (signed : Bool) (cs : List Char) : Option Int := do
  let (negative, cs) := if signed then sign cs else (false, cs)
  let (digits, rest) ← digits? 10 true cs
  let n : Int := valueOf 10 digits
  if rest.isEmpty then some (if negative then -n else n) else none

/-- An exponent: the end of a word, the sign and digits behind it if the word ends with the mark. -/
def exponent? (word rest : List Char) : Option (Int × List Char) :=
  match word with
  | [] => some (0, rest)
  | mark :: digits =>
    if mark ≠ 'e' ∧ mark ≠ 'E' then none
    else if digits.isEmpty then do
      let rest := match rest with
        | '+' :: rest => rest
        | rest => rest
      let (digits, rest) ← bareWord? rest
      return (← exponentDigits? false digits, rest)
    else do return (← exponentDigits? true digits, rest)

/-- A floating-point number: a word, perhaps another one behind a point, perhaps an exponent. -/
def realNumber? (word : List Char) (places : Option (List Char)) (rest : List Char) :
    Option (Document × List Char) := do
  let (negative, digits) := sign word
  let (units, tail) ← digits? 10 false digits
  let (fraction, tail) ←
    match places with
    | none => some ([], tail)
    | some places => if tail.isEmpty then digits? 10 true places else none
  let (e, rest) ← exponent? tail rest
  let x := Binary64.ofDecimal negative (valueOf 10 (units ++ fraction)) (e - fraction.length)
  if x.isFinite then some (.real x, rest) else none

/-- A number that begins with a word. -/
def number? (word rest : List Char) : Option (Document × List Char) :=
  match word with
  | '0' :: 'x' :: digits => (basedNumber? 16 digits).map (·, rest)
  | '0' :: 'o' :: digits => (basedNumber? 8 digits).map (·, rest)
  | '0' :: 'b' :: digits => (basedNumber? 2 digits).map (·, rest)
  | word =>
    if word.contains 'e' || word.contains 'E' then realNumber? word none rest
    else
      match rest with
      | '.' :: rest => do
        let (places, rest) ← bareWord? rest
        realNumber? word (some places) rest
      | rest =>
        if word = ['i', 'n', 'f'] then some (.real (.infinite false), rest)
        else if word = ['-', 'i', 'n', 'f'] then some (.real (.infinite true), rest)
        else if word = ['n', 'a', 'n'] ∨ word = ['-', 'n', 'a', 'n'] then some (.real .nan, rest)
        else (wholeNumber? word).map (·, rest)

/-! ### Dates and times -/

/-- Whether a word has the mark of an exponent with a hyphen behind it. -/
def hasNegativeExponent (word : List Char) : Bool :=
  (word.zip (word.drop 1)).any fun (c, d) => (c == 'e' || c == 'E') && d == '-'

/-- Whether a word begins a date: it has a letter T or a hyphen inside, but no negative exponent. -/
def beginsDate (word : List Char) : Bool :=
  word.contains 'T' || word.contains 't' ||
    ((word.drop 1).contains '-' && !hasNegativeExponent word)

/-- A word behind a mark, if the mark is there. -/
def wordBehind (mark : Char) (cs : List Char) : Option (List Char) :=
  match cs with
  | c :: rest => if c = mark then (bareWord? rest).map (·.2) else some cs
  | [] => some []

/-- The minutes, the seconds and what may follow them, the colon before the minutes already read. -/
def clockRest? (cs : List Char) : Option (List Char) := do
  let (_, cs) ← bareWord? cs
  let (_, cs) ← bareWord? (← after? ':' cs)
  wordBehind ':' (← wordBehind '+' (← wordBehind '.' cs))

/-- What follows a date and time that begin with a word.  A single space may stand between the
two. -/
def momentRest? (colon : Bool) (cs : List Char) : Option (List Char) :=
  let cs :=
    match cs with
    | ' ' :: tail => ((bareWord? tail).map (·.2)).getD cs
    | cs => cs
  match colon, cs with
  | true, cs => clockRest? cs
  | false, ':' :: cs => clockRest? cs
  | false, cs => some cs

/-- A date, a time or both, given with all that follows. -/
def momentAt? (start rest : List Char) (colon : Bool) : Option (Document × List Char) := do
  let rest ← momentRest? colon rest
  let text ← moment? (start.take (start.length - rest.length))
  return (.text text, rest)

/-- A scalar without quotation marks. -/
def bareScalar? (cs : List Char) : Option (Document × List Char) := do
  match cs with
  | '+' :: cs =>
    let (word, rest) ← bareWord? cs
    number? word rest
  | cs =>
    let (word, rest) ← bareWord? cs
    let startsNumber := word.head?.any fun c => c == '-' || c.isDigit
    if word = "true".toList then return (.bool true, rest)
    else if word = "false".toList then return (.bool false, rest)
    else if !startsNumber && word ≠ "inf".toList && word ≠ "nan".toList then none
    else if beginsDate word then momentAt? cs rest false
    else
      match rest with
      | ':' :: rest => momentAt? cs rest true
      | rest => number? word rest

end RouteSync.Document.Toml
