import RouteSync.Document.Basic

/-!
# Documents in JSON

Numbers without a fraction are whole if they fit into sixty-four bits with a sign; all others are
floating-point numbers.  These are worked out from their leading digits, as many as fit into
sixty-four bits, by one rounded product or quotient for each step of the scale, which is fast and
nearly exact.
-/

namespace RouteSync.Document

open Json (Numeral Tree)

/-- Append digits to a number as long as it fits into sixty-four bits; how many digits are left over
then. -/
def takeDigits (n : Nat) : List Nat → Nat × Nat
  | [] => (n, 0)
  | d :: ds => if n * 10 + d < wholeCount then takeDigits (n * 10 + d) ds else (n, ds.length + 1)

/-- The decimal digits of a natural number. -/
def digitValues (n : Nat) : List Nat :=
  (Nat.toDigits 10 n).map fun c => c.toNat - '0'.toNat

/-- The leading digits of a numeral as a whole number, and the power of ten that it is to be
multiplied by.  Digits behind the point are appended even if digits in front of it were left
over. -/
def leadingDigits (n : Numeral) : Nat × Int :=
  let (front, dropped) := takeDigits 0 (digitValues n.whole)
  let (digits, unread) := takeDigits front (n.fraction.map fun b => b.toNat - '0'.toNat)
  (digits, n.exponent.getD 0 + dropped - (n.fraction.length - unread : Nat))

/-- A power of ten as a floating-point number. -/
def tenPower (k : Nat) : Binary64 :=
  Binary64.ofDecimal false 1 k

/-- Divide by a power of ten in steps, as many as the first argument says at most. -/
def shrink : Nat → Binary64 → Nat → Binary64
  | 0, x, _ => x
  | fuel + 1, x, k =>
    if k ≤ 308 then x.div (tenPower k)
    else if x.isZero then x
    else shrink fuel (x.div (tenPower 308)) (k - 308)

/-- A number times a power of ten, if it is in range. -/
def scaled? (n : Nat) (scale : Int) : Option Binary64 :=
  let x := Binary64.ofFraction false n 1
  if scale < 0 then some (shrink 4 x (-scale).toNat)
  else if x.isZero then some x
  else if 308 < scale then none
  else
    let x := x.mul (tenPower scale.toNat)
    if x.isFinite then some x else none

/-- The floating-point number for a numeral, if it is in range. -/
def realOf? (n : Numeral) : Option Binary64 := do
  let (digits, scale) := leadingDigits n
  let x ← scaled? digits scale
  return if n.negative then x.neg else x

/-- Whether a numeral has neither a fraction nor an exponent. -/
def isPlainNumeral (n : Numeral) : Bool :=
  n.fraction.isEmpty && n.exponent.isNone

/-- The number that a numeral stands for.  A zero with a sign is no whole number. -/
def ofNumeral? (n : Numeral) : Option Document :=
  let value : Int := if n.negative then -n.whole else n.whole
  if isPlainNumeral n && fitsWhole value && !(n.negative && n.whole == 0) then some (.whole value)
  else (realOf? n).map .real

mutual

/-- The document that a tree stands for.  The first argument bounds how deep lists and objects may
be nested. -/
def ofTree? (depth : Nat) : Tree → Option Document
  | .null => some .null
  | .bool b => some (.bool b)
  | .number n => ofNumeral? n
  | .text s => s.map .text
  | .array items => if depth = 0 then none else (ofTrees? (depth - 1) items).map .list
  | .object fields => if depth = 0 then none else (ofFields? (depth - 1) fields).map .table
  | .fault => none

def ofTrees? (depth : Nat) : List Tree → Option (List Document)
  | [] => some []
  | t :: ts => do return (← ofTree? depth t) :: (← ofTrees? depth ts)

/-- Of fields with the same name the last one counts. -/
def ofFields? (depth : Nat) : List (Option String × Tree) → Option (List (String × Document))
  | [] => some []
  | (key, t) :: fields => do
    let key ← key
    let d ← ofTree? depth t
    let fields ← ofFields? depth fields
    return if (fields.lookup key).isSome then fields else (key, d) :: fields

end

/-- How deep lists and objects may be nested. -/
def maxDepth : Nat := 127

/-- Read a document in JSON. -/
def ofJson? (text : String) : Option Document :=
  match Json.read (Text.utf8Bytes text) with
  | (t, true) => ofTree? maxDepth t
  | (_, false) => none

end RouteSync.Document
