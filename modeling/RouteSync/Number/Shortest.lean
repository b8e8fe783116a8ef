import RouteSync.Number.Binary64

/-!
# The shortest decimal text of a floating-point number

A number is written with as few digits as tell it apart from its neighbours, and among the texts
with that many digits the nearest one is taken.  A decimal tells a number apart if it lies in the
interval of the reals that round to the number; the ends belong to the interval when the mantissa is
even.
-/

namespace RouteSync.Binary64

/-- Twice a number and the ends of twice its interval, over a common denominator. -/
structure Interval where
  low : Nat
  value : Nat
  high : Nat
  den : Nat
  closed : Bool

/-- The reals that round to a number.  Below a power of two the neighbour is nearer. -/
def interval (mantissa : Nat) (exponent : Int) : Interval :=
  let near := mantissa = mantissaLimit / 2 ∧ leastExponent < exponent
  let (unit, den) := fraction 1 (exponent - 2)
  { low := (4 * mantissa - (if near then 1 else 2)) * unit
    value := 4 * mantissa * unit
    high := (4 * mantissa + 2) * unit
    den := den
    closed := mantissa % 2 = 0 }

namespace Interval

/-- The point of the grid of a power of ten with the given number, over the denominator of the
interval: `point * 10 ^ scale * den` against `value`, both sides made whole. -/
def sides (i : Interval) (scale : Int) (point : Nat) (bound : Nat) : Nat × Nat :=
  if 0 ≤ scale then (point * Nat.pow 10 scale.toNat * i.den, bound)
  else (point * i.den, bound * Nat.pow 10 (-scale).toNat)

/-- Whether a point of a grid lies in the interval. -/
def contains (i : Interval) (scale : Int) (point : Nat) : Bool :=
  let (p, low) := i.sides scale point i.low
  let (q, high) := i.sides scale point i.high
  if i.closed then decide (low ≤ p) && decide (q ≤ high) else decide (low < p) && decide (q < high)

/-- The greatest point of a grid that is not above the value. -/
def floorPoint (i : Interval) (scale : Int) : Nat :=
  let (unit, value) := i.sides scale 1 i.value
  value / unit

/-- Whether the point after `point` is at least as near to the value. -/
def nextIsNearer (i : Interval) (scale : Int) (point : Nat) : Bool :=
  let (p, value) := i.sides scale point i.value
  let (q, _) := i.sides scale (point + 1) i.value
  decide (q - value ≤ value - p)

/-- The point of a grid that lies in the interval and is nearest to the value. -/
def pointOn (i : Interval) (scale : Int) : Option Nat :=
  let point := i.floorPoint scale
  match i.contains scale point, i.contains scale (point + 1) with
  | true, true => some (if i.nextIsNearer scale point then point + 1 else point)
  | true, false => some point
  | false, true => some (point + 1)
  | false, false => none

/-- The power of ten of the first digit of the value. -/
def magnitude (i : Interval) : Int :=
  (digitCount (i.value * Nat.pow 10 400 / i.den) : Int) - 401

/-- The first of several ever finer grids with a point in the interval, and that point. -/
def firstPoint (i : Interval) : Nat → Int → Nat × Int
  | 0, scale => (i.floorPoint scale, scale)
  | tries + 1, scale =>
    match i.pointOn scale with
    | some point => (point, scale)
    | none => firstPoint i tries (scale - 1)

end Interval

/-- The digits of a positive number, as a whole number and the power of ten that it is multiplied
with. -/
def shortest (mantissa : Nat) (exponent : Int) : Nat × Int :=
  let i := interval mantissa exponent
  i.firstPoint 17 i.magnitude

/-- Digits with a point, and no more of them than needed. -/
def positional (digits : Nat) (scale : Int) : List Char :=
  if 0 ≤ scale then Nat.toDigits 10 (digits * Nat.pow 10 scale.toNat)
  else
    let places := (-scale).toNat
    let whole := Nat.toDigits 10 (digits / Nat.pow 10 places)
    let rest := Nat.toDigits 10 (digits % Nat.pow 10 places)
    let padded := List.replicate (places - rest.length) '0' ++ rest
    match (padded.reverse.dropWhile (· == '0')).reverse with
    | [] => whole
    | places => whole ++ '.' :: places

/-- The text of a number, never with an exponent. -/
def text : Binary64 → String
  | .nan => "NaN"
  | .infinite negative => if negative then "-inf" else "inf"
  | .finite negative mantissa exponent =>
    let digits :=
      if mantissa = 0 then ['0']
      else
        let (digits, scale) := shortest mantissa exponent
        positional digits scale
    String.ofList (if negative then '-' :: digits else digits)

end RouteSync.Binary64
