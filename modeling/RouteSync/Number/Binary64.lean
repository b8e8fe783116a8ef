/-!
# Floating-point numbers of sixty-four bits

A finite number is a mantissa of at most fifty-three bits times a power of two; the mantissa has all
fifty-three bits unless the power is the least one.  Fractions are rounded to the nearest such
number, and of two that are equally near to the one with the even mantissa.
-/

namespace RouteSync

/-- A floating-point number. -/
inductive Binary64 where
  | finite (negative : Bool) (mantissa : Nat) (exponent : Int)
  | infinite (negative : Bool)
  | nan
  deriving DecidableEq, Repr

/-- The natural number nearest to a fraction; a half goes to the even neighbour. -/
def roundEven (num den : Nat) : Nat :=
  let whole := num / den
  let rest := num % den
  if 2 * rest < den then whole
  else if 2 * rest = den then whole + whole % 2
  else whole + 1

namespace Binary64

/-- The least exponent, where mantissas may be short. -/
def leastExponent : Int := -1074

/-- The greatest exponent. -/
def greatestExponent : Int := 971

/-- What mantissas stay below: they have fifty-three bits. -/
def mantissaLimit : Nat := 9007199254740992

def zero (negative : Bool) : Binary64 :=
  .finite negative 0 leastExponent

/-- A positive fraction divided by a power of two, as a fraction. -/
def scaledDown (num den : Nat) (exponent : Int) : Nat × Nat :=
  if 0 ≤ exponent then (num, den * Nat.pow 2 exponent.toNat)
  else (num * Nat.pow 2 (-exponent).toNat, den)

/-- The exponent of the greatest power of two that is not above a positive fraction. -/
def binaryMagnitude (num den : Nat) : Int :=
  let guess := (num.log2 : Int) - den.log2
  let (n, d) := scaledDown num den guess
  if d ≤ n then guess else guess - 1

/-- A number with the given sign, mantissa and exponent, where the mantissa may just have become too
long by rounding. -/
def pack (negative : Bool) (mantissa : Nat) (exponent : Int) : Binary64 :=
  let (mantissa, exponent) :=
    if mantissa = mantissaLimit then (mantissaLimit / 2, exponent + 1) else (mantissa, exponent)
  if greatestExponent < exponent then .infinite negative else .finite negative mantissa exponent

/-- The number nearest to a fraction whose denominator is positive. -/
def ofFraction (negative : Bool) (num den : Nat) : Binary64 :=
  if num = 0 then zero negative
  else
    let exponent := max leastExponent (binaryMagnitude num den - 52)
    let (n, d) := scaledDown num den exponent
    pack negative (roundEven n d) exponent

/-- How many decimal digits a natural number has. -/
def digitCount (n : Nat) : Nat :=
  (Nat.toDigits 10 n).length

/-- The number nearest to a whole number times a power of ten.  Powers far out of range are not
worked out. -/
def ofDecimal (negative : Bool) (mantissa : Nat) (scale : Int) : Binary64 :=
  if mantissa = 0 then zero negative
  else
    let magnitude := (digitCount mantissa : Int) + scale
    if 310 < magnitude then .infinite negative
    else if magnitude < -330 then zero negative
    else if 0 ≤ scale then ofFraction negative (mantissa * Nat.pow 10 scale.toNat) 1
    else ofFraction negative mantissa (Nat.pow 10 (-scale).toNat)

/-- A finite number without its sign, as a fraction. -/
def fraction (mantissa : Nat) (exponent : Int) : Nat × Nat :=
  if 0 ≤ exponent then (mantissa * Nat.pow 2 exponent.toNat, 1)
  else (mantissa, Nat.pow 2 (-exponent).toNat)

/-- The rounded product of two positive numbers. -/
def mul : Binary64 → Binary64 → Binary64
  | .finite _ m e, .finite _ n f =>
    let (a, b) := fraction m e
    let (c, d) := fraction n f
    ofFraction false (a * c) (b * d)
  | _, _ => .nan

/-- The rounded quotient of a positive number and one that is not zero. -/
def div : Binary64 → Binary64 → Binary64
  | .finite _ m e, .finite _ n f =>
    let (a, b) := fraction m e
    let (c, d) := fraction n f
    ofFraction false (a * d) (b * c)
  | _, _ => .nan

def neg : Binary64 → Binary64
  | .finite s m e => .finite (!s) m e
  | .infinite s => .infinite (!s)
  | .nan => .nan

/-- Either zero. -/
def isZero : Binary64 → Bool
  | .finite _ 0 _ => true
  | _ => false

/-- Neither infinite nor undefined. -/
def isFinite : Binary64 → Bool
  | .finite _ _ _ => true
  | _ => false

/-- The least and the greatest whole number of sixty-four bits with a sign. -/
def leastWhole : Int := -9223372036854775808
def greatestWhole : Int := 9223372036854775807

/-- The nearest whole number of sixty-four bits, a half going away from zero. -/
def toWhole : Binary64 → Int
  | .nan => 0
  | .infinite true => leastWhole
  | .infinite false => greatestWhole
  | .finite negative m e =>
    let (n, d) := fraction m e
    let magnitude : Int := ((2 * n + d) / (2 * d) : Nat)
    max leastWhole (min greatestWhole (if negative then -magnitude else magnitude))

end Binary64

end RouteSync
