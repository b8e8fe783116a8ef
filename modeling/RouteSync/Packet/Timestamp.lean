/-!
# Points in time

A timestamp counts nanoseconds from the start of 1970.  It is shown as a calendar date of the
Gregorian calendar, extended to all years, and a time of day at the meridian.
-/

namespace RouteSync

/-- Nanoseconds since the start of 1970. -/
structure Timestamp where
  nanos : Int
  deriving DecidableEq

namespace Timestamp

/-- The start of 1970. -/
def origin : Timestamp := ⟨0⟩

/-- A number of milliseconds later, or earlier if the number is negative. -/
def addMillis (t : Timestamp) (ms : Int) : Timestamp :=
  ⟨t.nanos + ms * 1000000⟩

/-- The later of two points in time. -/
def later (s t : Timestamp) : Timestamp :=
  ⟨max s.nanos t.nanos⟩

instance : LT Timestamp where
  lt s t := s.nanos < t.nanos

instance (s t : Timestamp) : Decidable (s < t) :=
  inferInstanceAs (Decidable (s.nanos < t.nanos))

/-- Year, month and day for a number of days since the start of 1970.  Years are taken to begin in
March, so that the leap day is a year's last; an era is four hundred of them. -/
def civilDate (days : Int) : Int × Nat × Nat :=
  let z := days + 719468
  let era := z.fdiv 146097
  let dayOfEra := (z - era * 146097).toNat
  let yearOfEra := (dayOfEra - dayOfEra / 1460 + dayOfEra / 36524 - dayOfEra / 146096) / 365
  let dayOfYear := dayOfEra - (365 * yearOfEra + yearOfEra / 4 - yearOfEra / 100)
  let m := (5 * dayOfYear + 2) / 153
  let day := dayOfYear - (153 * m + 2) / 5 + 1
  let month := if m < 10 then m + 3 else m - 9
  (yearOfEra + era * 400 + (if month ≤ 2 then 1 else 0), month, day)

/-- A number with zeros in front up to the given width. -/
def padded (width n : Nat) : String :=
  let digits := toString n
  String.ofList (List.replicate (width - digits.length) '0') ++ digits

/-- Four digits for the years 0 to 9999; all other years have a sign. -/
def yearText (y : Int) : String :=
  if y < 0 then "-" ++ padded 4 y.natAbs
  else if y ≤ 9999 then padded 4 y.toNat
  else "+" ++ toString y.toNat

/-- A fraction of a second in nanoseconds: the fewest of 0, 3, 6 or 9 digits that are exact. -/
def fractionText (nanos : Nat) : String :=
  if nanos = 0 then ""
  else if nanos % 1000000 = 0 then "." ++ padded 3 (nanos / 1000000)
  else if nanos % 1000 = 0 then "." ++ padded 6 (nanos / 1000)
  else "." ++ padded 9 nanos

/-- The date and time of day, with the offset of the meridian at the end. -/
def text (t : Timestamp) : String :=
  let secs := t.nanos.fdiv 1000000000
  let nanos := (t.nanos - secs * 1000000000).toNat
  let days := secs.fdiv 86400
  let second := (secs - days * 86400).toNat
  let (y, m, d) := civilDate days
  yearText y ++ "-" ++ padded 2 m ++ "-" ++ padded 2 d ++ "T" ++
    padded 2 (second / 3600) ++ ":" ++ padded 2 (second / 60 % 60) ++ ":" ++
    padded 2 (second % 60) ++ fractionText nanos ++ "+00:00"

end Timestamp

end RouteSync
