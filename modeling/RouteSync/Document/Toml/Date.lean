import RouteSync.Packet.Timestamp

/-!
# Dates and times of TOML

A document of settings has no values for dates and times; they become text in one fixed form.  The
form differs from what was written only in the case of letters, in the sign between date and time
and in zeros at the end of a fraction.
-/

namespace RouteSync.Document.Toml

open Timestamp (padded)

/-- A number of exactly so many digits. -/
def fixed? (count : Nat) (cs : List Char) : Option (Nat × List Char) :=
  let digits := cs.take count
  if digits.length = count ∧ digits.all Char.isDigit then
    some (digits.foldl (fun n c => n * 10 + (c.toNat - '0'.toNat)) 0, cs.drop count)
  else none

/-- What follows a character that has to be there. -/
def after? (c : Char) : List Char → Option (List Char)
  | d :: rest => if d = c then some rest else none
  | [] => none

/-- A date. -/
def date? (cs : List Char) : Option (String × List Char) := do
  let (year, cs) ← fixed? 4 cs
  let (month, cs) ← fixed? 2 (← after? '-' cs)
  let (day, cs) ← fixed? 2 (← after? '-' cs)
  if 1 ≤ month ∧ month ≤ 12 ∧ 1 ≤ day ∧ day ≤ 31 then
    some (padded 4 year ++ "-" ++ padded 2 month ++ "-" ++ padded 2 day, cs)
  else none

/-- A fraction of a second, of which nine digits count. -/
def fraction? (cs : List Char) : Option (String × List Char) :=
  match cs.span Char.isDigit with
  | ([], _) => none
  | (digits, rest) =>
    match ((digits.take 9).reverse.dropWhile (· == '0')).reverse with
    | [] => some ("", rest)
    | shown => some (String.ofList ('.' :: shown), rest)

/-- A time of day. -/
def time? (cs : List Char) : Option (String × List Char) := do
  let (hour, cs) ← fixed? 2 cs
  let (minute, cs) ← fixed? 2 (← after? ':' cs)
  let (second, cs) ← fixed? 2 (← after? ':' cs)
  let (fraction, cs) ←
    match cs with
    | '.' :: rest => fraction? rest
    | cs => some ("", cs)
  if hour ≤ 24 ∧ minute ≤ 59 ∧ second ≤ 59 then
    some (padded 2 hour ++ ":" ++ padded 2 minute ++ ":" ++ padded 2 second ++ fraction, cs)
  else none

/-- The distance from the meridian.  A distance of no hours has no sign of its own. -/
def offset? : List Char → Option String
  | [] => some ""
  | ['Z'] => some "Z"
  | ['z'] => some "Z"
  | sign :: cs => do
    let negative ← if sign = '-' then some true else if sign = '+' then some false else none
    let (hours, cs) ← fixed? 2 cs
    let (minutes, cs) ← fixed? 2 (← after? ':' cs)
    if cs.isEmpty then
      let shown := if negative ∧ hours ≠ 0 then "-" else "+"
      some (shown ++ padded 2 hours ++ ":" ++ padded 2 minutes)
    else none

/-- The signs that may stand between a date and a time. -/
def isDateSeparator (c : Char) : Bool :=
  c == 'T' || c == 't' || c == ' '

/-- The fixed form of a date, a time or both.  Only a date with a time may have a distance from the
meridian. -/
def moment? (cs : List Char) : Option String :=
  if cs[2]? = some ':' then do
    let (time, rest) ← time? cs
    if rest.isEmpty then some time else none
  else do
    let (date, rest) ← date? cs
    match rest with
    | c :: tail =>
      if isDateSeparator c then do
        let (time, rest) ← time? tail
        return date ++ "T" ++ time ++ (← offset? rest)
      else none
    | [] => return date

end RouteSync.Document.Toml
