import AddressRegistry.Toml.Number

/-!
# Dates and times in TOML

A date, a time of day, or both, the latter with an optional offset. Reading checks every part against
its range and answers the standard spelling: a capital `T` and `Z`, and a fraction of at most nine
digits without trailing zeros.
-/

namespace AddressRegistry.Toml

open Text

/-- The text of a part of a moment, and the number it writes. -/
structure Part where
  text : List Char
  value : Nat

/-- Exactly so many digits. -/
def fixedDigits? (count : Nat) : Scan Part := fun cs => do
  let text := cs.take count
  let ds ← text.mapM digitValue?
  if ds.length = count then some (⟨text, positional 10 ds⟩, cs.drop count) else none

/-- Two digits in a range. -/
def twoDigits? (least most : Nat) : Scan Part := fun cs => do
  let (part, rest) ← fixedDigits? 2 cs
  if least ≤ part.value ∧ part.value ≤ most then some (part, rest) else none

/-- A given character. -/
def mark? (c : Char) : List Char → Option (List Char)
  | x :: rest => if x = c then some rest else none
  | [] => none

/-- Whether a year has a 29th of February. -/
def isLeapYear (year : Nat) : Bool :=
  year % 4 == 0 && (year % 100 != 0 || year % 400 == 0)

/-- The number of days of a month. -/
def daysOfMonth (year month : Nat) : Nat :=
  if month = 2 then (if isLeapYear year then 29 else 28)
  else if month = 4 ∨ month = 6 ∨ month = 9 ∨ month = 11 then 30
  else 31

/-- A date. -/
def date? : Scan (List Char) := fun cs => do
  let (year, rest) ← fixedDigits? 4 cs
  let (month, rest) ← twoDigits? 1 12 (← mark? '-' rest)
  let (day, rest) ← twoDigits? 1 (daysOfMonth year.value month.value) (← mark? '-' rest)
  return (year.text ++ '-' :: month.text ++ '-' :: day.text, rest)

/-- The standard spelling of a fraction of a second. -/
def trimFraction (digits : List Char) : List Char :=
  match ((digits.take 9).reverse.dropWhile (· == '0')).reverse with
  | [] => []
  | ds => '.' :: ds

/-- A fraction of a second, if there is one. -/
def secondFraction : List Char → List Char × List Char
  | '.' :: rest =>
    match rest.takeWhile (fun c => (digitValue? c).isSome) with
    | [] => ([], '.' :: rest)
    | ds => (trimFraction ds, rest.drop ds.length)
  | cs => ([], cs)

/-- A time of day. -/
def time? : Scan (List Char) := fun cs => do
  let (hour, rest) ← twoDigits? 0 23 cs
  let (minute, rest) ← twoDigits? 0 59 (← mark? ':' rest)
  let (second, rest) ← twoDigits? 0 60 (← mark? ':' rest)
  let (fraction, rest) := secondFraction rest
  return (hour.text ++ ':' :: minute.text ++ ':' :: second.text ++ fraction, rest)

/-- An offset in hours and minutes behind its sign. -/
def offsetParts? : Scan (List Char × Nat) := fun cs => do
  let (hour, rest) ← twoDigits? 0 23 cs
  let (minute, rest) ← twoDigits? 0 59 (← mark? ':' rest)
  return ((hour.text ++ ':' :: minute.text, hour.value + minute.value), rest)

/-- An offset, if there is one. An offset of nothing is positive. -/
def offset : List Char → List Char × List Char
  | 'Z' :: rest => (['Z'], rest)
  | 'z' :: rest => (['Z'], rest)
  | '+' :: rest =>
    match offsetParts? rest with
    | some ((text, _), left) => ('+' :: text, left)
    | none => ([], '+' :: rest)
  | '-' :: rest =>
    match offsetParts? rest with
    | some ((text, total), left) => ((if total = 0 then '+' else '-') :: text, left)
    | none => ([], '-' :: rest)
  | cs => ([], cs)

/-- The time behind a date, if there is one. -/
def timeOfDate : List Char → List Char × List Char
  | c :: rest =>
    if c = 'T' ∨ c = 't' ∨ c = ' ' then
      match time? rest with
      | some (time, left) => let (zone, left) := offset left; ('T' :: time ++ zone, left)
      | none => ([], c :: rest)
    else
      ([], c :: rest)
  | [] => ([], [])

/-- A date, a date with a time, or a time. -/
def moment? : Scan String := fun cs =>
  match date? cs with
  | some (date, rest) => let (time, rest) := timeOfDate rest; some (String.ofList (date ++ time), rest)
  | none => (time? cs).map fun (time, rest) => (String.ofList time, rest)

end AddressRegistry.Toml
