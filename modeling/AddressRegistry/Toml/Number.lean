import AddressRegistry.Toml.Quoted

/-!
# Numbers in TOML

Whole numbers are written in decimal with an optional sign, or in hexadecimal, octal or binary
without, and fit 64 bits with sign. Underscores may stand between digits. Other numbers have a
fraction or an exponent, or are named `inf` and `nan`.
-/

namespace AddressRegistry.Toml

open Text

/-- A digit of a base up to 16. -/
def baseDigit? (base : Nat) (c : Char) : Option Nat :=
  (hexValue? c).filter (· < base)

/-- Further digits, each of which an underscore may precede. -/
def moreDigits (base : Nat) : List Char → List Nat × List Char
  | '_' :: c :: rest =>
    match baseDigit? base c with
    | some d => let (ds, left) := moreDigits base rest; (d :: ds, left)
    | none => ([], '_' :: c :: rest)
  | c :: rest =>
    match baseDigit? base c with
    | some d => let (ds, left) := moreDigits base rest; (d :: ds, left)
    | none => ([], c :: rest)
  | [] => ([], [])

/-- One or more digits of a base. -/
def digits? (base : Nat) : Scan (List Nat)
  | [] => none
  | c :: rest =>
    (baseDigit? base c).map fun d => let (ds, left) := moreDigits base rest; (d :: ds, left)

/-- An optional sign; the answer is whether it is a minus. -/
def sign : List Char → Bool × List Char
  | '+' :: rest => (false, rest)
  | '-' :: rest => (true, rest)
  | cs => (false, cs)

/-- A decimal number without sign: zero, or digits that do not start with zero. -/
def decimal? : Scan (List Nat)
  | '0' :: rest => some ([0], rest)
  | cs => digits? 10 cs

/-- A whole number that fits 64 bits with sign. -/
def inRange? (v : Int) : Option Int :=
  if -9223372036854775808 ≤ v ∧ v ≤ 9223372036854775807 then some v else none

/-- A whole number of a base. -/
def based? (base : Nat) : Scan Int := fun cs => do
  let (ds, rest) ← digits? base cs
  return (← inRange? (positional base ds), rest)

/-- A whole number. -/
def integer? : Scan Int
  | '0' :: 'x' :: rest => based? 16 rest
  | '0' :: 'o' :: rest => based? 8 rest
  | '0' :: 'b' :: rest => based? 2 rest
  | cs => do
    let (negative, rest) := sign cs
    let (ds, rest) ← decimal? rest
    let n := positional 10 ds
    return (← inRange? (if negative then -n else n), rest)

/-- A point and digits. -/
def fraction? : Scan (List Nat)
  | '.' :: rest => digits? 10 rest
  | _ => none

/-- A power of ten; the answer is its exponent. -/
def exponent? : Scan Int
  | e :: rest =>
    if e = 'e' ∨ e = 'E' then do
      let (negative, rest) := sign rest
      let (ds, rest) ← digits? 10 rest
      let n := positional 10 ds
      return (if negative then -n else n, rest)
    else
      none
  | [] => none

/-- Whether `mantissa * 10 ^ power` is too great for a number of double precision: at least halfway
from the greatest one to the next power of two. -/
def isTooGreat (digits : List Nat) (power : Int) : Bool :=
  let mantissa := positional 10 digits
  let length := (digits.dropWhile (· == 0)).length
  if mantissa == 0 || power + length < 308 then false
  else if 310 < power + length then true
  else
    let limit := Nat.pow 2 1024 - Nat.pow 2 970
    if 0 ≤ power then limit ≤ mantissa * Nat.pow 10 power.toNat
    else limit * Nat.pow 10 (-power).toNat ≤ mantissa

/-- A number with a fraction or an exponent; the answer is its text. What is too great is refused,
unless it has a minus. -/
def fractional? : Scan String := fun cs => do
  let (negative, body) := sign cs
  let (whole, rest) ← decimal? body
  let (part, power, rest) ←
    match fraction? rest with
    | some (part, rest) =>
      match exponent? rest with
      | some (power, rest) => some (part, power, rest)
      | none => some (part, 0, rest)
    | none => (exponent? rest).map fun (power, rest) => ([], power, rest)
  if !negative && isTooGreat (whole ++ part) (power - part.length) then none
  else some (String.ofList (cs.take (cs.length - rest.length)), rest)

/-- An infinite number, or what is no number, by name. -/
def namedNumber? (cs : List Char) : Option (String × List Char) :=
  match (sign cs).2 with
  | 'i' :: 'n' :: 'f' :: rest => some ("inf", rest)
  | 'n' :: 'a' :: 'n' :: rest => some ("nan", rest)
  | _ => none

end AddressRegistry.Toml
