/-!
# Reading from the front of a text

A reader of a part of a text answers what it read and the rest of the text, or nothing when the text
does not start with such a part. Digits and numbers, which several formats share, stand here.
-/

namespace AddressRegistry.Text

/-- A reader of the start of a text. -/
abbrev Scan (α : Type) := List Char → Option (α × List Char)

/-- Put a character in front of the text that a reader answers. -/
def prepend (c : Char) : Option (List Char × List Char) → Option (List Char × List Char) :=
  Option.map fun (text, rest) => (c :: text, rest)

/-- The value of a decimal digit. -/
def digitValue? (c : Char) : Option Nat :=
  if '0' ≤ c ∧ c ≤ '9' then some (c.toNat - '0'.toNat) else none

/-- The value of a hexadecimal digit. -/
def hexValue? (c : Char) : Option Nat :=
  if '0' ≤ c ∧ c ≤ '9' then some (c.toNat - '0'.toNat)
  else if 'a' ≤ c ∧ c ≤ 'f' then some (c.toNat - 'a'.toNat + 10)
  else if 'A' ≤ c ∧ c ≤ 'F' then some (c.toNat - 'A'.toNat + 10)
  else none

/-- The number that digits write, each worth `base` times the next. -/
def positional (base : Nat) (digits : List Nat) : Nat :=
  digits.foldl (fun n d => n * base + d) 0

end AddressRegistry.Text
