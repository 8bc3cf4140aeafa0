import AddressRegistry.Network.Basic

/-!
# Reading networks

The text of a network is an address, a slash and a length, with nothing around them.

* An IPv4 address is four decimal numbers below 256, of one to three digits, with dots between.
* An IPv6 address is eight groups of one to four hexadecimal digits with colons between. One `::` may
  stand for the groups that are missing, none included, and the last two groups may be written as an
  IPv4 address, except behind seven groups that need no `::`.
* A length is a decimal number that the family allows, of at most two digits for IPv4 and three for
  IPv6.

Every reader takes the rest of the text and answers the value with what is left.
-/

namespace AddressRegistry.Network.Syntax

/-- The value of a digit in a base of at most sixteen. -/
def digit? (base : Nat) (c : Char) : Option Nat :=
  let value :=
    if '0' ≤ c ∧ c ≤ '9' then some (c.toNat - '0'.toNat)
    else if 'a' ≤ c ∧ c ≤ 'f' then some (c.toNat - 'a'.toNat + 10)
    else if 'A' ≤ c ∧ c ≤ 'F' then some (c.toNat - 'A'.toNat + 10)
    else none
  value.filter (· < base)

/-- The number that a list of digits writes. -/
def numberOf (base : Nat) (digits : List Char) : Nat :=
  digits.foldl (fun n c => n * base + (digit? base c).getD 0) 0

/-- A number of one to `most` digits below `bound`. All digits that stand together belong to it. -/
def readNumber (base most bound : Nat) (cs : List Char) : Option (Nat × List Char) :=
  let digits := cs.takeWhile fun c => (digit? base c).isSome
  let value := numberOf base digits
  if 0 < digits.length ∧ digits.length ≤ most ∧ value < bound then
    some (value, cs.drop digits.length)
  else
    none

/-- One given character. -/
def readChar (c : Char) : List Char → Option (List Char)
  | [] => none
  | d :: rest => if d = c then some rest else none

/-- An IPv4 address, as a number. -/
def readIPv4 (cs : List Char) : Option (Nat × List Char) := do
  let (a, cs) ← readNumber 10 3 256 cs
  let cs ← readChar '.' cs
  let (b, cs) ← readNumber 10 3 256 cs
  let cs ← readChar '.' cs
  let (c, cs) ← readNumber 10 3 256 cs
  let cs ← readChar '.' cs
  let (d, cs) ← readNumber 10 3 256 cs
  some (((a * 256 + b) * 256 + c) * 256 + d, cs)

/-- A run of groups, as many as there is `room` for; every group but one at the `start` follows a
colon. Where two groups fit, an IPv4 address may stand for them, and it ends the run. The second
component tells whether it did. -/
def readGroups : (room : Nat) → (start : Bool) → List Char → List Nat × Bool × List Char
  | 0, _, cs => ([], false, cs)
  | room + 1, start, cs =>
    let lead := if start then some cs else readChar ':' cs
    match if 0 < room then lead.bind readIPv4 else none with
    | some (v, rest) => ([v / 65536, v % 65536], true, rest)
    | none =>
      match lead.bind (readNumber 16 4 65536) with
      | none => ([], false, cs)
      | some (g, rest) =>
        let (groups, dotted, rest) := readGroups room false rest
        (g :: groups, dotted, rest)

/-- The address with the given groups. -/
def joinGroups (groups : List Nat) : Nat :=
  groups.foldl (fun n g => n * 65536 + g) 0

/-- An IPv6 address, as a number. -/
def readIPv6 (cs : List Char) : Option (Nat × List Char) :=
  let (head, dotted, rest) := readGroups 8 true cs
  if head.length = 8 then
    some (joinGroups head, rest)
  else if dotted then
    none
  else do
    let rest ← readChar ':' rest
    let rest ← readChar ':' rest
    let (tail, _, rest) := readGroups (8 - head.length) true rest
    some (joinGroups (head ++ List.replicate (8 - head.length - tail.length) 0 ++ tail), rest)

/-- A slash and a length of at most `most` digits for a family. -/
def readLength (family : Family) (most : Nat) (cs : List Char) : Option (Nat × List Char) := do
  let cs ← readChar '/' cs
  readNumber 10 most (family.width + 1) cs

/-- A network of one family, given how its addresses are read. -/
def readNetwork (family : Family) (readAddress : List Char → Option (Nat × List Char)) (most : Nat)
    (cs : List Char) : Option (Network × List Char) := do
  let (address, cs) ← readAddress cs
  let (length, cs) ← readLength family most cs
  let network ← ofParts? family address length
  some (network, cs)

end Syntax

/-- The network that a text writes, all of it read. -/
def ofChars? (cs : List Char) : Option Network :=
  match (Syntax.readNetwork .ipv4 Syntax.readIPv4 2 cs).or
      (Syntax.readNetwork .ipv6 Syntax.readIPv6 3 cs) with
  | some (network, []) => some network
  | _ => none

/-- The network that a text writes, without anything around it. -/
def ofText? (text : String) : Option Network :=
  ofChars? text.toList

end AddressRegistry.Network
