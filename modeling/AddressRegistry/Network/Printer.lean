import AddressRegistry.Network.Basic

/-!
# Writing networks

An IPv4 address is written as four decimal numbers. An IPv6 address is written in the recommended
form: groups of lower-case hexadecimal digits without leading zeros, the first of the longest runs of
two or more zero groups as `::`, and the addresses that embed an IPv4 address behind `::ffff` with
that address in dotted form. The length always follows.
-/

namespace AddressRegistry.Network.Printer

/-- Decimal digits. -/
def decimal (n : Nat) : List Char := Nat.toDigits 10 n

/-- Lower-case hexadecimal digits. -/
def hexadecimal (n : Nat) : List Char := Nat.toDigits 16 n

/-- Texts with a separator between them. -/
def joinWith (separator : Char) : List (List Char) → List Char
  | [] => []
  | [text] => text
  | text :: rest => text ++ separator :: joinWith separator rest

/-- The bytes of an IPv4 address, most significant first. -/
def octets (address : Nat) : List Nat :=
  [address / 16777216 % 256, address / 65536 % 256, address / 256 % 256, address % 256]

/-- An IPv4 address. -/
def dotted (address : Nat) : List Char :=
  joinWith '.' ((octets address).map decimal)

/-- The groups of an IPv6 address, most significant first. -/
def groups (address : Nat) : List Nat :=
  [7, 6, 5, 4, 3, 2, 1, 0].map fun i => address / powTwo (16 * i) % 65536

/-- Groups with colons between. -/
def colons (gs : List Nat) : List Char :=
  joinWith ':' (gs.map hexadecimal)

/-- Where the first of the longest runs of zero groups starts, and its length. -/
def longestZeroRun : List Nat → Nat × Nat
  | [] => (0, 0)
  | g :: gs =>
    let here := ((g :: gs).takeWhile (· == 0)).length
    let (start, length) := longestZeroRun gs
    if length ≤ here then (0, here) else (start + 1, length)

/-- An IPv6 address by its groups, with `::` for the longest run of zero groups if it has two or
more. -/
def compressed (gs : List Nat) : List Char :=
  let (start, length) := longestZeroRun gs
  if 1 < length then
    colons (gs.take start) ++ [':', ':'] ++ colons (gs.drop (start + length))
  else
    colons gs

/-- An IPv6 address. -/
def colonForm (address : Nat) : List Char :=
  if address / 4294967296 = 65535 then
    "::ffff:".toList ++ dotted (address % 4294967296)
  else
    compressed (groups address)

end Printer

/-- The text of a network. -/
def toChars (n : Network) : List Char :=
  let address := match n.family with
    | .ipv4 => Printer.dotted n.address
    | .ipv6 => Printer.colonForm n.address
  address ++ '/' :: Printer.decimal n.length

/-- The text of a network. -/
def text (n : Network) : String := String.ofList n.toChars

instance : ToString Network := ⟨text⟩

end AddressRegistry.Network
