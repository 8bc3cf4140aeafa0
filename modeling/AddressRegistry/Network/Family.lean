/-!
# Address families

An address belongs to one of two families, whose addresses are numbers of 32 and of 128 bits.
-/

namespace AddressRegistry

/-- Two to the power `bits`: how many numbers have so many bits. -/
def powTwo (bits : Nat) : Nat := Nat.pow 2 bits

/-- The two families of IP addresses. -/
inductive Family where
  | ipv4
  | ipv6
deriving DecidableEq, Repr, Inhabited

namespace Family

/-- Both families, in their order. -/
def all : List Family := [.ipv4, .ipv6]

/-- The name that labels, length tables and messages use. -/
def label : Family → String
  | .ipv4 => "ipv4"
  | .ipv6 => "ipv6"

/-- The number of bits of an address, which is also the greatest network length. -/
def width : Family → Nat
  | .ipv4 => 32
  | .ipv6 => 128

/-- IPv4 comes before IPv6. -/
def rank : Family → Nat
  | .ipv4 => 0
  | .ipv6 => 1

instance : Ord Family := ⟨compareOn rank⟩

instance : Std.TransOrd Family := inferInstanceAs (Std.TransCmp (compareOn rank))

instance : Std.LawfulEqOrd Family where
  eq_of_compare {a b} h := by cases a <;> cases b <;> first | rfl | exact absurd h (by decide)

/-- The family with a given name; names are exact. -/
def ofLabel? (text : String) : Option Family :=
  all.find? fun f => f.label == text

end Family

end AddressRegistry
