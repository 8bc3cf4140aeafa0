import AddressRegistry.Network.Family

/-!
# Networks

A network is an address together with a length: the number of leading bits that it fixes. The
address may carry bits beyond the length; `Network.truncate` clears them, and a network without such
bits is canonical. Containment is about the address ranges, which `Network.first` and `Network.last`
bound, so it never looks at the bits beyond the length.

Networks are ordered by family, then address, then length.
-/

namespace AddressRegistry

/-- An address of a family with a network length. -/
structure Network where
  family : Family
  address : Nat
  length : Nat
  address_lt : address < powTwo family.width
  length_le : length ≤ family.width
deriving DecidableEq

namespace Network

/-- The network with these parts, if the address and the length exist in the family. -/
def ofParts? (family : Family) (address length : Nat) : Option Network :=
  if h : address < powTwo family.width ∧ length ≤ family.width then
    some ⟨family, address, length, h.1, h.2⟩
  else
    none

/-- The number of addresses. -/
def size (n : Network) : Nat := powTwo (n.family.width - n.length)

/-- The least address. -/
def first (n : Network) : Nat := n.address - n.address % n.size

/-- The greatest address. -/
def last (n : Network) : Nat := n.first + (n.size - 1)

/-- The same network without bits beyond its length. -/
def truncate (n : Network) : Network where
  family := n.family
  address := n.first
  length := n.length
  address_lt := Nat.lt_of_le_of_lt (Nat.sub_le _ _) n.address_lt
  length_le := n.length_le

/-- A network is canonical when no bit beyond its length is set. -/
def IsCanonical (n : Network) : Prop := n.truncate = n

instance (n : Network) : Decidable n.IsCanonical := inferInstanceAs (Decidable (_ = _))

@[simp] theorem truncate_family (n : Network) : n.truncate.family = n.family := rfl

@[simp] theorem truncate_length (n : Network) : n.truncate.length = n.length := rfl

@[simp] theorem truncate_address (n : Network) : n.truncate.address = n.first := rfl

@[simp] theorem truncate_size (n : Network) : n.truncate.size = n.size := rfl

@[simp] theorem truncate_first (n : Network) : n.truncate.first = n.first := by
  have hmod : n.first % n.size = 0 := by
    rw [first, ← Nat.mul_div_self_eq_mod_sub_self]
    exact Nat.mul_mod_right _ _
  change n.first - n.first % n.size = n.first
  rw [hmod, Nat.sub_zero]

@[simp] theorem truncate_last (n : Network) : n.truncate.last = n.last := by
  rw [last, last, truncate_first, truncate_size]

/-- Truncating once is enough: what comes out is canonical. -/
theorem truncate_isCanonical (n : Network) : n.truncate.IsCanonical := by
  rw [IsCanonical, truncate]
  congr 1
  exact truncate_first n

/-- Whether every address of `inner` is one of `outer`. -/
def contains (outer inner : Network) : Bool :=
  outer.family == inner.family && outer.first ≤ inner.first && inner.last ≤ outer.last

/-! ## Order -/

/-- Compare by family, then address, then length. -/
def compareByPlace : Network → Network → Ordering :=
  compareLex (compareOn family) (compareLex (compareOn address) (compareOn length))

instance : Ord Network := ⟨compareByPlace⟩

instance : Std.TransOrd Network := inferInstanceAs (Std.TransCmp (compareLex _ (compareLex _ _)))

instance : Std.LawfulEqOrd Network where
  eq_of_compare {a b} h := by
    have h : compareByPlace a b = .eq := h
    simp only [compareByPlace, compareLex_eq_eq, compareOn] at h
    obtain ⟨hf, ha, hl⟩ := h
    have hf := Std.LawfulEqOrd.eq_of_compare hf
    have ha := Std.LawfulEqOrd.eq_of_compare ha
    have hl := Std.LawfulEqOrd.eq_of_compare hl
    cases a
    cases b
    simp_all

end Network

end AddressRegistry
