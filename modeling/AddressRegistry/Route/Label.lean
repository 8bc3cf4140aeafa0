import AddressRegistry.Finite.SortedMap

/-!
# Labels and selectors

Routes carry labels. A selector asks for a set of labels and matches every label set that has all of
them with the same values.
-/

namespace AddressRegistry

/-- Label values by key, in the order of the keys. -/
abbrev Labels := SortedMap String String

namespace Labels

/-- The key under which a route's address family stands. -/
def familyKey : String := "address-family"

/-- The key under which the purpose of an allocation stands. -/
def purposeKey : String := "purpose"

/-- The key that names the owning claim on routes of claims without a source tag. -/
def claimKey : String := "ipam.registry/claim"

end Labels

/-- Label values that a route must have, all of them. -/
structure Selector where
  requirements : Labels
deriving DecidableEq

namespace Selector

/-- Whether every requirement stands in the labels with the same value. -/
def matchesLabels (s : Selector) (labels : Labels) : Bool :=
  s.requirements.entries.all fun e => labels.get? e.1 == some e.2

/-- Both requirements together; where they disagree the second one stands. -/
def merge (s : Selector) (other : Labels) : Selector :=
  ⟨s.requirements.union other⟩

/-- The value asked for under a key. -/
def get? (s : Selector) (key : String) : Option String := s.requirements.get? key

/-- Whether nothing is asked for. -/
def isEmpty (s : Selector) : Bool := s.requirements.isEmpty

/-- The requirements between braces, in the order of their keys. -/
def text (s : Selector) : String :=
  "\x7b" ++ String.intercalate "," (s.requirements.entries.map fun e => e.1 ++ "=" ++ e.2) ++ "\x7d"

end Selector

end AddressRegistry
