import AddressRegistry.Hash.XXHash64
import AddressRegistry.Route.BlockSearch

/-!
# Placement strategies

A scope places a dynamic claim either in the lowest free block or in the first free block from a place
that a hash of the claim's identity decides.
-/

namespace AddressRegistry

/-- How a scope picks a free block. -/
inductive Strategy where
  /-- The block with the least address. -/
  | firstAvailable
  /-- The first free block from the one that the claim's hash selects, round to the parent's start. -/
  | deterministic
deriving DecidableEq, Repr, Inhabited

/-- The stable number derived from a claim's identity: the hash of its UTF-8 bytes under seed 0. -/
def placementSeed (identity : String) : Nat :=
  (XXHash64.hash 0 identity.toUTF8.toList).toNat

namespace Strategy

/-- Every strategy. -/
def all : List Strategy := [.firstAvailable, .deterministic]

/-- The name of a strategy in documents. -/
def label : Strategy → String
  | .firstAvailable => "first-available"
  | .deterministic => "deterministic"

/-- The strategy with a given name; names are exact. -/
def ofLabel? (text : String) : Option Strategy :=
  all.find? fun s => s.label == text

/-- Pick a free block of a length inside a parent for the claim with an identity. -/
def allocate (strategy : Strategy) (index : RouteIndex) (parent : Network) (length : Nat)
    (identity : String) : Except RegistryError Network :=
  match strategy with
  | .firstAvailable => index.findFree parent length
  | .deterministic => index.findFreeFrom parent length (placementSeed identity)

end Strategy

end AddressRegistry
