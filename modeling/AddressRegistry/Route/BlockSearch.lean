import AddressRegistry.Route.Index

/-!
# Searching a free block

A block of a given length inside a parent network is free when it overlaps no route but the parent and
the networks around the parent. Addresses are numbers below 2^128 in both families, and every sum that
could leave that space is checked.

The routes strictly inside the parent are the blockers. Sorted by their first address, one walk with a
cursor on block boundaries finds the least free block at or after a starting point, so the cost grows
with the number of routes and not with the number of blocks.
-/

namespace AddressRegistry

namespace AddressSpace

/-- One more than the greatest address number. -/
def bound : Nat := powTwo 128

/-- A sum that stays in the address space. -/
def add? (a b : Nat) : Option Nat :=
  if a + b < bound then some (a + b) else none

/-- A product that stays in the address space. -/
def mul? (a b : Nat) : Option Nat :=
  if a * b < bound then some (a * b) else none

/-- The least multiple of `size` that is at least `value`. -/
def alignUp? (value size : Nat) : Option Nat :=
  if value % size = 0 then some value else add? value (size - value % size)

end AddressSpace

/-- The addresses from the first to the last. -/
structure Interval where
  first : Nat
  last : Nat
deriving DecidableEq

namespace Interval

/-- Order by the first address, then the last. -/
def before (a b : Interval) : Bool :=
  a.first < b.first || (a.first == b.first && a.last ≤ b.last)

/-- Put an interval into its place in a sorted list. -/
def place (a : Interval) : List Interval → List Interval
  | [] => [a]
  | b :: rest => if a.before b then a :: b :: rest else b :: place a rest

/-- Sort intervals. -/
def sort (l : List Interval) : List Interval := l.foldr place []

end Interval

/-- The addresses of a network. -/
def Network.interval (n : Network) : Interval := ⟨n.first, n.last⟩

/-- The address ranges of the routes strictly inside a canonical network, sorted. -/
def RouteIndex.blockers (index : RouteIndex) (parent : Network) : List Interval :=
  Interval.sort ((index.networks.filter fun n => n != parent && parent.contains n).map Network.interval)

/-- A search for a free block. -/
structure BlockSearch where
  parent : Network
  length : Nat
  blockers : List Interval

namespace BlockSearch

/-- Prepare a search. A block must be strictly smaller than the parent, because a block of the
parent's own length would collide with the parent's route. -/
def start (index : RouteIndex) (parent : Network) (length : Nat) :
    Except RegistryError BlockSearch :=
  let parent := parent.truncate
  if length ≤ parent.length ∨ parent.family.width < length then
    .error (.invalidInput (.cannotCarve length parent))
  else
    .ok ⟨parent, length, index.blockers parent⟩

/-- The number of addresses of a block. -/
def size (s : BlockSearch) : Nat := powTwo (s.parent.family.width - s.length)

/-- Move a cursor behind every blocker that it meets, until a block fits before the next one. -/
def passBlockers (size : Nat) : (cursor : Nat) → List Interval → Option Nat
  | cursor, [] => some cursor
  | cursor, b :: rest =>
    if b.last < cursor then
      passBlockers size cursor rest
    else
      match AddressSpace.add? cursor (size - 1) with
      | none => none
      | some top =>
        if top < b.first then
          some cursor
        else
          match (AddressSpace.add? b.last 1).bind (AddressSpace.alignUp? · size) with
          | none => none
          | some cursor => passBlockers size cursor rest

/-- The first address of the least free block at or after an address. -/
def scan (s : BlockSearch) (origin : Nat) : Option Nat := do
  let cursor ← AddressSpace.alignUp? origin s.size
  let cursor ← passBlockers s.size cursor s.blockers
  let top ← AddressSpace.add? cursor (s.size - 1)
  if top ≤ s.parent.last then some cursor else none

/-- The block that starts at an address. -/
def blockAt (s : BlockSearch) (offset : Nat) : Except RegistryError Network :=
  match Network.ofParts? s.parent.family offset s.length with
  | some network => .ok network
  | none => .error (.invalidInput (.outsideFamily offset))

/-- The answer of a search from what a scan found. -/
def answer (s : BlockSearch) : Option Nat → Except RegistryError Network
  | some offset => s.blockAt offset
  | none => .error (.exhausted s.parent.text s.length)

/-- The number of the block at which a seeded search starts. -/
def slot (s : BlockSearch) (seed : Nat) : Nat :=
  let spread := s.length - s.parent.length
  if spread < 128 then seed % powTwo spread else seed

/-- The address at which a seeded search starts. -/
def origin (s : BlockSearch) (seed : Nat) : Nat :=
  ((AddressSpace.mul? (s.slot seed) s.size).bind (AddressSpace.add? s.parent.first ·)).getD
    s.parent.first

end BlockSearch

namespace RouteIndex

/-- The free block of a length with the least address inside a parent. -/
def findFree (index : RouteIndex) (parent : Network) (length : Nat) :
    Except RegistryError Network := do
  let search ← BlockSearch.start index parent length
  search.answer (search.scan search.parent.first)

/-- The first free block of a length inside a parent, from the block with number `seed` modulo the
number of blocks onwards and then from the first block. -/
def findFreeFrom (index : RouteIndex) (parent : Network) (length seed : Nat) :
    Except RegistryError Network := do
  let search ← BlockSearch.start index parent length
  search.answer ((search.scan (search.origin seed)).or (search.scan search.parent.first))

/-- Whether a candidate could be inserted inside a parent without overlapping any route but the parent
and the networks around it. -/
def isFreeWithin (index : RouteIndex) (parent candidate : Network) : Bool :=
  let parent := parent.truncate
  let candidate := candidate.truncate
  candidate != parent && parent.contains candidate
    && (index.blockers parent).all fun b => b.last < candidate.first || candidate.last < b.first

end RouteIndex

end AddressRegistry
