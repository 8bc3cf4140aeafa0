import AddressRegistry.Allocation.Registration
import AddressRegistry.Route.BlockSearch

/-!
# Registering networks in an index

An explicit registration inserts the network it names. A dynamic one answers the block that the claim
owns already, restores the one it held before when that is still free, and otherwise carves a block out
of the first pool that has room. Every operation may be repeated: a route that is present on insertion
or absent on removal is no failure.
-/

namespace AddressRegistry

namespace RouteIndex

/-- The routes whose labels are exactly the given ones. Matching alone is not ownership: declared pools
and claims with a wider tag match too. -/
def owned (index : RouteIndex) (labels : Selector) : List Route :=
  (index.query labels).filter fun r => r.labels == labels.requirements

/-- The one route whose labels are exactly the given ones. -/
def ownedRoute? (index : RouteIndex) (labels : Selector) : Option Route :=
  Route.pickUnique (index.owned labels)

/-- Put a network into its place in a list sorted by the networks' texts. -/
def placeByText (n : Network) : List Network → List Network
  | [] => [n]
  | m :: rest => if n.text ≤ m.text then n :: m :: rest else m :: placeByText n rest

/-- The networks of routes that are wider than a length, in the order of their texts. Allocated blocks
are never wider than the length asked for and drop out. -/
def poolsFor (matching : List Route) (length : Nat) : List Network :=
  ((matching.map (·.network)).filter fun n => n.length < length).foldr placeByText []

/-- A block out of the first pool that has room. When none has, the failure of the last one is
reported. -/
def carve (index : RouteIndex) (strategy : Strategy) (length : Nat) (r : Registration) :
    List Network → Except RegistryError Network
  | [] => .error (.noAvailableRoute r.selector.text)
  | [pool] => strategy.allocate index pool length r.identity
  | pool :: rest =>
    match strategy.allocate index pool length r.identity with
    | .ok network => .ok network
    | .error e => if e.isExhausted then carve index strategy length r rest else .error e

/-- Whether a network could be given back to a claim that asks for a length. -/
def canRestore (index : RouteIndex) (pools : List Network) (length : Nat) (network : Network) : Bool :=
  network.length == length && pools.any fun pool => index.isFreeWithin pool network

/-- Register a given network. -/
def registerExplicit (index : RouteIndex) (r : Registration) (raw : String) :
    Except RegistryError (Network × RouteIndex) := do
  let network ← Network.parse raw
  let index ← tolerateConflict index (index.add network r.combined.requirements)
  return (network, index)

/-- Register a block of the length that the scope gives for the purpose and family. -/
def registerDynamic (index : RouteIndex) (scope : ObjectKey) (spec : ScopeSpec) (r : Registration) :
    Except RegistryError (Network × RouteIndex) := do
  let purpose ← r.purpose
  let family ← r.family
  let persisted ← r.persistedNetwork
  let matching := index.query r.selector
  if matching.isEmpty then
    throw (.noAvailableRoute r.selector.text)
  match spec.lengthFor purpose family with
  | none => throw (.missingConfiguration (.noDefaultLength scope purpose family))
  | some length =>
    match Route.pickUnique ((index.owned r.combined).filter fun o => o.network.length == length) with
    | some route => return (route.network, index)
    | none =>
      let pools := poolsFor matching length
      if pools.isEmpty then
        throw (.noAvailableRoute r.selector.text)
      let network ←
        match persisted.filter (index.canRestore pools length) with
        | some restored => pure restored
        | none => index.carve spec.strategy length r pools
      let index ← index.add network r.combined.requirements
      return (network, index)

/-- Register a network for a claim of a scope. -/
def register (index : RouteIndex) (scope : ObjectKey) (spec : ScopeSpec) (r : Registration) :
    Except RegistryError (Network × RouteIndex) :=
  match r.network with
  | some raw => index.registerExplicit r raw
  | none => index.registerDynamic scope spec r

/-- Release a network, if it is there. -/
def release (index : RouteIndex) (network : Network) : Except RegistryError RouteIndex :=
  tolerateNotFound index ((index.delete network).map (·.2))

/-- Insert a declared network, unless it is there. -/
def declare (index : RouteIndex) (network : Network) (labels : Labels) :
    Except RegistryError RouteIndex :=
  tolerateConflict index (index.add network labels)

end RouteIndex

end AddressRegistry
