import AddressRegistry.Allocation.Register
import AddressRegistry.Store.Access

/-!
# The indexes of all scopes

Each scope has a route index of its own from its first ready pass until it is finalized. An operation
names its scope, looks the scope up again in the object store, and touches no other index. Without an
index the scope counts as not ready.
-/

namespace AddressRegistry

/-- The route indexes by scope. -/
abbrev ScopeIndexes := SortedMap ObjectKey RouteIndex

/-- The routes inside and around a declared network. -/
structure Usage where
  children : List String
  parents : List String
deriving DecidableEq

namespace ScopeIndexes

/-- The index of a scope, which has to exist. -/
def find (indexes : ScopeIndexes) (scope : ObjectKey) : Except RegistryError RouteIndex :=
  match indexes.get? scope with
  | some index => .ok index
  | none => .error (.notReady (.indexMissing scope))

/-- Change the index of a scope. -/
def modify {α : Type} (indexes : ScopeIndexes) (scope : ObjectKey)
    (f : RouteIndex → Except RegistryError (α × RouteIndex)) :
    Except RegistryError (α × ScopeIndexes) := do
  let index ← indexes.find scope
  let (answer, changed) ← f index
  return (answer, indexes.insert scope changed)

/-- Give a scope an empty index unless it has one. -/
def ensure (indexes : ScopeIndexes) (scope : ObjectKey) : ScopeIndexes :=
  if indexes.contains scope then indexes else indexes.insert scope .empty

/-- The number of routes of all scopes. -/
def routeCount (indexes : ScopeIndexes) : Nat :=
  indexes.values.foldl (fun n index => n + index.size) 0

/-! ## The scope of an operation -/

/-- The scope with a key, which has to be stored, ready and to have an index. -/
def readyScope (indexes : ScopeIndexes) (access : Access) (key : ObjectKey) :
    Except Failure Scope := do
  let _ ← Failure.lift (ResourceName.parse .scope key.name)
  match ← access.fetchScope key with
  | none => throw (.refused (.notReady (.scopeNotFound key)))
  | some scope =>
    if !scope.status.condition.ready then
      throw (.refused (.notReady (.scopeNotReady key)))
    if !indexes.contains key then
      throw (.refused (.notReady (.indexMissing key)))
    return scope

/-! ## Claims -/

/-- Create or find the network of a registration. -/
def register (indexes : ScopeIndexes) (access : Access) (r : Registration) :
    Except Failure (Network × ScopeIndexes) := do
  let scope ← indexes.readyScope access r.scopeKey
  Failure.lift (indexes.modify r.scopeKey fun index => index.register r.scopeKey scope.spec r)

/-- Release the network that a registration held before. -/
def deregister (indexes : ScopeIndexes) (access : Access) (r : Registration) :
    Except Failure ScopeIndexes := do
  let _ ← indexes.readyScope access r.scopeKey
  match ← Failure.lift r.persistedNetwork with
  | none => return indexes
  | some network =>
    let (_, changed) ← Failure.lift (indexes.modify r.scopeKey fun index =>
      (index.release network).map fun index => ((), index))
    return changed

/-- The network that a registration's route has, found by its labels. -/
def lookup (indexes : ScopeIndexes) (r : Registration) : Except RegistryError (Option Network) := do
  let index ← indexes.find r.scopeKey
  return (index.ownedRoute? r.combined).map (·.network)

/-! ## Pools -/

/-- Declare a pool's network in the index of its scope. The pool's status shows the labels of the
declaration as soon as the network can be read, even when the scope has no index. -/
def declare (indexes : ScopeIndexes) (scope : ObjectKey) (pool : Pool) :
    Pool × Except RegistryError (Network × ScopeIndexes) :=
  match Network.parse pool.spec.network with
  | .error e => (pool, .error e)
  | .ok network =>
    let labels := declarationLabels pool.spec.labels network
    ({ pool with status := { pool.status with labels } },
      indexes.modify scope fun index => (index.declare network labels).map fun index => (network, index))

/-- Remove a declared network from the index of a scope. Nothing to remove is no failure. -/
def retract (indexes : ScopeIndexes) (scope : ObjectKey) (raw : String) :
    Except RegistryError ScopeIndexes := do
  let network ← Network.parse raw
  match indexes.get? scope with
  | none => return indexes
  | some index => return indexes.insert scope (← index.release network)

/-- The routes inside and around a network of a scope. -/
def usage (indexes : ScopeIndexes) (scope : ObjectKey) (network : Network) :
    Except RegistryError Usage := do
  let index ← indexes.find scope
  return ⟨(index.children network).map (·.network.text), (index.parents network).map (·.network.text)⟩

end ScopeIndexes

end AddressRegistry
