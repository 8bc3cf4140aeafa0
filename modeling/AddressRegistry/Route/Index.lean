import AddressRegistry.Error
import AddressRegistry.Route.Label

/-!
# The route index of a scope

A route is a canonical network with its labels. The index of a scope is a finite map from networks to
labels. Which route lies inside which is never stored: it follows from the networks.

Every operation clears the bits beyond a network's length first, so all spellings of a network address
the same route. That only canonical networks have routes is part of the type.
-/

namespace AddressRegistry

/-- A network of a scope with its labels. -/
structure Route where
  network : Network
  labels : Labels
deriving DecidableEq

/-- The routes of one scope. -/
structure RouteIndex where
  routes : SortedMap Network Labels
  canonical : ∀ n ∈ routes.keys, n.IsCanonical
deriving DecidableEq

namespace RouteIndex

/-- The index without routes. -/
def empty : RouteIndex := ⟨.empty, nofun⟩

instance : Inhabited RouteIndex := ⟨empty⟩

/-- The routes in the order of their networks. -/
def toList (index : RouteIndex) : List Route :=
  index.routes.entries.map fun e => ⟨e.1, e.2⟩

/-- The networks in their order. -/
def networks (index : RouteIndex) : List Network := index.routes.keys

/-- The number of routes. -/
def size (index : RouteIndex) : Nat := index.routes.size

/-- Whether there is no route. -/
def isEmpty (index : RouteIndex) : Bool := index.routes.isEmpty

/-- Insert a route; its network must not be present. -/
def add (index : RouteIndex) (network : Network) (labels : Labels) :
    Except RegistryError RouteIndex :=
  if index.routes.contains network.truncate then
    .error (.conflict (.route network.truncate))
  else
    .ok ⟨index.routes.insert network.truncate labels, fun n hn => by
      rcases SortedMap.mem_keys_insert.1 hn with rfl | hn
      · exact network.truncate_isCanonical
      · exact index.canonical n hn⟩

/-- Remove a route, which must be present, and answer it. -/
def delete (index : RouteIndex) (network : Network) :
    Except RegistryError (Route × RouteIndex) :=
  match index.routes.get? network.truncate with
  | some labels =>
    .ok (⟨network.truncate, labels⟩, ⟨index.routes.erase network.truncate, fun n hn =>
      index.canonical n (SortedMap.mem_keys_erase.1 hn).2⟩)
  | none => .error (.notFound (.route network))

/-- The route of a network. -/
def get? (index : RouteIndex) (network : Network) : Option Route :=
  (index.routes.get? network.truncate).map fun labels => ⟨network.truncate, labels⟩

/-- The routes that a selector matches. -/
def query (index : RouteIndex) (selector : Selector) : List Route :=
  index.toList.filter fun r => selector.matchesLabels r.labels

/-- The routes strictly inside a network. -/
def children (index : RouteIndex) (network : Network) : List Route :=
  index.toList.filter fun r =>
    r.network != network.truncate && network.truncate.contains r.network

/-- The routes strictly around a network. -/
def parents (index : RouteIndex) (network : Network) : List Route :=
  index.toList.filter fun r =>
    r.network != network.truncate && r.network.contains network.truncate

/-- The number of routes of a family. -/
def countFamily (index : RouteIndex) (family : Family) : Nat :=
  index.networks.countP fun n => n.family == family

end RouteIndex

/-- The one of several routes whose network comes first as text. -/
def Route.pickUnique : List Route → Option Route
  | [] => none
  | r :: rest =>
    some (rest.foldl (fun best x => if x.network.text < best.network.text then x else best) r)

end AddressRegistry
