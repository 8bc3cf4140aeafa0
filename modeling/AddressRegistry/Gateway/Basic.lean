import AddressRegistry.Allocation.Indexes
import AddressRegistry.Gateway.Status

/-!
# The allocation gateway

Clients outside the object store ask for networks by naming a claim; the scope follows from the name.
No claim object stands behind such a request, so the gateway keeps a ledger of what it handed out. A
release finds the network in the ledger, or by its labels when another gateway served the request.
-/

namespace AddressRegistry

/-- What a client names: a claim, the network it wants and its source tag. -/
structure ClaimRequest where
  space : String
  claim : String
  selector : Labels
  sourceTag : Labels
deriving DecidableEq

/-- The key under which the ledger knows a request. -/
def ClaimRequest.key (q : ClaimRequest) : ObjectKey := ⟨q.space, q.claim⟩

/-- The registration that a request stands for. Purpose and address family have to be asked for, also
for a given network. -/
def ClaimRequest.registration (q : ClaimRequest) (network persisted : Option String) :
    Except RegistryError Registration := do
  match ← ResourceName.parent .claim q.claim with
  | none => throw (.invalidInput (.noParent .claim q.claim .scope))
  | some scope =>
    let r : Registration := {
      space := q.space
      scope
      claim := q.claim
      network
      selector := ⟨q.selector⟩
      sourceTag := sourceTagOrDefault q.sourceTag q.claim
      persisted }
    let _ ← r.purpose
    let _ ← r.family
    return r

/-- The networks that a gateway handed out, by claim; `fansOut` says whether pools are looked at again
after each success. -/
structure Gateway where
  ledger : SortedMap ObjectKey String
  fansOut : Bool
deriving DecidableEq

namespace Gateway

/-- A gateway that handed out nothing. -/
def fresh (fansOut : Bool) : Gateway := ⟨.empty, fansOut⟩

/-- Hand out a network: the given one, or a block that the selector describes. -/
def request (g : Gateway) (indexes : ScopeIndexes) (access : Access) (q : ClaimRequest)
    (network : Option String) : Except Failure (String × ScopeIndexes × Gateway) := do
  let r ← Failure.lift (q.registration network (g.ledger.get? q.key))
  let (granted, indexes) ← indexes.register access r
  return (granted.text, indexes, { g with ledger := g.ledger.insert q.key granted.text })

/-- The network to release: the recorded one, or the one whose route carries the claim's labels. -/
def heldNetwork (g : Gateway) (indexes : ScopeIndexes) (q : ClaimRequest) (r : Registration) :
    Except RegistryError (Option String) :=
  match g.ledger.get? q.key with
  | some text => .ok (some text)
  | none => (indexes.lookup r).map fun n => n.map Network.text

/-- Take a network back. -/
def release (g : Gateway) (indexes : ScopeIndexes) (access : Access) (q : ClaimRequest) :
    Except Failure (ScopeIndexes × Gateway) := do
  let r ← Failure.lift (q.registration none none)
  let persisted ← Failure.lift (g.heldNetwork indexes q r)
  let indexes ← indexes.deregister access { r with persisted }
  return (indexes, { g with ledger := g.ledger.erase q.key })

end Gateway

end AddressRegistry
