import AddressRegistry.Network.Parse
import AddressRegistry.Resource.Object

/-!
# Registrations

A registration asks a scope for a network on behalf of a claim: a given one, or a block that a
selector describes. The route that it inserts carries exactly the selector's requirements together
with the source tag, so a claim finds its route again by the full label set.
-/

namespace AddressRegistry

/-- The source tag of a claim, or one that names the claim when it has none: two claims must never
end up with the same labels. -/
def sourceTagOrDefault (sourceTag : Labels) (claim : String) : Labels :=
  if sourceTag.isEmpty then SortedMap.empty.insert Labels.claimKey claim else sourceTag

/-- The labels under which a declared network is indexed: its own and its address family. -/
def declarationLabels (labels : Labels) (network : Network) : Labels :=
  labels.insert Labels.familyKey network.family.label

/-- A request for a network of a scope. -/
structure Registration where
  space : String
  /-- The name of the scope that the claim belongs to. -/
  scope : String
  /-- The name of the claim, which decides seeded placement. -/
  claim : String
  /-- The network asked for; none for a dynamic claim. -/
  network : Option String
  selector : Selector
  sourceTag : Labels
  /-- The network that the claim held before. -/
  persisted : Option String
deriving DecidableEq

namespace Registration

/-- The key of the scope. -/
def scopeKey (r : Registration) : ObjectKey := ⟨r.space, r.scope⟩

/-- The identity that a seeded placement hashes. -/
def identity (r : Registration) : String := r.space ++ "/" ++ r.claim

/-- A value that the selector has to ask for. -/
def requirement (r : Registration) (key : String) : Except RegistryError String :=
  match r.selector.get? key with
  | some value => .ok value
  | none => .error (.invalidInput (.missingLabel r.selector.text key))

/-- The purpose that the selector asks for. -/
def purpose (r : Registration) : Except RegistryError String := r.requirement Labels.purposeKey

/-- The address family that the selector asks for. -/
def family (r : Registration) : Except RegistryError Family := do
  Family.parse (← r.requirement Labels.familyKey)

/-- Selector and source tag together: the labels of the claim's route. -/
def combined (r : Registration) : Selector := r.selector.merge r.sourceTag

/-- The network that the claim held before, decoded. -/
def persistedNetwork (r : Registration) : Except RegistryError (Option Network) :=
  match r.persisted with
  | some raw => (Network.parse raw).map some
  | none => .ok none

end Registration

/-- The registration of a claim object in the scope that its name gives. -/
def Claim.registration (c : Claim) : Except RegistryError Registration := do
  match ← ResourceName.parent .claim c.info.name with
  | some scope =>
    return {
      space := c.info.space
      scope
      claim := c.info.name
      network := c.spec.network
      selector := ⟨c.spec.selector⟩
      sourceTag := sourceTagOrDefault c.spec.sourceTag c.info.name
      persisted := c.status.network }
  | none => throw (.invalidInput (.noParent .claim c.info.name .scope))

end AddressRegistry
