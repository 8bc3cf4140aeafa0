import AddressRegistry.Error

/-!
# Names in the hierarchy

The name of an object is a dotted path. The last segments are fixed by the kind: tenant, scope of a
tenant, pool or claim of a scope. Up to three segments in front place it in an organization, a
deployment and an availability zone, in that order.

A name without its last segment is the name of the parent.
-/

namespace AddressRegistry

/-- Where an object stands in the hierarchy; absent parts are empty. -/
structure Placement where
  organization : String
  deployment : String
  zone : String
  tenant : String
  scope : Option String
deriving DecidableEq

namespace Placement

/-- The placement that says nothing. -/
def empty : Placement := ⟨"", "", "", "", none⟩

instance : Inhabited Placement := ⟨empty⟩

/-- Same organization, deployment, zone and tenant. -/
def sameTenant (a b : Placement) : Bool :=
  a.organization == b.organization && a.deployment == b.deployment && a.zone == b.zone
    && a.tenant == b.tenant

/-- Same tenant and same scope. -/
def sameScope (a b : Placement) : Bool :=
  a.sameTenant b && a.scope.isSome && a.scope == b.scope

end Placement

/-- A decoded name. -/
structure ResourceName where
  organization : Option String
  deployment : Option String
  zone : Option String
  tenant : String
  scope : Option String
  resource : Option String
deriving DecidableEq

namespace ResourceName

/-- The greatest number of segments in front. -/
def mostPlacement : Nat := 3

/-- The number of segments that a kind fixes. -/
def depth : Kind → Nat
  | .tenant => 1
  | .scope => 2
  | .pool => 3
  | .claim => 3

/-- The parts of a text between its dots; a text without dots is one part. -/
def splitAtDots : List Char → List (List Char)
  | [] => [[]]
  | c :: rest =>
    if c = '.' then
      [] :: splitAtDots rest
    else
      match splitAtDots rest with
      | [] => [[c]]
      | part :: parts => (c :: part) :: parts

/-- The segments of a name. -/
def segments (name : String) : List String :=
  (splitAtDots name.toList).map String.ofList

/-- Segments with dots between. -/
def join (segments : List String) : String :=
  String.intercalate "." segments

/-- Where a named object stands. -/
def placement (n : ResourceName) : Placement where
  organization := n.organization.getD ""
  deployment := n.deployment.getD ""
  zone := n.zone.getD ""
  tenant := n.tenant
  scope := n.scope

/-- Decode the name of an object of a kind. -/
def parse (kind : Kind) (name : String) : Except RegistryError ResourceName :=
  let parts := segments name
  if parts.any (· == "") then
    .error (.invalidInput (.emptySegment kind name))
  else if parts.length < depth kind ∨ depth kind + mostPlacement < parts.length then
    .error (.invalidInput (.segmentCount kind name (depth kind) (depth kind + mostPlacement)))
  else
    let lead := parts.take (parts.length - depth kind)
    let own := parts.drop (parts.length - depth kind)
    .ok {
      organization := lead[0]?
      deployment := lead[1]?
      zone := lead[2]?
      tenant := own.headD ""
      scope := own[1]?
      resource := own[2]? }

/-- The placement segments that are present; after an absent one no other may follow. -/
def placementSegments : (gap : Bool) → List (Option String) → Except RegistryError (List String)
  | _, [] => .ok []
  | true, some s :: _ => .error (.invalidInput (.placementGap s))
  | false, some s :: rest => (placementSegments false rest).map (s :: ·)
  | _, none :: rest => placementSegments true rest

/-- A segment that the kind needs. -/
def needed (fault : InputFault) : Option String → Except RegistryError String
  | some s => .ok s
  | none => .error (.invalidInput fault)

/-- Write the name of an object of a kind. -/
def compose (kind : Kind) (n : ResourceName) : Except RegistryError String := do
  let lead ← placementSegments false [n.organization, n.deployment, n.zone]
  match kind with
  | .tenant => return join (lead ++ [n.tenant])
  | .scope =>
    let scope ← needed (.needsScope kind) n.scope
    return join (lead ++ [n.tenant, scope])
  | .pool | .claim =>
    let scope ← needed (.needsScope kind) n.scope
    let resource ← needed (.needsResource kind) n.resource
    return join (lead ++ [n.tenant, scope, resource])

/-- The name of an object's parent: the tenant of a scope, the scope of a pool or claim. A tenant has
none. -/
def parent (kind : Kind) (name : String) : Except RegistryError (Option String) := do
  let _ ← parse kind name
  match kind, (segments name).dropLast with
  | .tenant, _ => return none
  | _, [] => return none
  | _, lead => return some (join lead)

end ResourceName

end AddressRegistry
