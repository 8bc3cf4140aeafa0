import AddressRegistry.Resource.Name
import AddressRegistry.Resource.Phase
import AddressRegistry.Route.Strategy

/-!
# Objects

An object has metadata, which the object store owns, a specification, which clients write, and a
status, which the registry writes. The four kinds share the metadata and a common status; pools and
claims record more.
-/

namespace AddressRegistry

/-- The finalizer that the registry puts on every object it manages. -/
def finalizerName : String := "ipam.registry/finalizer"

/-- What the object store keeps about an object. -/
structure Metadata where
  space : String
  name : String
  generation : Nat
  finalizers : List String
  deletionRequested : Bool
deriving DecidableEq

/-- Metadata of a new object. -/
def Metadata.fresh (space name : String) : Metadata := ⟨space, name, 0, [], false⟩

/-- The key of an object. -/
def Metadata.key (m : Metadata) : ObjectKey := ⟨m.space, m.name⟩

/-- Whether an object carries a finalizer. -/
def Metadata.hasFinalizer (m : Metadata) (finalizer : String) : Bool :=
  m.finalizers.any (· == finalizer)

/-- A point in time: one that a document gave, or a reading of the registry's clock, known by its
number. No reading is the same as a given time, and no two readings are the same. -/
inductive Timestamp where
  | given (text : String)
  | reading (number : Nat)
deriving DecidableEq

/-- The text of a point in time. -/
def Timestamp.text : Timestamp → String
  | .given text => text
  | .reading number => "reading " ++ toString number

/-- Whether an object is ready and why; `since` is the time of the last change of readiness. -/
structure Condition where
  ready : Bool
  reason : String
  message : String
  since : Option Timestamp
deriving DecidableEq

/-- The condition of an object that no pass has looked at. -/
def Condition.unknown : Condition := ⟨false, "", "", none⟩

/-- Whether setting the readiness records the time: when it changes, or none was recorded. -/
def Condition.changes (c : Condition) (ready : Bool) : Bool :=
  c.ready != ready || c.since.isNone

/-- Set readiness, reason and message; the time moves only when the readiness changes. -/
def Condition.set (c : Condition) (now : Timestamp) (ready : Bool) (reason message : String) :
    Condition :=
  ⟨ready, reason, message, if c.changes ready then some now else c.since⟩

/-- What the registry records about every object. -/
structure Status where
  phase : Phase
  condition : Condition
  placement : Placement
  observedGeneration : Nat
deriving DecidableEq

/-- The status of an object that no pass has looked at. -/
def Status.fresh : Status := ⟨.pending, .unknown, .empty, 0⟩

/-- Whether tenants and scopes are meant to be used. -/
inductive AdminState where
  | enable
  | disable
deriving DecidableEq, Repr, Inhabited

/-- The name of an administrative state. -/
def AdminState.label : AdminState → String
  | .enable => "enable"
  | .disable => "disable"

/-- The administrative state with a given name; names are exact. -/
def AdminState.ofLabel? (text : String) : Option AdminState :=
  [AdminState.enable, .disable].find? fun s => s.label == text

/-- Default lengths by purpose, then family. -/
abbrev LengthTable := SortedMap String (SortedMap Family Nat)

/-- What a tenant is meant to be. -/
structure TenantSpec where
  adminState : AdminState
  description : Option String
deriving DecidableEq

/-- What a scope is meant to be. -/
structure ScopeSpec where
  adminState : AdminState
  strategy : Strategy
  defaultLengths : LengthTable
  description : Option String
deriving DecidableEq

/-- What a pool is meant to be: a declared network, whether claims may be carved out of it, and its
labels. -/
structure PoolSpec where
  network : String
  pool : Bool
  labels : Labels
  description : Option String
deriving DecidableEq

/-- What a claim asks for: a network, or one that a selector describes. -/
structure ClaimSpec where
  network : Option String
  selector : Labels
  sourceTag : Labels
deriving DecidableEq

/-- The specification of a tenant that says nothing. -/
def TenantSpec.fresh : TenantSpec := ⟨.enable, none⟩

/-- The specification of a scope that says nothing. -/
def ScopeSpec.fresh : ScopeSpec := ⟨.enable, .firstAvailable, .empty, none⟩

/-- The specification of a claim that says nothing. -/
def ClaimSpec.fresh : ClaimSpec := ⟨none, .empty, .empty⟩

/-- A claim is dynamic when it names no network. -/
def ClaimSpec.isDynamic (s : ClaimSpec) : Bool := s.network.isNone

namespace ScopeSpec

/-- The length of blocks for a purpose and family. -/
def lengthFor (s : ScopeSpec) (purpose : String) (family : Family) : Option Nat :=
  (s.defaultLengths.get? purpose).bind (·.get? family)

/-- The first length of the table that its family does not have. -/
def lengthFault (s : ScopeSpec) : Option InputFault :=
  s.defaultLengths.entries.findSome? fun (purpose, lengths) =>
    lengths.entries.findSome? fun (family, length) =>
      if family.width < length then some (.lengthBeyond length purpose family) else none

/-- Refuse lengths that do not exist in their family. -/
def validate (s : ScopeSpec) : Except RegistryError Unit :=
  match s.lengthFault with
  | some fault => .error (.invalidInput fault)
  | none => .ok ()

end ScopeSpec

/-- What the registry records about a pool: the declared network, its labels with the address family,
the routes inside and around it and the number of those inside. -/
structure PoolStatus where
  common : Status
  declared : Option String
  labels : Labels
  children : List String
  parents : List String
  allocated : Nat
deriving DecidableEq

/-- The status of a pool that no pass has looked at. -/
def PoolStatus.fresh : PoolStatus := ⟨.fresh, none, .empty, [], [], 0⟩

/-- What the registry records about a claim: the network that it holds. -/
structure ClaimStatus where
  common : Status
  network : Option String
deriving DecidableEq

/-- The status of a claim that no pass has looked at. -/
def ClaimStatus.fresh : ClaimStatus := ⟨.fresh, none⟩

/-- The root of a hierarchy. -/
structure Tenant where
  info : Metadata
  spec : TenantSpec
  status : Status
deriving DecidableEq

/-- A domain of addresses with an index of its own. -/
structure Scope where
  info : Metadata
  spec : ScopeSpec
  status : Status
deriving DecidableEq

/-- A declared network of a scope. -/
structure Pool where
  info : Metadata
  spec : PoolSpec
  status : PoolStatus
deriving DecidableEq

/-- A request for a network of a scope. -/
structure Claim where
  info : Metadata
  spec : ClaimSpec
  status : ClaimStatus
deriving DecidableEq

/-- An object of one of the four kinds. -/
inductive Object where
  | tenant (tenant : Tenant)
  | scope (scope : Scope)
  | pool (pool : Pool)
  | claim (claim : Claim)
deriving DecidableEq

namespace Object

/-- The kind of an object. -/
def kind : Object → Kind
  | tenant _ => .tenant
  | scope _ => .scope
  | pool _ => .pool
  | claim _ => .claim

/-- The metadata of an object. -/
def info : Object → Metadata
  | tenant r => r.info
  | scope r => r.info
  | pool r => r.info
  | claim r => r.info

/-- Change the metadata. -/
def mapInfo (f : Metadata → Metadata) : Object → Object
  | tenant r => tenant { r with info := f r.info }
  | scope r => scope { r with info := f r.info }
  | pool r => pool { r with info := f r.info }
  | claim r => claim { r with info := f r.info }

/-- The status that all kinds share. -/
def status : Object → Status
  | tenant r => r.status
  | scope r => r.status
  | pool r => r.status.common
  | claim r => r.status.common

/-- Change the status that all kinds share. -/
def mapStatus (f : Status → Status) : Object → Object
  | tenant r => tenant { r with status := f r.status }
  | scope r => scope { r with status := f r.status }
  | pool r => pool { r with status := { r.status with common := f r.status.common } }
  | claim r => claim { r with status := { r.status with common := f r.status.common } }

/-- The key of an object. -/
def key (o : Object) : ObjectKey := o.info.key

/-- The kind and key of an object. -/
def id (o : Object) : ObjectId := ⟨o.kind, o.key⟩

/-- Whether an object is ready. -/
def isReady (o : Object) : Bool := o.status.condition.ready

/-- The object with the specification of another one, if they are of one kind. -/
def copySpec? : (target source : Object) → Option Object
  | tenant a, tenant b => some (tenant { a with spec := b.spec })
  | scope a, scope b => some (scope { a with spec := b.spec })
  | pool a, pool b => some (pool { a with spec := b.spec })
  | claim a, claim b => some (claim { a with spec := b.spec })
  | _, _ => none

/-- The object with the status of another one, if they are of one kind. -/
def copyStatus? : (target source : Object) → Option Object
  | tenant a, tenant b => some (tenant { a with status := b.status })
  | scope a, scope b => some (scope { a with status := b.status })
  | pool a, pool b => some (pool { a with status := b.status })
  | claim a, claim b => some (claim { a with status := b.status })
  | _, _ => none

/-- Whether two objects have different specifications; objects of two kinds do. -/
def specDiffers : Object → Object → Bool
  | tenant a, tenant b => a.spec != b.spec
  | scope a, scope b => a.spec != b.spec
  | pool a, pool b => a.spec != b.spec
  | claim a, claim b => a.spec != b.spec
  | _, _ => true

/-- A new tenant. -/
def newTenant (space name : String) (spec : TenantSpec) : Object :=
  tenant ⟨.fresh space name, spec, .fresh⟩

/-- A new scope. -/
def newScope (space name : String) (spec : ScopeSpec) : Object :=
  scope ⟨.fresh space name, spec, .fresh⟩

/-- A new pool. -/
def newPool (space name : String) (spec : PoolSpec) : Object :=
  pool ⟨.fresh space name, spec, .fresh⟩

/-- A new claim. -/
def newClaim (space name : String) (spec : ClaimSpec) : Object :=
  claim ⟨.fresh space name, spec, .fresh⟩

end Object

end AddressRegistry
