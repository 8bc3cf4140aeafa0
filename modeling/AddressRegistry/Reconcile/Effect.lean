import AddressRegistry.Reconcile.Controller

/-!
# What reconciling does for each kind

Each kind says when its parent is ready, what its local effect is and how that effect is undone. A
tenant has none; a scope has an index; a pool has a declared route; a claim has a registered one. An
effect may stop half way; what it did until then stays, in the indexes and on the object.
-/

namespace AddressRegistry

/-- The key of an object's parent. -/
def Metadata.parentKey (m : Metadata) (kind parent : Kind) : Except RegistryError ObjectKey := do
  match ← ResourceName.parent kind m.name with
  | some name => return ⟨m.space, name⟩
  | none => throw (.invalidInput (.noParent kind m.name parent))

/-! ## Parents -/

/-- A scope's tenant has to be stored, not terminating and ready. -/
def Scope.checkTenant (scope : Scope) (access : Access) : Except Failure Unit := do
  let key ← Failure.lift (scope.info.parentKey .scope .tenant)
  match ← access.fetchTenant key with
  | none => throw (.refused (.notReady (.tenantNotFound key)))
  | some tenant =>
    if tenant.info.deletionRequested then
      throw (.refused (.notReady (.tenantTerminating key)))
    if !tenant.status.condition.ready then
      throw (.refused (.notReady (.tenantNotReady key)))

/-- A pool's scope has to be ready. -/
def Pool.checkScope (pool : Pool) (access : Access) (indexes : ScopeIndexes) :
    Except Failure Unit := do
  let key ← Failure.lift (pool.info.parentKey .pool .scope)
  let _ ← indexes.readyScope access key

/-- A claim's scope has to be ready. -/
def Claim.checkScope (claim : Claim) (access : Access) (indexes : ScopeIndexes) :
    Except Failure Unit := do
  let r ← Failure.lift claim.registration
  let _ ← indexes.readyScope access r.scopeKey

/-! ## Scopes -/

/-- Whether a scope may be set up: enabled, and with lengths that exist. -/
def Scope.checkSpec (scope : Scope) : Except RegistryError Unit :=
  if scope.spec.adminState = .enable then scope.spec.validate else .error (.notReady .disabled)

namespace Controller

/-- Give a scope an index and a retry counter unless it has them. -/
def initScope (c : Controller) (scope : ObjectKey) : Controller :=
  { c with
    indexes := c.indexes.ensure scope
    ladder := c.ladder.track (Kind.scope.retryName scope) }

/-- Drop the index and the retry counter of a scope. -/
def dropScope (c : Controller) (scope : ObjectKey) : Controller :=
  { c with
    indexes := c.indexes.erase scope
    ladder := c.ladder.forget (Kind.scope.retryName scope) }

end Controller

/-! ## Pools -/

namespace Pool

/-- Whether the route declared earlier is not the one that the specification now describes. -/
def isStale (pool : Pool) (declared desired : Network) : Bool :=
  declared != desired || pool.status.labels != declarationLabels pool.spec.labels desired

/-- Routes never change: when the network or the labels were edited, the route declared earlier is
removed first. -/
def retractStale (pool : Pool) (indexes : ScopeIndexes) (scope : ObjectKey) :
    Except RegistryError (Pool × ScopeIndexes) := do
  match pool.status.declared with
  | none => return (pool, indexes)
  | some declared =>
    let desired ← Network.parse pool.spec.network
    let earlier ← Network.parse declared
    if pool.isStale earlier desired then
      let indexes ← indexes.retract scope declared
      return ({ pool with status := { pool.status with declared := none } }, indexes)
    else
      return (pool, indexes)

/-- Note a declared network and the routes around and inside it. -/
def noteUsage (pool : Pool) (usage : Usage) : Pool :=
  { pool with status := { pool.status with
      children := usage.children
      parents := usage.parents
      allocated := usage.children.length } }

/-- Declare a pool's network in its scope. -/
def apply (pool : Pool) (indexes : ScopeIndexes) :
    Except RegistryError Unit × Pool × ScopeIndexes :=
  match pool.info.parentKey .pool .scope with
  | .error e => (.error e, pool, indexes)
  | .ok scope =>
    match pool.retractStale indexes scope with
    | .error e => (.error e, pool, indexes)
    | .ok (pool, indexes) =>
      match indexes.declare scope pool with
      | (pool, .error e) => (.error e, pool, indexes)
      | (pool, .ok (network, indexes)) =>
        let pool := { pool with status := { pool.status with declared := some network.text } }
        match indexes.usage scope network with
        | .error e => (.error e, pool, indexes)
        | .ok usage => (.ok (), pool.noteUsage usage, indexes)

/-- Remove a pool's declared network from its scope. -/
def undo (pool : Pool) (indexes : ScopeIndexes) : Except RegistryError ScopeIndexes := do
  let scope ← pool.info.parentKey .pool .scope
  indexes.retract scope (pool.status.declared.getD pool.spec.network)

end Pool

/-! ## Claims -/

namespace Claim

/-- The claim with another network on its status. -/
def withNetwork (claim : Claim) (network : Option String) : Claim :=
  { claim with status := { claim.status with network } }

/-- Purpose and family have to be asked for by a claim that names no network. -/
def checkSelector (claim : Claim) (r : Registration) : Except RegistryError Unit :=
  if claim.spec.isDynamic then do
    let _ ← r.purpose
    let _ ← r.family
  else
    .ok ()

/-- Whether a claim names another network than the one it holds. -/
def isMoved (r : Registration) : Except RegistryError Bool :=
  match r.network, r.persisted with
  | some desired, some persisted => do
    return (← Network.parse desired) != (← Network.parse persisted)
  | _, _ => .ok false

/-- A claim that names another network than before releases the one it holds. -/
def releaseMoved (claim : Claim) (r : Registration) (indexes : ScopeIndexes) (access : Access) :
    Except Failure (Claim × ScopeIndexes) := do
  Failure.lift (claim.checkSelector r)
  if ← Failure.lift (isMoved r) then
    let indexes ← indexes.deregister access r
    return (claim.withNetwork none, indexes)
  else
    return (claim, indexes)

/-- Register a claim's network in its scope. -/
def apply (claim : Claim) (indexes : ScopeIndexes) (access : Access) :
    Except Failure Unit × Claim × ScopeIndexes :=
  match claim.registration with
  | .error e => (.error (.refused e), claim, indexes)
  | .ok r =>
    match claim.releaseMoved r indexes access with
    | .error f => (.error f, claim, indexes)
    | .ok (claim, indexes) =>
      match indexes.register access r with
      | .error f => (.error f, claim, indexes)
      | .ok (network, indexes) => (.ok (), claim.withNetwork (some network.text), indexes)

/-- Release a claim's network. Nothing can be held in a scope without an index. -/
def undo (claim : Claim) (indexes : ScopeIndexes) (access : Access) :
    Except Failure ScopeIndexes := do
  let r ← Failure.lift claim.registration
  match indexes.deregister access r with
  | .error (.refused e) =>
    if e.isNotReady && !indexes.contains r.scopeKey then
      return indexes
    else
      throw (.refused e)
  | answer => answer

end Claim

/-! ## All kinds -/

namespace Controller

/-- The parent of an object has to be ready. -/
def checkParent (c : Controller) : Object → Except Failure Unit
  | .tenant _ => .ok ()
  | .scope scope => scope.checkTenant c.access
  | .pool pool => pool.checkScope c.access c.indexes
  | .claim claim => claim.checkScope c.access c.indexes

/-- Apply the local effect of an object. -/
def apply (c : Controller) : Object → Except Failure Unit × Object × Controller
  | .tenant tenant =>
    (if tenant.spec.adminState = .enable then .ok () else .error (.refused (.notReady .disabled)),
      .tenant tenant, c)
  | .scope scope =>
    match scope.checkSpec with
    | .ok () => (.ok (), .scope scope, c.initScope scope.info.key)
    | .error e => (.error (.refused e), .scope scope, c)
  | .pool pool =>
    let (result, pool, indexes) := pool.apply c.indexes
    (Failure.lift result, .pool pool, { c with indexes })
  | .claim claim =>
    let (result, claim, indexes) := claim.apply c.indexes c.access
    (result, .claim claim, { c with indexes })

/-- Undo the local effect of an object. -/
def undo (c : Controller) : Object → Except Failure Controller
  | .tenant _ => .ok c
  | .scope scope => .ok (c.dropScope scope.info.key)
  | .pool pool => (Failure.lift (pool.undo c.indexes)).map fun indexes => { c with indexes }
  | .claim claim => (claim.undo c.indexes c.access).map fun indexes => { c with indexes }

end Controller

end AddressRegistry
