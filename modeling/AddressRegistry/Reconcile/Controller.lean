import AddressRegistry.Gateway.Basic
import AddressRegistry.Queue.Basic
import AddressRegistry.Retry.Ladder

/-!
# Controllers and fan-out

A controller reaches the object store, owns the scope indexes, counts retries and keeps one work queue
for each kind. When an object changes, the objects that depend on it are found by their names: their
retry counters go back to zero and they are queued.
-/

namespace AddressRegistry

/-- One work queue for each kind. -/
structure Queues where
  tenants : WorkQueue
  scopes : WorkQueue
  pools : WorkQueue
  claims : WorkQueue
deriving DecidableEq

namespace Queues

/-- Queues without keys. -/
def empty : Queues := ⟨.empty, .empty, .empty, .empty⟩

/-- The queue of a kind. -/
def get (q : Queues) : Kind → WorkQueue
  | .tenant => q.tenants
  | .scope => q.scopes
  | .pool => q.pools
  | .claim => q.claims

/-- Change the queue of a kind. -/
def modify (q : Queues) (kind : Kind) (f : WorkQueue → WorkQueue) : Queues :=
  match kind with
  | .tenant => { q with tenants := f q.tenants }
  | .scope => { q with scopes := f q.scopes }
  | .pool => { q with pools := f q.pools }
  | .claim => { q with claims := f q.claims }

/-- Shut all queues down. -/
def shutdown (q : Queues) : Queues :=
  ⟨q.tenants.shutdown, q.scopes.shutdown, q.pools.shutdown, q.claims.shutdown⟩

end Queues

/-- The kinds of objects that have to be looked at again when an object of a kind changes. -/
def Kind.dependents : Kind → List Kind
  | .tenant => [.scope]
  | .scope => [.pool, .claim]
  | .claim => [.pool]
  | .pool => []

/-- The state of a controller. `readings` counts how often the clock was read; each reading is a time
of its own. -/
structure Controller where
  access : Access
  indexes : ScopeIndexes
  ladder : Ladder
  queues : Queues
  readings : Nat
deriving DecidableEq

namespace Controller

/-- A controller at its start. -/
def start (access : Access) (policy : RetryPolicy) : Controller :=
  ⟨access, .empty, .start policy, .empty, 0⟩

/-- The time that the next reading of the clock gives. -/
def time (c : Controller) : Timestamp := .reading (c.readings + 1)

/-- Queue an object. -/
def enqueue (c : Controller) (id : ObjectId) : Controller :=
  { c with queues := c.queues.modify id.kind (·.add id.key) }

/-- Put the retry counter of an object back to zero and queue it. -/
def wake (c : Controller) (id : ObjectId) : Controller :=
  { c with ladder := c.ladder.reset (id.kind.retryName id.key) }.enqueue id

/-- Whether a change of an object of kind `kind` at a place concerns an object of a dependent kind: a
tenant concerns what has the same tenant, anything else what has the same scope. -/
def concerns (kind : Kind) (source : Placement) (dependent : Kind) (object : Object) : Bool :=
  match ResourceName.parse dependent object.info.name with
  | .ok name =>
    match kind with
    | .tenant => source.sameTenant name.placement
    | _ => source.sameScope name.placement
  | .error _ => false

/-- Wake the objects of one dependent kind; the answer is their number. -/
def fanOutTo (c : Controller) (kind : Kind) (space : String) (source : Placement) (dependent : Kind) :
    Except Failure (Nat × Controller) := do
  let objects ← c.access.list dependent (some space)
  let concerned := objects.filter (concerns kind source dependent)
  return (concerned.length, concerned.foldl (fun c o => c.wake ⟨dependent, o.key⟩) c)

/-- Wake the objects of several dependent kinds, up to a failure. -/
def fanOutOver (c : Controller) (kind : Kind) (space : String) (source : Placement) :
    List Kind → Except Failure Nat × Controller
  | [] => (.ok 0, c)
  | dependent :: rest =>
    match c.fanOutTo kind space source dependent with
    | .error f => (.error f, c)
    | .ok (n, c) =>
      match fanOutOver c kind space source rest with
      | (.ok m, c) => (.ok (n + m), c)
      | (.error f, c) => (.error f, c)

/-- Wake everything that depends on an object of a kind at a place. -/
def fanOutFrom (c : Controller) (kind : Kind) (space : String) (source : Placement) :
    Except Failure Nat × Controller :=
  c.fanOutOver kind space source kind.dependents

/-- Wake everything that depends on an object. -/
def fanOut (c : Controller) (id : ObjectId) : Except Failure Nat × Controller :=
  match ResourceName.parse id.kind id.key.name with
  | .error e => (.error (.refused e), c)
  | .ok name => c.fanOutFrom id.kind id.key.space name.placement

/-- Wake everything that depends on an object; an error is no concern of the caller, a crash is. -/
def tryFanOut (c : Controller) (id : ObjectId) : Except Failure Unit × Controller :=
  match c.fanOut id with
  | (.error .crashed, c) => (.error .crashed, c)
  | (_, c) => (.ok (), c)

/-- Queue the objects of several kinds, up to a failure. -/
def enqueueKinds (c : Controller) : List Kind → Except Failure Nat × Controller
  | [] => (.ok 0, c)
  | kind :: rest =>
    match c.access.list kind none with
    | .error f => (.error f, c)
    | .ok objects =>
      match enqueueKinds (objects.foldl (fun c o => c.enqueue ⟨kind, o.key⟩) c) rest with
      | (.ok n, c) => (.ok (objects.length + n), c)
      | (.error f, c) => (.error f, c)

/-- Queue every stored object; the answer is their number. -/
def enqueueAll (c : Controller) : Except Failure Nat × Controller :=
  c.enqueueKinds Kind.all

/-- Take note of a change in the store: whatever is more than a status wakes the object and what
depends on it. -/
def observe (c : Controller) (event : Event) : Except Failure Unit × Controller :=
  if event.change.concernsDependents then
    (c.wake event.id).tryFanOut event.id
  else
    (.ok (), c)

/-! ## Numbers -/

/-- The number of keys waiting. -/
def queued (c : Controller) : Nat :=
  Kind.all.foldl (fun n kind => n + (c.queues.get kind).waiting.length) 0

/-- The number of keys with a delayed addition. -/
def scheduled (c : Controller) : Nat :=
  Kind.all.foldl (fun n kind => n + (c.queues.get kind).scheduled.size) 0

/-! ## Requests through a gateway -/

/-- The answer to a request: the network, if one was handed out, or a status. -/
abbrev Reply := Except GatewayStatus (Option String)

/-- After a successful request the pools of the claim's scope are looked at again. -/
def served (c : Controller) (g : Gateway) (q : ClaimRequest) : Except Failure Unit × Controller :=
  if g.fansOut then c.tryFanOut ⟨.claim, q.key⟩ else (.ok (), c)

/-- Hand out a network through a gateway. -/
def request (c : Controller) (g : Gateway) (q : ClaimRequest) (network : Option String) :
    Option Reply × Controller × Gateway :=
  match g.request c.indexes c.access q network with
  | .error .crashed => (none, c, g)
  | .error (.refused e) => (some (.error (.ofError e)), c, g)
  | .ok (granted, indexes, g) =>
    match { c with indexes }.served g q with
    | (.ok (), c) => (some (.ok (some granted)), c, g)
    | (.error _, c) => (none, c, g)

/-- Take a network back through a gateway. -/
def release (c : Controller) (g : Gateway) (q : ClaimRequest) :
    Option Reply × Controller × Gateway :=
  match g.release c.indexes c.access q with
  | .error .crashed => (none, c, g)
  | .error (.refused e) => (some (.error (.ofError e)), c, g)
  | .ok (indexes, g) =>
    match { c with indexes }.served g q with
    | (.ok (), c) => (some (.ok none), c, g)
    | (.error _, c) => (none, c, g)

end Controller

end AddressRegistry
