import AddressRegistry.Store.Basic

/-!
# Access to a store that may fail

The registry reaches the object store through five methods, each of which may fail. Which calls fail,
and how, is data: a list of rules, of which the first one that fits a call applies. Without rules,
access is the store itself.
-/

namespace AddressRegistry

/-- How a call ends without an answer: with an error, or by bringing the pass down. -/
inductive Failure where
  | refused (error : RegistryError)
  | crashed
deriving DecidableEq

/-- Turn an error into a failure. -/
def Failure.lift {α : Type} : Except RegistryError α → Except Failure α
  | .ok a => .ok a
  | .error e => .error (.refused e)

/-- The methods of a store that the registry calls. -/
inductive Method where
  | get
  | list
  | updateStatus
  | addFinalizer
  | removeFinalizer
deriving DecidableEq

/-- What a rule does to a call. -/
inductive Effect where
  /-- The call fails with an error. -/
  | fail (error : RegistryError)
  /-- A read answers this object, whatever was asked. -/
  | answer (object : Object)
  /-- The call crashes. -/
  | crash
deriving DecidableEq

/-- A rule for the calls of a method, of one kind or of all. -/
structure FaultRule where
  method : Method
  kind : Option Kind
  effect : Effect
deriving DecidableEq

/-- A store together with the rules for calls that fail. -/
structure Access where
  store : Store
  rules : List FaultRule
deriving DecidableEq

namespace Access

/-- The effect on a call of a method for a kind. -/
def effect? (a : Access) (method : Method) (kind : Kind) : Option Effect :=
  (a.rules.find? fun r => r.method == method && r.kind.all (· == kind)).map (·.effect)

/-- Make a call unless a rule stops it. -/
def guarded {α : Type} (a : Access) (method : Method) (kind : Kind)
    (call : Except RegistryError α) : Except Failure α :=
  match a.effect? method kind with
  | some (.fail e) => .error (.refused e)
  | some .crash => .error .crashed
  | some (.answer _) | none => Failure.lift call

/-- The object of a kind and key. -/
def get (a : Access) (kind : Kind) (key : ObjectKey) : Except Failure (Option Object) :=
  match a.effect? .get kind with
  | some (.answer o) => .ok (some o)
  | _ => a.guarded .get kind (.ok (a.store.get? ⟨kind, key⟩))

/-- The objects of a kind. -/
def list (a : Access) (kind : Kind) (space : Option String) : Except Failure (List Object) :=
  a.guarded .list kind (.ok (a.store.list kind space))

/-- Write the status of an object. -/
def updateStatus (a : Access) (object : Object) : Except Failure Access := do
  let store ← a.guarded .updateStatus object.kind (a.store.updateStatus object)
  return { a with store }

/-- Put a finalizer on an object. -/
def addFinalizer (a : Access) (id : ObjectId) (finalizer : String) : Except Failure Access := do
  let store ← a.guarded .addFinalizer id.kind (a.store.addFinalizer id finalizer)
  return { a with store }

/-- Take a finalizer off an object. -/
def removeFinalizer (a : Access) (id : ObjectId) (finalizer : String) :
    Except Failure Access := do
  let store ← a.guarded .removeFinalizer id.kind (a.store.removeFinalizer id finalizer)
  return { a with store }

/-- The object of a kind and key, which must be of that kind. -/
def fetch (a : Access) (kind : Kind) (key : ObjectKey) : Except Failure (Option Object) :=
  match a.get kind key with
  | .error f => .error f
  | .ok none => .ok none
  | .ok (some o) =>
    if o.kind = kind then .ok (some o) else .error (.refused (.store (.wrongKind ⟨kind, key⟩)))

/-- The tenant with a key. -/
def fetchTenant (a : Access) (key : ObjectKey) : Except Failure (Option Tenant) := do
  match ← a.fetch .tenant key with
  | some (.tenant t) => return some t
  | _ => return none

/-- The scope with a key. -/
def fetchScope (a : Access) (key : ObjectKey) : Except Failure (Option Scope) := do
  match ← a.fetch .scope key with
  | some (.scope s) => return some s
  | _ => return none

/-- The listed objects of a kind that are of that kind. -/
def listOf (a : Access) (kind : Kind) (space : Option String) : Except Failure (List Object) := do
  return (← a.list kind space).filter fun o => o.kind = kind

end Access

end AddressRegistry
