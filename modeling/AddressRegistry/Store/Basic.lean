import AddressRegistry.Resource.Object

/-!
# The object store

A store maps kinds and keys to objects and logs what happens to them. Specifications, statuses and
finalizers are written separately. Deletion of an object that carries finalizers is only noted on it;
it goes when the last finalizer is removed.

An operation that fails leaves the store as it was.
-/

namespace AddressRegistry

/-- What happened to an object. -/
inductive Change where
  | created
  /-- The specification was replaced. -/
  | specUpdated
  /-- Only the status was written. -/
  | statusUpdated
  /-- Deletion was requested while finalizers are present. -/
  | deletionRequested
  /-- The object is gone. -/
  | deleted
deriving DecidableEq, Repr

/-- Whether dependents have to look again. Writing a status alone is excluded, so that the registry
does not set itself off. -/
def Change.concernsDependents : Change → Bool
  | .statusUpdated => false
  | _ => true

/-- A change of an object. -/
structure Event where
  id : ObjectId
  change : Change
deriving DecidableEq

/-- Objects by kind and key, and the log of their changes, the newest first. -/
structure Store where
  objects : SortedMap ObjectId Object
  log : List Event
deriving DecidableEq

namespace Store

/-- The store without objects. -/
def empty : Store := ⟨.empty, []⟩

instance : Inhabited Store := ⟨empty⟩

/-- The number of objects. -/
def size (s : Store) : Nat := s.objects.size

/-- The object of a kind and key. -/
def get? (s : Store) (id : ObjectId) : Option Object := s.objects.get? id

/-- The objects of a kind, of one namespace if one is given, in the order of their keys. -/
def list (s : Store) (kind : Kind) (space : Option String) : List Object :=
  (s.objects.filter fun id _ =>
    id.kind == kind && space.all (· == id.key.space)).values

/-- The events that were logged after the first `count` ones, the oldest first. -/
def eventsAfter (s : Store) (count : Nat) : List Event :=
  (s.log.take (s.log.length - count)).reverse

/-- Put an object in its place and log a change of it. -/
def write (s : Store) (id : ObjectId) (object : Object) (change : Change) : Store :=
  ⟨s.objects.insert id object, ⟨id, change⟩ :: s.log⟩

/-- Remove an object and log that it is gone. -/
def remove (s : Store) (id : ObjectId) : Store :=
  ⟨s.objects.erase id, ⟨id, .deleted⟩ :: s.log⟩

/-- The object of a kind and key, which has to be present. -/
def find (s : Store) (id : ObjectId) : Except RegistryError Object :=
  match s.get? id with
  | some object => .ok object
  | none => .error (.notFound (.object id))

/-- Store a new object. It starts with generation 1 and without a deletion request. -/
def create (s : Store) (object : Object) : Except RegistryError (Object × Store) :=
  if s.objects.contains object.id then
    .error (.conflict (.object object.id))
  else
    let stored := object.mapInfo fun m => { m with generation := 1, deletionRequested := false }
    .ok (stored, s.write object.id stored .created)

/-- Replace the specification. The generation grows when the specification differs. -/
def update (s : Store) (object : Object) : Except RegistryError (Object × Store) := do
  let stored ← s.find object.id
  if stored.specDiffers object then
    match stored.copySpec? object with
    | some changed =>
      let changed := changed.mapInfo fun m => { m with generation := m.generation + 1 }
      return (changed, s.write object.id changed .specUpdated)
    | none => throw (.store (.wrongKind object.id))
  else
    return (stored, s)

/-- Replace the status. -/
def updateStatus (s : Store) (object : Object) : Except RegistryError Store := do
  let stored ← s.find object.id
  match stored.copyStatus? object with
  | some changed => return s.write object.id changed .statusUpdated
  | none => throw (.store (.wrongKind object.id))

/-- Request deletion. An object without finalizers goes at once; on any other the request is noted,
once. -/
def delete (s : Store) (id : ObjectId) : Except RegistryError Store := do
  let stored ← s.find id
  if stored.info.finalizers.isEmpty then
    return s.remove id
  else if stored.info.deletionRequested then
    return s
  else
    return s.write id (stored.mapInfo fun m => { m with deletionRequested := true })
      .deletionRequested

/-- Put a finalizer on an object unless it carries it. -/
def addFinalizer (s : Store) (id : ObjectId) (finalizer : String) : Except RegistryError Store := do
  let stored ← s.find id
  if stored.info.hasFinalizer finalizer then
    return s
  else
    let marked := stored.mapInfo fun m => { m with finalizers := m.finalizers ++ [finalizer] }
    return { s with objects := s.objects.insert id marked }

/-- Take a finalizer off an object. With the last one goes an object whose deletion was requested. -/
def removeFinalizer (s : Store) (id : ObjectId) (finalizer : String) :
    Except RegistryError Store := do
  let stored ← s.find id
  let left := stored.info.finalizers.filter (· != finalizer)
  if stored.info.deletionRequested && left.isEmpty then
    return s.remove id
  else
    return { s with objects := s.objects.insert id (stored.mapInfo fun m =>
      { m with finalizers := left }) }

end Store

end AddressRegistry
