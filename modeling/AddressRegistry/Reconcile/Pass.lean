import AddressRegistry.Reconcile.Effect

/-!
# One pass over an object

A pass fetches an object, undoes its effect if deletion was requested, and otherwise puts the finalizer
on it, checks its name and its parent, applies its effect, writes its status and wakes what depends on
it if a dependent could see the difference. It ends with the delay until the next pass.

Failures of the object itself go to its status. Only failures of the store end a pass without an
outcome; what was done before stays done.
-/

namespace AddressRegistry

/-- How a pass ended. -/
structure Outcome where
  phase : Phase
  ready : Bool
  /-- The reason of a failure. -/
  reason : Option String
  /-- When to look again, in milliseconds; never for an object that is gone. -/
  requeueAfter : Option Nat
deriving DecidableEq

/-- The outcome for an object that is gone. -/
def Outcome.removed : Outcome := ⟨.removed, false, none, none⟩

/-- What the evaluation of an object came to. -/
inductive Verdict where
  | ready
  /-- It stopped in a phase with an error. -/
  | stuck (phase : Phase) (error : RegistryError)
deriving DecidableEq

namespace Verdict

/-- Whether an object is ready. -/
def isReady : Verdict → Bool
  | .ready => true
  | .stuck _ _ => false

/-- The phase that a verdict puts an object in. -/
def phase : Verdict → Phase
  | .ready => .ready
  | .stuck phase _ => phase

/-- The reason that an outcome reports. -/
def failure? : Verdict → Option String
  | .ready => none
  | .stuck _ e => some e.reason

/-- The reason that a condition shows. -/
def reason : Verdict → String
  | .ready => "Ready"
  | .stuck _ e => e.reason

/-- The message that a condition shows. -/
def message : Verdict → String
  | .ready => ""
  | .stuck _ e => e.message

/-- The verdict on a result that stops in a phase. A crash is none. -/
def ofResult? (phase : Phase) : Except Failure Unit → Option Verdict
  | .ok () => some .ready
  | .error (.refused e) => some (.stuck phase e)
  | .error .crashed => none

end Verdict

namespace Controller

/-- Put the registry's finalizer on an object unless it carries it. -/
def ensureFinalizer (c : Controller) (id : ObjectId) (object : Object) :
    Except Failure (Object × Controller) := do
  if object.info.hasFinalizer finalizerName then
    return (object, c)
  else
    let access ← c.access.addFinalizer id finalizerName
    let marked := object.mapInfo fun m => { m with finalizers := m.finalizers ++ [finalizerName] }
    return (marked, { c with access })

/-- Check name and parent of an object and apply its effect. Without a verdict the pass crashed. -/
def evaluate (c : Controller) (object : Object) : Option Verdict × Object × Controller :=
  match ResourceName.parse object.kind object.info.name with
  | .error e => (some (.stuck .pending e), object, c)
  | .ok name =>
    let placed := object.mapStatus fun s => { s with placement := name.placement }
    match c.checkParent placed with
    | .error f => (Verdict.ofResult? .pending (.error f), placed, c)
    | .ok () =>
      match c.apply placed with
      | (result, object, c) => (Verdict.ofResult? .initializing result, object, c)

/-- Write readiness, reason and message of a verdict to an object; the clock is read when the
readiness changes. -/
def recordVerdict (c : Controller) (object : Object) (v : Verdict) : Object × Controller :=
  let changes := object.status.condition.changes v.isReady
  (object.mapStatus fun s =>
    { s with
      phase := v.phase
      condition := s.condition.set c.time v.isReady v.reason v.message },
    if changes then { c with readings := c.readings + 1 } else c)

/-- Write the status of an object to the store. -/
def saveStatus (c : Controller) (object : Object) : Except Failure Controller :=
  (c.access.updateStatus object).map fun access => { c with access }

/-- Whether dependents could see a difference: in readiness, or in the network of a claim. -/
def differsForDependents : (before after : Object) → Bool
  | .claim a, .claim b =>
    a.status.common.condition.ready != b.status.common.condition.ready
      || a.status.network != b.status.network
  | a, b => a.isReady != b.isReady

/-- The delay until the next pass. What only an operator can mend waits as long as what is ready. -/
def delayAfter (c : Controller) (retryName : String) : Verdict → Nat × Controller
  | .ready => (c.ladder.policy.poll, c)
  | .stuck _ e =>
    if e.needsOperator then
      (c.ladder.policy.poll, c)
    else
      let (delay, ladder) := c.ladder.next retryName
      (delay, { c with ladder })

/-- Report a verdict: status, dependents, next delay. -/
def report (c : Controller) (id : ObjectId) (before after : Object) (v : Verdict) :
    Except Failure Outcome × Controller :=
  let observed := after.mapStatus fun s => { s with observedGeneration := after.info.generation }
  let (object, c) := c.recordVerdict observed v
  match (if object = before then .ok c else c.saveStatus object) with
  | .error f => (.error f, c)
  | .ok c =>
    match (if differsForDependents before object then c.tryFanOut id else (.ok (), c)) with
    | (.error f, c) => (.error f, c)
    | (.ok (), c) =>
      let (delay, c) := c.delayAfter (id.kind.retryName id.key) v
      (.ok ⟨v.phase, v.isReady, v.failure?, some delay⟩, c)

/-- The effect of an object is undone: take the finalizer off and forget the object. -/
def finish (c : Controller) (id : ObjectId) (object : Object) :
    Except Failure Outcome × Controller :=
  match c.access.removeFinalizer object.id finalizerName with
  | .error f => (.error f, c)
  | .ok access =>
    let ladder := c.ladder.forget (id.kind.retryName id.key)
    match { c with access, ladder }.tryFanOut object.id with
    | (.error f, c) => (.error f, c)
    | (.ok (), c) => (.ok .removed, c)

/-- The effect of an object could not be undone: note it and try again later. -/
def postpone (c : Controller) (id : ObjectId) (object : Object) (e : RegistryError) :
    Except Failure Outcome × Controller :=
  let (object, c) := c.recordVerdict object (.stuck .terminating e)
  match c.saveStatus object with
  | .error f => (.error f, c)
  | .ok c =>
    let (delay, ladder) := c.ladder.next (id.kind.retryName id.key)
    (.ok ⟨.terminating, false, some e.reason, some delay⟩, { c with ladder })

/-- A pass over an object whose deletion was requested. -/
def finalize (c : Controller) (id : ObjectId) (object : Object) :
    Except Failure Outcome × Controller :=
  match c.undo object with
  | .ok c => c.finish id object
  | .error (.refused e) => c.postpone id object e
  | .error .crashed => (.error .crashed, c)

/-- A pass over an object that is to stay. -/
def maintain (c : Controller) (id : ObjectId) (object : Object) :
    Except Failure Outcome × Controller :=
  match c.ensureFinalizer id object with
  | .error f => (.error f, c)
  | .ok (before, c) =>
    match c.evaluate before with
    | (some v, after, c) => c.report id before after v
    | (none, _, c) => (.error .crashed, c)

/-- One pass over an object. -/
def reconcile (c : Controller) (id : ObjectId) : Except Failure Outcome × Controller :=
  match c.access.fetch id.kind id.key with
  | .error f => (.error f, c)
  | .ok none => (.ok .removed, { c with ladder := c.ladder.forget (id.kind.retryName id.key) })
  | .ok (some object) =>
    if object.info.deletionRequested then c.finalize id object else c.maintain id object

end Controller

end AddressRegistry
