import AddressRegistry.Reconcile.Round

/-!
# A controller at work

An engine runs a controller by small steps: a change of the store is delivered, a worker takes a key
and makes a pass over it, a timer ends. Between the steps anyone may write to the store.

The steps are the engine's; their order is a choice. `Engine.step` takes the earliest possible one of
them, deliveries before passes and parents before children, and time moves only when none is left.
-/

namespace AddressRegistry

/-- How far the run of a controller is. -/
inductive RunStage where
  /-- Nothing was started, or the result was fetched. -/
  | idle
  /-- Started, and not at work yet. -/
  | launched
  | running
  /-- Shut down; the workers finish what is waiting. -/
  | closing
  | ended (result : Except Failure Unit)

/-- A controller, a clock, and how far its run is. -/
structure Engine where
  controller : Controller
  /-- The time in milliseconds. -/
  now : Nat
  /-- The number of changes of the store that were delivered. -/
  delivered : Nat
  stage : RunStage
  /-- Whether workers take keys. -/
  working : Bool
  /-- Whether the shutdown was requested. -/
  signalled : Bool

namespace Engine

/-- An engine that was not started. -/
def initial (controller : Controller) : Engine := ⟨controller, 0, 0, .idle, false, false⟩

/-- The object store. -/
def store (e : Engine) : Store := e.controller.access.store

/-- Replace the object store. -/
def withStore (e : Engine) (store : Store) : Engine :=
  { e with controller := { e.controller with access := { e.controller.access with store } } }

/-- The number of changes that were not delivered. -/
def backlog (e : Engine) : Nat := e.store.log.length - e.delivered

/-- The number of changes that are kept for delivery. When there are more, the oldest are lost. -/
def retained : Nat := 1024

/-! ## Steps -/

/-- Begin the run: later changes will be delivered, and every stored object is queued. When the
objects cannot be listed the run ends with that failure. -/
def commence (e : Engine) : Engine :=
  let e := { e with delivered := e.store.log.length }
  match e.controller.enqueueAll with
  | (.ok _, controller) => { e with controller, stage := .running, working := true }
  | (.error f, controller) => { e with controller, stage := .ended (.error f) }

/-- Shut the queues down. -/
def close (e : Engine) : Engine :=
  { e with
    controller := { e.controller with queues := e.controller.queues.shutdown }
    stage := .closing }

/-- The workers have left. -/
def finish (e : Engine) : Engine := { e with stage := .ended (.ok ()), working := false }

/-- Take over what noting a change came to. Only a crash matters: it ends the run and leaves the
workers alone. -/
def noted (e : Engine) : Except Failure Unit × Controller → Engine
  | (.error .crashed, controller) => { e with controller, stage := .ended (.error .crashed) }
  | (_, controller) => { e with controller }

/-- Changes were lost: queue everything and go on with the oldest change that is kept. -/
def catchUp (e : Engine) : Engine :=
  let (result, controller) := e.controller.enqueueAll
  { e with delivered := e.store.log.length - retained }.noted (result.map fun _ => (), controller)

/-- Deliver the oldest change that was not delivered. -/
def deliver (e : Engine) : Engine :=
  match e.store.log[e.backlog - 1]? with
  | some event => { e with delivered := e.delivered + 1 }.noted (e.controller.observe event)
  | none => e

/-- The delay until the next pass over an object after one that failed. -/
def backoff (c : Controller) (id : ObjectId) : Nat × Controller :=
  let (delay, ladder) := c.ladder.next (id.kind.retryName id.key)
  (delay, { c with ladder })

/-- The end of a worker's pass: the key is done, and added again after the delay, if there is one. -/
def conclude (c : Controller) (now : Nat) (id : ObjectId) (delay : Option Nat) : Controller :=
  c.withQueue id.kind fun q =>
    match delay with
    | some delay => (q.done id.key).addAfter now id.key delay
    | none => q.done id.key

/-- A worker makes a pass over a key it took. A failed or crashed pass is repeated. -/
def pass (e : Engine) (id : ObjectId) : Engine :=
  match e.controller.reconcile id with
  | (.ok outcome, c) => { e with controller := conclude c e.now id outcome.requeueAfter }
  | (.error _, c) =>
    let (delay, c) := backoff c id
    { e with controller := conclude c e.now id (some delay) }

/-- A worker takes the next key of a kind and makes a pass over it. -/
def work? (e : Engine) (kind : Kind) : Option Engine :=
  (e.controller.takeKey kind).map fun (key, controller) => { e with controller }.pass ⟨kind, key⟩

/-- End the timers that are due. -/
def expireDue (e : Engine) : Engine :=
  { e with
    controller := Kind.all.foldl (fun c kind => c.withQueue kind (·.expireDue e.now)) e.controller }

/-- When the next timer is due. -/
def nextDeadline? (e : Engine) : Option Nat :=
  (Kind.all.filterMap fun kind => (e.controller.queues.get kind).nextDeadline?).min?

/-! ## Runs -/

/-- The first kind whose worker has a key to take takes it. -/
def workAny? (e : Engine) : Option Engine :=
  if e.working then Kind.all.findSome? e.work? else none

/-- The earliest step that is possible without the clock moving. -/
def step? (e : Engine) : Option Engine :=
  match e.stage with
  | .launched => some e.commence
  | .running =>
    if e.signalled then some e.close
    else if retained < e.backlog then some e.catchUp
    else if 0 < e.backlog then some e.deliver
    else e.workAny?
  | .closing => some (e.workAny?.getD e.finish)
  | .idle | .ended _ => e.workAny?

/-- Take steps until none is possible, at most `most`. -/
def settle (e : Engine) : (most : Nat) → Engine
  | 0 => e
  | most + 1 =>
    match e.step? with
    | some e => settle e most
    | none => e

/-- Take steps and end timers until a time, at most `most` of them. -/
def runUntil (e : Engine) (time : Nat) : (most : Nat) → Engine
  | 0 => { e with now := time }
  | most + 1 =>
    match e.step? with
    | some e => runUntil e time most
    | none =>
      match e.nextDeadline? with
      | some deadline =>
        if e.working && deadline ≤ time then
          runUntil { e with now := max e.now deadline }.expireDue time most
        else
          { e with now := time }
      | none => { e with now := time }

/-- A number of steps that no run of a duration exceeds: every object has a few passes for each
millisecond, and every change is delivered once. -/
def budget (e : Engine) (duration : Nat) : Nat :=
  64 * (duration + 2) * (e.store.size + e.backlog + e.controller.ladder.policy.cap + 2)
    * (e.store.size + 2)

/-- Let time pass. -/
def advance (e : Engine) (duration : Nat) : Engine :=
  e.runUntil (e.now + duration) (e.budget duration)

/-- Request the shutdown and wait for the end of the run; the answer is its result. -/
def stop (e : Engine) : Except Failure Unit × Engine :=
  let e := { e with signalled := true }
  let e := e.settle (e.budget 0)
  match e.stage with
  | .ended result => (result, { e with stage := .idle })
  | _ => (.ok (), e)

end Engine

end AddressRegistry
