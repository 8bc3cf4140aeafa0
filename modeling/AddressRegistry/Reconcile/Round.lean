import AddressRegistry.Reconcile.Pass

/-!
# Many passes

Without workers, a controller can go over all stored objects in rounds, parents first, until a round
changes no readiness, or work off the keys that wait in a queue.
-/

namespace AddressRegistry.Controller

/-- Passes over objects of a kind, up to a failure; the answer is whether a readiness changed. -/
def reconcileEach (c : Controller) (kind : Kind) : List Object → Except Failure Bool × Controller
  | [] => (.ok false, c)
  | object :: rest =>
    match c.reconcile ⟨kind, object.key⟩ with
    | (.error f, c) => (.error f, c)
    | (.ok outcome, c) =>
      match reconcileEach c kind rest with
      | (.ok changed, c) => (.ok (outcome.ready != object.isReady || changed), c)
      | (.error f, c) => (.error f, c)

/-- Passes over the objects of several kinds, each kind listed when its turn comes. -/
def reconcileKinds (c : Controller) : List Kind → Except Failure Bool × Controller
  | [] => (.ok false, c)
  | kind :: rest =>
    match c.access.list kind none with
    | .error f => (.error f, c)
    | .ok objects =>
      match c.reconcileEach kind objects with
      | (.error f, c) => (.error f, c)
      | (.ok changed, c) =>
        match reconcileKinds c rest with
        | (.ok more, c) => (.ok (changed || more), c)
        | (.error f, c) => (.error f, c)

/-- Rounds over all objects until one changes no readiness; the answer is their number. -/
def convergeFrom (c : Controller) (done : Nat) : (left : Nat) → Except Failure Nat × Controller
  | 0 => (.ok done, c)
  | left + 1 =>
    match c.reconcileKinds Kind.all with
    | (.error f, c) => (.error f, c)
    | (.ok true, c) => convergeFrom c (done + 1) left
    | (.ok false, c) => (.ok (done + 1), c)

/-- At most `rounds` rounds over all objects. -/
def converge (c : Controller) (rounds : Nat) : Except Failure Nat × Controller :=
  c.convergeFrom 0 rounds

/-- Change the queue of a kind. -/
def withQueue (c : Controller) (kind : Kind) (f : WorkQueue → WorkQueue) : Controller :=
  { c with queues := c.queues.modify kind f }

/-- Hand out the next waiting key of a kind. -/
def takeKey (c : Controller) (kind : Kind) : Option (ObjectKey × Controller) :=
  match (c.queues.get kind).take with
  | (.key key, q) => some (key, c.withQueue kind fun _ => q)
  | _ => none

/-- Take waiting keys of a kind and mark each done, at most `most` times. -/
def drain (c : Controller) (kind : Kind) : (most : Nat) → List ObjectKey × Controller
  | 0 => ([], c)
  | most + 1 =>
    match c.takeKey kind with
    | none => ([], c)
    | some (key, c) =>
      let (keys, c) := drain (c.withQueue kind (·.done key)) kind most
      (key :: keys, c)

/-- Take waiting keys of a kind, make a pass over each and mark it done, at most `most` times. -/
def process (c : Controller) (kind : Kind) :
    (most : Nat) → List (ObjectKey × Except Failure Outcome) × Controller
  | 0 => ([], c)
  | most + 1 =>
    match c.takeKey kind with
    | none => ([], c)
    | some (key, c) =>
      let (result, c) := c.reconcile ⟨kind, key⟩
      let (results, c) := process (c.withQueue kind (·.done key)) kind most
      ((key, result) :: results, c)

end AddressRegistry.Controller
