import AddressRegistry.Finite.SortedMap
import AddressRegistry.Resource.Kind

/-!
# Work queues

A key waits in a queue at most once. While a worker processes a key, adding it again only marks it; it
is queued when the worker is done, so no two workers process one key at a time.

Adding a key after a delay starts a timer with a token. Only the latest token of a key counts, so of
several delayed additions the last one takes effect.
-/

namespace AddressRegistry

/-- A set of keys. -/
abbrev KeySet := SortedMap ObjectKey Unit

/-- A running timer of a delayed addition. -/
structure Timer where
  deadline : Nat
  key : ObjectKey
  token : Nat
deriving DecidableEq

/-- A queue of keys. -/
structure WorkQueue where
  /-- The keys to hand out, the next one first. -/
  waiting : List ObjectKey
  /-- The keys that were added and not handed out since. -/
  dirty : KeySet
  /-- The keys that workers hold. -/
  processing : KeySet
  /-- The token of the latest delayed addition of a key. -/
  scheduled : SortedMap ObjectKey Nat
  /-- The number of tokens given out. -/
  tokens : Nat
  /-- The running timers by deadline; of equal deadlines the one started earlier comes first. -/
  timers : List Timer
  shutDown : Bool
deriving DecidableEq

/-- What a worker is told that asks for a key. -/
inductive Turn where
  | key (key : ObjectKey)
  /-- The queue is shut down and empty. -/
  | closed
  /-- Nothing is waiting. -/
  | pending
deriving DecidableEq

namespace WorkQueue

/-- The queue without keys. -/
def empty : WorkQueue := ⟨[], .empty, .empty, .empty, 0, [], false⟩

instance : Inhabited WorkQueue := ⟨empty⟩

/-- Whether an added key goes to the waiting ones at once. -/
def admits (q : WorkQueue) (key : ObjectKey) : Bool :=
  !q.shutDown && !q.dirty.contains key && !q.processing.contains key

/-- Add a key unless it is marked; a key that is being processed is only marked. -/
def add (q : WorkQueue) (key : ObjectKey) : WorkQueue :=
  if q.shutDown || q.dirty.contains key then
    q
  else if q.processing.contains key then
    { q with dirty := q.dirty.insert key () }
  else
    { q with dirty := q.dirty.insert key (), waiting := q.waiting ++ [key] }

/-- Hand out the next key. -/
def take (q : WorkQueue) : Turn × WorkQueue :=
  match q.waiting with
  | key :: rest =>
    (.key key,
      { q with
        waiting := rest
        dirty := q.dirty.erase key
        processing := q.processing.insert key () })
  | [] => (if q.shutDown then .closed else .pending, q)

/-- Whether a key goes back to the waiting ones when its worker is done. -/
def returns (q : WorkQueue) (key : ObjectKey) : Bool :=
  q.dirty.contains key && !q.shutDown

/-- A worker is done with a key. -/
def done (q : WorkQueue) (key : ObjectKey) : WorkQueue :=
  { q with
    processing := q.processing.erase key
    waiting := if q.returns key then q.waiting ++ [key] else q.waiting }

/-- Accept no more keys. -/
def shutdown (q : WorkQueue) : WorkQueue := { q with shutDown := true }

/-! ## Delayed additions -/

/-- Put a timer behind those that are due no later. -/
def placeTimer (t : Timer) : List Timer → List Timer
  | [] => [t]
  | u :: rest => if u.deadline ≤ t.deadline then u :: placeTimer t rest else t :: u :: rest

/-- Add a key once a delay is over. -/
def addAfter (q : WorkQueue) (now : Nat) (key : ObjectKey) (delay : Nat) : WorkQueue :=
  if q.shutDown then
    q
  else
    { q with
      tokens := q.tokens + 1
      scheduled := q.scheduled.insert key (q.tokens + 1)
      timers := placeTimer ⟨now + delay, key, q.tokens + 1⟩ q.timers }

/-- When the next timer is due. -/
def nextDeadline? (q : WorkQueue) : Option Nat := q.timers.head?.map (·.deadline)

/-- Whether a timer's token is the latest one of its key. -/
def isCurrent (q : WorkQueue) (t : Timer) : Bool := q.scheduled.get? t.key == some t.token

/-- A timer ends: its key is added if the timer is the latest one of the key. -/
def expire (q : WorkQueue) (t : Timer) : WorkQueue :=
  if q.isCurrent t then { q with scheduled := q.scheduled.erase t.key }.add t.key else q

/-- End every timer that is due, in the order of the deadlines. -/
def expireDue (q : WorkQueue) (now : Nat) : WorkQueue :=
  let due := q.timers.takeWhile fun t => t.deadline ≤ now
  let left := q.timers.dropWhile fun t => t.deadline ≤ now
  due.foldl expire { q with timers := left }

end WorkQueue

end AddressRegistry
