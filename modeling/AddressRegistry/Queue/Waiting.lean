import AddressRegistry.Queue.Basic

/-!
# Workers waiting at a queue

Workers that find a queue empty sleep until a signal. A signal for one wakes the worker that has slept
longest, or is kept, once, for the next one to fall asleep; the signal of a shutdown wakes all. A woken
worker looks at the queue again and may go back to sleep.

Workers are numbered; a step of the queue is followed by the woken workers looking again, in the order
in which they were woken.
-/

namespace AddressRegistry

/-- A queue, a clock and the workers waiting. -/
structure WaitingRoom where
  queue : WorkQueue
  now : Nat
  /-- A signal that found nobody asleep. -/
  permit : Bool
  /-- The workers asleep, the one that has slept longest first. -/
  asleep : List Nat
  /-- The workers that were woken and have not looked yet. -/
  awake : List Nat
deriving DecidableEq

namespace WaitingRoom

/-- An empty queue without workers at time zero. -/
def empty : WaitingRoom := ⟨.empty, 0, false, [], []⟩

/-- Signal that one key came in. -/
def signalOne (r : WaitingRoom) : WaitingRoom :=
  match r.asleep with
  | w :: rest => { r with asleep := rest, awake := r.awake ++ [w] }
  | [] => { r with permit := true }

/-- Wake everyone. -/
def signalAll (r : WaitingRoom) : WaitingRoom :=
  { r with asleep := [], awake := r.awake ++ r.asleep }

/-- Add a key. -/
def add (r : WaitingRoom) (key : ObjectKey) : WaitingRoom :=
  let changed := { r with queue := r.queue.add key }
  if r.queue.admits key then changed.signalOne else changed

/-- A worker is done with a key. -/
def done (r : WaitingRoom) (key : ObjectKey) : WaitingRoom :=
  let changed := { r with queue := r.queue.done key }
  if r.queue.returns key then changed.signalOne else changed

/-- Add a key once a delay is over. -/
def addAfter (r : WaitingRoom) (key : ObjectKey) (delay : Nat) : WaitingRoom :=
  { r with queue := r.queue.addAfter r.now key delay }

/-- Accept no more keys and wake everyone. -/
def shutdown (r : WaitingRoom) : WaitingRoom :=
  { r with queue := r.queue.shutdown }.signalAll

/-- Ask once for a key, without falling asleep. A kept signal is used up when nothing is waiting. -/
def poll (r : WaitingRoom) : Turn × WaitingRoom :=
  match r.queue.take with
  | (.pending, queue) => (.pending, { r with queue, permit := false })
  | (turn, queue) => (turn, { r with queue })

/-- A worker looks at the queue. It leaves with an answer or falls asleep; a kept signal only makes it
look twice. -/
def look (r : WaitingRoom) (worker : Nat) : Option (Option ObjectKey) × WaitingRoom :=
  match r.poll with
  | (.key key, r) => (some (some key), r)
  | (.closed, r) => (some none, r)
  | (.pending, r) => (none, { r with asleep := r.asleep ++ [worker] })

/-- A timer ends. -/
def expire (r : WaitingRoom) (t : Timer) : WaitingRoom :=
  let changed := { r with queue := r.queue.expire t }
  if r.queue.isCurrent t && r.queue.admits t.key then changed.signalOne else changed

/-- End the timers that are due. -/
def expireDue (r : WaitingRoom) : WaitingRoom :=
  let due := r.queue.timers.takeWhile fun t => t.deadline ≤ r.now
  let left := r.queue.timers.dropWhile fun t => t.deadline ≤ r.now
  due.foldl expire { r with queue := { r.queue with timers := left } }

/-- The woken workers look, in their order; the answers of those that leave. -/
def lookAll (r : WaitingRoom) : List (Option ObjectKey) × WaitingRoom :=
  r.awake.foldl
    (fun (answers, r) worker =>
      match r.look worker with
      | (some answer, r) => (answers ++ [answer], r)
      | (none, r) => (answers, r))
    ([], { r with awake := [] })

/-- What follows every step: due timers end and woken workers look. -/
def settle (r : WaitingRoom) : List (Option ObjectKey) × WaitingRoom :=
  r.expireDue.lookAll

/-- The clock moves on. -/
def advance (r : WaitingRoom) (duration : Nat) : WaitingRoom :=
  { r with now := r.now + duration }

/-- A worker arrives; it looks before the step ends. -/
def arrive (r : WaitingRoom) (worker : Nat) : WaitingRoom :=
  { r with awake := r.awake ++ [worker] }

end WaitingRoom

end AddressRegistry
