import AddressRegistry.Finite.SortedMap

/-!
# The retry ladder

A failing object is tried again after a delay that grows with the number of its failures: a very short
one first, a short one while the counter is below its cap, and the poll interval from there on. A
change that an object depends on puts its counter back to zero.
-/

namespace AddressRegistry

/-- The delays, in milliseconds, and the cap of the counter. -/
structure RetryPolicy where
  veryShort : Nat
  short : Nat
  poll : Nat
  cap : Nat
deriving DecidableEq

/-- The delay at a counter. -/
def RetryPolicy.delayFor (p : RetryPolicy) (counter : Nat) : Nat :=
  if counter = 0 then p.veryShort else if counter < p.cap then p.short else p.poll

/-- Failure counters by name. -/
structure Ladder where
  policy : RetryPolicy
  counters : SortedMap String Nat
deriving DecidableEq

namespace Ladder

/-- A ladder without entries. -/
def start (policy : RetryPolicy) : Ladder := ⟨policy, .empty⟩

/-- The counter of a name. -/
def counter? (l : Ladder) (name : String) : Option Nat := l.counters.get? name

/-- The delay before the next try, and the ladder one rung higher. A name without an entry starts at
the bottom. -/
def next (l : Ladder) (name : String) : Nat × Ladder :=
  let counter := (l.counter? name).getD 0
  let risen := if counter < l.policy.cap then counter + 1 else counter
  (l.policy.delayFor counter, { l with counters := l.counters.insert name risen })

/-- Back to the bottom. -/
def reset (l : Ladder) (name : String) : Ladder :=
  { l with counters := l.counters.insert name 0 }

/-- Make an entry at the bottom unless there is one. -/
def track (l : Ladder) (name : String) : Ladder :=
  if l.counters.contains name then l else l.reset name

/-- Drop an entry. -/
def forget (l : Ladder) (name : String) : Ladder :=
  { l with counters := l.counters.erase name }

/-- The number of entries. -/
def size (l : Ladder) : Nat := l.counters.size

/-- The number of entries whose counter reached the cap. -/
def saturated (l : Ladder) : Nat :=
  l.counters.values.countP fun c => l.policy.cap ≤ c

end Ladder

end AddressRegistry
