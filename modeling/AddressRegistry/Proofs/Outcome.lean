import AddressRegistry.Allocation.Indexes
import Mathlib.Logic.Basic

/-!
# Steps that may fail

A sequence of steps succeeds when each of its steps does (`Except.bind_eq_ok_iff`) and fails with the
first step that fails (`Except.bind_eq_error_iff`). Errors that become failures keep their outcome
(`Failure.lift_eq_ok_iff`, `Failure.lift_eq_error_iff`).
-/

namespace Except

variable {ε α β : Type} {x : Except ε α} {f : α → Except ε β} {b : β} {e : ε}

/-- Two steps in sequence succeed when the first one does and the second one does with its value. -/
theorem bind_eq_ok_iff : (x >>= f) = .ok b ↔ ∃ a, x = .ok a ∧ f a = .ok b := by
  cases x with
  | error e => exact iff_of_false nofun (fun ⟨_, h, _⟩ => nomatch h)
  | ok a => exact ⟨fun h => ⟨a, rfl, h⟩, fun ⟨_, h, h'⟩ => by cases h; exact h'⟩

/-- Two steps in sequence fail with the error of the first one, or, when that succeeds, with the error of
the second one. No other error comes out. -/
theorem bind_eq_error_iff :
    (x >>= f) = .error e ↔ x = .error e ∨ ∃ a, x = .ok a ∧ f a = .error e := by
  cases x with
  | error e' =>
    constructor
    · intro h
      cases h
      exact Or.inl rfl
    · rintro (h | ⟨_, h, -⟩)
      · cases h
        rfl
      · cases h
  | ok a =>
    constructor
    · intro h
      exact Or.inr ⟨a, rfl, h⟩
    · rintro (h | ⟨_, h, h'⟩)
      · cases h
      · cases h
        exact h'

/-- A value that is changed afterwards comes from a value. -/
theorem map_eq_ok_iff {g : α → β} : x.map g = .ok b ↔ ∃ a, x = .ok a ∧ g a = b := by
  cases x <;> simp [Except.map]

/-- Changing the value leaves an error as it is. -/
theorem map_eq_error_iff {g : α → β} : x.map g = .error e ↔ x = .error e := by
  cases x <;> simp [Except.map]

/-- Whether there is a value does not depend on what is done with it. -/
theorem exists_map_eq_ok_iff {g : α → β} : (∃ b, x.map g = .ok b) ↔ ∃ a, x = .ok a := by
  cases x <;> simp [Except.map]

/-- Forgetting the error leaves the value, if there is one. -/
theorem toOption_eq_some_iff {a : α} : x.toOption = some a ↔ x = .ok a := by
  cases x <;> simp [Except.toOption]

section

variable {p : Prop} [Decidable p] {a : α}

/-- A check lets through what its condition does not hold of. -/
theorem throw_unless_eq_ok_iff : (if p then throw e else x) = .ok a ↔ ¬ p ∧ x = .ok a := by
  split
  · simp [*, throw, throwThe, MonadExceptOf.throw]
  · simp [*]

/-- A guard in front of the rest of a sequence: the rest is not run after the guard has refused, whatever it
is. -/
theorem throw_bind_unless_eq_ok_iff {f : β → Except ε α} :
    (if p then throw e >>= f else x) = .ok a ↔ ¬ p ∧ x = .ok a :=
  throw_unless_eq_ok_iff

end

end Except

namespace AddressRegistry.Failure

variable {α : Type} {x : Except RegistryError α} {a : α} {f : Failure}

/-- Calls of the store or the allocator succeed in a pass as they do by themselves. -/
theorem lift_eq_ok_iff : lift x = .ok a ↔ x = .ok a := by
  cases x <;> simp [lift]

/-- The failure of a pass shows the error of the call that was refused, and a call that is refused makes no
pass crash. -/
theorem lift_eq_error_iff : lift x = .error f ↔ ∃ e, x = .error e ∧ f = .refused e := by
  cases x <;> simp [lift, eq_comm]

end AddressRegistry.Failure
