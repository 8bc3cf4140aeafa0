import Mathlib.Logic.Basic

/-!
# Programs that change a state in place

A program that changes a state where it stands keeps what it did before it failed: nothing takes a change
back. `ComesTo` relates such a program to the function that answers the new state together with the result,
and says that a program which fails has changed nothing. What asks before it changes comes to something again
(`ComesTo.asking_bind`), and so does what ends with a step that cannot fail (`ComesTo.bind_sure`); a program
that could still fail after a change would not.
-/

namespace AddressRegistry

/-- Changing the result of a sequence is changing the result of its last step. -/
theorem Except.map_bind {ε α β γ : Type} (x : Except ε α) (f : α → Except ε β) (g : β → γ) :
    (x >>= f).map g = x >>= fun a => (f a).map g := by
  cases x <;> rfl

section

variable {ε σ α β : Type} {s : σ}

/-- Ask something of the state, or check it. -/
def asking (f : σ → Except ε α) : EStateM ε σ α := fun s =>
  match f s with
  | .ok a => .ok a s
  | .error e => .error e s

/-- Put up with some errors. -/
def tolerating (p : EStateM ε σ Unit) (tolerated : ε → Bool) : EStateM ε σ Unit :=
  tryCatch p fun e => if tolerated e then pure () else throw e

/-- From the state `s` the program comes to `x`: when it fails, it has changed nothing. -/
def ComesTo (p : EStateM ε σ α) (s : σ) (x : Except ε (α × σ)) : Prop :=
  p s = match x with
    | .ok (a, s') => .ok a s'
    | .error e => .error e s

namespace ComesTo

/-- A program that asks first, and may fail then, has changed nothing by that; what it does with the answer
decides. -/
theorem asking_bind {f : σ → Except ε α} {k : α → EStateM ε σ β} {g : α → Except ε (β × σ)}
    (h : ∀ a, f s = .ok a → ComesTo (k a) s (g a)) : ComesTo (asking f >>= k) s (f s >>= g) := by
  unfold ComesTo
  show EStateM.bind (asking f) k s = _
  unfold EStateM.bind asking
  cases hf : f s with
  | error e => rfl
  | ok a => exact h a hf

/-- A last step that cannot fail may change whatever it likes. -/
theorem bind_sure {p : EStateM ε σ α} {k : α → EStateM ε σ β} {x : Except ε (α × σ)}
    (h : ComesTo p s x) (b : α → σ → β × σ) (hk : ∀ a s', k a s' = .ok (b a s').1 (b a s').2) :
    ComesTo (p >>= k) s (x.map fun answer => b answer.1 answer.2) := by
  unfold ComesTo at h ⊢
  show EStateM.bind p k s = _
  unfold EStateM.bind
  rw [h]
  cases x with
  | error e => rfl
  | ok answer => exact hk answer.1 answer.2

/-- Nobody looks at the answer. -/
theorem silent {p : EStateM ε σ α} {x : Except ε (α × σ)} (h : ComesTo p s x) :
    ComesTo (p >>= fun _ => pure ()) s ((x.map (·.2)).map fun s' => ((), s')) := by
  have hsure := h.bind_sure (k := fun _ => pure ()) (fun _ s' => ((), s')) fun _ _ => rfl
  unfold ComesTo at hsure ⊢
  refine hsure.trans ?_
  cases x <;> rfl

/-- A program that branches comes to what its branches come to. -/
theorem ite {c : Prop} [Decidable c] {p q : EStateM ε σ α} {x y : Except ε (α × σ)}
    (h : c → ComesTo p s x) (h' : ¬ c → ComesTo q s y) :
    ComesTo (if c then p else q) s (if c then x else y) := by
  split
  · exact h ‹_›
  · exact h' ‹_›

/-- What becomes of an outcome when some errors are put up with. -/
def pardon (tolerated : ε → Bool) (s : σ) : Except ε (Unit × σ) → Except ε (Unit × σ)
  | .ok answer => .ok answer
  | .error e => if tolerated e then .ok ((), s) else .error e

/-- A program whose errors are tolerated has changed nothing where it failed, so it comes to the state
before. -/
theorem tolerating {p : EStateM ε σ Unit} {x : Except ε (Unit × σ)} (h : ComesTo p s x)
    (tolerated : ε → Bool) : ComesTo (tolerating p tolerated) s (pardon tolerated s x) := by
  unfold ComesTo at h ⊢
  show EStateM.tryCatch p _ s = _
  unfold EStateM.tryCatch pardon
  dsimp only
  rw [h]
  cases x with
  | ok answer => rfl
  | error e =>
    dsimp only
    split <;> rfl

end ComesTo

end

end AddressRegistry
