import AddressRegistry.Proofs.Allocation.Operations
import AddressRegistry.Proofs.InPlace
import AddressRegistry.Reconcile.Effect

/-!
# Scopes do not interfere

Whoever works with the indexes calls the registry on one scope at a time (`ScopeCall`). A call sees the object
store and the index of its own scope (`Controller.serve_of_sameAt`), and leaves the store and every other index
as they were (`Controller.sameAt_serve`). So the calls on one scope get the answers that they would get without
the calls on the others in between, and leave the index that they would leave
(`Controller.scopes_do_not_interfere`).

Two runs are compared, and the relation that carries the induction is agreement about one scope
(`Controller.SameAt`): the calls that one run makes and the other does not concern other scopes.
-/

namespace AddressRegistry

/-! ## One scope of the indexes -/

namespace ScopeIndexes

variable {indexes indexes' : ScopeIndexes} {access : Access} {key key' : ObjectKey}
variable {ε α : Type} {x : Except ε (α × ScopeIndexes)}

/-- What an outcome shows of one scope. -/
def showing (key : ObjectKey) (x : Except ε (α × ScopeIndexes)) : Except ε (α × Option RouteIndex) :=
  x.map fun answer => (answer.1, answer.2.get? key)

/-- Whether a scope has an index is seen at the scope. -/
theorem contains_congr (h : indexes.get? key = indexes'.get? key) :
    indexes.contains key = indexes'.contains key :=
  congrArg Option.isSome h

/-- The index of a scope is found at the scope. -/
theorem find_congr (h : indexes.get? key = indexes'.get? key) : indexes.find key = indexes'.find key := by
  unfold find
  rw [h]

/-- Whether a scope is ready is seen at the scope, and in the store. -/
theorem readyScope_congr (h : indexes.get? key = indexes'.get? key) :
    indexes.readyScope access key = indexes'.readyScope access key := by
  unfold readyScope
  rw [contains_congr h]

/-- After a scope was set up it has the index that it had, or an empty one. -/
theorem get?_ensure_self (indexes : ScopeIndexes) (key : ObjectKey) :
    (indexes.ensure key).get? key = some ((indexes.get? key).getD .empty) := by
  unfold ensure SortedMap.contains
  cases h : indexes.get? key with
  | none => exact SortedMap.get?_insert_self _ _ _
  | some index => exact h

/-- Setting up a scope leaves the others alone. -/
theorem get?_ensure_of_ne (indexes : ScopeIndexes) (h : key ≠ key') :
    (indexes.ensure key').get? key = indexes.get? key := by
  unfold ensure
  split
  · rfl
  · exact SortedMap.get?_insert_of_ne _ h

/-- An outcome without an answer. -/
def silently (x : Except ε ScopeIndexes) : Except ε (Unit × ScopeIndexes) :=
  x.map fun changed => ((), changed)

/-- Leaving out an answer that says nothing loses nothing. -/
theorem silently_bind (x : Except ε (Unit × ScopeIndexes)) :
    silently (x.bind fun answer => .ok answer.2) = x := by
  cases x <;> rfl

/-! ### What an operation sees -/

/-- A change of one index shows what it makes of that index. -/
theorem showing_modify (h : indexes.get? key = indexes'.get? key)
    (f : RouteIndex → Except RegistryError (α × RouteIndex)) :
    showing key (indexes.modify key f) = showing key (indexes'.modify key f) := by
  unfold modify
  rw [find_congr h]
  cases indexes'.find key with
  | error e => rfl
  | ok index =>
    show showing key ((f index) >>= fun answer => .ok (answer.1, indexes.insert key answer.2))
      = showing key ((f index) >>= fun answer => .ok (answer.1, indexes'.insert key answer.2))
    cases f index with
    | error e => rfl
    | ok answer =>
      show Except.ok (answer.1, _) = Except.ok (answer.1, _)
      rw [SortedMap.get?_insert_self, SortedMap.get?_insert_self]

/-- An error that becomes a failure shows the same of a scope. -/
theorem showing_lift (x : Except RegistryError (α × ScopeIndexes)) :
    showing key (Failure.lift x) = Failure.lift (showing key x) := by
  cases x <;> rfl

/-- A registration sees the store and the index of its scope. -/
theorem showing_register {r : Registration} (h : indexes.get? r.scopeKey = indexes'.get? r.scopeKey) :
    showing r.scopeKey (indexes.register access r) = showing r.scopeKey (indexes'.register access r) := by
  unfold register
  rw [readyScope_congr h]
  cases indexes'.readyScope access r.scopeKey with
  | error f => rfl
  | ok scope =>
    show showing _ (Failure.lift _) = showing _ (Failure.lift _)
    rw [showing_lift, showing_lift, showing_modify h]

/-- A release sees the store and the index of its scope. -/
theorem showing_deregister {r : Registration} (h : indexes.get? r.scopeKey = indexes'.get? r.scopeKey) :
    showing r.scopeKey (silently (indexes.deregister access r))
      = showing r.scopeKey (silently (indexes'.deregister access r)) := by
  unfold deregister
  rw [readyScope_congr h]
  cases indexes'.readyScope access r.scopeKey with
  | error f => rfl
  | ok scope =>
    cases r.persistedNetwork with
    | error e => rfl
    | ok persisted =>
      cases persisted with
      | none =>
        show Except.ok ((), indexes.get? r.scopeKey) = Except.ok ((), indexes'.get? r.scopeKey)
        rw [h]
      | some network =>
        show showing _ (silently ((Failure.lift (indexes.modify r.scopeKey _)).bind fun answer =>
            Except.ok answer.2))
          = showing _ (silently ((Failure.lift (indexes'.modify r.scopeKey _)).bind fun answer =>
            Except.ok answer.2))
        rw [silently_bind, silently_bind, showing_lift, showing_lift, showing_modify h]

/-- A search by labels sees the index of its scope. -/
theorem lookup_congr {r : Registration} (h : indexes.get? r.scopeKey = indexes'.get? r.scopeKey) :
    indexes.lookup r = indexes'.lookup r := by
  unfold lookup
  rw [find_congr h]

/-- The networks around and inside one are those of its scope. -/
theorem usage_congr (h : indexes.get? key = indexes'.get? key) (n : Network) :
    indexes.usage key n = indexes'.usage key n := by
  unfold usage
  rw [find_congr h]

/-- A declaration sees the index of its scope, and the pool comes back as it does for any index. -/
theorem showing_declare (h : indexes.get? key = indexes'.get? key) (pool : Pool) :
    (indexes.declare key pool).1 = (indexes'.declare key pool).1 ∧
      showing key (indexes.declare key pool).2 = showing key (indexes'.declare key pool).2 := by
  unfold declare
  cases Network.parse pool.spec.network with
  | error e => exact ⟨rfl, rfl⟩
  | ok network => exact ⟨rfl, showing_modify h _⟩

/-- Taking a declaration back sees the index of its scope. -/
theorem showing_retract (h : indexes.get? key = indexes'.get? key) (raw : String) :
    showing key (silently (indexes.retract key raw)) = showing key (silently (indexes'.retract key raw)) := by
  unfold retract
  cases Network.parse raw with
  | error e => rfl
  | ok network =>
    dsimp only [bind, Except.bind]
    cases hindex : indexes'.get? key with
    | none =>
      rw [h, hindex]
      show Except.ok ((), indexes.get? key) = Except.ok ((), indexes'.get? key)
      rw [h]
    | some index =>
      rw [h, hindex]
      dsimp only
      cases index.release network with
      | error e => rfl
      | ok released =>
        show Except.ok ((), SortedMap.get? (indexes.insert key released) key)
          = Except.ok ((), SortedMap.get? (indexes'.insert key released) key)
        rw [SortedMap.get?_insert_self, SortedMap.get?_insert_self]

/-! ### What an operation leaves alone -/

/-- An outcome has changed nothing but one scope. -/
def ChangesOnly (indexes : ScopeIndexes) (key : ObjectKey) (x : Except ε (α × ScopeIndexes)) : Prop :=
  ∀ a changed, x = .ok (a, changed) → ∀ key' ≠ key, changed.get? key' = indexes.get? key'

/-- A registration changes the index of its scope at most. -/
theorem changesOnly_register (indexes : ScopeIndexes) (access : Access) (r : Registration) :
    ChangesOnly indexes r.scopeKey (indexes.register access r) := by
  intro _ _ h key' hkey
  obtain ⟨_, _, _, -, -, -, rfl⟩ := register_eq_ok_iff.1 h
  exact SortedMap.get?_insert_of_ne _ hkey

/-- A release changes the index of its scope at most. -/
theorem changesOnly_deregister (indexes : ScopeIndexes) (access : Access) (r : Registration) :
    ChangesOnly indexes r.scopeKey (silently (indexes.deregister access r)) := by
  intro _ _ h key' hkey
  obtain ⟨changed, h, heq⟩ := Except.map_eq_ok_iff.1 h
  cases heq
  obtain ⟨-, ⟨-, rfl⟩ | ⟨_, _, _, -, -, -, rfl⟩⟩ := deregister_eq_ok_iff.1 h
  · rfl
  · exact SortedMap.get?_insert_of_ne _ hkey

/-- A declaration changes the index of its scope at most. -/
theorem changesOnly_declare (indexes : ScopeIndexes) (key : ObjectKey) (pool : Pool) :
    ChangesOnly indexes key (indexes.declare key pool).2 := by
  intro _ _ h key' hkey
  obtain ⟨-, _, _, -, -, rfl⟩ := declare_eq_ok_iff.1 h
  exact SortedMap.get?_insert_of_ne _ hkey

/-- Taking a declaration back changes the index of its scope at most. -/
theorem changesOnly_retract (indexes : ScopeIndexes) (key : ObjectKey) (raw : String) :
    ChangesOnly indexes key (silently (indexes.retract key raw)) := by
  intro _ _ h key' hkey
  obtain ⟨changed, h, heq⟩ := Except.map_eq_ok_iff.1 h
  cases heq
  obtain ⟨_, -, ⟨-, rfl⟩ | ⟨_, _, -, -, rfl⟩⟩ := retract_eq_ok_iff.1 h
  · rfl
  · exact SortedMap.get?_insert_of_ne _ hkey

end ScopeIndexes

/-! ## Calls -/

/-- A call on one scope. -/
inductive ScopeCall where
  /-- Give the scope an index. -/
  | init (scope : ObjectKey)
  /-- Drop the index of the scope. -/
  | drop (scope : ObjectKey)
  | register (r : Registration)
  | deregister (r : Registration)
  | lookup (r : Registration)
  | declare (scope : ObjectKey) (pool : Pool)
  | retract (scope : ObjectKey) (network : String)
  | usage (scope : ObjectKey) (network : Network)

/-- The scope that a call is on. -/
def ScopeCall.scope : ScopeCall → ObjectKey
  | .init scope | .drop scope | .declare scope _ | .retract scope _ | .usage scope _ => scope
  | .register r | .deregister r | .lookup r => r.scopeKey

/-- What the caller gets back. -/
inductive ScopeAnswer where
  /-- Whether the call created or dropped an index. -/
  | changed (index : Bool)
  | registered (outcome : Except Failure Network)
  | deregistered (outcome : Except Failure Unit)
  | found (outcome : Except RegistryError (Option Network))
  /-- The pool comes back with the labels of its declaration. -/
  | declared (pool : Pool) (outcome : Except RegistryError Network)
  | retracted (outcome : Except RegistryError Unit)
  | used (outcome : Except RegistryError Usage)

namespace Controller

variable {c c' : Controller} {key : ObjectKey} {call : ScopeCall}

/-- The answer of an outcome, and the controller with the indexes that it leaves. -/
def settle {ε α : Type} (c : Controller) (x : Except ε (α × ScopeIndexes)) : Except ε α × Controller :=
  (x.map (·.1), { c with indexes := c.indexes.after x })

/-- Answer a call. -/
def serve (c : Controller) : ScopeCall → ScopeAnswer × Controller
  | .init scope => (.changed (!c.indexes.contains scope), c.initScope scope)
  | .drop scope => (.changed (c.indexes.contains scope), c.dropScope scope)
  | .register r => (c.settle (c.indexes.register c.access r)).map .registered id
  | .deregister r =>
    (c.settle (ScopeIndexes.silently (c.indexes.deregister c.access r))).map .deregistered id
  | .lookup r => (.found (c.indexes.lookup r), c)
  | .declare scope pool =>
    (c.settle (c.indexes.declare scope pool).2).map (.declared (c.indexes.declare scope pool).1) id
  | .retract scope network =>
    (c.settle (ScopeIndexes.silently (c.indexes.retract scope network))).map .retracted id
  | .usage scope network => (.used (c.indexes.usage scope network), c)

/-- Answer one call after the other. -/
def serveAll (c : Controller) : List ScopeCall → List (ScopeCall × ScopeAnswer) × Controller
  | [] => ([], c)
  | call :: calls => ((c.serve call).2.serveAll calls).map ((call, (c.serve call).1) :: ·) id

/-- Two controllers have the same store and the same index of a scope. -/
structure SameAt (key : ObjectKey) (c c' : Controller) : Prop where
  access : c'.access = c.access
  index : c'.indexes.get? key = c.indexes.get? key

/-- A controller agrees with itself about every scope. -/
theorem SameAt.refl (key : ObjectKey) (c : Controller) : SameAt key c c := ⟨rfl, rfl⟩

/-- Agreement about a scope has no direction. -/
theorem SameAt.symm (h : SameAt key c c') : SameAt key c' c := ⟨h.access.symm, h.index.symm⟩

/-- Agreement about a scope is transitive. -/
theorem SameAt.trans {c'' : Controller} (h : SameAt key c c') (h' : SameAt key c' c'') : SameAt key c c'' :=
  ⟨h'.access.trans h.access, h'.index.trans h.index⟩

/-- Outcomes that show the same of a scope give the same answer and leave the same behind. -/
theorem SameAt.settle {ε α : Type} {x x' : Except ε (α × ScopeIndexes)} (h : SameAt key c c')
    (hx : ScopeIndexes.showing key x = ScopeIndexes.showing key x') :
    (c.settle x).1 = (c'.settle x').1 ∧ SameAt key (c.settle x).2 (c'.settle x').2 := by
  cases x with
  | error e =>
    cases x' with
    | error e' =>
      cases hx
      exact ⟨rfl, h.access, h.index⟩
    | ok _ => cases hx
  | ok answer =>
    cases x' with
    | error _ => cases hx
    | ok answer' =>
      obtain ⟨hanswer, hindex⟩ := Prod.mk.inj (Except.ok.inj hx)
      exact ⟨congrArg Except.ok hanswer, h.access, hindex.symm⟩

/-- An outcome that changed one scope only leaves the controller in agreement about the others. -/
theorem sameAt_settle {ε α : Type} {scope : ObjectKey} {x : Except ε (α × ScopeIndexes)}
    (hx : ScopeIndexes.ChangesOnly c.indexes scope x) (hkey : key ≠ scope) :
    SameAt key c (c.settle x).2 := by
  cases x with
  | error e => exact ⟨rfl, rfl⟩
  | ok answer => exact ⟨rfl, hx answer.1 answer.2 rfl key hkey⟩

/-- A call sees the store and the index of its scope. -/
theorem serve_of_sameAt (h : SameAt call.scope c c') :
    (c.serve call).1 = (c'.serve call).1 ∧ SameAt call.scope (c.serve call).2 (c'.serve call).2 := by
  cases call with
  | init scope =>
    have hindex : c.indexes.get? scope = c'.indexes.get? scope := h.index.symm
    refine ⟨?_, h.access, ?_⟩
    · show ScopeAnswer.changed (!c.indexes.contains scope) = .changed (!c'.indexes.contains scope)
      rw [ScopeIndexes.contains_congr hindex]
    · show (c'.indexes.ensure scope).get? scope = (c.indexes.ensure scope).get? scope
      rw [ScopeIndexes.get?_ensure_self, ScopeIndexes.get?_ensure_self, hindex]
  | drop scope =>
    refine ⟨congrArg ScopeAnswer.changed (ScopeIndexes.contains_congr h.index.symm), h.access, ?_⟩
    exact (SortedMap.get?_erase_self _ _).trans (SortedMap.get?_erase_self _ _).symm
  | register r =>
    have hshown : ScopeIndexes.showing r.scopeKey (c.indexes.register c.access r)
        = ScopeIndexes.showing r.scopeKey (c'.indexes.register c'.access r) := by
      rw [h.access]
      exact ScopeIndexes.showing_register h.index.symm
    obtain ⟨hanswer, hsame⟩ := h.settle hshown
    exact ⟨congrArg ScopeAnswer.registered hanswer, hsame⟩
  | deregister r =>
    have hshown : ScopeIndexes.showing r.scopeKey (ScopeIndexes.silently (c.indexes.deregister c.access r))
        = ScopeIndexes.showing r.scopeKey (ScopeIndexes.silently (c'.indexes.deregister c'.access r)) := by
      rw [h.access]
      exact ScopeIndexes.showing_deregister h.index.symm
    obtain ⟨hanswer, hsame⟩ := h.settle hshown
    exact ⟨congrArg ScopeAnswer.deregistered hanswer, hsame⟩
  | lookup r => exact ⟨congrArg ScopeAnswer.found (ScopeIndexes.lookup_congr h.index.symm), h⟩
  | declare scope pool =>
    obtain ⟨hpool, hshown⟩ := ScopeIndexes.showing_declare h.index.symm pool
    obtain ⟨hanswer, hsame⟩ := h.settle hshown
    exact ⟨congrArg₂ ScopeAnswer.declared hpool hanswer, hsame⟩
  | retract scope network =>
    obtain ⟨hanswer, hsame⟩ := h.settle (ScopeIndexes.showing_retract h.index.symm network)
    exact ⟨congrArg ScopeAnswer.retracted hanswer, hsame⟩
  | usage scope network =>
    exact ⟨congrArg ScopeAnswer.used (ScopeIndexes.usage_congr h.index.symm network), h⟩

/-- A call leaves the store and the other scopes alone. -/
theorem sameAt_serve (c : Controller) (h : key ≠ call.scope) : SameAt key c (c.serve call).2 := by
  cases call with
  | init scope => exact ⟨rfl, ScopeIndexes.get?_ensure_of_ne _ h⟩
  | drop scope => exact ⟨rfl, SortedMap.get?_erase_of_ne h⟩
  | register r => exact sameAt_settle (ScopeIndexes.changesOnly_register _ _ r) h
  | deregister r => exact sameAt_settle (ScopeIndexes.changesOnly_deregister _ _ r) h
  | lookup r => exact .refl key c
  | declare scope pool => exact sameAt_settle (ScopeIndexes.changesOnly_declare _ scope pool) h
  | retract scope network => exact sameAt_settle (ScopeIndexes.changesOnly_retract _ scope network) h
  | usage scope network => exact .refl key c

/-! ## Runs -/

/-- The calls on a scope. -/
def callsOn (key : ObjectKey) (calls : List ScopeCall) : List ScopeCall :=
  calls.filter fun call => call.scope = key

/-- The answers to the calls on a scope. -/
def answersOn (key : ObjectKey) (answers : List (ScopeCall × ScopeAnswer)) :
    List (ScopeCall × ScopeAnswer) :=
  answers.filter fun answer => answer.1.scope = key

/-- Two runs that begin with agreement about a scope keep it, when one makes all calls and the other only those
on the scope. -/
theorem SameAt.serveAll (h : SameAt key c c') (calls : List ScopeCall) :
    answersOn key (c.serveAll calls).1 = (c'.serveAll (callsOn key calls)).1 ∧
      SameAt key (c.serveAll calls).2 (c'.serveAll (callsOn key calls)).2 := by
  induction calls generalizing c c' with
  | nil => exact ⟨rfl, h⟩
  | cons call calls ih =>
    by_cases hkey : call.scope = key
    · subst hkey
      obtain ⟨hanswer, hsame⟩ := serve_of_sameAt h
      obtain ⟨hanswers, hfinal⟩ := ih hsame
      have hcalls : callsOn call.scope (call :: calls) = call :: callsOn call.scope calls :=
        List.filter_cons_of_pos (by simp)
      rw [hcalls]
      refine ⟨?_, hfinal⟩
      show answersOn call.scope ((call, (c.serve call).1) :: _) = (call, (c'.serve call).1) :: _
      rw [← hanswer, ← hanswers]
      exact List.filter_cons_of_pos (by simp)
    · obtain ⟨hanswers, hfinal⟩ := ih ((sameAt_serve c (Ne.symm hkey)).symm.trans h)
      have hcalls : callsOn key (call :: calls) = callsOn key calls :=
        List.filter_cons_of_neg (by simpa using hkey)
      rw [hcalls]
      refine ⟨?_, hfinal⟩
      rw [← hanswers]
      exact List.filter_cons_of_neg (by simpa using hkey)

/-- **Scopes do not interfere.** Whatever calls are made on the scopes, in whatever order, the calls on one
scope are answered as if no others had been made, and the scope ends with the same index. -/
theorem scopes_do_not_interfere (c : Controller) (calls : List ScopeCall) (key : ObjectKey) :
    answersOn key (c.serveAll calls).1 = (c.serveAll (callsOn key calls)).1 ∧
      (c.serveAll calls).2.indexes.get? key = (c.serveAll (callsOn key calls)).2.indexes.get? key := by
  obtain ⟨hanswers, hsame⟩ := (SameAt.refl key c).serveAll calls
  exact ⟨hanswers, hsame.index.symm⟩

end Controller

end AddressRegistry
