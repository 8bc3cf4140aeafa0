import AddressRegistry.Allocation.Indexes
import AddressRegistry.Proofs.Outcome
import AddressRegistry.Proofs.Route.Contents

/-!
# Operations on the indexes of all scopes

An operation looks up its scope in the object store and then changes the index of that scope alone.
`readyScope_eq_ok_iff` says when a scope counts as ready; `register_eq_ok_iff`, `deregister_eq_ok_iff`
and `declare_eq_ok_iff` say what an operation that succeeds comes to.
-/

namespace AddressRegistry

/-! ## Looking up the scope -/

namespace Access

variable {store : Store} {kind : Kind} {key : ObjectKey} {scope : Scope} {f : Failure}

/-- Without fault rules the store itself answers. -/
theorem get_of_store (store : Store) (kind : Kind) (key : ObjectKey) :
    (⟨store, []⟩ : Access).get kind key = .ok (store.get? ⟨kind, key⟩) := rfl

/-- Without fault rules a fetch finds what is stored under the key, if it is of the kind. -/
theorem fetch_of_store (store : Store) (kind : Kind) (key : ObjectKey) :
    (⟨store, []⟩ : Access).fetch kind key =
      match store.get? ⟨kind, key⟩ with
      | none => .ok none
      | some o =>
        if o.kind = kind then
          .ok (some o)
        else
          .error (.refused (.store (.wrongKind ⟨kind, key⟩))) := by
  unfold fetch
  rw [get_of_store]
  cases store.get? ⟨kind, key⟩ <;> rfl

/-- A scope is fetched when one is stored under the key. -/
theorem fetchScope_eq_some_iff :
    (⟨store, []⟩ : Access).fetchScope key = .ok (some scope) ↔
      store.get? ⟨.scope, key⟩ = some (.scope scope) := by
  unfold fetchScope
  rw [fetch_of_store]
  cases store.get? ⟨.scope, key⟩ with
  | none => exact iff_of_false nofun nofun
  | some o =>
    cases o with
    | scope s =>
      show Except.ok (some s) = .ok (some scope) ↔ _
      simp
    | tenant _ => exact iff_of_false nofun nofun
    | pool _ => exact iff_of_false nofun nofun
    | claim _ => exact iff_of_false nofun nofun

/-- Without fault rules the fetch of a scope fails only over an object of another kind. -/
theorem fetchScope_eq_error (h : (⟨store, []⟩ : Access).fetchScope key = .error f) :
    f = .refused (.store (.wrongKind ⟨.scope, key⟩)) := by
  unfold fetchScope at h
  rw [fetch_of_store] at h
  rcases Except.bind_eq_error_iff.1 h with h | ⟨o, -, h⟩
  · split at h
    · cases h
    · split at h
      · cases h
      · exact (Except.error.inj h).symm
  · split at h <;> cases h

end Access

/-- A name that cannot be parsed is an invalid input. -/
theorem ResourceName.parse_eq_error {kind : Kind} {name : String} {e : RegistryError}
    (h : ResourceName.parse kind name = .error e) : ∃ fault, e = .invalidInput fault := by
  rw [ResourceName.parse] at h
  split at h
  · exact ⟨_, (Except.error.inj h).symm⟩
  · split at h
    · exact ⟨_, (Except.error.inj h).symm⟩
    · cases h

namespace ScopeIndexes

variable {indexes changed : ScopeIndexes} {access : Access} {key : ObjectKey} {scope : Scope}
variable {r : Registration} {block : Network} {f : Failure}

/-- A scope that is found is ready when it shows that and has an index; otherwise the error says which of
the two is missing. -/
theorem readyScope_of_fetch {name : ResourceName}
    (hname : ResourceName.parse .scope key.name = .ok name)
    (hfetch : access.fetchScope key = .ok (some scope)) :
    indexes.readyScope access key =
      if !scope.status.condition.ready then
        .error (.refused (.notReady (.scopeNotReady key)))
      else if !indexes.contains key then
        .error (.refused (.notReady (.indexMissing key)))
      else
        .ok scope := by
  unfold readyScope
  rw [hname, hfetch]
  rfl

/-- A scope is ready when its name can be read, it is found, it shows that it is ready and it has an index.
-/
theorem readyScope_eq_ok_iff :
    indexes.readyScope access key = .ok scope ↔
      (∃ name, ResourceName.parse .scope key.name = .ok name) ∧
        access.fetchScope key = .ok (some scope) ∧ scope.status.condition.ready = true ∧
          indexes.contains key = true := by
  constructor
  · intro h
    obtain ⟨name, hname, h'⟩ := Except.bind_eq_ok_iff.1 h
    obtain ⟨found, hfetch, h'⟩ := Except.bind_eq_ok_iff.1 h'
    cases found with
    | none => cases h'
    | some s =>
      rw [readyScope_of_fetch (Failure.lift_eq_ok_iff.1 hname) hfetch] at h
      split at h
      · cases h
      · split at h
        · cases h
        · rename_i hready hindex
          cases h
          exact ⟨⟨name, Failure.lift_eq_ok_iff.1 hname⟩, hfetch, by simpa using hready,
            by simpa using hindex⟩
  · rintro ⟨⟨name, hname⟩, hfetch, hready, hindex⟩
    rw [readyScope_of_fetch hname hfetch, hready, hindex]
    rfl

/-- A scope that is ready stays so when its index changes. -/
theorem readyScope_insert (hready : indexes.readyScope access key = .ok scope) (index : RouteIndex) :
    readyScope (indexes.insert key index) access key = .ok scope := by
  obtain ⟨hname, hfetch, hscope, -⟩ := readyScope_eq_ok_iff.1 hready
  refine readyScope_eq_ok_iff.2 ⟨hname, hfetch, hscope, ?_⟩
  unfold SortedMap.contains
  rw [SortedMap.get?_insert_self]
  rfl

/-- Looking up a scope in a store fails for reasons of names, kinds and readiness only. -/
theorem readyScope_eq_error {store : Store}
    (h : indexes.readyScope ⟨store, []⟩ key = .error f) :
    ∃ e, f = .refused e ∧ e.isConflict = false ∧ e.isExhausted = false := by
  rcases Except.bind_eq_error_iff.1 h with hname | ⟨name, hname, h'⟩
  · obtain ⟨e, hparse, rfl⟩ := Failure.lift_eq_error_iff.1 hname
    obtain ⟨fault, rfl⟩ := ResourceName.parse_eq_error hparse
    exact ⟨_, rfl, rfl, rfl⟩
  · rcases Except.bind_eq_error_iff.1 h' with hfetch | ⟨found, hfetch, h'⟩
    · exact ⟨_, Access.fetchScope_eq_error hfetch, rfl, rfl⟩
    · cases found with
      | none =>
        cases h'
        exact ⟨_, rfl, rfl, rfl⟩
      | some scope =>
        rw [readyScope_of_fetch (Failure.lift_eq_ok_iff.1 hname) hfetch] at h
        split at h
        · cases h
          exact ⟨_, rfl, rfl, rfl⟩
        · split at h
          · cases h
            exact ⟨_, rfl, rfl, rfl⟩
          · cases h

/-- A change of a scope's index succeeds when the index is there and allows it. -/
theorem modify_eq_ok_iff {α : Type} {a : α}
    {change : RouteIndex → Except RegistryError (α × RouteIndex)} :
    indexes.modify key change = .ok (a, changed) ↔
      ∃ index index', indexes.get? key = some index ∧ change index = .ok (a, index') ∧
        changed = indexes.insert key index' := by
  unfold modify find
  cases indexes.get? key with
  | none => exact iff_of_false nofun (fun ⟨_, _, h, _⟩ => nomatch h)
  | some index =>
    show ((change index) >>= fun p => Except.ok (p.1, indexes.insert key p.2)) = _ ↔ _
    rw [Except.bind_eq_ok_iff]
    constructor
    · rintro ⟨⟨a', index'⟩, hchange, heq⟩
      cases heq
      exact ⟨index, index', rfl, hchange, rfl⟩
    · rintro ⟨_, index', hindex, hchange, rfl⟩
      cases hindex
      exact ⟨⟨a, index'⟩, hchange, rfl⟩

/-- A registration on all indexes is a registration on the index of a scope that is ready. -/
theorem register_eq_ok_iff :
    indexes.register access r = .ok (block, changed) ↔
      ∃ scope index index', indexes.readyScope access r.scopeKey = .ok scope ∧
        indexes.get? r.scopeKey = some index ∧
          index.register r.scopeKey scope.spec r = .ok (block, index') ∧
            changed = indexes.insert r.scopeKey index' := by
  unfold register
  rw [Except.bind_eq_ok_iff]
  apply exists_congr
  intro scope
  rw [Failure.lift_eq_ok_iff, modify_eq_ok_iff]
  constructor
  · rintro ⟨hready, index, index', hrest⟩
    exact ⟨index, index', hready, hrest⟩
  · rintro ⟨index, index', hready, hrest⟩
    exact ⟨hready, index, index', hrest⟩

/-- A registration on all indexes fails because the scope is not ready, or with the error of the
registration on its index. -/
theorem register_eq_error (h : indexes.register access r = .error f) :
    indexes.readyScope access r.scopeKey = .error f ∨
      ∃ scope e, indexes.readyScope access r.scopeKey = .ok scope ∧ f = .refused e ∧
        ∃ index, indexes.get? r.scopeKey = some index ∧
          index.register r.scopeKey scope.spec r = .error e := by
  rcases Except.bind_eq_error_iff.1 h with h | ⟨scope, hready, h⟩
  · exact Or.inl h
  · obtain ⟨e, hmodify, rfl⟩ := Failure.lift_eq_error_iff.1 h
    refine Or.inr ⟨scope, e, hready, rfl, ?_⟩
    obtain ⟨index, hindex⟩ := Option.isSome_iff_exists.1 (readyScope_eq_ok_iff.1 hready).2.2.2
    refine ⟨index, hindex, ?_⟩
    unfold modify find at hmodify
    rw [hindex] at hmodify
    rcases Except.bind_eq_error_iff.1 hmodify with hfind | ⟨_, hfind, hchange⟩
    · cases hfind
    · cases hfind
      rcases Except.bind_eq_error_iff.1 hchange with hchange | ⟨_, -, hchange⟩
      · exact hchange
      · cases hchange

/-- In a scope that is ready a registration does not crash. -/
theorem register_refused (hready : indexes.readyScope access r.scopeKey = .ok scope)
    (h : indexes.register access r = .error f) : ∃ e, f = .refused e := by
  rcases register_eq_error h with h | ⟨_, e, -, hf, -⟩
  · rw [hready] at h
    cases h
  · exact ⟨e, hf⟩

/-- The indexes after a call: as it answers them, or as they were when it fails. -/
def after {ε α : Type} (indexes : ScopeIndexes) : Except ε (α × ScopeIndexes) → ScopeIndexes
  | .ok (_, changed) => changed
  | .error _ => indexes

/-- A release removes the network that the claim held before, if there is one. -/
theorem deregister_eq_ok_iff :
    indexes.deregister access r = .ok changed ↔
      (∃ scope, indexes.readyScope access r.scopeKey = .ok scope) ∧
        (r.persistedNetwork = .ok none ∧ changed = indexes ∨
          ∃ network index index', r.persistedNetwork = .ok (some network) ∧
            indexes.get? r.scopeKey = some index ∧
              index'.routes = index.routes.erase network.truncate ∧
                changed = indexes.insert r.scopeKey index') := by
  unfold deregister
  rw [Except.bind_eq_ok_iff]
  rw [exists_and_right]
  apply and_congr_right
  intro _
  rw [Except.bind_eq_ok_iff]
  constructor
  · rintro ⟨persisted, hpersisted, h⟩
    have hpersisted := Failure.lift_eq_ok_iff.1 hpersisted
    cases persisted with
    | none =>
      cases h
      exact Or.inl ⟨hpersisted, rfl⟩
    | some network =>
      obtain ⟨⟨⟨⟩, changed'⟩, hmodify, h⟩ := Except.bind_eq_ok_iff.1 h
      cases h
      obtain ⟨index, index', hindex, hrelease, rfl⟩ :=
        modify_eq_ok_iff.1 (Failure.lift_eq_ok_iff.1 hmodify)
      obtain ⟨released, hrelease, heq⟩ := Except.map_eq_ok_iff.1 hrelease
      cases heq
      exact Or.inr ⟨network, index, index', hpersisted, hindex,
        RouteIndex.release_eq_ok_iff.1 hrelease, rfl⟩
  · rintro (⟨hpersisted, rfl⟩ | ⟨network, index, index', hpersisted, hindex, hroutes, rfl⟩)
    · exact ⟨none, Failure.lift_eq_ok_iff.2 hpersisted, rfl⟩
    · refine ⟨some network, Failure.lift_eq_ok_iff.2 hpersisted, Except.bind_eq_ok_iff.2 ?_⟩
      refine ⟨((), indexes.insert r.scopeKey index'), Failure.lift_eq_ok_iff.2 ?_, rfl⟩
      refine modify_eq_ok_iff.2 ⟨index, index', hindex, ?_, rfl⟩
      exact Except.map_eq_ok_iff.2 ⟨index', RouteIndex.release_eq_ok_iff.2 hroutes, rfl⟩

/-- Without fault rules a release does not crash. -/
theorem deregister_eq_error {store : Store} (h : indexes.deregister ⟨store, []⟩ r = .error f) :
    ∃ e, f = .refused e := by
  rcases Except.bind_eq_error_iff.1 h with hready | ⟨scope, -, h⟩
  · obtain ⟨e, rfl, -⟩ := readyScope_eq_error hready
    exact ⟨e, rfl⟩
  · rcases Except.bind_eq_error_iff.1 h with hpersisted | ⟨persisted, -, h⟩
    · obtain ⟨e, -, rfl⟩ := Failure.lift_eq_error_iff.1 hpersisted
      exact ⟨e, rfl⟩
    · cases persisted with
      | none => cases h
      | some network =>
        rcases Except.bind_eq_error_iff.1 h with hmodify | ⟨_, -, h⟩
        · obtain ⟨e, -, rfl⟩ := Failure.lift_eq_error_iff.1 hmodify
          exact ⟨e, rfl⟩
        · cases h

/-- A declaration leaves a route of its network, and every other route as it was. -/
theorem declare_eq_ok_iff {pool : Pool} :
    (indexes.declare key pool).2 = .ok (block, changed) ↔
      Network.parse pool.spec.network = .ok block ∧
        ∃ index index', indexes.get? key = some index ∧
          index.declare block (declarationLabels pool.spec.labels block) = .ok index' ∧
            changed = indexes.insert key index' := by
  unfold declare
  cases Network.parse pool.spec.network with
  | error e => exact iff_of_false nofun (fun h => nomatch h.1)
  | ok network =>
    dsimp only
    rw [modify_eq_ok_iff, Except.ok.injEq]
    constructor
    · rintro ⟨index, index', hindex, hdeclare, rfl⟩
      obtain ⟨declared, hdeclare, heq⟩ := Except.map_eq_ok_iff.1 hdeclare
      cases heq
      exact ⟨rfl, index, index', hindex, hdeclare, rfl⟩
    · rintro ⟨rfl, index, index', hindex, hdeclare, rfl⟩
      exact ⟨index, index', hindex, Except.map_eq_ok_iff.2 ⟨index', hdeclare, rfl⟩, rfl⟩

/-- A retraction removes the route of its network in a scope that has an index. -/
theorem retract_eq_ok_iff {raw : String} :
    indexes.retract key raw = .ok changed ↔
      ∃ network, Network.parse raw = .ok network ∧
        (indexes.get? key = none ∧ changed = indexes ∨
          ∃ index index', indexes.get? key = some index ∧
            index'.routes = index.routes.erase network.truncate ∧
              changed = indexes.insert key index') := by
  unfold retract
  rw [Except.bind_eq_ok_iff]
  apply exists_congr
  intro network
  apply and_congr_right
  intro _
  cases indexes.get? key with
  | none =>
    show Except.ok indexes = .ok changed ↔ _
    simp [eq_comm]
  | some index =>
    show ((index.release network) >>= fun index' => Except.ok (indexes.insert key index')) = _ ↔ _
    rw [Except.bind_eq_ok_iff]
    constructor
    · rintro ⟨index', hrelease, heq⟩
      cases heq
      exact Or.inr ⟨index, index', rfl, RouteIndex.release_eq_ok_iff.1 hrelease, rfl⟩
    · rintro (⟨h, -⟩ | ⟨_, index', h, hroutes, rfl⟩)
      · cases h
      · cases h
        exact ⟨index', RouteIndex.release_eq_ok_iff.2 hroutes, rfl⟩

/-! ## Routes by scope -/

section

variable {key' : ObjectKey} {index : RouteIndex}

/-- The labels of a network's route in the index of a scope, if there is one. -/
def labelsAt (indexes : ScopeIndexes) (key : ObjectKey) (n : Network) : Option Labels :=
  (indexes.get? key).bind fun index => index.routes.get? n

/-- The labels of a route are found in the index of the scope. -/
theorem labelsAt_of_get? (h : indexes.get? key = some index) (n : Network) :
    indexes.labelsAt key n = index.routes.get? n := by
  unfold labelsAt
  rw [h]
  rfl

/-- In a scope whose index was replaced the new one decides. -/
theorem labelsAt_insert_self (indexes : ScopeIndexes) (key : ObjectKey) (index : RouteIndex)
    (n : Network) : ScopeIndexes.labelsAt (indexes.insert key index) key n = index.routes.get? n :=
  labelsAt_of_get? (SortedMap.get?_insert_self _ _ _) n

/-- In the other scopes the old indexes decide. -/
theorem labelsAt_insert_of_ne (indexes : ScopeIndexes) (index : RouteIndex) (h : key ≠ key')
    (n : Network) : ScopeIndexes.labelsAt (indexes.insert key' index) key n = indexes.labelsAt key n := by
  unfold labelsAt
  rw [SortedMap.get?_insert_of_ne _ h]

/-- The network on record has no route after its claim has given it up. -/
theorem labelsAt_of_deregister {access : Access} {r : Registration} {changed : ScopeIndexes} {n : Network}
    (h : indexes.deregister access r = .ok changed) (hpersisted : r.persistedNetwork = .ok (some n))
    (hcanonical : n.IsCanonical) : changed.labelsAt r.scopeKey n = none := by
  obtain ⟨-, ⟨hnone, -⟩ | ⟨m, index, index', hpersisted', -, hroutes, rfl⟩⟩ := deregister_eq_ok_iff.1 h
  · cases hnone.symm.trans hpersisted
  · cases hpersisted.symm.trans hpersisted'
    rw [hcanonical] at hroutes
    rw [labelsAt_insert_self]
    exact (RouteIndex.get?_of_erase hroutes).1

/-- Dropping the index of a scope leaves the routes of the others. -/
theorem labelsAt_erase_of_ne (indexes : ScopeIndexes) (h : key ≠ key') (n : Network) :
    ScopeIndexes.labelsAt (indexes.erase key') key n = indexes.labelsAt key n := by
  unfold labelsAt
  rw [SortedMap.get?_erase_of_ne h]

/-- An index of a scope that was set up was there before or is empty. -/
theorem get?_ensure {key' : ObjectKey} (h : (indexes.ensure key').get? key = some index) :
    indexes.get? key = some index ∨ index = .empty := by
  unfold ensure at h
  split at h
  · exact Or.inl h
  · rw [SortedMap.get?_insert] at h
    split at h
    · exact Or.inr (Option.some.inj h).symm
    · exact Or.inl h

/-- Giving a scope an index takes no route away. -/
theorem labelsAt_ensure {n : Network} {labels : Labels} (h : indexes.labelsAt key n = some labels)
    (key' : ObjectKey) : (indexes.ensure key').labelsAt key n = some labels := by
  unfold ensure
  split
  · exact h
  · rename_i hcontains
    rw [labelsAt_insert_of_ne, h]
    rintro rfl
    unfold labelsAt at h
    unfold SortedMap.contains at hcontains
    cases hget : indexes.get? key with
    | none =>
      rw [hget] at h
      cases h
    | some _ => exact hcontains (by rw [hget]; rfl)

end

end ScopeIndexes

end AddressRegistry
