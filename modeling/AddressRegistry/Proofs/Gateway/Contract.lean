import AddressRegistry.Proofs.Allocation.Registering
import AddressRegistry.Proofs.Allocation.Release
import AddressRegistry.Proofs.Gateway.InPlace
import AddressRegistry.Proofs.Gateway.Restart

/-!
# The contract of registrations and releases

What a caller of the registry may rely on, for every store, all indexes and every registration.

* `ScopeIndexes.register_dynamic_spec` says what a dynamic registration does: which block it registers, and
  that it fails for want of space only when there is none.
* `ScopeIndexes.register_and_release` relates registrations and releases of one claim: a registration may be
  made again, a release undoes the registration that inserted its network, and a release may be made again.

Both speak of the functions that answer the new indexes and of the programs that change a registry where it
stands (`Errand.register`, `Errand.deregister`). Nothing takes a change back when a later step of such a
program fails, so that a failing call changes nothing has to be shown for the program; it follows from
`Errand.register_comesTo` and `Errand.deregister_comesTo`.
-/

namespace AddressRegistry

/-- A controller that works on a store, with the calls of it that fail, and on the indexes of scopes. -/
structure Controller.Over (c : Controller) (access : Access) (indexes : ScopeIndexes) : Prop where
  access_eq : c.access = access
  indexes_eq : c.indexes = indexes

namespace Errand

variable {c : Controller} {g : Gateway} {access : Access} {indexes changed : ScopeIndexes} {r : Registration}

/-- A registration in place that succeeds leaves the changed indexes behind, and nothing else is new. -/
theorem register_of_ok {n : Network} (hover : c.Over access indexes)
    (h : indexes.register access r = .ok (n, changed)) :
    register r (c, g) = .ok n ({ c with indexes := changed }, g) := by
  obtain ⟨rfl, rfl⟩ := hover
  have hcomes := register_comesTo c g r
  rw [h] at hcomes
  exact hcomes

/-- A registration in place that fails has changed nothing. -/
theorem register_of_error {f : Failure} (hover : c.Over access indexes)
    (h : indexes.register access r = .error f) : register r (c, g) = .error f (c, g) := by
  obtain ⟨rfl, rfl⟩ := hover
  have hcomes := register_comesTo c g r
  rw [h] at hcomes
  exact hcomes

/-- A release in place ends with the indexes that it answers, and a failing one with those before it. -/
theorem deregister_eq (hover : c.Over access indexes) :
    deregister r (c, g) = match indexes.deregister access r with
      | .ok _ => .ok () ({ c with indexes := indexes.released access r }, g)
      | .error f => .error f ({ c with indexes := indexes.released access r }, g) := by
  have hcomes := deregister_comesTo c g r
  obtain ⟨rfl, rfl⟩ := hover
  unfold ComesTo at hcomes
  rw [hcomes]
  unfold ScopeIndexes.released
  cases c.indexes.deregister c.access r <;> rfl

end Errand

namespace ScopeIndexes

/-- **Dynamic registrations**, whatever the store and the indexes are. One that succeeds registers a block in
the index of its scope as `RouteIndex.Registered` says, touches no other index, and in place leaves the new
indexes behind. One that fails in place has changed nothing, and it reports no conflict; it reports exhaustion
only when no wider route matching the selector has a free block of the length that the scope gives. -/
theorem register_dynamic_spec (store : Store) (indexes : ScopeIndexes) (r : Registration)
    (hdynamic : r.network = none) :
    (∀ block changed, indexes.register ⟨store, []⟩ r = .ok (block, changed) →
      (∀ c g, Controller.Over c ⟨store, []⟩ indexes →
        Errand.register r (c, g) = .ok block ({ c with indexes := changed }, g)) ∧
      ∃ scope before after, store.get? ⟨.scope, r.scopeKey⟩ = some (.scope scope) ∧
        indexes.get? r.scopeKey = some before ∧ changed.get? r.scopeKey = some after ∧
          (∀ key, key ≠ r.scopeKey → changed.get? key = indexes.get? key) ∧
            RouteIndex.Registered scope.spec r block before after) ∧
    (∀ f, indexes.register ⟨store, []⟩ r = .error f →
      (∀ c g, Controller.Over c ⟨store, []⟩ indexes → Errand.register r (c, g) = .error f (c, g)) ∧
        ∃ e, f = .refused e ∧ e.isConflict = false ∧
          (e.isExhausted = true →
            ∃ scope before length, store.get? ⟨.scope, r.scopeKey⟩ = some (.scope scope) ∧
              indexes.get? r.scopeKey = some before ∧ r.Asks scope.spec length ∧
                ∀ pool ∈ before.query r.selector, pool.network.length < length →
                  ∀ block, ¬ before.IsFreeBlock pool.network length block)) := by
  have houtcome := fun (index : RouteIndex) (spec : ScopeSpec) =>
    index.register_outcome r.scopeKey spec hdynamic
  refine ⟨fun block changed h => ⟨fun c g hover => Errand.register_of_ok hover h, ?_⟩,
    fun f h => ⟨fun c g hover => Errand.register_of_error hover h, ?_⟩⟩
  · obtain ⟨scope, index, index', hready, hindex, hregister, rfl⟩ := register_eq_ok_iff.1 h
    have hscope := Access.fetchScope_eq_some_iff.1 (readyScope_eq_ok_iff.1 hready).2.1
    refine ⟨scope, index, index', hscope, hindex, SortedMap.get?_insert_self _ _ _,
      fun key hkey => SortedMap.get?_insert_of_ne _ hkey, RouteIndex.registered_of_outcome ?_⟩
    rw [← hregister]
    exact houtcome index scope.spec
  · rcases register_eq_error h with hready | ⟨scope, e, hready, rfl, index, hindex, hregister⟩
    · obtain ⟨e, rfl, hconflict, hexhausted⟩ := readyScope_eq_error hready
      exact ⟨e, rfl, hconflict, fun h => absurd h (by rw [hexhausted]; nofun)⟩
    · have hscope := Access.fetchScope_eq_some_iff.1 (readyScope_eq_ok_iff.1 hready).2.1
      have hend := houtcome index scope.spec
      rw [hregister] at hend
      refine ⟨e, rfl, ?_⟩
      cases hend with
      | full hasks hnone =>
        exact ⟨rfl, fun _ => ⟨scope, index, _, hscope, hindex, hasks, hnone⟩⟩
      | refused hconflict hexhausted =>
        exact ⟨hconflict, fun h => absurd h (by rw [hexhausted]; nofun)⟩

/-- A claim without a source tag is given one of the four addresses of the sample pool. -/
theorem register_dynamic_spec_sample :
    ∃ block changed,
      Sample.indexes.register ⟨Sample.store, []⟩ (Sample.registration "edge" none)
        = .ok (block, changed) ∧
      ∃ scope before after, Sample.store.get? ⟨.scope, Sample.key⟩ = some (.scope scope) ∧
        Sample.indexes.get? Sample.key = some before ∧ changed.get? Sample.key = some after ∧
          RouteIndex.Registered scope.spec (Sample.registration "edge" none) block before after := by
  have hok : (Sample.indexes.register ⟨Sample.store, []⟩ (Sample.registration "edge" none)).isOk
      = true := by
    decide +kernel
  cases h : Sample.indexes.register ⟨Sample.store, []⟩ (Sample.registration "edge" none) with
  | error f =>
    rw [h] at hok
    cases hok
  | ok answer =>
    obtain ⟨-, scope, before, after, hscope, hbefore, hafter, -, hregistered⟩ :=
      (register_dynamic_spec Sample.store Sample.indexes (Sample.registration "edge" none) rfl).1
        answer.1 answer.2 h
    exact ⟨answer.1, answer.2, rfl, scope, before, after, hscope, hbefore, hafter, hregistered⟩

/-- **Registering and releasing.** A registration that succeeded has given its network a route, which keeps
labels that it had; it succeeds again, answers its network again and changes nothing. If it inserted the
network, releasing the network restores the indexes. A release, for whatever text is on record and whether it
succeeds or fails in place, may be made again without a change, and takes away at most the route of the
network on record. -/
theorem register_and_release (indexes : ScopeIndexes) (access : Access) (r : Registration) :
    (∀ n changed, indexes.register access r = .ok (n, changed) →
      (∀ c g, Controller.Over c access indexes →
        Errand.register r (c, g) = .ok n ({ c with indexes := changed }, g)) ∧
      changed.labelsAt r.scopeKey n = some ((indexes.labelsAt r.scopeKey n).getD r.combined.requirements) ∧
      changed.register access r = .ok (n, changed) ∧
      (indexes.labelsAt r.scopeKey n = none →
        changed.deregister access { r with persisted := some n.text } = .ok indexes)) ∧
    (∀ c g, Controller.Over c access indexes →
      Errand.deregister r (c, g) = match indexes.deregister access r with
        | .ok _ => .ok () ({ c with indexes := indexes.released access r }, g)
        | .error f => .error f ({ c with indexes := indexes.released access r }, g)) ∧
    (indexes.released access r).deregister access r = indexes.deregister access r ∧
    (∀ key, (indexes.released access r).contains key = indexes.contains key) ∧
    ∀ key n, (indexes.released access r).labelsAt key n = indexes.labelsAt key n ∨
      key = r.scopeKey ∧ r.persistedNetwork = .ok (some n) ∧
        (indexes.released access r).labelsAt key n = none := by
  refine ⟨fun n changed h => ⟨fun c g hover => Errand.register_of_ok hover h, (places_of_register h).self, ?_,
    deregister_of_register h⟩, fun c g hover => Errand.deregister_eq hover,
    deregister_released indexes access r, contains_released indexes access r,
    labelsAt_released indexes access r⟩
  exact register_again h (.inl rfl)

/-- A claim is given one of the four addresses of the pool, and gives it back. -/
theorem register_and_release_edge :
    ∃ n changed,
      Sample.indexes.register ⟨Sample.store, []⟩ (Sample.registration "edge" none) = .ok (n, changed) ∧
      changed.register ⟨Sample.store, []⟩ (Sample.registration "edge" none) = .ok (n, changed) ∧
      changed.deregister ⟨Sample.store, []⟩ (Sample.registration "edge" (some n.text))
        = .ok Sample.indexes := by
  have hnew : (Sample.indexes.register ⟨Sample.store, []⟩ (Sample.registration "edge" none)).toOption.map
      (fun answer => Sample.indexes.labelsAt Sample.key answer.1) = some none := by decide +kernel
  obtain ⟨⟨n, changed⟩, hanswer, hnone⟩ := Option.map_eq_some_iff.1 hnew
  have h := Except.toOption_eq_some_iff.1 hanswer
  obtain ⟨hlaws, -⟩ :=
    register_and_release Sample.indexes ⟨Sample.store, []⟩ (Sample.registration "edge" none)
  obtain ⟨-, -, hagain, hback⟩ := hlaws n changed h
  exact ⟨n, changed, h, hagain, hback hnone⟩

end ScopeIndexes

end AddressRegistry
