import AddressRegistry.Proofs.Allocation.Registering
import AddressRegistry.Proofs.Allocation.Repeat

/-!
# Registering, and taking it back

A registration that inserts its network and the release of this network cancel out
(`RouteIndex.erase_of_register`, `ScopeIndexes.deregister_of_register`). A release concerns the route of the
network on record alone (`labelsAt_released`), and one that is made again, whether it succeeds or fails,
answers as the first and changes nothing (`deregister_released`).
-/

namespace AddressRegistry

/-! ## One index -/

/-- Erasing the network that a registration inserted gives the index before it. -/
theorem RouteIndex.erase_of_register {index changed : RouteIndex} {scope : ObjectKey} {spec : ScopeSpec}
    {r : Registration} {n : Network} (h : index.register scope spec r = .ok (n, changed))
    (hnew : index.routes.get? n = none) : index.routes = changed.routes.erase n := by
  obtain ⟨-, hothers⟩ := get?_of_register h
  apply SortedMap.ext_get?
  intro m
  by_cases hm : m = n
  · rw [hm, hnew, SortedMap.get?_erase_self]
  · rw [SortedMap.get?_erase_of_ne hm, hothers m hm]

/-! ## All indexes -/

namespace ScopeIndexes

variable {indexes changed : ScopeIndexes} {access : Access} {r : Registration} {n : Network}

/-- Releasing the network that a registration inserted gives the indexes before it. -/
theorem deregister_of_register (h : indexes.register access r = .ok (n, changed))
    (hnew : indexes.labelsAt r.scopeKey n = none) :
    changed.deregister access { r with persisted := some n.text } = .ok indexes := by
  obtain ⟨scope, index, index', hready, hindex, hregister, rfl⟩ := register_eq_ok_iff.1 h
  obtain ⟨hcanonical, -⟩ := RouteIndex.get?_of_register hregister
  rw [labelsAt_of_get? hindex] at hnew
  have hrecorded : Registration.persistedNetwork { r with persisted := some n.text } = .ok (some n) := by
    simp [Registration.persistedNetwork, Network.parse_text hcanonical, Except.map]
  have herase := RouteIndex.erase_of_register hregister hnew
  refine deregister_eq_ok_iff.2 ⟨⟨scope, readyScope_insert hready index'⟩,
    .inr ⟨n, index', index, hrecorded, SortedMap.get?_insert_self _ _ _, ?_, ?_⟩⟩
  · rw [hcanonical, herase]
  · exact ((SortedMap.insert_insert _ _ _ _).trans (SortedMap.insert_of_get? hindex)).symm

/-- The indexes after a release, which are the same when it fails. -/
def released (indexes : ScopeIndexes) (access : Access) (r : Registration) : ScopeIndexes :=
  (indexes.deregister access r).toOption.getD indexes

/-- A release that is made again answers as it did. -/
theorem deregister_released (indexes : ScopeIndexes) (access : Access) (r : Registration) :
    (indexes.released access r).deregister access r = indexes.deregister access r := by
  unfold released
  cases h : indexes.deregister access r with
  | ok changed => exact deregister_again h
  | error f => exact h

/-- A release leaves every scope its index. -/
theorem contains_released (indexes : ScopeIndexes) (access : Access) (r : Registration) (key : ObjectKey) :
    (indexes.released access r).contains key = indexes.contains key := by
  unfold released
  cases h : indexes.deregister access r with
  | error f => rfl
  | ok changed =>
    obtain ⟨-, ⟨-, rfl⟩ | ⟨-, index, index', -, hindex, -, rfl⟩⟩ := deregister_eq_ok_iff.1 h
    · rfl
    · show SortedMap.contains (indexes.insert r.scopeKey index') key = _
      rw [Bool.eq_iff_iff, SortedMap.contains_insert_iff, or_iff_right_iff_imp]
      rintro rfl
      rw [SortedMap.contains, hindex]
      rfl

/-- A release takes away the route of the network on record, if there is one, and no other. -/
theorem labelsAt_released (indexes : ScopeIndexes) (access : Access) (r : Registration) (key : ObjectKey)
    (n : Network) :
    (indexes.released access r).labelsAt key n = indexes.labelsAt key n ∨
      key = r.scopeKey ∧ r.persistedNetwork = .ok (some n) ∧
        (indexes.released access r).labelsAt key n = none := by
  unfold released
  cases h : indexes.deregister access r with
  | error f => exact .inl rfl
  | ok changed =>
    obtain ⟨-, ⟨-, rfl⟩ | ⟨m, index, index', hm, hindex, hroutes, rfl⟩⟩ := deregister_eq_ok_iff.1 h
    · exact .inl rfl
    · by_cases hkey : key = r.scopeKey
      · subst hkey
        rw [Registration.isCanonical_of_persistedNetwork hm] at hroutes
        obtain ⟨hgone, hothers⟩ := RouteIndex.get?_of_erase hroutes
        show ScopeIndexes.labelsAt (indexes.insert _ index') _ n = _ ∨ _ ∧ _ ∧
          ScopeIndexes.labelsAt (indexes.insert _ index') _ n = none
        rw [labelsAt_insert_self, labelsAt_of_get? hindex]
        by_cases hn : n = m
        · exact .inr ⟨rfl, hn ▸ hm, hn ▸ hgone⟩
        · exact .inl (hothers n hn)
      · exact .inl (labelsAt_insert_of_ne indexes index' hkey n)

end ScopeIndexes

end AddressRegistry
