import AddressRegistry.Allocation.Register
import AddressRegistry.Proofs.Network.Nesting

/-!
# What an index holds

The view of an index is the partial function `index.routes.get?` from canonical networks to labels. This
file says what listings, queries and changes are in that view: `mem_query_iff` for queries,
`add_eq_ok_iff`, `release_eq_ok_iff` and `declare_eq_ok_iff` for changes. Two indexes with one view are
equal (`RouteIndex.ext_get?`).
-/

namespace AddressRegistry

/-! ## Selectors -/

namespace Selector

/-- A selector matches the labels that bind each of its keys as it does. -/
theorem matchesLabels_iff {s : Selector} {labels : Labels} :
    s.matchesLabels labels = true ↔
      ∀ k v, s.requirements.get? k = some v → labels.get? k = some v := by
  simp only [matchesLabels, List.all_eq_true, beq_iff_eq]
  constructor
  · intro h k v hk
    exact h (k, v) (SortedMap.mem_entries_iff.2 hk)
  · intro h e he
    exact h e.1 e.2 (SortedMap.mem_entries_iff.1 he)

/-- The entries of two selectors merged: the second one's take precedence. -/
theorem get?_merge (s : Selector) (other : Labels) (k : String) :
    (s.merge other).get? k = (other.get? k).or (s.get? k) :=
  SortedMap.get?_union _ _ _

end Selector

namespace RouteIndex

variable {index index' : RouteIndex} {n : Network} {labels : Labels} {r : Route}

/-- An index is known by its map. -/
theorem ext_routes (h : index.routes = index'.routes) : index = index' := by
  cases index
  cases index'
  simp_all

/-- Two indexes with one view are equal. Proofs about runs compare indexes through this. -/
theorem ext_get? (h : ∀ n, index.routes.get? n = index'.routes.get? n) : index = index' :=
  ext_routes (SortedMap.ext_get? h)

/-! ## Listings -/

/-- The networks of an index are those with labels in its view. -/
theorem mem_networks_iff : n ∈ index.networks ↔ ∃ labels, index.routes.get? n = some labels :=
  SortedMap.mem_keys_iff

/-- Networks of an index are canonical. -/
theorem isCanonical_of_mem (h : n ∈ index.networks) : n.IsCanonical :=
  index.canonical n h

/-- Only canonical networks have labels. -/
theorem isCanonical_of_get? (h : index.routes.get? n = some labels) : n.IsCanonical :=
  isCanonical_of_mem (mem_networks_iff.2 ⟨labels, h⟩)

/-- A listing tells the view, no more and no less. -/
theorem mem_toList_iff : r ∈ index.toList ↔ index.routes.get? r.network = some r.labels := by
  rw [← SortedMap.mem_entries_iff, toList, List.mem_map]
  constructor
  · rintro ⟨e, he, rfl⟩
    exact he
  · intro h
    exact ⟨_, h, rfl⟩

/-- A query answers the routes whose labels the selector matches. -/
theorem mem_query_iff {selector : Selector} :
    r ∈ index.query selector ↔
      index.routes.get? r.network = some r.labels ∧ selector.matchesLabels r.labels = true := by
  unfold query
  rw [List.mem_filter, mem_toList_iff]

/-- What a query answers is a network of the index. -/
theorem mem_networks_of_mem_query {selector : Selector} (h : r ∈ index.query selector) :
    r.network ∈ index.networks :=
  mem_networks_iff.2 ⟨r.labels, (mem_query_iff.1 h).1⟩

/-- A claim owns the routes that carry exactly its labels. -/
theorem mem_owned_iff {selector : Selector} :
    r ∈ index.owned selector ↔
      index.routes.get? r.network = some r.labels ∧ r.labels = selector.requirements := by
  unfold owned
  rw [List.mem_filter, mem_query_iff, beq_iff_eq]
  constructor
  · rintro ⟨⟨hget, -⟩, heq⟩
    exact ⟨hget, heq⟩
  · rintro ⟨hget, heq⟩
    refine ⟨⟨hget, ?_⟩, heq⟩
    rw [Selector.matchesLabels_iff, heq]
    intro _ _ h
    exact h

/-! ## Changes -/

/-- An addition succeeds when the canonical network is free, and then binds it and nothing else. -/
theorem add_eq_ok_iff :
    index.add n labels = .ok index' ↔
      index.routes.get? n.truncate = none ∧
        index'.routes = index.routes.insert n.truncate labels := by
  unfold add
  split
  · rename_i h
    unfold SortedMap.contains at h
    rw [Option.isSome_iff_exists] at h
    obtain ⟨labels', h⟩ := h
    simp [h]
  · rename_i h
    unfold SortedMap.contains at h
    rw [Option.not_isSome_iff_eq_none] at h
    rw [Except.ok.injEq]
    exact ⟨fun heq => ⟨h, congrArg routes heq.symm⟩, fun heq => ext_routes heq.2.symm⟩

/-- An insertion binds its network, which was free, and nothing else. -/
theorem get?_of_add (hcanonical : n.IsCanonical) (hadd : index.add n labels = .ok index') :
    index.routes.get? n = none ∧ index'.routes.get? n = some labels ∧
      ∀ m, m ≠ n → index'.routes.get? m = index.routes.get? m := by
  obtain ⟨hnone, hroutes⟩ := add_eq_ok_iff.1 hadd
  rw [hcanonical] at hnone hroutes
  refine ⟨hnone, ?_, fun m hm => ?_⟩
  · rw [hroutes, SortedMap.get?_insert_self]
  · rw [hroutes, SortedMap.get?_insert_of_ne _ hm]

/-- A removal takes away its network and nothing else. -/
theorem get?_of_erase (hroutes : index'.routes = index.routes.erase n) :
    index'.routes.get? n = none ∧ ∀ m, m ≠ n → index'.routes.get? m = index.routes.get? m := by
  rw [hroutes]
  exact ⟨SortedMap.get?_erase_self _ _, fun m hm => SortedMap.get?_erase_of_ne hm⟩

/-- Only a route that is there stands in the way of an insertion. -/
theorem add_eq_error_iff {e : RegistryError} :
    index.add n labels = .error e ↔
      n.truncate ∈ index.networks ∧ e = .conflict (.route n.truncate) := by
  unfold add
  rw [mem_networks_iff, ← Option.isSome_iff_exists]
  split
  · rename_i h
    unfold SortedMap.contains at h
    simp [h, eq_comm]
  · rename_i h
    unfold SortedMap.contains at h
    simp [h]

/-- Releasing a network succeeds, and its route is gone. -/
theorem release_eq_ok_iff :
    index.release n = .ok index' ↔ index'.routes = index.routes.erase n.truncate := by
  unfold release delete
  split
  · rw [Except.map, tolerateNotFound, Except.ok.injEq]
    exact ⟨fun heq => congrArg routes heq.symm, fun heq => ext_routes heq.symm⟩
  · rename_i h
    rw [SortedMap.erase_of_get? h]
    show Except.ok index = .ok index' ↔ _
    rw [Except.ok.injEq]
    exact ⟨fun heq => congrArg routes heq.symm, fun heq => ext_routes heq.symm⟩

/-- Declaring a network succeeds: its route is there with the given labels, or as it was before. -/
theorem declare_eq_ok_iff :
    index.declare n labels = .ok index' ↔
      index'.routes = match index.routes.get? n.truncate with
        | some _ => index.routes
        | none => index.routes.insert n.truncate labels := by
  unfold declare add SortedMap.contains
  cases index.routes.get? n.truncate with
  | some labels' =>
    show Except.ok index = .ok index' ↔ _
    rw [Except.ok.injEq]
    exact ⟨fun heq => congrArg routes heq.symm, fun heq => ext_routes heq.symm⟩
  | none =>
    show Except.ok _ = .ok index' ↔ _
    rw [Except.ok.injEq]
    exact ⟨fun heq => congrArg routes heq.symm, fun heq => ext_routes heq.symm⟩

/-- After a declaration the network has the route that it had before, or a new one. No other route
changes. -/
theorem get?_of_declare (hcanonical : n.IsCanonical) (h : index.declare n labels = .ok index') :
    index'.routes.get? n = some ((index.routes.get? n).getD labels) ∧
      ∀ m, m ≠ n → index'.routes.get? m = index.routes.get? m := by
  have hroutes := declare_eq_ok_iff.1 h
  rw [hcanonical] at hroutes
  cases hget : index.routes.get? n with
  | some labels' =>
    simp only [hget] at hroutes
    rw [hroutes]
    exact ⟨hget, fun _ _ => rfl⟩
  | none =>
    simp only [hget] at hroutes
    rw [hroutes]
    exact ⟨SortedMap.get?_insert_self _ _ _, fun m hm => SortedMap.get?_insert_of_ne _ hm⟩

/-- Declaring a network that has a route changes nothing. -/
theorem eq_of_declare {labels' : Labels} (hcanonical : n.IsCanonical)
    (hget : index.routes.get? n = some labels') (h : index.declare n labels = .ok index') :
    index' = index := by
  have hroutes := declare_eq_ok_iff.1 h
  rw [hcanonical, hget] at hroutes
  exact ext_routes hroutes

/-- Every route can be removed. -/
theorem exists_erase (index : RouteIndex) (n : Network) :
    ∃ index' : RouteIndex, index'.routes = index.routes.erase n :=
  ⟨⟨index.routes.erase n, fun m hm => index.canonical m (SortedMap.mem_keys_erase.1 hm).2⟩, rfl⟩

/-- Every network can be declared. -/
theorem exists_declare (index : RouteIndex) (n : Network) (labels : Labels) :
    ∃ index', index.declare n labels = .ok index' := by
  unfold declare
  cases hadd : index.add n labels with
  | ok index' => exact ⟨index', rfl⟩
  | error e =>
    obtain ⟨-, rfl⟩ := add_eq_error_iff.1 hadd
    exact ⟨index, rfl⟩

end RouteIndex

end AddressRegistry
