import AddressRegistry.Proofs.Allocation.Dynamic
import AddressRegistry.Proofs.Allocation.Operations
import AddressRegistry.Proofs.Network.RoundTrip

/-!
# Registering and declaring again

An operation on an index that is made again finds what it left and changes nothing
(`RouteIndex.register_again`, `RouteIndex.declare_again`), whether or not the claim recorded its network in
between. The same holds of a removal followed by an insertion (`RouteIndex.declare_again_of_erase`): that is
how an edited claim or pool moves from one network to another. On the indexes of all scopes these become
`ScopeIndexes.register_again`, `ScopeIndexes.declare_again`, `ScopeIndexes.register_again_of_deregister` and
`ScopeIndexes.declare_again_of_retract`.
-/

namespace AddressRegistry

/-! ## One index -/

namespace RouteIndex

variable {index index' cleared cleared' index'' : RouteIndex} {m n block : Network} {labels : Labels}
variable {scope : ObjectKey} {spec : ScopeSpec} {r : Registration} {persisted : Option String}

/-- A network that was declared is declared again without a change. -/
theorem declare_again (hcanonical : n.IsCanonical) (h : index.declare n labels = .ok index') :
    index'.declare n labels = .ok index' := by
  obtain ⟨index'', h'⟩ := index'.exists_declare n labels
  obtain ⟨hself, -⟩ := get?_of_declare hcanonical h
  rw [h', eq_of_declare hcanonical hself h']

/-- Taking one route back and declaring a network comes to the same when it is done twice. -/
theorem declare_again_of_erase (hcanonical : n.IsCanonical)
    (herase : cleared.routes = index.routes.erase m) (hdeclare : cleared.declare n labels = .ok index')
    (herase' : cleared'.routes = index'.routes.erase m) :
    cleared'.declare n labels = .ok index' := by
  obtain ⟨index'', hdeclare'⟩ := cleared'.exists_declare n labels
  obtain ⟨hself, hothers⟩ := get?_of_declare hcanonical hdeclare
  obtain ⟨hself', hothers'⟩ := get?_of_declare hcanonical hdeclare'
  obtain ⟨hgone, -⟩ := get?_of_erase herase
  obtain ⟨hgone', hkept'⟩ := get?_of_erase herase'
  rw [hdeclare']
  congr 1
  refine ext_get? fun k => ?_
  by_cases hk : k = n
  · subst hk
    rw [hself', hself]
    by_cases hm : k = m
    · subst hm
      rw [hgone', hgone]
    · rw [hkept' k hm, hself]
      rfl
  · rw [hothers' k hk]
    by_cases hm : k = m
    · subst hm
      rw [hgone', hothers k hk, hgone]
    · exact hkept' k hm

/-- A selector that matches a route goes on matching it when another one is added. -/
theorem mem_query_of_add {selector : Selector} {route : Route} (hcanonical : n.IsCanonical)
    (hadd : index.add n labels = .ok index') (h : route ∈ index.query selector) :
    route ∈ index'.query selector := by
  obtain ⟨hnone, -, hothers⟩ := get?_of_add hcanonical hadd
  obtain ⟨hget, hmatch⟩ := mem_query_iff.1 h
  refine mem_query_iff.2 ⟨?_, hmatch⟩
  rw [hothers route.network, hget]
  rintro hn
  rw [hn, hnone] at hget
  cases hget

/-- The only route with exactly the labels of a claim, among those of one length, is the one picked. -/
theorem pickUnique_owned_of_unique {selector : Selector}
    (hget : index.routes.get? n = some selector.requirements)
    (hunique : ∀ m, index.routes.get? m = some selector.requirements → m.length = n.length → m = n) :
    ∃ route, Route.pickUnique ((index.owned selector).filter fun o => o.network.length == n.length)
        = some route ∧ route.network = n := by
  cases hpick : Route.pickUnique
      ((index.owned selector).filter fun o => o.network.length == n.length) with
  | none => exact absurd rfl (pickUnique_owned_eq_none_iff.1 hpick n hget)
  | some route =>
    obtain ⟨hmem, hlength⟩ := List.mem_filter.1 (Route.mem_of_pickUnique hpick)
    obtain ⟨hroute, hlabels⟩ := mem_owned_iff.1 hmem
    exact ⟨route, rfl, hunique _ (hlabels ▸ hroute) (beq_iff_eq.1 hlength)⟩

/-- A registration answers a block of the length that the scope gives. -/
theorem RegisterOutcome.lengthFor {purpose : String} {family : Family}
    (h : RegisterOutcome index spec r (.ok (block, index'))) (hpurpose : r.purpose = .ok purpose)
    (hfamily : r.family = .ok family) : spec.lengthFor purpose family = some block.length := by
  have hasks : r.Asks spec block.length := by
    cases h with
    | owned hasks _ => exact hasks
    | inserted hasks _ _ _ _ _ => exact hasks
  obtain ⟨purpose', family', hpurpose', hfamily', hlength⟩ := hasks
  cases hpurpose.symm.trans (Registration.purpose_eq_ok_iff.2 hpurpose')
  cases hfamily.symm.trans (Registration.family_eq_ok_iff.2 hfamily')
  exact hlength

/-- A dynamic registration that is made again finds its block and changes nothing, whether or not the
claim has recorded the block. -/
theorem registerDynamic_again (h : index.registerDynamic scope spec r = .ok (block, index'))
    (hpersisted : persisted = r.persisted ∨ persisted = some block.text) :
    index'.registerDynamic scope spec { r with persisted } = .ok (block, index') := by
  have houtcome := index.registerDynamic_outcome scope spec r
  rw [h] at houtcome
  obtain ⟨purpose, hpurpose, hsteps⟩ := Except.bind_eq_ok_iff.1 h
  obtain ⟨family, hfamily, hsteps⟩ := Except.bind_eq_ok_iff.1 hsteps
  obtain ⟨before, hbefore, -⟩ := Except.bind_eq_ok_iff.1 hsteps
  obtain ⟨held, hheld⟩ : ∃ held, Registration.persistedNetwork { r with persisted } = .ok held := by
    rcases hpersisted with rfl | rfl
    · exact ⟨before, hbefore⟩
    · refine ⟨some block, ?_⟩
      unfold Registration.persistedNetwork
      simp only [Network.parse_text houtcome.isCanonical]
      rfl
  have hlength := houtcome.lengthFor hpurpose hfamily
  have hcombined : Registration.combined { r with persisted } = r.combined := rfl
  rw [registerDynamic_eq (r := { r with persisted }) hpurpose hfamily hheld, hlength, hcombined]
  rw [registerDynamic_eq hpurpose hfamily hbefore, hlength] at h
  dsimp only at h ⊢
  split at h
  · cases h
  · rename_i hquery
    cases hpick : Route.pickUnique
        ((index.owned r.combined).filter fun o => o.network.length == block.length) with
    | some route =>
      rw [hpick] at h
      cases h
      rw [if_neg hquery, hpick]
    | none =>
      -- the block is new, so it is the only route that the claim owns at this length
      rw [pickUnique_owned_eq_none_iff] at hpick
      cases houtcome with
      | owned _ hget => exact absurd rfl (hpick _ hget)
      | inserted _ _ hpool _ hfree hadd =>
        obtain ⟨-, hblock, hothers⟩ := get?_of_add hfree.canonical hadd
        obtain ⟨route, hroute, rfl⟩ := pickUnique_owned_of_unique hblock fun m hm hlength => by
          by_contra hne
          rw [hothers m hne] at hm
          exact hpick m hm hlength
        rw [if_neg, hroute]
        rw [Bool.not_eq_true, List.isEmpty_eq_false_iff_exists_mem]
        exact ⟨_, mem_query_of_add hfree.canonical hadd hpool⟩

/-- A registration that is made again answers the same and changes nothing, whether the claim recorded the
network in between or not. -/
theorem register_again (h : index.register scope spec r = .ok (n, index'))
    (hpersisted : persisted = r.persisted ∨ persisted = some n.text) :
    index'.register scope spec { r with persisted } = .ok (n, index') := by
  obtain ⟨space, name, claim, network, selector, sourceTag, before⟩ := r
  cases network with
  | some raw =>
    obtain ⟨hparse, hdeclare⟩ := (register_of_network_eq_ok_iff rfl).1 h
    exact (register_of_network_eq_ok_iff rfl).2
      ⟨hparse, declare_again (Network.parse_isCanonical hparse) hdeclare⟩
  | none => exact registerDynamic_again h hpersisted

end RouteIndex

/-! ## All indexes -/

namespace ScopeIndexes

variable {indexes indexes' : ScopeIndexes} {access : Access} {key : ObjectKey} {scope : Scope}
variable {r : Registration} {n : Network} {persisted : Option String}

/-- A registration that is made again changes nothing, whether or not the claim has recorded its
network. -/
theorem register_again (h : indexes.register access r = .ok (n, indexes'))
    (hpersisted : persisted = r.persisted ∨ persisted = some n.text) :
    indexes'.register access { r with persisted } = .ok (n, indexes') := by
  obtain ⟨scope, index, index', hready, hindex, hregister, rfl⟩ := register_eq_ok_iff.1 h
  exact register_eq_ok_iff.2 ⟨scope, index', index', readyScope_insert hready index',
    SortedMap.get?_insert_self _ _ _, RouteIndex.register_again hregister hpersisted,
    (SortedMap.insert_insert _ _ _ _).symm⟩

/-- A release that is made again changes nothing. -/
theorem deregister_again (h : indexes.deregister access r = .ok indexes') :
    indexes'.deregister access r = .ok indexes' := by
  obtain ⟨⟨scope, hready⟩, ⟨hnone, rfl⟩ | ⟨m, index, index', hm, hindex, herase, rfl⟩⟩ :=
    deregister_eq_ok_iff.1 h
  · exact h
  · refine deregister_eq_ok_iff.2 ⟨⟨scope, readyScope_insert hready index'⟩, Or.inr ⟨m, index', index', hm,
      SortedMap.get?_insert_self _ _ _, ?_, (SortedMap.insert_insert _ _ _ _).symm⟩⟩
    rw [herase, SortedMap.erase_erase]

/-- A retraction that is made again changes nothing. -/
theorem retract_again {raw : String} (h : indexes.retract key raw = .ok indexes') :
    indexes'.retract key raw = .ok indexes' := by
  obtain ⟨m, hraw, ⟨hnone, rfl⟩ | ⟨index, index', hindex, herase, rfl⟩⟩ := retract_eq_ok_iff.1 h
  · exact h
  · refine retract_eq_ok_iff.2 ⟨m, hraw, Or.inr ⟨index', index', SortedMap.get?_insert_self _ _ _, ?_,
      (SortedMap.insert_insert _ _ _ _).symm⟩⟩
    rw [herase, SortedMap.erase_erase]

/-- Releasing what was held before and registering a named network comes to the same when it is done
twice. -/
theorem register_again_of_deregister {indexes₁ : ScopeIndexes} {raw : String}
    (hnetwork : r.network = some raw) (hderegister : indexes.deregister access r = .ok indexes₁)
    (hregister : indexes₁.register access r = .ok (n, indexes')) :
    ∃ indexes₂, indexes'.deregister access r = .ok indexes₂ ∧
      indexes₂.register access r = .ok (n, indexes') := by
  obtain ⟨-, ⟨hnone, rfl⟩ | ⟨m, index, cleared, hm, hindex, herase, rfl⟩⟩ :=
    deregister_eq_ok_iff.1 hderegister
  · obtain ⟨scope, _, index', hready, -, -, rfl⟩ := register_eq_ok_iff.1 hregister
    exact ⟨_, deregister_eq_ok_iff.2 ⟨⟨scope, readyScope_insert hready index'⟩, Or.inl ⟨hnone, rfl⟩⟩,
      register_again hregister (Or.inl rfl)⟩
  · obtain ⟨scope, _, index', hready, hcleared, hregister, rfl⟩ := register_eq_ok_iff.1 hregister
    rw [SortedMap.get?_insert_self] at hcleared
    cases hcleared
    obtain ⟨hparse, hdeclare⟩ := (RouteIndex.register_of_network_eq_ok_iff hnetwork).1 hregister
    have hcanonical := Network.parse_isCanonical hparse
    obtain ⟨cleared', herase'⟩ := index'.exists_erase m.truncate
    have hagain := RouteIndex.declare_again_of_erase hcanonical herase hdeclare herase'
    have hready' := readyScope_insert hready index'
    refine ⟨_, deregister_eq_ok_iff.2 ⟨⟨scope, hready'⟩, Or.inr ⟨m, index', cleared', hm,
      SortedMap.get?_insert_self _ _ _, herase', rfl⟩⟩, register_eq_ok_iff.2 ⟨scope, cleared', index',
        readyScope_insert hready' cleared', SortedMap.get?_insert_self _ _ _,
          (RouteIndex.register_of_network_eq_ok_iff hnetwork).2 ⟨hparse, hagain⟩, ?_⟩⟩
    rw [SortedMap.insert_insert, SortedMap.insert_insert, SortedMap.insert_insert]

/-- A declaration that is made again changes nothing. -/
theorem declare_again {pool : Pool} (pool' : Pool)
    (h : (indexes.declare key pool).2 = .ok (n, indexes')) (hspec : pool'.spec = pool.spec) :
    (indexes'.declare key pool').2 = .ok (n, indexes') := by
  obtain ⟨hparse, index, index', -, hdeclare, rfl⟩ := declare_eq_ok_iff.1 h
  have hcanonical := Network.parse_isCanonical hparse
  rw [declare_eq_ok_iff, hspec]
  exact ⟨hparse, index', index', SortedMap.get?_insert_self _ _ _,
    RouteIndex.declare_again hcanonical hdeclare, by rw [SortedMap.insert_insert]⟩

/-- Taking a declaration back and declaring a network comes to the same when it is done twice. -/
theorem declare_again_of_retract {indexes₁ : ScopeIndexes} {raw : String} {pool : Pool} (pool' : Pool)
    (hretract : indexes.retract key raw = .ok indexes₁)
    (hdeclare : (indexes₁.declare key pool).2 = .ok (n, indexes')) (hspec : pool'.spec = pool.spec) :
    ∃ indexes₂, indexes'.retract key raw = .ok indexes₂ ∧
      (indexes₂.declare key pool').2 = .ok (n, indexes') := by
  obtain ⟨hparse, _, index', hcleared, hinsert, rfl⟩ := declare_eq_ok_iff.1 hdeclare
  obtain ⟨m, hraw, ⟨hnone, rfl⟩ | ⟨index, cleared, -, herase, rfl⟩⟩ := retract_eq_ok_iff.1 hretract
  · rw [hnone] at hcleared
    cases hcleared
  · rw [SortedMap.get?_insert_self] at hcleared
    cases hcleared
    have hcanonical := Network.parse_isCanonical hparse
    obtain ⟨cleared', herase'⟩ := index'.exists_erase m.truncate
    have hagain := RouteIndex.declare_again_of_erase hcanonical herase hinsert herase'
    rw [← hspec] at hparse hagain
    refine ⟨_, retract_eq_ok_iff.2 ⟨m, hraw, Or.inr ⟨index', cleared', SortedMap.get?_insert_self _ _ _,
      herase', rfl⟩⟩, declare_eq_ok_iff.2 ⟨hparse, cleared', index', SortedMap.get?_insert_self _ _ _,
        hagain, ?_⟩⟩
    rw [SortedMap.insert_insert, SortedMap.insert_insert, SortedMap.insert_insert]

/-- A pool that is declared shows the labels of its declaration. -/
theorem declare_eq {pool : Pool} (h : (indexes.declare key pool).2 = .ok (n, indexes')) :
    indexes.declare key pool
      = ({ pool with status := { pool.status with labels := declarationLabels pool.spec.labels n } },
        .ok (n, indexes')) := by
  refine Prod.ext ?_ h
  obtain ⟨hparse, -⟩ := declare_eq_ok_iff.1 h
  unfold declare
  rw [hparse]

/-- The networks around and inside one are shown as texts, if the scope has an index. -/
theorem usage_eq_ok_iff {usage : Usage} :
    indexes.usage key n = .ok usage ↔ ∃ index, indexes.get? key = some index ∧
      usage = ⟨(index.children n).map (·.network.text), (index.parents n).map (·.network.text)⟩ := by
  unfold ScopeIndexes.usage find
  cases indexes.get? key with
  | none => exact iff_of_false nofun (fun ⟨_, h, _⟩ => nomatch h)
  | some index =>
    constructor
    · intro h
      cases h
      exact ⟨index, rfl, rfl⟩
    · rintro ⟨_, h, rfl⟩
      cases h
      rfl

end ScopeIndexes

end AddressRegistry
