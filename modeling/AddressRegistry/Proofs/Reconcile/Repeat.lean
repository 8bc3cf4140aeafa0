import AddressRegistry.Proofs.Allocation.Repeat
import AddressRegistry.Proofs.Reconcile.History
import AddressRegistry.Proofs.Reconcile.Report

/-!
# Passes that find nothing to do

An effect that was applied can be applied again without a change, to the object as it was before and to the
object as it is then (`Claim.apply_again`, `Pool.apply_again`, `Controller.apply_again`). So an object that
was found ready is found ready again as long as nothing has changed that it depends on
(`Controller.Follows`, `Controller.evaluate_again`), and a pass that ends ready can be repeated at once
without any change to the controller (`Controller.reconcile_again`).
-/

namespace AddressRegistry

/-! ## Claims -/

namespace Claim

variable {claim claim' claim₁ : Claim} {indexes indexes' indexes₁ : ScopeIndexes} {access : Access}
variable {r : Registration} {scope : Scope}

/-- A claim that passes the check of its selector gives up what it holds if it has moved, and nothing
otherwise. -/
theorem releaseMoved_eq_ok_iff :
    claim.releaseMoved r indexes access = .ok (claim₁, indexes₁) ↔
      claim.checkSelector r = .ok () ∧
        (isMoved r = .ok false ∧ claim₁ = claim ∧ indexes₁ = indexes ∨
          isMoved r = .ok true ∧ indexes.deregister access r = .ok indexes₁ ∧
            claim₁ = claim.withNetwork none) := by
  constructor
  · intro h
    obtain ⟨⟨⟩, hselector, h⟩ := Except.bind_eq_ok_iff.1 h
    obtain ⟨moved, hmoved, h⟩ := Except.bind_eq_ok_iff.1 h
    refine ⟨Failure.lift_eq_ok_iff.1 hselector, ?_⟩
    have hmoved := Failure.lift_eq_ok_iff.1 hmoved
    cases moved with
    | false =>
      cases h
      exact Or.inl ⟨hmoved, rfl, rfl⟩
    | true =>
      obtain ⟨changed, hderegister, h⟩ := Except.bind_eq_ok_iff.1 h
      cases h
      exact Or.inr ⟨hmoved, hderegister, rfl⟩
  · rintro ⟨hselector, ⟨hmoved, rfl, rfl⟩ | ⟨hmoved, hderegister, rfl⟩⟩
    · exact releaseMoved_of_isMoved_false _ _ hselector hmoved
    · exact releaseMoved_of_isMoved_true hselector hmoved hderegister

/-- A claim that is applied held what it is to release, and records what it registered. -/
theorem apply_eq_ok_iff :
    claim.apply indexes access = (.ok (), claim', indexes') ↔
      ∃ r claim₁ indexes₁ n, claim.registration = .ok r ∧
        claim.releaseMoved r indexes access = .ok (claim₁, indexes₁) ∧
          indexes₁.register access r = .ok (n, indexes') ∧
            claim' = claim.withNetwork (some n.text) := by
  constructor
  · intro h
    unfold apply at h
    split at h
    · cases h
    · rename_i r hregistration
      split at h
      · cases h
      · rename_i claim₁ indexes₁ hrelease
        split at h
        · cases h
        · rename_i n changed hregister
          cases h
          refine ⟨r, claim₁, indexes₁, n, hregistration, hrelease, hregister, ?_⟩
          obtain ⟨-, ⟨-, rfl, -⟩ | ⟨-, -, rfl⟩⟩ := releaseMoved_eq_ok_iff.1 hrelease <;> rfl
  · rintro ⟨r, claim₁, indexes₁, n, hregistration, hrelease, hregister, rfl⟩
    rw [apply_of_register hregistration hrelease hregister]
    obtain ⟨-, ⟨-, rfl, -⟩ | ⟨-, -, rfl⟩⟩ := releaseMoved_eq_ok_iff.1 hrelease <;> rfl

/-- Applying the effect of a claim looks up scopes only. -/
theorem apply_congr {access' : Access}
    (hfetch : ∀ key, access'.fetchScope key = access.fetchScope key) (indexes : ScopeIndexes) :
    claim.apply indexes access' = claim.apply indexes access := by
  unfold apply releaseMoved ScopeIndexes.deregister ScopeIndexes.register ScopeIndexes.readyScope
  simp only [hfetch]

/-- What a claim holds does not decide what it registers. -/
theorem registration_withNetwork (h : claim.registration = .ok r) (persisted : Option String) :
    (claim.withNetwork persisted).registration = .ok { r with persisted } := by
  obtain ⟨scope, hparent, rfl⟩ := registration_eq_ok_iff.1 h
  exact registration_eq_ok_iff.2 ⟨scope, hparent, rfl⟩

/-- Only a claim that names a network and holds one has moved. -/
theorem network_of_isMoved (h : isMoved r = .ok true) :
    ∃ raw persisted, r.network = some raw ∧ r.persisted = some persisted := by
  unfold isMoved at h
  split at h
  · rename_i raw persisted hnetwork hpersisted
    exact ⟨raw, persisted, hnetwork, hpersisted⟩
  · cases h

/-- A claim that records what it registered does not move. -/
theorem isMoved_of_register {n : Network} (h : indexes.register access r = .ok (n, indexes')) :
    isMoved { r with persisted := some n.text } = .ok false := by
  cases hnetwork : r.network with
  | none => exact isMoved_of_network_none rfl
  | some raw =>
    obtain ⟨scope, index, index', -, -, hregister, -⟩ := ScopeIndexes.register_eq_ok_iff.1 h
    obtain ⟨hparse, -⟩ := (RouteIndex.register_of_network_eq_ok_iff hnetwork).1 hregister
    refine (isMoved_of_persisted rfl hparse rfl).trans ?_
    rw [Network.parse_text (Network.parse_isCanonical hparse), Except.map, bne_self_eq_false]

/-- A claim that is applied again obtains the network that it has, whether or not it recorded it. The
status that all kinds share plays no part in it. -/
theorem apply_again (h : claim.apply indexes access = (.ok (), claim', indexes')) :
    claim.apply indexes' access = (.ok (), claim', indexes') ∧
      ∀ common, apply { claim' with status := { claim'.status with common } } indexes' access
        = (.ok (), { claim' with status := { claim'.status with common } }, indexes') := by
  obtain ⟨r, claim₁, indexes₁, n, hregistration, hrelease, hregister, rfl⟩ := apply_eq_ok_iff.1 h
  obtain ⟨hselector, hmoved⟩ := releaseMoved_eq_ok_iff.1 hrelease
  constructor
  · refine apply_eq_ok_iff.2 ?_
    rcases hmoved with ⟨hmoved, rfl, rfl⟩ | ⟨hmoved, hderegister, rfl⟩
    · exact ⟨r, _, _, n, hregistration, releaseMoved_of_isMoved_false _ _ hselector hmoved,
        ScopeIndexes.register_again hregister (Or.inl rfl), rfl⟩
    · obtain ⟨raw, persisted, hnetwork, -⟩ := network_of_isMoved hmoved
      obtain ⟨indexes₂, hderegister', hregister'⟩ :=
        ScopeIndexes.register_again_of_deregister hnetwork hderegister hregister
      exact ⟨r, _, _, n, hregistration, releaseMoved_of_isMoved_true hselector hmoved hderegister',
        hregister', rfl⟩
  · intro common
    refine apply_eq_ok_iff.2 ⟨{ r with persisted := some n.text }, _, _, n,
      registration_withNetwork hregistration (some n.text),
      releaseMoved_of_isMoved_false _ _ hselector (isMoved_of_register hregister),
      ScopeIndexes.register_again hregister (Or.inr rfl), rfl⟩

end Claim

/-! ## Pools -/

namespace Pool

variable {pool pool' pool₁ : Pool} {indexes indexes' indexes₁ : ScopeIndexes} {key : ObjectKey}
variable {index index' : RouteIndex} {n : Network}

/-- The pool as it is once its network is declared in an index. -/
def settled (pool : Pool) (n : Network) (index : RouteIndex) : Pool :=
  noteUsage { pool with status := { pool.status with
      declared := some n.text
      labels := declarationLabels pool.spec.labels n } }
    ⟨(index.children n).map (·.network.text), (index.parents n).map (·.network.text)⟩

/-- Nothing is taken back without a record, or when the record fits; a stale declaration is taken back and
forgotten. -/
theorem retractStale_eq_ok_iff :
    pool.retractStale indexes key = .ok (pool₁, indexes₁) ↔
      pool.status.declared = none ∧ pool₁ = pool ∧ indexes₁ = indexes ∨
        ∃ raw n m, pool.status.declared = some raw ∧ Network.parse pool.spec.network = .ok n ∧
          Network.parse raw = .ok m ∧
            (pool.isStale m n = false ∧ pool₁ = pool ∧ indexes₁ = indexes ∨
              pool.isStale m n = true ∧ indexes.retract key raw = .ok indexes₁ ∧
                pool₁ = { pool with status := { pool.status with declared := none } }) := by
  constructor
  · intro h
    unfold retractStale at h
    split at h
    · rename_i hdeclared
      cases h
      exact Or.inl ⟨hdeclared, rfl, rfl⟩
    · rename_i raw hdeclared
      obtain ⟨n, hparse, h⟩ := Except.bind_eq_ok_iff.1 h
      obtain ⟨m, hraw, h⟩ := Except.bind_eq_ok_iff.1 h
      refine Or.inr ⟨raw, n, m, hdeclared, hparse, hraw, ?_⟩
      split at h
      · rename_i hstale
        obtain ⟨changed, hretract, h⟩ := Except.bind_eq_ok_iff.1 h
        cases h
        exact Or.inr ⟨hstale, hretract, rfl⟩
      · rename_i hstale
        cases h
        exact Or.inl ⟨Bool.eq_false_of_not_eq_true hstale, rfl, rfl⟩
  · rintro (⟨hdeclared, rfl, rfl⟩ | ⟨raw, n, m, hdeclared, hparse, hraw, hcases⟩)
    · unfold retractStale
      rw [hdeclared]
      rfl
    · rw [retractStale_of_declared hdeclared hparse hraw]
      rcases hcases with ⟨hstale, rfl, rfl⟩ | ⟨hstale, hretract, rfl⟩
      · rw [hstale]
        rfl
      · rw [hstale, hretract]
        rfl

/-- Taking a declaration back concerns the record only. -/
theorem retractStale_status (h : pool.retractStale indexes key = .ok (pool₁, indexes₁)) :
    ∃ declared, pool₁ = { pool with status := { pool.status with declared } } := by
  rcases retractStale_eq_ok_iff.1 h with
    ⟨-, rfl, -⟩ | ⟨_, _, _, -, -, -, ⟨-, rfl, -⟩ | ⟨-, -, rfl⟩⟩
  · exact ⟨pool₁.status.declared, rfl⟩
  · exact ⟨pool₁.status.declared, rfl⟩
  · exact ⟨none, rfl⟩

/-- A pool that is applied is declared. -/
theorem apply_eq_ok_iff :
    pool.apply indexes = (.ok (), pool', indexes') ↔
      ∃ key pool₁ indexes₁ n index', pool.info.parentKey .pool .scope = .ok key ∧
        pool.retractStale indexes key = .ok (pool₁, indexes₁) ∧
          (indexes₁.declare key pool₁).2 = .ok (n, indexes') ∧ indexes'.get? key = some index' ∧
            pool' = pool.settled n index' := by
  constructor
  · intro h
    unfold apply at h
    split at h
    · cases h
    · rename_i key hkey
      split at h
      · cases h
      · rename_i pool₁ indexes₁ hstale
        split at h
        · cases h
        · rename_i pool₂ n changed hdeclare
          dsimp only at h
          split at h
          · cases h
          · rename_i usage husage
            cases h
            have hanswer : (indexes₁.declare key pool₁).2 = .ok (n, indexes') := by rw [hdeclare]
            cases hdeclare.symm.trans (ScopeIndexes.declare_eq hanswer)
            obtain ⟨index', hindex, rfl⟩ := ScopeIndexes.usage_eq_ok_iff.1 husage
            obtain ⟨declared, rfl⟩ := retractStale_status hstale
            exact ⟨key, _, indexes₁, n, index', hkey, hstale, hanswer, hindex, rfl⟩
  · rintro ⟨key, pool₁, indexes₁, n, index', hkey, hstale, hdeclare, hindex, rfl⟩
    obtain ⟨declared, rfl⟩ := retractStale_status hstale
    have hanswer := ScopeIndexes.declare_eq hdeclare
    have husage := ScopeIndexes.usage_eq_ok_iff (n := n).2 ⟨index', hindex, rfl⟩
    unfold apply
    simp only [hkey, hstale, hanswer, husage]
    rfl

/-- A pool that shows what was declared has nothing to take back. -/
theorem retractStale_settled (hparse : Network.parse pool.spec.network = .ok n) :
    (pool.settled n index).retractStale indexes key = .ok (pool.settled n index, indexes) := by
  have htext := Network.parse_text (Network.parse_isCanonical hparse)
  refine retractStale_eq_ok_iff.2 (Or.inr ⟨n.text, n, n, rfl, hparse, htext, Or.inl ⟨?_, rfl, rfl⟩⟩)
  rw [← Bool.not_eq_true, isStale_eq_true_iff, not_or, not_not, not_not]
  exact ⟨rfl, rfl⟩

/-- A pool that is applied again is declared as it was, whether or not it recorded that. The status that
all kinds share plays no part in it. -/
theorem apply_again (h : pool.apply indexes = (.ok (), pool', indexes')) :
    pool.apply indexes' = (.ok (), pool', indexes') ∧
      ∀ common, apply { pool' with status := { pool'.status with common } } indexes'
        = (.ok (), { pool' with status := { pool'.status with common } }, indexes') := by
  obtain ⟨key, pool₁, indexes₁, n, index', hkey, hstale, hdeclare, hindex, rfl⟩ := apply_eq_ok_iff.1 h
  obtain ⟨declared, rfl⟩ := retractStale_status hstale
  obtain ⟨hparse, -⟩ := ScopeIndexes.declare_eq_ok_iff.1 hdeclare
  have hagain := fun pool' hspec => ScopeIndexes.declare_again pool' hdeclare hspec
  constructor
  · refine apply_eq_ok_iff.2 ?_
    rcases retractStale_eq_ok_iff.1 hstale with
      ⟨hdeclared, -, -⟩ | ⟨raw, n', m, hdeclared, hparse', hraw, ⟨hkept, -, -⟩ | ⟨hedited, hretract, -⟩⟩
    · exact ⟨key, pool, _, n, index', hkey, retractStale_eq_ok_iff.2 (Or.inl ⟨hdeclared, rfl, rfl⟩),
        hagain _ rfl, hindex, rfl⟩
    · exact ⟨key, pool, _, n, index', hkey, retractStale_eq_ok_iff.2
        (Or.inr ⟨raw, n', m, hdeclared, hparse', hraw, Or.inl ⟨hkept, rfl, rfl⟩⟩),
        hagain _ rfl, hindex, rfl⟩
    · obtain ⟨indexes₂, hretract', hdeclare'⟩ :=
        ScopeIndexes.declare_again_of_retract
          { pool with status := { pool.status with declared := none } } hretract hdeclare rfl
      exact ⟨key, _, indexes₂, n, index', hkey, retractStale_eq_ok_iff.2
        (Or.inr ⟨raw, n', m, hdeclared, hparse', hraw, Or.inr ⟨hedited, hretract', rfl⟩⟩),
        hdeclare', hindex, rfl⟩
  · intro common
    have hsettled : (settled { pool with status := { pool.status with common } } n index').retractStale
        indexes' key = .ok (settled { pool with status := { pool.status with common } } n index', indexes') :=
      retractStale_settled hparse
    exact apply_eq_ok_iff.2 ⟨key, _, _, n, index', hkey, hsettled, hagain _ rfl, hindex, rfl⟩

end Pool

/-! ## All kinds -/

/-- A fetch depends on the fault rules and on the object at its place. -/
theorem Access.fetch_congr {a a' : Access} {kind : Kind} {key : ObjectKey} (hrules : a'.rules = a.rules)
    (hget : a'.store.get? ⟨kind, key⟩ = a.store.get? ⟨kind, key⟩) : a'.fetch kind key = a.fetch kind key := by
  unfold fetch get guarded effect?
  rw [hrules, hget]

namespace Object

/-- The object at the place that its name says. -/
def placed (o : Object) (name : ResourceName) : Object :=
  o.mapStatus fun s => { s with placement := name.placement }

@[simp] theorem kind_placed (o : Object) (name : ResourceName) : (o.placed name).kind = o.kind :=
  o.kind_mapStatus _

@[simp] theorem info_placed (o : Object) (name : ResourceName) : (o.placed name).info = o.info :=
  o.info_mapStatus _

/-- An object whose status says its place is placed. -/
theorem placed_of_placement {o : Object} {name : ResourceName}
    (h : o.status.placement = name.placement) : o.placed name = o := by
  apply mapStatus_of_status
  rw [← h]

end Object

namespace Controller

variable {c c₁ c₂ c' : Controller} {o o' : Object} {kind : Kind} {id : ObjectId}
variable {before object : Object} {outcome : Outcome}

/-- Nothing has changed that an object of a kind depends on once its effect is applied. -/
structure Follows (kind : Kind) (c c' : Controller) : Prop where
  parents : ∀ kind' key, kind' ≠ kind → c'.access.fetch kind' key = c.access.fetch kind' key
  indexes : c'.indexes = c.indexes
  counters : ∀ name, c.ladder.counters.contains name = true → c'.ladder.counters.contains name = true

/-- Nothing has changed where nothing happened. -/
theorem Follows.refl (kind : Kind) (c : Controller) : c.Follows kind c := ⟨fun _ _ _ => rfl, rfl, fun _ => id⟩

/-- Objects of other kinds find the same scopes. -/
theorem Follows.fetchScope (h : c.Follows kind c') (hkind : kind ≠ .scope) (key : ObjectKey) :
    c'.access.fetchScope key = c.access.fetchScope key := by
  unfold Access.fetchScope
  rw [h.parents .scope key hkind.symm]

/-- A scope that has an index and a retry counter is set up. -/
theorem initScope_of_contains {key : ObjectKey} (hindex : c.indexes.contains key = true)
    (hcounter : c.ladder.counters.contains (Kind.scope.retryName key) = true) : c.initScope key = c := by
  unfold initScope ScopeIndexes.ensure Ladder.track
  rw [if_pos hindex, if_pos hcounter]

/-- A scope that was set up has an index and a retry counter. -/
theorem contains_initScope (c : Controller) (key : ObjectKey) :
    (c.initScope key).indexes.contains key = true ∧
      (c.initScope key).ladder.counters.contains (Kind.scope.retryName key) = true := by
  unfold initScope ScopeIndexes.ensure Ladder.track Ladder.reset SortedMap.contains
  constructor
  · dsimp only
    split
    · assumption
    · rw [SortedMap.get?_insert_self]
      rfl
  · dsimp only
    split
    · assumption
    · rw [SortedMap.get?_insert_self]
      rfl

/-- A tenant has no effect, and it can be applied when it is enabled. -/
theorem apply_tenant_eq_ok_iff {t : Tenant} :
    c.apply (.tenant t) = (.ok (), o', c') ↔
      t.spec.adminState = .enable ∧ o' = .tenant t ∧ c' = c := by
  unfold apply
  dsimp only
  split <;> simp_all [eq_comm]

/-- A scope whose specification passes its check is set up. -/
theorem apply_scope_eq_ok_iff {s : Scope} :
    c.apply (.scope s) = (.ok (), o', c') ↔
      s.checkSpec = .ok () ∧ o' = .scope s ∧ c' = c.initScope s.info.key := by
  unfold apply
  dsimp only
  cases s.checkSpec <;> simp [eq_comm]

/-- Applying a pool is declaring it in the indexes. -/
theorem apply_pool_eq_ok_iff {p : Pool} :
    c.apply (.pool p) = (.ok (), o', c') ↔
      ∃ p' indexes', p.apply c.indexes = (.ok (), p', indexes') ∧ o' = .pool p' ∧
        c' = { c with indexes := indexes' } := by
  show (Failure.lift (p.apply c.indexes).1, Object.pool (p.apply c.indexes).2.1,
    { c with indexes := (p.apply c.indexes).2.2 }) = _ ↔ _
  rcases p.apply c.indexes with ⟨_ | _, p', indexes'⟩ <;> simp [Failure.lift, eq_comm, and_assoc]

/-- Applying a claim is registering it in the indexes. -/
theorem apply_claim_eq_ok_iff {r : Claim} :
    c.apply (.claim r) = (.ok (), o', c') ↔
      ∃ r' indexes', r.apply c.indexes c.access = (.ok (), r', indexes') ∧ o' = .claim r' ∧
        c' = { c with indexes := indexes' } := by
  show ((r.apply c.indexes c.access).1, Object.claim (r.apply c.indexes c.access).2.1,
    { c with indexes := (r.apply c.indexes c.access).2.2 }) = _ ↔ _
  rcases r.apply c.indexes c.access with ⟨_ | _, r', indexes'⟩ <;> simp [eq_comm, and_assoc]

/-- An effect that was applied is applied again without a change, to the object as it was and to the
object as it is then, whatever the status that all kinds share. -/
theorem apply_again (h : c.apply o = (.ok (), o', c₁)) (hfollows : c₁.Follows o.kind c') :
    c'.apply o = (.ok (), o', c') ∧ ∀ f, c'.apply (o'.mapStatus f) = (.ok (), o'.mapStatus f, c') := by
  cases o with
  | tenant t =>
    obtain ⟨henabled, rfl, rfl⟩ := apply_tenant_eq_ok_iff.1 h
    exact ⟨apply_tenant_eq_ok_iff.2 ⟨henabled, rfl, rfl⟩,
      fun f => apply_tenant_eq_ok_iff.2 ⟨henabled, rfl, rfl⟩⟩
  | scope s =>
    obtain ⟨hspec, rfl, rfl⟩ := apply_scope_eq_ok_iff.1 h
    obtain ⟨hindex, hcounter⟩ := c.contains_initScope s.info.key
    rw [← hfollows.indexes] at hindex
    have hkept := initScope_of_contains hindex (hfollows.counters _ hcounter)
    exact ⟨apply_scope_eq_ok_iff.2 ⟨hspec, rfl, hkept.symm⟩,
      fun f => apply_scope_eq_ok_iff.2 ⟨hspec, rfl, hkept.symm⟩⟩
  | pool p =>
    obtain ⟨p', indexes', happly, rfl, rfl⟩ := apply_pool_eq_ok_iff.1 h
    obtain ⟨hbefore, hafter⟩ := Pool.apply_again happly
    obtain rfl : c'.indexes = indexes' := hfollows.indexes
    exact ⟨apply_pool_eq_ok_iff.2 ⟨p', _, hbefore, rfl, rfl⟩,
      fun f => apply_pool_eq_ok_iff.2 ⟨_, _, hafter (f p'.status.common), rfl, rfl⟩⟩
  | claim r =>
    obtain ⟨r', indexes', happly, rfl, rfl⟩ := apply_claim_eq_ok_iff.1 h
    rw [← Claim.apply_congr (hfollows.fetchScope nofun)] at happly
    obtain ⟨hbefore, hafter⟩ := Claim.apply_again happly
    obtain rfl : c'.indexes = indexes' := hfollows.indexes
    exact ⟨apply_claim_eq_ok_iff.2 ⟨r', _, hbefore, rfl, rfl⟩,
      fun f => apply_claim_eq_ok_iff.2 ⟨_, _, hafter (f r'.status.common), rfl, rfl⟩⟩

/-- Whether a parent is ready does not depend on the status of the object. -/
theorem checkParent_again (h : c.checkParent o = .ok ()) (hbody : o.SameBody o')
    (hparents : ∀ kind key, kind ≠ o.kind → c'.access.fetch kind key = c.access.fetch kind key)
    (hindexes : ∀ key, c.indexes.contains key = true → c'.indexes.contains key = true) :
    c'.checkParent o' = .ok () := by
  have hready : ∀ {key scope}, o.kind ≠ .scope → c.indexes.readyScope c.access key = .ok scope →
      c'.indexes.readyScope c'.access key = .ok scope := by
    intro key scope hkind hready
    obtain ⟨hname, hfetch, hscope, hindex⟩ := ScopeIndexes.readyScope_eq_ok_iff.1 hready
    refine ScopeIndexes.readyScope_eq_ok_iff.2 ⟨hname, ?_, hscope, hindexes key hindex⟩
    rw [← hfetch]
    unfold Access.fetchScope
    rw [hparents .scope key hkind.symm]
  cases hbody with
  | tenant _ => rfl
  | @scope s _ =>
    have htenant : ∀ key, c'.access.fetchTenant key = c.access.fetchTenant key := by
      intro key
      unfold Access.fetchTenant
      rw [hparents .tenant key nofun]
    show Scope.checkTenant _ c'.access = .ok ()
    rw [← h]
    show Scope.checkTenant _ c'.access = Scope.checkTenant s c.access
    unfold Scope.checkTenant
    simp only [htenant]
  | pool _ =>
    obtain ⟨key, hkey, h⟩ := Except.bind_eq_ok_iff.1 h
    obtain ⟨scope, h, -⟩ := Except.bind_eq_ok_iff.1 h
    exact Except.bind_eq_ok_iff.2 ⟨key, hkey, Except.bind_eq_ok_iff.2 ⟨scope, hready nofun h, rfl⟩⟩
  | @claim r status =>
    obtain ⟨registration, hregistration, h⟩ := Except.bind_eq_ok_iff.1 h
    obtain ⟨scope, h, -⟩ := Except.bind_eq_ok_iff.1 h
    have hregistration' := Claim.registration_withNetwork (Failure.lift_eq_ok_iff.1 hregistration)
      status.network
    exact Except.bind_eq_ok_iff.2 ⟨{ registration with persisted := status.network },
      Failure.lift_eq_ok_iff.2 hregistration', Except.bind_eq_ok_iff.2 ⟨scope, hready nofun h, rfl⟩⟩

/-! ## Evaluating -/

/-- An object whose name cannot be parsed is stuck before anything of it was done. -/
theorem evaluate_of_parse_error {e : RegistryError}
    (hname : ResourceName.parse o.kind o.info.name = .error e) :
    c.evaluate o = (some (.stuck .pending e), o, c) := by
  unfold evaluate
  rw [hname]

/-- An object whose parent is not ready is placed, and stuck. -/
theorem evaluate_of_checkParent_error {name : ResourceName} {f : Failure}
    (hname : ResourceName.parse o.kind o.info.name = .ok name)
    (hparent : c.checkParent (o.placed name) = .error f) :
    c.evaluate o = (Verdict.ofResult? .pending (.error f), o.placed name, c) := by
  unfold Object.placed at hparent ⊢
  unfold evaluate
  simp only [hname, hparent]

/-- When name and parent are in order, applying the effect decides. -/
theorem evaluate_of_checkParent {name : ResourceName}
    (hname : ResourceName.parse o.kind o.info.name = .ok name)
    (hparent : c.checkParent (o.placed name) = .ok ()) :
    c.evaluate o
      = (Verdict.ofResult? .initializing (c.apply (o.placed name)).1, (c.apply (o.placed name)).2) := by
  unfold Object.placed at hparent ⊢
  unfold evaluate
  simp only [hname, hparent]

/-- An object is ready when its name can be read, its parent is ready and its effect is applied. -/
theorem evaluate_eq_ready_iff :
    c.evaluate o = (some .ready, o', c') ↔
      ∃ name, ResourceName.parse o.kind o.info.name = .ok name ∧
        c.checkParent (o.placed name) = .ok () ∧ c.apply (o.placed name) = (.ok (), o', c') := by
  constructor
  · intro h
    cases hname : ResourceName.parse o.kind o.info.name with
    | error e =>
      rw [evaluate_of_parse_error hname] at h
      cases h
    | ok name =>
      cases hparent : c.checkParent (o.placed name) with
      | error f =>
        rw [evaluate_of_checkParent_error hname hparent] at h
        cases f <;> cases h
      | ok _ =>
        rw [evaluate_of_checkParent hname hparent] at h
        refine ⟨name, rfl, hparent, ?_⟩
        rcases happly : c.apply (o.placed name) with ⟨⟨_ | _⟩ | _, o'', c''⟩ <;> rw [happly] at h <;>
          cases h
        rfl
  · rintro ⟨name, hname, hparent, happly⟩
    rw [evaluate_of_checkParent hname hparent, happly]
    rfl

/-- An effect that was applied left the status that all kinds share alone. -/
theorem status_of_apply (h : c.apply o = (.ok (), o', c')) : o'.status = o.status := by
  cases o with
  | tenant t =>
    obtain ⟨-, rfl, -⟩ := apply_tenant_eq_ok_iff.1 h
    rfl
  | scope s =>
    obtain ⟨-, rfl, -⟩ := apply_scope_eq_ok_iff.1 h
    rfl
  | pool p =>
    obtain ⟨_, _, happly, rfl, -⟩ := apply_pool_eq_ok_iff.1 h
    obtain ⟨_, _, _, _, _, -, -, -, -, rfl⟩ := Pool.apply_eq_ok_iff.1 happly
    rfl
  | claim r =>
    obtain ⟨_, _, happly, rfl, -⟩ := apply_claim_eq_ok_iff.1 h
    obtain ⟨_, _, _, _, -, -, -, rfl⟩ := Claim.apply_eq_ok_iff.1 happly
    rfl

/-- Evaluating an object takes no index away. -/
theorem EvaluateOutcome.contains {v : Verdict} (h : c.EvaluateOutcome o v o' c') {key : ObjectKey}
    (hindex : c.indexes.contains key = true) : c'.indexes.contains key = true := by
  cases h with
  | stuck _ _ _ _ => exact hindex
  | fulfilled _ _ _ _ hindexes =>
    rcases hindexes with heq | ⟨-, heq⟩
    · rw [heq, hindex]
    · rw [heq]
      unfold ScopeIndexes.ensure
      split
      · exact hindex
      · exact SortedMap.contains_insert _ hindex
  | obtained _ _ _ _ _ _ => exact SortedMap.contains_insert _ hindex

/-- An object that was found ready is found ready again, without a change, both as it was and as it is
then. -/
theorem evaluate_again (hrules : c.access.rules = []) (h : c.evaluate o = (some .ready, o', c₁))
    (hfollows : c₁.Follows o.kind c') :
    c'.evaluate o = (some .ready, o', c') ∧
      ∀ f, (∀ s, (f s).placement = s.placement) →
        c'.evaluate (o'.mapStatus f) = (some .ready, o'.mapStatus f, c') := by
  obtain ⟨name, hname, hparent, happly⟩ := evaluate_eq_ready_iff.1 h
  rcases apply_outcome hrules hparent with ⟨e, hfailed⟩ | ⟨o'', c'', happly', houtcome⟩
  · cases happly.symm.trans hfailed
  cases happly.symm.trans happly'
  rw [← o.kind_placed name] at hfollows
  obtain ⟨hbefore, hafter⟩ := apply_again happly hfollows
  have hparents : ∀ kind key, kind ≠ (o.placed name).kind →
      c'.access.fetch kind key = c.access.fetch kind key := by
    intro kind key hne
    rw [hfollows.parents kind key hne, houtcome.access]
  have hindexes : ∀ key, c.indexes.contains key = true → c'.indexes.contains key = true := by
    intro key hindex
    rw [hfollows.indexes]
    exact houtcome.contains hindex
  refine ⟨evaluate_eq_ready_iff.2
    ⟨name, hname, checkParent_again hparent (.refl _) hparents hindexes, hbefore⟩, fun f hf => ?_⟩
  have hbody := houtcome.sameBody.mapStatus f
  have hplaced : (o'.mapStatus f).placed name = o'.mapStatus f := by
    apply Object.placed_of_placement
    rw [Object.status_mapStatus, hf, status_of_apply happly, Object.placed, Object.status_mapStatus]
  refine evaluate_eq_ready_iff.2 ⟨name, ?_, ?_, ?_⟩
  · rw [hbody.kind_eq, hbody.info_eq, Object.kind_placed, Object.info_placed, hname]
  · rw [hplaced]
    exact checkParent_again hparent hbody hparents hindexes
  · rw [hplaced]
    exact hafter f

/-! ## Whole passes -/

/-- Once a pass has seen to the finalizer, its object carries it. -/
theorem hasFinalizer_of_ensureFinalizer (h : c.ensureFinalizer id o = .ok (before, c')) :
    before.info.hasFinalizer finalizerName = true := by
  unfold ensureFinalizer at h
  split at h
  · rename_i hfinalizer
    cases h
    exact hfinalizer
  · obtain ⟨access, -, h⟩ := Except.bind_eq_ok_iff.1 h
    cases h
    simp [Metadata.hasFinalizer]

/-- Putting the finalizer on an object keeps what identifies it, and whether it is to be deleted. -/
theorem kept_of_ensureFinalizer (h : before = o ∨ before = Store.marked o finalizerName) :
    before.id = o.id ∧ before.info.deletionRequested = o.info.deletionRequested := by
  rcases h with rfl | rfl
  · exact ⟨rfl, rfl⟩
  · exact ⟨Store.id_marked o _, by rw [Store.marked, Object.info_mapInfo]⟩

/-- An object that is to be deleted is not ready. -/
theorem ready_of_finalize (h : c.finalize id o = (.ok outcome, c')) : outcome.ready = false := by
  unfold finalize at h
  split at h
  · unfold finish at h
    split at h
    · cases h
    · dsimp only at h
      split at h <;> cases h
      rfl
  · unfold postpone at h
    dsimp only at h
    split at h <;> cases h
    rfl
  · cases h

/-- Writing an object back changes nothing that objects of its own kind depend on: parents are of other
kinds. -/
theorem Stores.follows (h : c.Stores id o c') (hrules : c.access.rules = [])
    (hcounters : ∀ name, c.ladder.counters.contains name = true →
      c'.ladder.counters.contains name = true) : c.Follows id.kind c' where
  parents kind key hne := by
    refine Access.fetch_congr (h.rules.trans hrules.symm) (h.get?_of_ne ?_)
    rintro rfl
    exact hne rfl
  indexes := h.indexes
  counters := hcounters

/-- A pass over an object that is to stay puts the finalizer on it and reports what the evaluation then comes
to. -/
theorem maintain_eq_report (hrules : c.access.rules = []) (hget : c.access.store.get? id = some o) :
    ∃ (before after : Object) (c₁ c₂ : Controller) (v : Verdict),
      (before = o ∨ before = Store.marked o finalizerName) ∧
        before.info.hasFinalizer finalizerName = true ∧ c.Stores id before c₁ ∧
          c₁.evaluate before = (some v, after, c₂) ∧ before.SameBody after ∧ c₂.access = c₁.access ∧
            c.maintain id o = c₂.report id before after v := by
  obtain ⟨before, c₁, hensure, hbefore, hstores⟩ := ensureFinalizer_ok hrules hget
  obtain ⟨v, after, c₂, hevaluate, houtcome⟩ := evaluate_outcome hstores.rules before
  refine ⟨before, after, c₁, c₂, v, hbefore, hasFinalizer_of_ensureFinalizer hensure, hstores, hevaluate,
    houtcome.sameBody, houtcome.access, ?_⟩
  unfold maintain
  rw [hensure]
  dsimp only
  rw [hevaluate]

/-- A pass that ends ready found its object ready and wrote that back. -/
theorem maintain_ready (hrules : c.access.rules = []) (hget : c.access.store.get? id = some o)
    (hid : o.id = id) (h : c.maintain id o = (.ok outcome, c')) (hready : outcome.ready = true) :
    ∃ (before after : Object) (c₁ c₂ : Controller), c₁.access.rules = [] ∧ before.id = id ∧
      before.info.deletionRequested = o.info.deletionRequested ∧
        before.info.hasFinalizer finalizerName = true ∧ before.SameBody after ∧
          c₁.evaluate before = (some .ready, after, c₂) ∧
            c₂.Stores id (c₂.reported after .ready) c' ∧ c₂.Follows id.kind c' := by
  obtain ⟨before, after, c₁, c₂, v, hbefore, hfinalizer, hstores, hevaluate, hbody, haccess, hmaintain⟩ :=
    maintain_eq_report hrules hget
  obtain ⟨hid₁, hdeletion⟩ := kept_of_ensureFinalizer hbefore
  have hid₁ : before.id = id := hid₁.trans hid
  have hrules₂ : c₂.access.rules = [] := by rw [haccess, hstores.rules]
  have hget₂ : c₂.access.store.get? id = some before := by rw [haccess, hstores.get?_self]
  rw [hmaintain, report_eq hrules₂ hget₂ hid₁ hbody] at h
  cases h
  cases v with
  | stuck phase e => cases hready
  | ready =>
    have hstores₂ := stores_told hrules₂ hget₂ hid₁ hbody .ready
    exact ⟨before, after, c₁, c₂, hstores.rules, hid₁, hdeletion, hfinalizer, hbody, hevaluate, hstores₂,
      hstores₂.follows hrules₂ fun name hname => contains_told hname id before after .ready⟩

/-- A pass over an object that shows what it finds changes nothing. -/
theorem reconcile_of_shown (h : c.Sound) (hget : c.access.store.get? id = some object)
    (hdeletion : object.info.deletionRequested = false)
    (hfinalizer : object.info.hasFinalizer finalizerName = true)
    (hevaluate : c.evaluate object = (some .ready, object, c)) (hphase : object.status.phase = .ready)
    {t : Timestamp} (hcondition : object.status.condition = ⟨true, "Ready", "", some t⟩)
    (hgeneration : object.status.observedGeneration = object.info.generation) :
    c.reconcile id = (.ok ⟨.ready, true, none, some c.ladder.policy.poll⟩, c) := by
  have hensure : c.ensureFinalizer id object = .ok (object, c) := by
    unfold ensureFinalizer
    rw [hfinalizer]
    rfl
  rw [h.reconcile_of_live hget hdeletion]
  unfold maintain
  simp only [hensure, hevaluate, report_of_shown hphase hcondition hgeneration]

/-- After a pass that ends ready, another pass over the object ends ready too. It is to be looked at again
after the poll interval, and nothing changes: neither the store with its log, nor an index, nor the
retry counters, nor a queue, nor the clock. -/
theorem reconcile_again (h : c.Sound) (hpass : c.reconcile id = (.ok outcome, c'))
    (hready : outcome.ready = true) :
    c'.reconcile id = (.ok ⟨.ready, true, none, some c'.ladder.policy.poll⟩, c') := by
  have hsound : c'.Sound := by
    have := h.act (.reconcile id)
    rwa [show c.act (.reconcile id) = c' from congrArg Prod.snd hpass] at this
  cases hget : c.access.store.get? id with
  | none =>
    rw [h.reconcile_of_absent hget] at hpass
    cases hpass
    cases hready
  | some o =>
    cases hlive : o.info.deletionRequested with
    | true =>
      rw [h.reconcile_of_deleted hget hlive] at hpass
      rw [ready_of_finalize hpass] at hready
      cases hready
    | false =>
      rw [h.reconcile_of_live hget hlive] at hpass
      obtain ⟨before, after, c₁, c₂, hrules, hid, hdeletion, hfinalizer, hbody, hevaluate, hstores,
        hfollows⟩ := maintain_ready h.rules hget (h.keyed id o hget) hpass hready
      obtain ⟨f, hreported, hplacement, hphase, hgeneration, t, hcondition⟩ := c₂.reported_ready after
      rw [← show before.kind = id.kind from congrArg ObjectId.kind hid] at hfollows
      have hagain := (evaluate_again hrules hevaluate hfollows).2 f hplacement
      have hinfo : (after.mapStatus f).info = before.info := by
        rw [Object.info_mapStatus, hbody.info_eq]
      rw [hreported] at hstores
      refine reconcile_of_shown hsound hstores.get?_self ?_ ?_ hagain ?_ (t := t) ?_ ?_
      · rw [hinfo, hdeletion, hlive]
      · rw [hinfo, hfinalizer]
      · rw [Object.status_mapStatus, hphase]
      · rw [Object.status_mapStatus, hcondition]
      · rw [Object.status_mapStatus, hgeneration, Object.info_mapStatus]

/-- A dynamic claim of the sample registry stays as it is once it is ready. -/
theorem reconcile_again_sample :
    ∃ outcome c', (Lab.after Lab.allocating).reconcile Lab.edgeId = (.ok outcome, c') ∧
      outcome.ready = true ∧
        c'.reconcile Lab.edgeId = (.ok ⟨.ready, true, none, some c'.ladder.policy.poll⟩, c') := by
  have hready : ((Lab.after Lab.allocating).reconcile Lab.edgeId).1.toOption.map (·.ready)
      = some true := by
    decide +kernel
  rcases hpass : (Lab.after Lab.allocating).reconcile Lab.edgeId with ⟨_ | outcome, c'⟩
  · rw [hpass] at hready
    cases hready
  · rw [hpass] at hready
    have hready : outcome.ready = true := Option.some.inj hready
    exact ⟨outcome, c', rfl, hready, reconcile_again (Lab.after_reachable _).sound hpass hready⟩

end Controller

end AddressRegistry
