import AddressRegistry.Proofs.Reconcile.Repeat

/-!
# What an object needs to be ready

`Object.Entitled` says it in terms of the store alone: the name can be read, the parent is stored, ready and
to stay, and the specification describes something that exists. The registry decides by its own means: it
asks for the index of a scope, and not whether the scope is to stay.

Both come to the same once the objects above are settled (`Controller.Settled`), that is, each shows whether
it is entitled, and a scope that shows that it is ready has an index exactly as long as it is to stay. Then
an evaluation ends ready only for an entitled object (`Controller.Sound.entitled_of_evaluate`), and for
every entitled object that is no claim (`Controller.Sound.evaluate_of_entitled`).
-/

namespace AddressRegistry

/-! ## Specifications -/

namespace ScopeSpec

/-- Every length of the table exists in its family. -/
def LengthsExist (s : ScopeSpec) : Prop :=
  ∀ purpose family length, s.lengthFor purpose family = some length → length ≤ family.width

/-- The check of a table of lengths accepts it exactly if every length exists. -/
theorem validate_eq_ok_iff {s : ScopeSpec} : s.validate = .ok () ↔ s.LengthsExist := by
  have hvalidate : s.validate = .ok () ↔ s.lengthFault = none := by
    unfold validate
    cases s.lengthFault <;> simp
  rw [hvalidate]
  unfold lengthFault LengthsExist lengthFor
  rw [List.findSome?_eq_none_iff]
  constructor
  · intro h purpose family length hlength
    obtain ⟨lengths, hpurpose, hfamily⟩ := Option.bind_eq_some_iff.1 hlength
    have hfault := List.findSome?_eq_none_iff.1 (h _ (SortedMap.mem_entries_iff.2 hpurpose)) _
      (SortedMap.mem_entries_iff.2 hfamily)
    simpa using hfault
  · rintro h ⟨purpose, lengths⟩ hpurpose
    refine List.findSome?_eq_none_iff.2 ?_
    rintro ⟨family, length⟩ hfamily
    have hlength := h purpose family length (Option.bind_eq_some_iff.2
      ⟨lengths, SortedMap.mem_entries_iff.1 hpurpose, SortedMap.mem_entries_iff.1 hfamily⟩)
    simpa using hlength

end ScopeSpec

/-- A scope passes its check when it is enabled and its lengths exist. -/
theorem Scope.checkSpec_eq_ok_iff {scope : Scope} :
    scope.checkSpec = .ok () ↔ scope.spec.adminState = .enable ∧ scope.spec.LengthsExist := by
  unfold checkSpec
  split
  · rename_i henabled
    rw [ScopeSpec.validate_eq_ok_iff, and_iff_right henabled]
  · rename_i henabled
    exact iff_of_false nofun fun h => henabled h.1

/-! ## Entitlement -/

/-- The object is stored, ready and to stay. -/
def Store.Serves (s : Store) (id : ObjectId) : Prop :=
  ∃ o, s.get? id = some o ∧ o.isReady = true ∧ o.info.deletionRequested = false

/-- Whether an object serves as a parent is read off its own place. -/
theorem Store.serves_congr {s s' : Store} {id : ObjectId} (h : s'.get? id = s.get? id) :
    s'.Serves id ↔ s.Serves id := by
  unfold Serves
  rw [h]

namespace Object

variable {o o' : Object} {s s' : Store}

/-- What an object needs to be ready. A claim needs a network besides, which it may not obtain. -/
def Entitled (s : Store) : Object → Prop
  | tenant t =>
    (∃ name, ResourceName.parse .tenant t.info.name = .ok name) ∧ t.spec.adminState = .enable
  | scope r =>
    (∃ name, ResourceName.parse .scope r.info.name = .ok name) ∧
      (∃ key, r.info.parentKey .scope .tenant = .ok key ∧ s.Serves ⟨.tenant, key⟩) ∧
        r.spec.adminState = .enable ∧ r.spec.LengthsExist
  | pool p =>
    (∃ name, ResourceName.parse .pool p.info.name = .ok name) ∧
      (∃ key, p.info.parentKey .pool .scope = .ok key ∧ s.Serves ⟨.scope, key⟩) ∧
        ∃ n, Network.parse p.spec.network = .ok n
  | claim r =>
    (∃ name, ResourceName.parse .claim r.info.name = .ok name) ∧
      ∃ key, r.info.parentKey .claim .scope = .ok key ∧ s.Serves ⟨.scope, key⟩

/-- What an object needs does not depend on its own status. -/
theorem SameBody.entitled_iff (h : o.SameBody o') : o'.Entitled s ↔ o.Entitled s := by
  cases h <;> exact Iff.rfl

/-- Only objects of the kinds above play a part. -/
theorem entitled_congr
    (h : ∀ id : ObjectId, id.kind.rank < o.kind.rank → s'.get? id = s.get? id) :
    o.Entitled s' ↔ o.Entitled s := by
  cases o with
  | tenant t => exact Iff.rfl
  | scope r =>
    have htenant := fun key => Store.serves_congr (h ⟨.tenant, key⟩ (by decide : 0 < 1))
    simp only [Entitled, htenant]
  | pool p =>
    have hscope := fun key => Store.serves_congr (h ⟨.scope, key⟩ (by decide : 1 < 2))
    simp only [Entitled, hscope]
  | claim r =>
    have hscope := fun key => Store.serves_congr (h ⟨.scope, key⟩ (by decide : 1 < 3))
    simp only [Entitled, hscope]

/-- What is entitled to be ready has a name that can be read. -/
theorem Entitled.name (h : o.Entitled s) : ∃ name, ResourceName.parse o.kind o.info.name = .ok name := by
  cases o <;> exact h.1

/-- What a pool recorded as declared can be read. -/
def DeclaredReads : Object → Prop
  | pool p => ∀ raw, p.status.declared = some raw → ∃ n, Network.parse raw = .ok n
  | tenant _ | scope _ | claim _ => True

end Object

/-! ## Pools that can be declared -/

namespace Pool

variable {pool : Pool} {indexes : ScopeIndexes} {key : ObjectKey} {index : RouteIndex} {n : Network}

/-- In a scope with an index, a pool whose texts can be read can take back what is stale. -/
theorem exists_retractStale (hparse : Network.parse pool.spec.network = .ok n)
    (hindex : indexes.get? key = some index) (hreads : (Object.pool pool).DeclaredReads) :
    ∃ declared cleared, pool.retractStale indexes key
      = .ok ({ pool with status := { pool.status with declared } }, indexes.insert key cleared) := by
  rcases retractStale_outcome hparse hindex with ⟨e, hstale⟩ | ⟨declared, cleared, hstale, -⟩
  · cases hdeclared : pool.status.declared with
    | none =>
      unfold retractStale at hstale
      rw [hdeclared] at hstale
      cases hstale
    | some raw =>
      obtain ⟨m, hraw⟩ := hreads raw hdeclared
      rw [retractStale_of_declared hdeclared hparse hraw] at hstale
      obtain ⟨cleared, hcleared⟩ := index.exists_erase m.truncate
      have hretract := ScopeIndexes.retract_eq_ok_iff.2
        ⟨m, hraw, Or.inr ⟨index, cleared, hindex, hcleared, rfl⟩⟩
      rw [hretract] at hstale
      split at hstale <;> cases hstale
  · exact ⟨declared, cleared, hstale⟩

/-- A pool whose network can be read is declared in a scope that has an index. -/
theorem exists_apply (pool : Pool) (hkey : pool.info.parentKey .pool .scope = .ok key)
    (hparse : Network.parse pool.spec.network = .ok n) (hindex : indexes.get? key = some index)
    (hreads : (Object.pool pool).DeclaredReads) :
    ∃ pool' indexes', pool.apply indexes = (.ok (), pool', indexes') := by
  obtain ⟨declared, cleared, hstale⟩ := exists_retractStale hparse hindex hreads
  obtain ⟨index', hdeclare⟩ := cleared.exists_declare n (declarationLabels pool.spec.labels n)
  obtain ⟨status, -, happly⟩ := apply_of_declare hkey hparse hstale hdeclare
  exact ⟨_, _, happly⟩

end Pool

/-! ## Parents -/

/-- A tenant is fetched when one is stored under the key. -/
theorem Access.fetchTenant_eq_some_iff {store : Store} {key : ObjectKey} {tenant : Tenant} :
    (⟨store, []⟩ : Access).fetchTenant key = .ok (some tenant) ↔
      store.get? ⟨.tenant, key⟩ = some (.tenant tenant) := by
  unfold fetchTenant
  rw [fetch_of_store]
  cases store.get? ⟨.tenant, key⟩ with
  | none => exact iff_of_false nofun nofun
  | some o =>
    cases o with
    | tenant t =>
      show Except.ok (some t) = .ok (some tenant) ↔ _
      simp
    | scope _ => exact iff_of_false nofun nofun
    | pool _ => exact iff_of_false nofun nofun
    | claim _ => exact iff_of_false nofun nofun

/-- In a keyed store what stands under the key of a tenant is a tenant, and so on. -/
theorem Store.Keyed.kind_eq {s : Store} {id : ObjectId} {o : Object} (h : s.Keyed)
    (hget : s.get? id = some o) : o.kind = id.kind :=
  congrArg ObjectId.kind (h id o hget)

/-- A scope passes the check of its tenant exactly if the tenant serves as a parent. -/
theorem Scope.checkTenant_eq_ok_iff {scope : Scope} {store : Store} (hkeyed : store.Keyed) :
    scope.checkTenant ⟨store, []⟩ = .ok () ↔
      ∃ key, scope.info.parentKey .scope .tenant = .ok key ∧ store.Serves ⟨.tenant, key⟩ := by
  unfold checkTenant
  rw [Except.bind_eq_ok_iff]
  apply exists_congr
  intro key
  rw [Failure.lift_eq_ok_iff]
  apply and_congr_right
  intro _
  constructor
  · intro h
    obtain ⟨found, hfetch, h⟩ := Except.bind_eq_ok_iff.1 h
    cases found with
    | none => cases h
    | some tenant =>
      refine ⟨.tenant tenant, Access.fetchTenant_eq_some_iff.1 hfetch, ?_⟩
      dsimp only at h
      split at h
      · cases h
      · rename_i hlive
        split at h
        · cases h
        · rename_i hready
          have hready : tenant.status.condition.ready = true := by simpa using hready
          exact ⟨hready, Bool.eq_false_of_not_eq_true hlive⟩
  · rintro ⟨o, hget, hready, hlive⟩
    have hkind := hkeyed.kind_eq hget
    cases o with
    | tenant tenant =>
      have hready : tenant.status.condition.ready = true := hready
      have hlive : tenant.info.deletionRequested = false := hlive
      rw [Access.fetchTenant_eq_some_iff.2 hget]
      show (if tenant.info.deletionRequested = true then _ else _) = _
      rw [hlive, hready]
      rfl
    | scope _ => cases hkind
    | pool _ => cases hkind
    | claim _ => cases hkind

namespace Controller

variable {c c' : Controller} {o o' : Object} {key : ObjectKey}

/-- The object shows whether it is entitled to be ready, and a scope that shows that it is has an index as
long as it is to stay. -/
structure Settled (c : Controller) (o : Object) : Prop where
  entitled : o.info.deletionRequested = false → o.isReady = true → o.Entitled c.access.store
  ready : o.info.deletionRequested = false → o.kind ≠ .claim → o.Entitled c.access.store →
    o.isReady = true
  indexed : o.kind = .scope → o.isReady = true →
    (c.indexes.contains o.key = true ↔ o.info.deletionRequested = false)

/-- The stored objects of all kinds above a kind are settled. -/
def SettledAbove (c : Controller) (kind : Kind) : Prop :=
  ∀ id o, id.kind.rank < kind.rank → c.access.store.get? id = some o → c.Settled o

/-- The registry takes a scope for ready exactly when it is stored, ready and to stay. -/
theorem Sound.readyScope_iff_serves (h : c.Sound)
    (hscope : ∀ o, c.access.store.get? ⟨.scope, key⟩ = some o → c.Settled o) :
    (∃ scope, c.indexes.readyScope c.access key = .ok scope) ↔ c.access.store.Serves ⟨.scope, key⟩ := by
  have haccess : c.access = ⟨c.access.store, []⟩ := by rw [← h.rules]
  constructor
  · rintro ⟨scope, hready⟩
    obtain ⟨-, hfetch, hcondition, hindex⟩ := ScopeIndexes.readyScope_eq_ok_iff.1 hready
    rw [haccess, Access.fetchScope_eq_some_iff] at hfetch
    have hkey : (Object.scope scope).key = key := congrArg ObjectId.key (h.keyed _ _ hfetch)
    refine ⟨.scope scope, hfetch, hcondition, ?_⟩
    exact ((hscope _ hfetch).indexed rfl hcondition).1 (by rw [hkey, hindex])
  · rintro ⟨o, hget, hcondition, hlive⟩
    have hkind := h.keyed.kind_eq hget
    have hkey : o.key = key := congrArg ObjectId.key (h.keyed _ _ hget)
    obtain ⟨name, hname⟩ := ((hscope o hget).entitled hlive hcondition).name
    have hindex := ((hscope o hget).indexed hkind hcondition).2 hlive
    rw [hkey] at hindex
    rw [hkind, show o.info.name = key.name from congrArg ObjectKey.name hkey] at hname
    cases o with
    | scope scope =>
      refine ⟨scope, ScopeIndexes.readyScope_eq_ok_iff.2 ⟨⟨name, hname⟩, ?_, hcondition, hindex⟩⟩
      rw [haccess, Access.fetchScope_eq_some_iff]
      exact hget
    | tenant _ => cases hkind
    | pool _ => cases hkind
    | claim _ => cases hkind

/-- Below settled scopes, a pool passes the check of its scope exactly if the scope serves as a parent. -/
theorem Sound.checkScope_eq_ok_iff {pool : Pool} (h : c.Sound) (habove : c.SettledAbove .pool) :
    pool.checkScope c.access c.indexes = .ok () ↔
      ∃ key, pool.info.parentKey .pool .scope = .ok key ∧ c.access.store.Serves ⟨.scope, key⟩ := by
  unfold Pool.checkScope
  rw [Except.bind_eq_ok_iff]
  apply exists_congr
  intro key
  rw [Failure.lift_eq_ok_iff,
    ← h.readyScope_iff_serves fun o => habove ⟨.scope, key⟩ o (by decide : 1 < 2), Except.bind_eq_ok_iff]
  exact and_congr_right fun _ => exists_congr fun _ => and_iff_left rfl

/-- The scope of a claim whose scope is taken for ready. -/
theorem Sound.serves_of_checkScope {claim : Claim} (h : c.Sound) (habove : c.SettledAbove .claim)
    (hcheck : claim.checkScope c.access c.indexes = .ok ()) :
    ∃ key, claim.info.parentKey .claim .scope = .ok key ∧ c.access.store.Serves ⟨.scope, key⟩ := by
  obtain ⟨r, hregistration, hcheck⟩ := Except.bind_eq_ok_iff.1 hcheck
  obtain ⟨scope, hready, -⟩ := Except.bind_eq_ok_iff.1 hcheck
  have hkey := Claim.parentKey_of_registration (Failure.lift_eq_ok_iff.1 hregistration)
  refine ⟨r.scopeKey, hkey, ?_⟩
  exact (h.readyScope_iff_serves fun o => habove _ o (by decide : 1 < 3)).1 ⟨scope, hready⟩

/-! ## Evaluations -/

/-- What is found ready is entitled to be. -/
theorem Sound.entitled_of_evaluate (h : c.Sound) (habove : c.SettledAbove o.kind)
    (hevaluate : c.evaluate o = (some .ready, o', c')) : o.Entitled c.access.store := by
  obtain ⟨name, hname, hparent, happly⟩ := evaluate_eq_ready_iff.1 hevaluate
  have haccess : c.access = ⟨c.access.store, []⟩ := by rw [← h.rules]
  cases o with
  | tenant t => exact ⟨⟨name, hname⟩, (apply_tenant_eq_ok_iff.1 happly).1⟩
  | scope r =>
    have hparent : Scope.checkTenant _ c.access = .ok () := hparent
    rw [haccess, Scope.checkTenant_eq_ok_iff h.keyed] at hparent
    exact ⟨⟨name, hname⟩, hparent, Scope.checkSpec_eq_ok_iff.1 (apply_scope_eq_ok_iff.1 happly).1⟩
  | pool p =>
    obtain ⟨_, _, happly, -, -⟩ := apply_pool_eq_ok_iff.1 happly
    obtain ⟨_, pool₁, _, n, _, -, hstale, hdeclare, -, -⟩ := Pool.apply_eq_ok_iff.1 happly
    obtain ⟨declared, rfl⟩ := Pool.retractStale_status hstale
    exact ⟨⟨name, hname⟩, (h.checkScope_eq_ok_iff habove).1 hparent, n,
      (ScopeIndexes.declare_eq_ok_iff.1 hdeclare).1⟩
  | claim r => exact ⟨⟨name, hname⟩, h.serves_of_checkScope habove hparent⟩

/-- What is entitled to be ready is found ready, unless it is a claim. -/
theorem Sound.evaluate_of_entitled (h : c.Sound) (habove : c.SettledAbove o.kind) (hkind : o.kind ≠ .claim)
    (hreads : o.DeclaredReads) (hentitled : o.Entitled c.access.store) :
    ∃ o' c', c.evaluate o = (some .ready, o', c') := by
  have haccess : c.access = ⟨c.access.store, []⟩ := by rw [← h.rules]
  cases o with
  | tenant t =>
    obtain ⟨⟨name, hname⟩, henabled⟩ := hentitled
    exact ⟨_, _, evaluate_eq_ready_iff.2
      ⟨name, hname, rfl, apply_tenant_eq_ok_iff.2 ⟨henabled, rfl, rfl⟩⟩⟩
  | scope r =>
    obtain ⟨⟨name, hname⟩, hparent, hspec⟩ := hentitled
    refine ⟨_, _, evaluate_eq_ready_iff.2 ⟨name, hname, ?_, apply_scope_eq_ok_iff.2 ⟨?_, rfl, rfl⟩⟩⟩
    · show Scope.checkTenant _ c.access = .ok ()
      rw [haccess, Scope.checkTenant_eq_ok_iff h.keyed]
      exact hparent
    · exact Scope.checkSpec_eq_ok_iff.2 hspec
  | pool p =>
    obtain ⟨⟨name, hname⟩, hparent, n, hparse⟩ := hentitled
    obtain ⟨key, hkey, hserves⟩ := id hparent
    obtain ⟨scope, hready⟩ :=
      (h.readyScope_iff_serves fun o => habove ⟨.scope, key⟩ o (by decide : 1 < 2)).2 hserves
    obtain ⟨index, hindex⟩ :=
      Option.isSome_iff_exists.1 (ScopeIndexes.readyScope_eq_ok_iff.1 hready).2.2.2
    obtain ⟨pool', indexes', happly⟩ := Pool.exists_apply { p with status :=
      { p.status with common := { p.status.common with placement := name.placement } } }
      hkey hparse hindex hreads
    have happly : c.apply ((Object.pool p).placed name)
        = (.ok (), .pool pool', { c with indexes := indexes' }) :=
      apply_pool_eq_ok_iff.2 ⟨pool', indexes', happly, rfl, rfl⟩
    have hcheck := (h.checkScope_eq_ok_iff habove).2 hparent
    exact ⟨_, _, evaluate_eq_ready_iff.2 ⟨name, hname, hcheck, happly⟩⟩
  | claim r => exact absurd rfl hkind

/-- A scope that is found ready has an index. -/
theorem contains_of_evaluate (hkind : o.kind = .scope)
    (hevaluate : c.evaluate o = (some .ready, o', c')) : c'.indexes.contains o.key = true := by
  obtain ⟨name, -, -, happly⟩ := evaluate_eq_ready_iff.1 hevaluate
  cases o with
  | scope r =>
    obtain ⟨-, -, rfl⟩ := apply_scope_eq_ok_iff.1 happly
    exact (c.contains_initScope r.info.key).1
  | tenant _ => cases hkind
  | pool _ => cases hkind
  | claim _ => cases hkind

end Controller

end AddressRegistry
