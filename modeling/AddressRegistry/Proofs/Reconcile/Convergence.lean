import AddressRegistry.Proofs.Reconcile.Entitlement
import AddressRegistry.Proofs.Reconcile.Legible

/-!
# One round settles everything

Rounds go over all kinds, parents first. A pass settles its object once all objects above are settled
(`Controller.settled_of_reconcile`), and it leaves an object settled unless it is over that object itself or
over one above it (`Controller.Settled.reconcile_of_ne`). So after the passes over one kind this kind is
settled too (`Controller.reconcileEach_settles`), and after one round everything is
(`Controller.reconcileKinds_settles`), whatever the statuses and the indexes were before.

Of the past it matters only that a pool remembers no network that cannot be read, which holds of every store
that a registry has left behind (`Controller.converge_settles`).
-/

namespace AddressRegistry

/-- No two kinds have the same rank. -/
theorem Kind.rank_injective {kind kind' : Kind} (h : kind.rank = kind'.rank) : kind = kind' := by
  cases kind <;> cases kind' <;> first | rfl | cases h

namespace Controller

variable {c c' : Controller} {id id' : ObjectId} {o o' : Object} {kind : Kind} {key : ObjectKey}

/-! ## What a pass leaves alone -/

/-- Only a pass over a scope gives it an index or takes it away. -/
theorem Sound.contains_reconcile_of_ne (h : c.Sound) (hne : id ≠ ⟨.scope, key⟩) :
    (c.reconcile id).2.indexes.contains key = c.indexes.contains key := by
  obtain ⟨outcome, c', hpass, -, houtcome⟩ := h.pass id
  rw [hpass]
  dsimp only
  have hkey : ∀ o, c.access.store.get? id = some o → o.kind = .scope → key ≠ o.key := by
    rintro o hget hkind rfl
    refine hne ((h.keyed id o hget).symm.trans ?_)
    unfold Object.id
    rw [hkind]
  generalize c'.access.store.objects = objects', c'.indexes = indexes', outcome.ready = ready at *
  cases houtcome with
  | absent _ => rfl
  | kept hget _ _ _ hindexes =>
    rcases hindexes with rfl | ⟨hkind, rfl⟩
    · rfl
    · rw [Bool.eq_iff_iff, ScopeIndexes.contains_ensure_iff, or_iff_right (hkey _ hget hkind)]
  | obtained _ _ _ hindex _ _ _ => exact ScopeIndexes.sameScopes_insert hindex _ key
  | undone hget _ _ hundo =>
    cases hundo with
    | nothing => rfl
    | dropped hkind =>
      rw [Bool.eq_iff_iff, SortedMap.contains_erase_iff, and_iff_right (hkey _ hget hkind)]
    | removed _ hindex _ _ => exact ScopeIndexes.sameScopes_insert hindex _ key

/-- Whether an object is settled depends on the objects above it, and for a scope on its index. -/
theorem Settled.congr (h : c.Settled o)
    (hstore : ∀ id : ObjectId, id.kind.rank < o.kind.rank →
      c'.access.store.get? id = c.access.store.get? id)
    (hindexes : o.kind = .scope → c'.indexes.contains o.key = c.indexes.contains o.key) : c'.Settled o where
  entitled hlive hready := (Object.entitled_congr hstore).2 (h.entitled hlive hready)
  ready hlive hkind hentitled := h.ready hlive hkind ((Object.entitled_congr hstore).1 hentitled)
  indexed hkind hready := by
    rw [hindexes hkind]
    exact h.indexed hkind hready

/-- A pass leaves an object settled unless it is over this object or over one above it. -/
theorem Settled.reconcile_of_ne (hsettled : c.Settled o) (h : c.Sound)
    (hget : c.access.store.get? id' = some o) (hne : id' ≠ id) (hrank : id'.kind.rank ≤ id.kind.rank) :
    (c.reconcile id).2.Settled o := by
  have hid := h.keyed id' o hget
  have hkind : o.kind = id'.kind := h.keyed.kind_eq hget
  refine hsettled.congr (fun id'' hrank'' => h.get?_reconcile_of_ne ?_) fun hscope => ?_
  · rintro rfl
    rw [hkind] at hrank''
    omega
  · refine h.contains_reconcile_of_ne ?_
    rintro rfl
    refine hne (hid.symm.trans ?_)
    unfold Object.id
    rw [hscope]

/-! ## What a pass settles -/

/-- A registry that passes can set right: without faults, over a store in which pools remember no network
that cannot be read. -/
structure Intact (c : Controller) : Prop where
  rules : c.access.rules = []
  legible : c.access.store.Legible

/-- What passes can set right is sound. -/
theorem Intact.sound (h : c.Intact) : c.Sound := ⟨h.rules, h.legible.keyed⟩

/-- A pass leaves what passes can set right. -/
theorem Intact.reconcile (h : c.Intact) (id : ObjectId) : (c.reconcile id).2.Intact := by
  have hgrows := reconcile_grows h.sound.truthful.rules h.legible.keyed id
  exact ⟨by rw [hgrows.rules, h.rules], hgrows.store.legible h.legible⟩

/-- An object that is to be deleted is settled by a pass: whatever is left of it stays so, and a scope loses
its index. -/
theorem settled_of_deleted (h : c.Sound) (hget : c.access.store.get? id = some o)
    (hdeletion : o.info.deletionRequested = true)
    (hget' : (c.reconcile id).2.access.store.get? id = some o') : (c.reconcile id).2.Settled o' := by
  obtain ⟨_, hstored, hdevelops⟩ :=
    (reconcile_grows h.truthful.rules h.keyed id).store id o' hget'
  cases hget.symm.trans hstored
  have hdeletion' := hdevelops.deletionRequested hdeletion
  have hid : o'.id = o.id := hdevelops.id_eq
  refine ⟨fun hlive => ?_, fun hlive => ?_, fun hkind _ => ?_⟩
  · rw [hdeletion'] at hlive
    cases hlive
  · rw [hdeletion'] at hlive
    cases hlive
  · have hdropped : (c.reconcile id).2.indexes.contains o'.key = false := by
      rw [h.reconcile_of_deleted hget hdeletion]
      cases o with
      | scope s =>
        show (finish _ id _).2.indexes.contains _ = _
        rw [indexes_finish, show o'.key = s.info.key from congrArg ObjectId.key hid]
        exact SortedMap.contains_eq_false_iff.2 (SortedMap.get?_erase_self _ _)
      | tenant _ => cases hkind.symm.trans (congrArg ObjectId.kind hid)
      | pool _ => cases hkind.symm.trans (congrArg ObjectId.kind hid)
      | claim _ => cases hkind.symm.trans (congrArg ObjectId.kind hid)
    rw [hdropped, hdeletion']
    exact iff_of_false nofun nofun

/-- A reported object shows the verdict on it. -/
theorem isReady_reported (c : Controller) (after : Object) (v : Verdict) :
    (c.reported after v).isReady = v.isReady := by
  rw [reported_eq]
  unfold Object.isReady
  rw [Object.status_mapStatus]
  rfl

/-- A report writes the object back, and waking dependents afterwards does not change that. -/
theorem stores_report {before after : Object} (hrules : c.access.rules = [])
    (hget : c.access.store.get? id = some before) (hid : before.id = id) (hbody : before.SameBody after)
    (v : Verdict) : c.Stores id (c.reported after v) (c.report id before after v).2 := by
  have htold := stores_told hrules hget hid hbody v
  rw [report_eq hrules hget hid hbody v]
  obtain ⟨delay, c', hdelay, hagrees⟩ :=
    (c.told id before after v).delayAfter_eq (id.kind.retryName id.key) v
  rw [hdelay]
  exact htold.of_agrees_right hagrees

/-- Writing an object back under its own kind and key keeps a controller sound. -/
theorem Stores.sound (h : c.Stores id o c') (hsound : c.Sound) (hid : o.id = id) : c'.Sound := by
  refine ⟨h.rules, fun id' o' hget => ?_⟩
  by_cases hne : id' = id
  · rw [hne, h.get?_self] at hget
    cases hget
    exact hid.trans hne.symm
  · rw [h.get?_of_ne hne] at hget
    exact hsound.keyed id' o' hget

/-- Writing an object back does not touch what stands above it. -/
theorem Stores.get?_of_rank_lt (h : c.Stores id o c') (hrank : id'.kind.rank < id.kind.rank) :
    c'.access.store.get? id' = c.access.store.get? id' := by
  refine h.get?_of_ne ?_
  rintro rfl
  exact Nat.lt_irrefl _ hrank

/-- Writing an object back does not change what objects of its kind are entitled to. -/
theorem Stores.entitled_iff (h : c.Stores id o c') (hkind : o'.kind = id.kind) :
    o'.Entitled c'.access.store ↔ o'.Entitled c.access.store :=
  Object.entitled_congr fun _ hrank => h.get?_of_rank_lt (hkind ▸ hrank)

/-- Writing an object back leaves what stands above it settled. -/
theorem Stores.settledAbove (h : c.Stores id o c') (hsound : c.Sound) (habove : c.SettledAbove id.kind) :
    c'.SettledAbove id.kind := by
  intro id' o' hrank hget
  rw [h.get?_of_rank_lt hrank] at hget
  refine (habove id' o' hrank hget).congr (fun id'' hrank' => h.get?_of_rank_lt ?_)
    fun _ => by rw [h.indexes]
  rw [hsound.keyed.kind_eq hget] at hrank'
  exact hrank'.trans hrank

/-- An object that is to stay is settled by a pass when everything above it is: it shows what its evaluation
came to. -/
theorem settled_of_live (h : c.Intact) (habove : c.SettledAbove id.kind)
    (hget : c.access.store.get? id = some o) (hlive : o.info.deletionRequested = false)
    (hget' : (c.reconcile id).2.access.store.get? id = some o') : (c.reconcile id).2.Settled o' := by
  obtain ⟨before, after, c₁, c₂, v, hbefore, -, hstores, hevaluate, hbody, haccess, hmaintain⟩ :=
    maintain_eq_report h.sound.rules hget
  obtain ⟨hid, hdeletion⟩ := kept_of_ensureFinalizer hbefore
  have hid : before.id = id := hid.trans (h.sound.keyed id o hget)
  have hkind : before.kind = id.kind := congrArg ObjectId.kind hid
  have hget₂ : c₂.access.store.get? id = some before := by rw [haccess, hstores.get?_self]
  have hstores' := stores_report (by rw [haccess, hstores.rules]) hget₂ hid hbody v
  rw [h.sound.reconcile_of_live hget hlive, hmaintain] at hget' ⊢
  generalize (c₂.report id before after v).2 = c' at *
  cases hget'.symm.trans hstores'.get?_self
  have hreported : before.SameBody (c₂.reported after v) := by
    rw [reported_eq]
    exact hbody.mapStatus _
  have hshown : (c₂.reported after v).isReady = true ↔ v = .ready := by
    rw [isReady_reported]
    cases v <;> simp [Verdict.isReady]
  have hentitled : (c₂.reported after v).Entitled c'.access.store ↔ before.Entitled c₁.access.store := by
    rw [hreported.entitled_iff, hstores'.entitled_iff hkind, haccess]
  have hsound₁ := hstores.sound h.sound hid
  have habove₁ := hstores.settledAbove h.sound habove
  rw [← hkind] at habove₁
  have hreads : before.DeclaredReads := by
    rcases hbefore with rfl | rfl
    · exact h.legible.reads id _ hget
    · exact ((Object.SameStatus.refl o).mapInfo _).declaredReads_iff.2 (h.legible.reads id o hget)
  refine ⟨fun _ hready => ?_, fun _ hclaim hdue => ?_, fun hscope hready => ?_⟩
  · obtain rfl := hshown.1 hready
    exact hentitled.2 (hsound₁.entitled_of_evaluate habove₁ hevaluate)
  · rw [hreported.kind_eq] at hclaim
    obtain ⟨o'', c'', hready⟩ := hsound₁.evaluate_of_entitled habove₁ hclaim hreads (hentitled.1 hdue)
    cases hevaluate.symm.trans hready
    exact hshown.2 rfl
  · obtain rfl := hshown.1 hready
    rw [hreported.kind_eq] at hscope
    rw [hstores'.indexes, hreported.info_eq, hdeletion, hlive,
      show (c₂.reported after .ready).key = before.key from congrArg ObjectId.key hreported.id_eq,
      contains_of_evaluate hscope hevaluate]
    exact iff_of_true rfl rfl

/-- A pass settles its object when everything above it is settled. -/
theorem settled_of_reconcile (h : c.Intact) (habove : c.SettledAbove id.kind)
    (hget' : (c.reconcile id).2.access.store.get? id = some o') : (c.reconcile id).2.Settled o' := by
  obtain ⟨o, hget, -⟩ := (reconcile_grows h.sound.truthful.rules h.sound.keyed id).store id o' hget'
  cases hdeletion : o.info.deletionRequested with
  | true => exact settled_of_deleted h.sound hget hdeletion hget'
  | false => exact settled_of_live h habove hget hdeletion hget'

/-! ## Rounds -/

/-- Passes over the objects of a kind settle this kind when all kinds above it are settled, and they keep
those so. The objects that are not passed over have to be settled already. -/
theorem reconcileEach_settles (objects : List Object) (h : c.Intact) (habove : c.SettledAbove kind)
    (hothers : ∀ id o, id.kind = kind → c.access.store.get? id = some o →
      id.key ∉ objects.map Object.key → c.Settled o) :
    ∃ changed c', c.reconcileEach kind objects = (.ok changed, c') ∧ c'.Intact ∧
      ∀ id o, id.kind.rank ≤ kind.rank → c'.access.store.get? id = some o → c'.Settled o := by
  induction objects generalizing c with
  | nil =>
    refine ⟨false, c, rfl, h, fun id o hrank hget => ?_⟩
    rcases Nat.lt_or_eq_of_le hrank with hrank | hrank
    · exact habove id o hrank hget
    · exact hothers id o (Kind.rank_injective hrank) hget List.not_mem_nil
  | cons object rest ih =>
    obtain ⟨outcome, c₁, hpass, -, -⟩ := h.sound.pass ⟨kind, object.key⟩
    have hc₁ : c₁ = (c.reconcile ⟨kind, object.key⟩).2 := congrArg Prod.snd hpass.symm
    have hkept : ∀ id o, id ≠ ⟨kind, object.key⟩ → id.kind.rank ≤ kind.rank →
        c₁.access.store.get? id = some o → (c.access.store.get? id = some o → c.Settled o) →
          c₁.Settled o := by
      intro id o hne hrank hget hsettled
      rw [hc₁] at hget ⊢
      rw [h.sound.get?_reconcile_of_ne hne] at hget
      exact (hsettled hget).reconcile_of_ne h.sound hget hne hrank
    have habove₁ : c₁.SettledAbove kind := by
      intro id o hrank hget
      refine hkept id o ?_ hrank.le hget (habove id o hrank)
      rintro rfl
      exact Nat.lt_irrefl _ hrank
    have hothers₁ : ∀ id o, id.kind = kind → c₁.access.store.get? id = some o →
        id.key ∉ rest.map Object.key → c₁.Settled o := by
      intro id o hkind hget hrest
      by_cases hid : id = ⟨kind, object.key⟩
      · subst hid
        rw [hc₁] at hget ⊢
        exact settled_of_reconcile h habove hget
      · refine hkept id o hid (hkind ▸ le_rfl) hget fun hget => hothers id o hkind hget ?_
        rw [List.map_cons, List.mem_cons, not_or]
        refine ⟨fun hkey => hid ?_, hrest⟩
        rw [← hkind, ← hkey]
    obtain ⟨changed, c', heach, hintact, hsettled⟩ := ih (hc₁ ▸ h.reconcile _) habove₁ hothers₁
    refine ⟨outcome.ready != object.isReady || changed, c', ?_, hintact, hsettled⟩
    unfold reconcileEach
    rw [hpass]
    dsimp only
    rw [heach]

/-- Every object under its own kind and key is listed with its kind. -/
theorem Sound.mem_list (h : c.Sound) (hget : c.access.store.get? id = some o) :
    id.key ∈ (c.access.store.list id.kind none).map Object.key := by
  have hlisted := Store.mem_listed hget (h.keyed id o hget)
  obtain ⟨kind, -, hkind⟩ := List.mem_flatMap.1 hlisted
  obtain ⟨object, hobject, rfl⟩ := List.mem_map.1 hkind
  exact List.mem_map.2 ⟨object, hobject, rfl⟩

/-- Passes over several kinds, parents first, settle everything when the kinds before them are settled. -/
theorem reconcileKinds_settles (kinds : List Kind) (h : c.Intact)
    (hsorted : kinds.Pairwise fun kind kind' => kind.rank < kind'.rank)
    (hcover : ∀ kind, kind ∈ kinds ∨ ∀ kind' ∈ kinds, kind.rank < kind'.rank)
    (hbefore : ∀ id o, (∀ kind ∈ kinds, id.kind.rank < kind.rank) →
      c.access.store.get? id = some o → c.Settled o) :
    ∃ changed c', c.reconcileKinds kinds = (.ok changed, c') ∧ c'.Intact ∧
      ∀ id o, c'.access.store.get? id = some o → c'.Settled o := by
  induction kinds generalizing c with
  | nil => exact ⟨false, c, rfl, h, fun id o => hbefore id o nofun⟩
  | cons kind rest ih =>
    obtain ⟨hfirst, hsorted⟩ := List.pairwise_cons.1 hsorted
    have habove : c.SettledAbove kind := by
      intro id o hrank hget
      refine hbefore id o (fun kind' hkind' => ?_) hget
      rcases List.mem_cons.1 hkind' with rfl | hrest
      · exact hrank
      · exact hrank.trans (hfirst kind' hrest)
    obtain ⟨changed, c₁, heach, hintact, hsettled⟩ :=
      reconcileEach_settles (c.access.store.list kind none) h habove
        fun id o hkind hget hunlisted => absurd (hkind ▸ h.sound.mem_list hget) hunlisted
    have hcover₁ : ∀ kind', kind' ∈ rest ∨ ∀ kind'' ∈ rest, kind'.rank < kind''.rank := by
      intro kind'
      rcases hcover kind' with hmem | hlater
      · rcases List.mem_cons.1 hmem with rfl | hrest
        · exact Or.inr hfirst
        · exact Or.inl hrest
      · exact Or.inr fun kind'' hrest => hlater kind'' (List.mem_cons_of_mem _ hrest)
    have hbefore₁ : ∀ id o, (∀ kind' ∈ rest, id.kind.rank < kind'.rank) →
        c₁.access.store.get? id = some o → c₁.Settled o := by
      intro id o hrank hget
      refine hsettled id o ?_ hget
      rcases hcover id.kind with hmem | hlater
      · rcases List.mem_cons.1 hmem with hkind | hrest
        · rw [hkind]
        · exact absurd (hrank _ hrest) (Nat.lt_irrefl _)
      · exact (hlater kind List.mem_cons_self).le
    obtain ⟨more, c', hkinds, hintact', hall⟩ := ih hintact hsorted hcover₁ hbefore₁
    refine ⟨changed || more, c', ?_, hintact', hall⟩
    unfold reconcileKinds
    rw [Access.list_of_rules h.sound.rules]
    dsimp only
    rw [heach]
    dsimp only
    rw [hkinds]

/-- Rounds end, and after the last one everything is settled. -/
theorem convergeFrom_settles (h : c.Intact) (done : Nat) {left : Nat} (hleft : 1 ≤ left) :
    ∃ rounds c', c.convergeFrom done left = (.ok rounds, c') ∧ c'.Intact ∧
      ∀ id o, c'.access.store.get? id = some o → c'.Settled o := by
  induction left generalizing c done with
  | zero => cases hleft
  | succ left ih =>
    obtain ⟨changed, c₁, hround, hintact, hsettled⟩ := reconcileKinds_settles Kind.all h
      (by decide) (fun kind => Or.inl (by cases kind <;> decide))
      fun id o hrank _ => absurd (hrank .tenant List.mem_cons_self) (Nat.not_lt_zero _)
    unfold convergeFrom
    rw [hround]
    cases changed with
    | false => exact ⟨done + 1, c₁, rfl, hintact, hsettled⟩
    | true =>
      cases left with
      | zero => exact ⟨done + 1, c₁, rfl, hintact, hsettled⟩
      | succ left => exact ih hintact (done + 1) (Nat.le_add_left 1 left)

/-- From any store that a registry has left behind, any number of rounds from one on comes to an end without
a failure, whatever indexes, counters and queues the controller begins with. An object that is to stay is
then ready exactly when it is entitled to be; a claim, only if. -/
theorem converge_settles {store : Store} (hleft : Workshop.Leaves store) (haccess : c.access = ⟨store, []⟩)
    {n : Nat} (hn : 1 ≤ n) :
    ∃ rounds c', c.converge n = (.ok rounds, c') ∧
      ∀ id o, c'.access.store.get? id = some o → o.info.deletionRequested = false →
        (o.kind ≠ .claim → (o.isReady = true ↔ o.Entitled c'.access.store)) ∧
          (o.kind = .claim → o.isReady = true → o.Entitled c'.access.store) := by
  have hintact : c.Intact := by
    constructor <;> rw [haccess]
    exact hleft.legible
  obtain ⟨rounds, c', hconverge, -, hsettled⟩ := convergeFrom_settles hintact 0 hn
  refine ⟨rounds, c', hconverge, fun id o hget hlive => ⟨fun hkind => ?_, fun _ => ?_⟩⟩
  · exact ⟨(hsettled id o hget).entitled hlive, (hsettled id o hget).ready hlive hkind⟩
  · exact (hsettled id o hget).entitled hlive

end Controller

/-- A pass has found the pool of the sample registry ready. Before it writes this down, the scope goes. -/
def Lab.overtaken : List Workshop.Move :=
  [.write (.create (.newTenant "default" "acme" .fresh)),
    .write (.create (.newScope Sample.key.space Sample.key.name Sample.spec)),
    .write (.create Lab.pool)] ++ pass tenantId ++ pass scopeId ++
    (.launch poolId :: List.replicate 4 (.proceed poolId)) ++
    (.write (.delete scopeId) :: pass scopeId) ++ List.replicate 2 (.proceed poolId)

/-- The pool shows then that it is ready, although its scope is gone. One round of a registry that knows no
index finds out. -/
theorem Controller.converge_settles_sample :
    let store := ((Workshop.start .empty Lab.policy).run Lab.overtaken).store
    Workshop.Leaves store ∧ (store.get? Lab.poolId).map Object.isReady = some true ∧
      ∃ rounds c' tenant pool, (start ⟨store, []⟩ Lab.policy).converge 1 = (.ok rounds, c') ∧
        c'.access.store.get? Lab.tenantId = some tenant ∧ tenant.Entitled c'.access.store ∧
          c'.access.store.get? Lab.poolId = some pool ∧ ¬ pool.Entitled c'.access.store := by
  intro store
  have hleft : Workshop.Leaves store := .worked Lab.policy Lab.overtaken .nothing (by decide)
  have hstale : (store.get? Lab.poolId).map Object.isReady = some true := by decide +kernel
  obtain ⟨rounds, c', hconverge, hsettled⟩ :=
    converge_settles (c := start ⟨store, []⟩ Lab.policy) hleft rfl (le_refl 1)
  have hc' : c' = ((start ⟨store, []⟩ Lab.policy).converge 1).2 := congrArg Prod.snd hconverge.symm
  have htenant : (c'.access.store.get? Lab.tenantId).map
      (fun o => (o.kind, o.info.deletionRequested, o.isReady)) = some (.tenant, false, true) := by
    rw [hc']
    decide +kernel
  have hpool : (c'.access.store.get? Lab.poolId).map
      (fun o => (o.kind, o.info.deletionRequested, o.isReady)) = some (.pool, false, false) := by
    rw [hc']
    decide +kernel
  obtain ⟨tenant, htenant, hshown⟩ := Option.map_eq_some_iff.1 htenant
  obtain ⟨pool, hpool, hshown'⟩ := Option.map_eq_some_iff.1 hpool
  simp only [Prod.mk.injEq] at hshown hshown'
  have hentitled := (hsettled _ _ htenant hshown.2.1).1 (by rw [hshown.1]; exact nofun)
  have hentitled' := (hsettled _ _ hpool hshown'.2.1).1 (by rw [hshown'.1]; exact nofun)
  refine ⟨hleft, hstale, rounds, c', tenant, pool, hconverge, htenant, hentitled.1 hshown.2.2, hpool, ?_⟩
  rw [← hentitled', hshown'.2.2]
  exact nofun

end AddressRegistry
