import AddressRegistry.Proofs.Reconcile.Holdings
import AddressRegistry.Proofs.Reconcile.Report
import AddressRegistry.Proofs.Resource.Composing

/-!
# Deleting what holds nothing

A pass puts the registry's finalizer on an object before it looks at its name and its specification, so an
object that never obtained a network still waits for its effect to be undone. Undoing reads the name again,
reads the network that a pool names when it recorded none, and asks for a ready scope before it asks whether
a claim recorded anything. So a deleted object that records nothing is let go by its next pass if and only
if these succeed (`Controller.CanLetGo`, `Controller.deletion_of_unrecorded`). A scope may become ready and a
network may be corrected, but nobody can change a name: with a name that cannot be read the object stays,
whatever happens next (`Controller.Stranded.run`).
-/

namespace AddressRegistry

/-! ## Names -/

section

variable {m : Metadata} {kind : Kind} {key : ObjectKey}

/-- The name of a pool or claim gives a scope as soon as it can be read. -/
theorem Metadata.exists_parentKey_iff (hkind : kind = .pool ∨ kind = .claim) :
    (∃ key, m.parentKey kind .scope = .ok key) ↔
      ∃ name, ResourceName.parse kind m.name = .ok name := by
  constructor
  · rintro ⟨key, h⟩
    obtain ⟨_, hparent, -⟩ := parentKey_eq_ok_iff.1 h
    obtain ⟨name, hname, -⟩ := Except.bind_eq_ok_iff.1 hparent
    exact ⟨name, hname⟩
  · rintro ⟨name, hname⟩
    obtain ⟨above, hparent, -⟩ := ResourceName.parent_of_parse_resource hkind hname
    exact ⟨_, parentKey_eq_ok_iff.2 ⟨above, hparent, rfl⟩⟩

/-- The name of this scope can be read. -/
theorem Metadata.exists_parse_of_parentKey (hkind : kind = .pool ∨ kind = .claim)
    (h : m.parentKey kind .scope = .ok key) : ∃ name, ResourceName.parse .scope key.name = .ok name := by
  obtain ⟨name, hname⟩ := (exists_parentKey_iff hkind).1 ⟨key, h⟩
  obtain ⟨above, hparent, habove⟩ := ResourceName.parent_of_parse_resource hkind hname
  obtain ⟨above', hparent', rfl⟩ := parentKey_eq_ok_iff.1 h
  cases hparent.symm.trans hparent'
  exact ⟨_, habove⟩

end

/-! ## Undoing -/

/-- The status of the object records no network. -/
def Object.Unrecorded : Object → Prop
  | .tenant _ | .scope _ => True
  | .pool p => p.status.declared = none
  | .claim c => c.status.network = none

instance Object.decidableUnrecorded : (o : Object) → Decidable o.Unrecorded
  | .tenant _ | .scope _ => isTrue trivial
  | .pool p => inferInstanceAs (Decidable (p.status.declared = none))
  | .claim c => inferInstanceAs (Decidable (c.status.network = none))

/-- In a keyed store a scope can always be looked up. -/
theorem Access.exists_fetchScope {store : Store} (hkeyed : store.Keyed) (key : ObjectKey) :
    ∃ found, (⟨store, []⟩ : Access).fetchScope key = .ok found := by
  have hfetch := fetch_of_keyed (a := ⟨store, []⟩) rfl hkeyed ⟨.scope, key⟩
  unfold fetchScope
  rw [hfetch]
  cases store.get? ⟨.scope, key⟩ with
  | none => exact ⟨none, rfl⟩
  | some o => cases o <;> exact ⟨_, rfl⟩

namespace ScopeIndexes

variable {indexes : ScopeIndexes} {store : Store} {key : ObjectKey} {raw : String}

/-- A network that can be read can be retracted. -/
theorem exists_retract_iff :
    (∃ changed, indexes.retract key raw = .ok changed) ↔ ∃ n, Network.parse raw = .ok n := by
  constructor
  · rintro ⟨changed, h⟩
    obtain ⟨n, hparse, -⟩ := retract_eq_ok_iff.1 h
    exact ⟨n, hparse⟩
  · rintro ⟨n, hparse⟩
    cases hindex : indexes.get? key with
    | none => exact ⟨indexes, retract_eq_ok_iff.2 ⟨n, hparse, .inl ⟨hindex, rfl⟩⟩⟩
    | some index =>
      obtain ⟨index', hroutes⟩ := index.exists_erase n.truncate
      exact ⟨_, retract_eq_ok_iff.2 ⟨n, hparse, .inr ⟨index, index', hindex, hroutes, rfl⟩⟩⟩

/-- A scope without an index is not ready. -/
theorem readyScope_of_missing (hkeyed : store.Keyed)
    (hname : ∃ name, ResourceName.parse .scope key.name = .ok name)
    (hmissing : indexes.contains key = false) :
    ∃ e, indexes.readyScope ⟨store, []⟩ key = .error (.refused e) ∧ e.isNotReady = true := by
  obtain ⟨name, hname⟩ := hname
  obtain ⟨found, hfetch⟩ := Access.exists_fetchScope hkeyed key
  cases found with
  | none =>
    refine ⟨.notReady (.scopeNotFound key), ?_, rfl⟩
    unfold readyScope
    rw [hname, hfetch]
    rfl
  | some scope =>
    rw [readyScope_of_fetch hname hfetch, hmissing]
    split <;> exact ⟨_, rfl, rfl⟩

end ScopeIndexes

/-- A pool that declared nothing gives up the network that it names. -/
theorem Pool.exists_undo_iff {pool : Pool} (indexes : ScopeIndexes) (hnone : pool.status.declared = none) :
    (∃ changed, pool.undo indexes = .ok changed) ↔
      (∃ key, pool.info.parentKey .pool .scope = .ok key) ∧
        ∃ n, Network.parse pool.spec.network = .ok n := by
  unfold Pool.undo
  rw [hnone, Option.getD_none]
  constructor
  · rintro ⟨changed, h⟩
    obtain ⟨key, hkey, hretract⟩ := Except.bind_eq_ok_iff.1 h
    exact ⟨⟨key, hkey⟩, ScopeIndexes.exists_retract_iff.1 ⟨changed, hretract⟩⟩
  · rintro ⟨⟨key, hkey⟩, hparse⟩
    obtain ⟨changed, hretract⟩ := ScopeIndexes.exists_retract_iff.2 hparse
    exact ⟨changed, Except.bind_eq_ok_iff.2 ⟨key, hkey, hretract⟩⟩

/-- A claim that records no network has to have a ready scope, unless the scope has no index. -/
theorem Claim.exists_undo_iff {claim : Claim} {store : Store} (indexes : ScopeIndexes)
    (hkeyed : store.Keyed) (hnone : claim.status.network = none) :
    (∃ changed, claim.undo indexes ⟨store, []⟩ = .ok changed) ↔
      ∃ key, claim.info.parentKey .claim .scope = .ok key ∧ (indexes.contains key = true →
        ∃ scope, store.get? ⟨.scope, key⟩ = some (.scope scope) ∧
          scope.status.condition.ready = true) := by
  constructor
  · rintro ⟨changed, h⟩
    obtain ⟨r, hregistration, h⟩ := Except.bind_eq_ok_iff.1 h
    have hkey := parentKey_of_registration (Failure.lift_eq_ok_iff.1 hregistration)
    refine ⟨r.scopeKey, hkey, fun hindex => ?_⟩
    cases hderegister : indexes.deregister ⟨store, []⟩ r with
    | ok changed' =>
      obtain ⟨⟨scope, hready⟩, -⟩ := ScopeIndexes.deregister_eq_ok_iff.1 hderegister
      obtain ⟨-, hfetch, hready, -⟩ := ScopeIndexes.readyScope_eq_ok_iff.1 hready
      exact ⟨scope, Access.fetchScope_eq_some_iff.1 hfetch, hready⟩
    | error f =>
      -- with an index in place no failure is passed over
      obtain ⟨e, rfl⟩ := ScopeIndexes.deregister_eq_error hderegister
      rw [hderegister] at h
      simp [hindex] at h
  · rintro ⟨key, hkey, hscope⟩
    have hname := Metadata.exists_parse_of_parentKey (.inr rfl) hkey
    obtain ⟨r, hregistration, rfl, hpersisted⟩ := registration_of_parentKey hkey
    have hnothing : r.persistedNetwork = .ok none := by
      unfold Registration.persistedNetwork
      rw [hpersisted, hnone]
    refine ⟨indexes, Except.bind_eq_ok_iff.2 ⟨r, Failure.lift_eq_ok_iff.2 hregistration, ?_⟩⟩
    cases hindex : indexes.contains r.scopeKey with
    | true =>
      obtain ⟨scope, hget, hready⟩ := hscope hindex
      have hderegister : indexes.deregister ⟨store, []⟩ r = .ok indexes :=
        ScopeIndexes.deregister_eq_ok_iff.2 ⟨⟨scope, ScopeIndexes.readyScope_eq_ok_iff.2
          ⟨hname, Access.fetchScope_eq_some_iff.2 hget, hready, hindex⟩⟩, .inl ⟨hnothing, rfl⟩⟩
      rw [hderegister]
    | false =>
      obtain ⟨e, hready, hwaits⟩ := ScopeIndexes.readyScope_of_missing hkeyed hname hindex
      have hderegister : indexes.deregister ⟨store, []⟩ r = .error (.refused e) :=
        Except.bind_eq_error_iff.2 (.inl hready)
      rw [hderegister]
      simp only [hwaits]
      rfl

/-! ## Passes -/

namespace Controller

variable {c : Controller} {id : ObjectId} {o : Object}

/-- What a deleted object that records no network is let go by. Tenants and scopes ask for nothing. The
name of a pool or claim has to give a scope; then the network that a pool names has to be readable, and the
scope of a claim has to be ready unless it has no index. -/
def CanLetGo (c : Controller) : Object → Prop
  | .tenant _ | .scope _ => True
  | .pool p =>
    (∃ key, p.info.parentKey .pool .scope = .ok key) ∧ ∃ n, Network.parse p.spec.network = .ok n
  | .claim cl =>
    ∃ key, cl.info.parentKey .claim .scope = .ok key ∧ (c.indexes.contains key = true →
      ∃ scope, c.access.store.get? ⟨.scope, key⟩ = some (.scope scope) ∧
        scope.status.condition.ready = true)

/-- Without faults the effect of an object that records nothing can be undone exactly if the object can be
let go. -/
theorem Sound.exists_undo_iff (h : c.Sound) (hnothing : o.Unrecorded) :
    (∃ c', c.undo o = .ok c') ↔ c.CanLetGo o := by
  obtain ⟨hrules, hkeyed⟩ := h
  obtain ⟨⟨store, rules⟩, indexes, ladder, queues, readings⟩ := c
  cases hrules
  cases o with
  | tenant t => exact iff_of_true ⟨_, rfl⟩ trivial
  | scope s => exact iff_of_true ⟨_, rfl⟩ trivial
  | pool p =>
    refine Iff.trans ?_ (Pool.exists_undo_iff indexes hnothing)
    show (∃ c', Except.map _ (Failure.lift (p.undo indexes)) = .ok c') ↔ _
    simp [Except.exists_map_eq_ok_iff, Failure.lift_eq_ok_iff]
  | claim cl =>
    refine Iff.trans ?_ (Claim.exists_undo_iff indexes hkeyed hnothing)
    exact Except.exists_map_eq_ok_iff

/-- A pass whose effect can be undone removes the object, or leaves it to the finalizers of others. -/
theorem Sound.reconcile_of_undo {c₁ : Controller} (h : c.Sound) (hget : c.access.store.get? id = some o)
    (hdeletion : o.info.deletionRequested = true) (hundo : c.undo o = .ok c₁) :
    ∃ c', c.reconcile id = (.ok .removed, c') ∧ ∀ o', c'.access.store.get? id = some o' →
      o'.info.hasFinalizer finalizerName = false := by
  obtain rfl := h.keyed id o hget
  obtain ⟨haccess, -⟩ := undo_outcome h.rules hundo
  have hremove := removeFinalizer_of_rules (haccess ▸ h.rules)
    (Store.removeFinalizer_of_get? finalizerName (haccess.symm ▸ hget))
  obtain ⟨c', hfan, hagrees⟩ := tryFanOut_ok (c := { c₁ with
    access := ⟨_, []⟩, ladder := c₁.ladder.forget (o.id.kind.retryName o.id.key) }) rfl o.id
  refine ⟨c', ?_, fun o' hget' => ?_⟩
  · rw [h.reconcile_of_deleted hget hdeletion]
    unfold finalize
    rw [hundo]
    exact finish_of_tryFanOut hremove hfan
  · rw [hagrees.access] at hget'
    unfold Store.get? at hget'
    dsimp only at hget'
    split at hget'
    · exact absurd (hget'.symm.trans (SortedMap.get?_erase_self _ _)) (Option.some_ne_none o')
    · cases hget'.symm.trans (SortedMap.get?_insert_self _ _ _)
      simp [Metadata.hasFinalizer]

/-- A pass whose effect cannot be undone keeps the object, and looks at it again. -/
theorem Sound.reconcile_of_not_undo (h : c.Sound) (hget : c.access.store.get? id = some o)
    (hdeletion : o.info.deletionRequested = true) (hundo : ¬ ∃ c', c.undo o = .ok c') :
    ∃ (e : RegistryError) (delay : Nat) (c' : Controller) (o' : Object),
      c.reconcile id = (.ok ⟨.terminating, false, some e.reason, some delay⟩, c') ∧
      c'.access.store.get? id = some o' ∧ o'.info = o.info ∧ c'.indexes = c.indexes := by
  have hid := h.keyed id o hget
  cases hanswer : c.undo o with
  | ok c' => exact absurd ⟨c', hanswer⟩ hundo
  | error f =>
    obtain ⟨e, rfl⟩ := undo_eq_error h.rules hanswer
    obtain ⟨f, hstores⟩ := c.stores_postponed (o := o) h.rules hid e
    refine ⟨e, (c.ladder.next (id.kind.retryName id.key)).1, c.postponed id o e, o.mapStatus f, ?_,
      hstores.get?_self, ((Object.SameBody.refl o).mapStatus f).info_eq, hstores.indexes⟩
    rw [h.reconcile_of_deleted hget hdeletion]
    unfold finalize
    rw [hanswer]
    exact postpone_eq h.rules hget hid e

/-- **Deleting what holds nothing.** A pass over an object whose deletion was requested and whose status
records no network takes the registry's finalizer off it if the object can be let go. Otherwise the object
stays as it is but for its status, and is looked at again. -/
theorem deletion_of_unrecorded (h : c.Sound) (hget : c.access.store.get? id = some o)
    (hdeletion : o.info.deletionRequested = true) (hnothing : o.Unrecorded) :
    (c.CanLetGo o → ∃ c', c.reconcile id = (.ok .removed, c') ∧
      ∀ o', c'.access.store.get? id = some o' → o'.info.hasFinalizer finalizerName = false) ∧
    (¬ c.CanLetGo o → ∃ (e : RegistryError) (delay : Nat) (c' : Controller) (o' : Object),
      c.reconcile id = (.ok ⟨.terminating, false, some e.reason, some delay⟩, c') ∧
        c'.access.store.get? id = some o' ∧ o'.info = o.info ∧ c'.indexes = c.indexes) := by
  rw [← h.exists_undo_iff hnothing]
  constructor
  · rintro ⟨c₁, hundo⟩
    exact h.reconcile_of_undo hget hdeletion hundo
  · intro hundo
    exact h.reconcile_of_not_undo hget hdeletion hundo

end Controller

/-- A claim that no pool has an address for is deleted. -/
def Lab.withdrawn : List Action :=
  [.request (.create (dynamic edgeId (site "west"))), .reconcile edgeId, .request (.delete edgeId)]

/-- A claim is withdrawn before it obtained anything, and its next pass lets it go. -/
theorem Controller.deletion_of_unrecorded_withdrawn :
    ∃ c', (Lab.after Lab.withdrawn).reconcile Lab.edgeId = (.ok .removed, c') ∧
      ∀ o', c'.access.store.get? Lab.edgeId = some o' → o'.info.hasFinalizer finalizerName = false := by
  have hstored : ((Lab.after Lab.withdrawn).access.store.get? Lab.edgeId).any (fun o =>
      o.info.deletionRequested && decide o.Unrecorded && ((Lab.after Lab.withdrawn).undo o).isOk)
        = true := by decide +kernel
  have hsound := (Lab.after_reachable Lab.withdrawn).sound
  obtain ⟨o, hget, hstored⟩ := (Option.any_eq_true _ _).1 hstored
  rw [Bool.and_eq_true, Bool.and_eq_true, decide_eq_true_eq] at hstored
  obtain ⟨⟨hdeletion, hnothing⟩, hundo⟩ := hstored
  have hgoes : (Lab.after Lab.withdrawn).CanLetGo o := by
    rw [← hsound.exists_undo_iff hnothing]
    cases hanswer : (Lab.after Lab.withdrawn).undo o with
    | ok c' => exact ⟨c', rfl⟩
    | error f => simp [hanswer, Except.isOk, Except.toBool] at hundo
  exact (deletion_of_unrecorded hsound hget hdeletion hnothing).1 hgoes

namespace Lab

/-- A claim whose name gives no scope. -/
def misnamedId : ObjectId := ⟨.claim, ⟨"default", "edge"⟩⟩

/-- A claim with a name that cannot be read, a pool with a network that cannot be read, and a claim in a
scope that was disabled before are created, looked at once and deleted. -/
def condemned : List Action :=
  [.request (.create (explicit misnamedId "10.0.0.1/32" .empty)), .reconcile misnamedId,
    .request (.delete misnamedId),
    .request (.create (.newPool "default" "acme.lab.pool" ⟨"10.0.0.0", true, .empty, none⟩)),
    .reconcile poolId, .request (.delete poolId),
    .request (.update (.newScope Sample.key.space Sample.key.name
      { Sample.spec with adminState := .disable })), .reconcile scopeId,
    .request (.create (explicit edgeId "10.0.0.2/32" .empty)), .reconcile edgeId,
    .request (.delete edgeId)]

/-- Whether an object records no network at any time of this history. -/
def neverRecorded (id : ObjectId) : Bool :=
  (List.range (condemned.length + 1)).all fun k =>
    ((after (condemned.take k)).access.store.get? id).all fun o => decide o.Unrecorded

end Lab

/-- None of the three ever records a network. The pass after the deletion leaves each of them in the store,
with the registry's finalizer. -/
theorem Controller.unrecorded_objects_stay :
    [Lab.misnamedId, Lab.poolId, Lab.edgeId].map (fun id =>
      (Lab.neverRecorded id,
        ((Lab.after Lab.condemned).access.store.get? id).map (·.info.deletionRequested),
        ((Lab.after Lab.condemned).reconcile id).1.toOption.map (·.phase),
        (((Lab.after Lab.condemned).reconcile id).2.access.store.get? id).map
          (·.info.hasFinalizer finalizerName)))
      = List.replicate 3 (true, some true, some .terminating, some true) := by
  decide +kernel

/-! ## Names that cannot be read -/

namespace Controller

variable {c : Controller} {id : ObjectId} {o : Object}

/-- What is undone has a name that can be read. -/
theorem exists_parse_of_undo {c' : Controller} (hkind : o.kind = .pool ∨ o.kind = .claim)
    (h : c.undo o = .ok c') : ∃ name, ResourceName.parse o.kind o.info.name = .ok name := by
  cases o with
  | tenant _ => simp [Object.kind] at hkind
  | scope _ => simp [Object.kind] at hkind
  | pool p =>
    obtain ⟨changed, hundo, -⟩ := Except.map_eq_ok_iff.1 h
    obtain ⟨key, hkey, -⟩ := Except.bind_eq_ok_iff.1 (Failure.lift_eq_ok_iff.1 hundo)
    exact (Metadata.exists_parentKey_iff hkind).1 ⟨key, hkey⟩
  | claim cl =>
    obtain ⟨changed, hundo, -⟩ := Except.map_eq_ok_iff.1 h
    obtain ⟨r, hregistration, -⟩ := Except.bind_eq_ok_iff.1 hundo
    have hkey := Claim.parentKey_of_registration (Failure.lift_eq_ok_iff.1 hregistration)
    exact (Metadata.exists_parentKey_iff hkind).1 ⟨_, hkey⟩

/-- A pass over an object that is to stay keeps it, with the registry's finalizer. -/
theorem Sound.held_of_live (h : c.Sound) (hget : c.access.store.get? id = some o)
    (hlive : o.info.deletionRequested = false) :
    ∃ o', (c.reconcile id).2.access.store.get? id = some o' ∧
      o'.info.hasFinalizer finalizerName = true := by
  obtain ⟨outcome, c', hpass, -, houtcome⟩ := h.pass id
  rw [hpass]
  have hkept : ∃ o', c'.access.store.get? id = some o' := by
    unfold Store.get?
    generalize c'.access.store.objects = objects', c'.indexes = indexes', outcome.ready = ready
      at houtcome
    cases houtcome with
    | absent hnone => exact absurd (hget.symm.trans hnone) (Option.some_ne_none o)
    | kept _ _ _ _ _ => exact ⟨_, SortedMap.get?_insert_self _ _ _⟩
    | obtained _ _ _ _ _ _ _ => exact ⟨_, SortedMap.get?_insert_self _ _ _⟩
    | undone hget' hdeletion _ _ =>
      cases hget.symm.trans hget'
      simp [hlive] at hdeletion
  obtain ⟨o', hget'⟩ := hkept
  refine ⟨o', hget', hasFinalizer_of_maintain h.rules hget (h.keyed id o hget) ?_⟩
  rw [← h.reconcile_of_live hget hlive, hpass]
  exact hget'

/-- A pool or claim with the registry's finalizer has a name that cannot be read. -/
structure Stranded (c : Controller) (id : ObjectId) : Prop where
  kind : id.kind = .pool ∨ id.kind = .claim
  unreadable : ¬ ∃ name, ResourceName.parse id.kind id.key.name = .ok name
  held : ∃ o, c.access.store.get? id = some o ∧ o.info.hasFinalizer finalizerName = true

/-- Neither a request nor a pass takes the finalizer off such an object: clients cannot rename it, and its
own passes cannot undo what it may have done. -/
theorem Stranded.act (hsound : c.Sound) (h : c.Stranded id) (a : Action) : (c.act a).Stranded id := by
  obtain ⟨hkind, hunreadable, o, hget, hfinalizer⟩ := h
  refine ⟨hkind, hunreadable, ?_⟩
  cases a with
  | request q =>
    obtain ⟨o', hget', hfinalizers, -⟩ := Store.get?_serve q hget hfinalizer
    unfold Metadata.hasFinalizer at hfinalizer ⊢
    exact ⟨o', hget', by rw [hfinalizers, hfinalizer]⟩
  | reconcile id' =>
    show ∃ o', (c.reconcile id').2.access.store.get? id = some o' ∧ _
    by_cases hid : id = id'
    · subst hid
      obtain rfl := hsound.keyed id o hget
      cases hdeletion : o.info.deletionRequested with
      | true =>
        obtain ⟨e, delay, c', o', hpass, hget', hinfo, -⟩ :=
          hsound.reconcile_of_not_undo hget hdeletion fun ⟨c', hundo⟩ =>
            hunreadable (exists_parse_of_undo hkind hundo)
        rw [hpass]
        exact ⟨o', hget', by rw [hinfo, hfinalizer]⟩
      | false => exact hsound.held_of_live hget hdeletion
    · rw [hsound.get?_reconcile_of_ne hid]
      exact ⟨o, hget, hfinalizer⟩

/-- Nothing that clients and passes do lets such an object go. -/
theorem Stranded.run (hsound : c.Sound) (h : c.Stranded id) (actions : List Action) :
    (c.run actions).Stranded id := by
  induction actions generalizing c with
  | nil => exact h
  | cons a rest ih => exact ih (hsound.act a) (h.act hsound a)

end Controller

end AddressRegistry
