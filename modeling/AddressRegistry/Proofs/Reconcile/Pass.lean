import AddressRegistry.Proofs.Reconcile.Effect
import AddressRegistry.Proofs.Reconcile.Waking

/-!
# What one pass does

Without fault rules a pass over an object always ends with an outcome, and it ends in one of four ways
(`Controller.PassOutcome`, `Controller.reconcile_outcome`): there is no such object; the object keeps
what it has; a pool or claim obtains a network; the effect of an object whose deletion was requested is
undone. A pass writes to the store under the object's own kind and key only, and changes the index of
the object's own scope only.
-/

namespace AddressRegistry

/-! ## Looking up parents -/

/-- Without fault rules a listing cannot fail. -/
theorem Access.list_of_rules {a : Access} (h : a.rules = []) (kind : Kind) (space : Option String) :
    a.list kind space = .ok (a.store.list kind space) := by
  obtain ⟨store, rules⟩ := a
  cases h
  rfl

/-- In a keyed store every object is of the kind under which it is looked up. -/
theorem Access.fetch_of_keyed {a : Access} (hrules : a.rules = []) (hkeyed : a.store.Keyed)
    (id : ObjectId) : a.fetch id.kind id.key = .ok (a.store.get? id) := by
  obtain ⟨store, rules⟩ := a
  cases hrules
  have hid : (⟨id.kind, id.key⟩ : ObjectId) = id := rfl
  rw [fetch_of_store, hid]
  cases hget : store.get? id with
  | none => rfl
  | some o => exact if_pos (congrArg ObjectId.kind (hkeyed id o hget))

/-- Looking up a tenant does not crash without fault rules. -/
theorem Access.fetchTenant_eq_error {store : Store} {key : ObjectKey} {f : Failure}
    (h : (⟨store, []⟩ : Access).fetchTenant key = .error f) : ∃ e, f = .refused e := by
  unfold fetchTenant at h
  rw [fetch_of_store] at h
  rcases Except.bind_eq_error_iff.1 h with h | ⟨o, -, h⟩
  · split at h
    · cases h
    · split at h
      · cases h
      · exact ⟨_, (Except.error.inj h).symm⟩
  · split at h <;> cases h

/-- The check of a scope does not crash without fault rules. -/
theorem Scope.checkTenant_eq_error {scope : Scope} {store : Store} {f : Failure}
    (h : scope.checkTenant ⟨store, []⟩ = .error f) : ∃ e, f = .refused e := by
  rcases Except.bind_eq_error_iff.1 h with hkey | ⟨key, -, h⟩
  · obtain ⟨e, -, rfl⟩ := Failure.lift_eq_error_iff.1 hkey
    exact ⟨e, rfl⟩
  · rcases Except.bind_eq_error_iff.1 h with hfetch | ⟨found, -, h⟩
    · exact Access.fetchTenant_eq_error hfetch
    · cases found with
      | none =>
        cases h
        exact ⟨_, rfl⟩
      | some tenant =>
        dsimp only at h
        split at h
        · cases h
          exact ⟨_, rfl⟩
        · split at h
          · cases h
            exact ⟨_, rfl⟩
          · cases h

/-- The check of a pool does not crash without fault rules. -/
theorem Pool.checkScope_eq_error {pool : Pool} {indexes : ScopeIndexes} {store : Store} {f : Failure}
    (h : pool.checkScope ⟨store, []⟩ indexes = .error f) : ∃ e, f = .refused e := by
  rcases Except.bind_eq_error_iff.1 h with hkey | ⟨key, -, h⟩
  · obtain ⟨e, -, rfl⟩ := Failure.lift_eq_error_iff.1 hkey
    exact ⟨e, rfl⟩
  · rcases Except.bind_eq_error_iff.1 h with hready | ⟨scope, -, h⟩
    · obtain ⟨e, rfl, -⟩ := ScopeIndexes.readyScope_eq_error hready
      exact ⟨e, rfl⟩
    · cases h

/-- The check of a claim does not crash without fault rules. -/
theorem Claim.checkScope_eq_error {claim : Claim} {indexes : ScopeIndexes} {store : Store} {f : Failure}
    (h : claim.checkScope ⟨store, []⟩ indexes = .error f) : ∃ e, f = .refused e := by
  rcases Except.bind_eq_error_iff.1 h with hregistration | ⟨r, -, h⟩
  · obtain ⟨e, -, rfl⟩ := Failure.lift_eq_error_iff.1 hregistration
    exact ⟨e, rfl⟩
  · rcases Except.bind_eq_error_iff.1 h with hready | ⟨scope, -, h⟩
    · obtain ⟨e, rfl, -⟩ := ScopeIndexes.readyScope_eq_error hready
      exact ⟨e, rfl⟩
    · cases h

namespace Object

variable {store : Store} {key : ObjectKey} {o o' : Object} {index index' : RouteIndex} {n : Network}

/-- The object `o'` is `o` as passes leave it: with another status, and with the registry's finalizer if it
lacked that. -/
def Tended (o o' : Object) : Prop :=
  o.SameBody o' ∨ (Store.marked o finalizerName).SameBody o'

/-- Passes do not rename an object. -/
theorem Tended.id_eq (h : o.Tended o') : o'.id = o.id := by
  rcases h with h | h
  · exact h.id_eq
  · rw [h.id_eq, Store.id_marked]

/-- Passes do not edit a specification. -/
theorem Tended.isDynamic_iff (h : o.Tended o') : o'.IsDynamic ↔ o.IsDynamic := by
  rcases h with h | h
  · exact h.isDynamic_iff
  · rw [h.isDynamic_iff, Store.marked, isDynamic_mapInfo]

/-- Passes leave the labels that a route is to have. -/
theorem Tended.ownLabels? (h : o.Tended o') : o'.ownLabels? = o.ownLabels? := by
  rcases h with h | h
  · exact h.ownLabels?
  · rw [h.ownLabels?]
    cases o <;> rfl

/-- Two objects say the same about their routes. -/
structure SameRoute (o o' : Object) : Prop where
  recorded : o'.recorded? = o.recorded?
  named : o'.named? = o.named?
  labels : o'.ownLabels? = o.ownLabels?
  relabelled : o'.Relabelled ↔ o.Relabelled
  registration : ∀ c', o' = claim c' → ∃ c, o = claim c ∧ c.registration = c'.registration

/-- An object says about its route what it says. -/
theorem SameRoute.refl (o : Object) : o.SameRoute o :=
  ⟨rfl, rfl, rfl, Iff.rfl, fun c' h => ⟨c', h, rfl⟩⟩

/-- The common status says nothing about the route. -/
theorem sameRoute_mapStatus (o : Object) (f : Status → Status) : o.SameRoute (o.mapStatus f) := by
  cases o <;> refine ⟨rfl, rfl, rfl, Iff.rfl, fun c' h => ?_⟩ <;> cases h
  exact ⟨_, rfl, rfl⟩

/-- Finalizers say nothing about the route. -/
theorem sameRoute_marked (o : Object) (finalizer : String) :
    o.SameRoute (Store.marked o finalizer) := by
  cases o <;> refine ⟨rfl, rfl, rfl, Iff.rfl, fun c' h => ?_⟩ <;> cases h
  exact ⟨_, rfl, rfl⟩

/-- Of two objects that say the same about their routes one obtains what the other one does. -/
theorem SameRoute.obtained (h : o.SameRoute o') (hobtained : o'.Obtained store key index n index') :
    o.Obtained store key index n index' := by
  cases hobtained with
  | declared hnamed hlabels hcleared hdeclare =>
    rw [h.named] at hnamed
    rw [h.labels] at hlabels
    refine .declared hnamed hlabels ?_ hdeclare
    cases hcleared with
    | unchanged hrecord =>
      rw [h.recorded, h.relabelled] at hrecord
      exact .unchanged hrecord
    | takenBack hrecord hedited hroutes =>
      rw [h.recorded] at hrecord
      rw [h.relabelled] at hedited
      exact .takenBack hrecord hedited hroutes
  | allocated hclaim hregistration hdynamic hscope houtcome =>
    obtain ⟨c, hc, heq⟩ := h.registration _ hclaim
    exact .allocated hc (heq.trans hregistration) hdynamic hscope houtcome

/-- Of the store, only the scope matters. -/
theorem Obtained.of_store {store' : Store} (h : o.Obtained store key index n index')
    (hscope : ∀ scope, store.get? ⟨.scope, key⟩ = some (.scope scope) →
      store'.get? ⟨.scope, key⟩ = some (.scope scope)) : o.Obtained store' key index n index' := by
  cases h with
  | declared hnamed hlabels hcleared hdeclare => exact .declared hnamed hlabels hcleared hdeclare
  | allocated hclaim hregistration hdynamic hfound houtcome =>
    exact .allocated hclaim hregistration hdynamic (hscope _ hfound) houtcome

end Object

namespace Controller

variable {c c' : Controller} {o o' : Object} {id : ObjectId}

/-! ## Waking dependents -/

/-- Two controllers reach the same store and have the same indexes. -/
structure Agrees (c c' : Controller) : Prop where
  access : c'.access = c.access
  indexes : c'.indexes = c.indexes

/-- Without fault rules all dependent kinds can be listed, so a fan-out goes through. -/
theorem fanOutOver_ok (hrules : c.access.rules = []) (kind : Kind) (space : String)
    (source : Placement) (kinds : List Kind) :
    ∃ n c', c.fanOutOver kind space source kinds = (.ok n, c') := by
  induction kinds generalizing c with
  | nil => exact ⟨0, c, rfl⟩
  | cons dependent rest ih =>
    obtain ⟨n, c₁, hfan, hrules₁⟩ :
        ∃ n c', c.fanOutTo kind space source dependent = .ok (n, c') ∧ c'.access.rules = [] := by
      unfold fanOutTo
      rw [Access.list_of_rules hrules]
      refine ⟨_, _, rfl, ?_⟩
      rw [foldl_wake_eq_wakeAll, access_wakeAll, hrules]
    obtain ⟨m, c₂, hrest⟩ := ih hrules₁
    refine ⟨n + m, c₂, ?_⟩
    unfold fanOutOver
    simp only [hfan, hrest]

/-- Waking dependents succeeds and concerns neither store nor indexes. -/
theorem tryFanOut_ok (hrules : c.access.rules = []) (id : ObjectId) :
    ∃ c', c.tryFanOut id = (.ok (), c') ∧ c.Agrees c' := by
  have hok : (c.tryFanOut id).1 = .ok () := by
    unfold tryFanOut fanOut fanOutFrom
    cases ResourceName.parse id.kind id.key.name with
    | error e => rfl
    | ok name =>
      obtain ⟨n, c', hfan⟩ :=
        fanOutOver_ok hrules id.kind id.key.space name.placement id.kind.dependents
      simp only [hfan]
  obtain ⟨ids, -, hwoken⟩ := c.tryFanOut_eq_wakeAll id
  exact ⟨_, Prod.ext hok hwoken, c.access_wakeAll ids, c.indexes_wakeAll ids⟩

/-! ## Evaluating -/

/-- How the evaluation of an object ends. -/
inductive EvaluateOutcome (c : Controller) (o : Object) : Verdict → Object → Controller → Prop
  | stuck (phase : Phase) (e : RegistryError) {o' : Object} (hbody : o.SameBody o')
    (hrecord : o'.recorded? = o.recorded?) : EvaluateOutcome c o (.stuck phase e) o' c
  /-- A tenant has no effect; a scope has an index from now on. -/
  | fulfilled {o' : Object} {c' : Controller} (hkind : o.kind = .tenant ∨ o.kind = .scope)
    (hbody : o.SameBody o') (hrecord : o'.recorded? = o.recorded?) (haccess : c'.access = c.access)
    (hindexes : c'.indexes = c.indexes ∨ o.kind = .scope ∧ c'.indexes = c.indexes.ensure o.key) :
    EvaluateOutcome c o .ready o' c'
  /-- A pool or claim obtained a network. -/
  | obtained {key : ObjectKey} {index index' : RouteIndex} {n : Network} {o' : Object}
    (hhome : o.id.home? = some key) (hindex : c.indexes.get? key = some index)
    (hbody : o.SameBody o') (hcanonical : n.IsCanonical) (hrecord : o'.recorded? = some n)
    (hobtained : o.Obtained c.access.store key index n index') :
    EvaluateOutcome c o .ready o' { c with indexes := c.indexes.insert key index' }

/-- The check of a parent does not crash without fault rules. -/
theorem checkParent_eq_error (hrules : c.access.rules = []) {f : Failure}
    (h : c.checkParent o = .error f) : ∃ e, f = .refused e := by
  obtain ⟨⟨store, rules⟩, indexes, ladder, queues, readings⟩ := c
  cases hrules
  cases o with
  | tenant _ => cases h
  | scope scope => exact Scope.checkTenant_eq_error h
  | pool pool => exact Pool.checkScope_eq_error h
  | claim claim => exact Claim.checkScope_eq_error h

/-- How applying the effect of a pool or claim ends is how it ends for the controller. -/
theorem apply_of_local {result : Except Failure Unit} {indexes' : ScopeIndexes}
    (houtcome : o.ApplyOutcome c.access.store c.indexes result o' indexes')
    (happly : c.apply o = (result, o', { c with indexes := indexes' })) :
    (∃ e, c.apply o = (.error (.refused e), o, c)) ∨
      ∃ o' c', c.apply o = (.ok (), o', c') ∧ c.EvaluateOutcome o .ready o' c' := by
  cases houtcome with
  | refused e => exact Or.inl ⟨e, happly⟩
  | applied hhome hindex hbody hcanonical hrecord hobtained =>
    exact Or.inr ⟨_, _, happly, .obtained hhome hindex hbody hcanonical hrecord hobtained⟩

/-- Applying the effect of an object whose parent is ready. -/
theorem apply_outcome (hrules : c.access.rules = []) (hparent : c.checkParent o = .ok ()) :
    (∃ e, c.apply o = (.error (.refused e), o, c)) ∨
      ∃ o' c', c.apply o = (.ok (), o', c') ∧ c.EvaluateOutcome o .ready o' c' := by
  obtain ⟨⟨store, rules⟩, indexes, ladder, queues, readings⟩ := c
  cases hrules
  cases o with
  | tenant tenant =>
    unfold apply
    dsimp only
    split
    · exact Or.inr ⟨_, _, rfl, .fulfilled (Or.inl rfl) (.refl _) rfl rfl (Or.inl rfl)⟩
    · exact Or.inl ⟨_, rfl⟩
  | scope scope =>
    unfold apply
    dsimp only
    cases scope.checkSpec with
    | ok _ => exact Or.inr ⟨_, _, rfl, .fulfilled (Or.inr rfl) (.refl _) rfl rfl (Or.inr ⟨rfl, rfl⟩)⟩
    | error e => exact Or.inl ⟨e, rfl⟩
  | pool pool =>
    obtain ⟨key, hkey, hready⟩ := Except.bind_eq_ok_iff.1 hparent
    obtain ⟨scope, hready, -⟩ := Except.bind_eq_ok_iff.1 hready
    obtain ⟨index, hindex⟩ :=
      Option.isSome_iff_exists.1 (ScopeIndexes.readyScope_eq_ok_iff.1 hready).2.2.2
    exact apply_of_local (pool.apply_outcome store (Failure.lift_eq_ok_iff.1 hkey) hindex) rfl
  | claim claim =>
    obtain ⟨r, hregistration, hready⟩ := Except.bind_eq_ok_iff.1 hparent
    obtain ⟨scope, hready, -⟩ := Except.bind_eq_ok_iff.1 hready
    exact apply_of_local (claim.apply_outcome (Failure.lift_eq_ok_iff.1 hregistration) hready) rfl

/-- An evaluation comes to a verdict without fault rules: the name is parsed, the parent is checked, and the
effect is applied. Each of the three may be where it gets stuck. -/
theorem evaluate_outcome (hrules : c.access.rules = []) (o : Object) :
    ∃ v o' c', c.evaluate o = (some v, o', c') ∧ c.EvaluateOutcome o v o' c' := by
  unfold evaluate
  cases ResourceName.parse o.kind o.info.name with
  | error e => exact ⟨_, _, _, rfl, .stuck .pending e (.refl o) rfl⟩
  | ok name =>
    dsimp only
    have hbody := (Object.SameBody.refl o).mapStatus fun s => { s with placement := name.placement }
    have hroute := o.sameRoute_mapStatus fun s => { s with placement := name.placement }
    generalize o.mapStatus (fun s => { s with placement := name.placement }) = placed at *
    cases hparent : c.checkParent placed with
    | error f =>
      obtain ⟨e, rfl⟩ := checkParent_eq_error hrules hparent
      exact ⟨_, _, _, rfl, .stuck .pending e hbody hroute.recorded⟩
    | ok _ =>
      rcases apply_outcome hrules hparent with ⟨e, happly⟩ | ⟨o', c', happly, h⟩
      · rw [happly]
        exact ⟨_, _, _, rfl, .stuck .initializing e hbody hroute.recorded⟩
      · rw [happly]
        refine ⟨.ready, o', c', rfl, ?_⟩
        cases h with
        | fulfilled hkind hbody' hrecord haccess hindexes =>
          rw [hbody.kind_eq] at hkind hindexes
          rw [Object.key, hbody.info_eq] at hindexes
          exact .fulfilled hkind (hbody.trans hbody') (hrecord.trans hroute.recorded) haccess hindexes
        | obtained hhome hindex hbody' hcanonical hrecord hobtained =>
          rw [hbody.id_eq] at hhome
          exact .obtained hhome hindex (hbody.trans hbody') hcanonical hrecord
            (hroute.obtained hobtained)

/-! ## Writing back -/

/-- A controller after an object was written to the store. -/
structure Stores (c : Controller) (id : ObjectId) (o : Object) (c' : Controller) : Prop where
  rules : c'.access.rules = []
  objects : c'.access.store.objects = c.access.store.objects.insert id o
  indexes : c'.indexes = c.indexes

/-- What happens before a write without touching store and indexes may be left out. -/
theorem Stores.of_agrees_left {c₁ : Controller} (h : c.Agrees c₁) (h' : c₁.Stores id o c') :
    c.Stores id o c' :=
  ⟨h'.rules, by rw [h'.objects, h.access], h'.indexes.trans h.indexes⟩

/-- What happens after a write without touching store and indexes may be left out. -/
theorem Stores.of_agrees_right {c₁ : Controller} (h : c.Stores id o c₁) (h' : c₁.Agrees c') :
    c.Stores id o c' :=
  ⟨by rw [h'.access, h.rules], by rw [h'.access, h.objects], h'.indexes.trans h.indexes⟩

/-- What was written is stored. -/
theorem Stores.get?_self (h : c.Stores id o c') : c'.access.store.get? id = some o := by
  unfold Store.get?
  rw [h.objects, SortedMap.get?_insert_self]

/-- A write under one kind and key concerns that one. -/
theorem Stores.get?_of_ne (h : c.Stores id o c') {id' : ObjectId} (hne : id' ≠ id) :
    c'.access.store.get? id' = c.access.store.get? id' := by
  unfold Store.get?
  rw [h.objects, SortedMap.get?_insert_of_ne _ hne]

/-- Writing back what is stored changes no object. -/
theorem stores_self (hrules : c.access.rules = []) (hget : c.access.store.get? id = some o) :
    c.Stores id o c :=
  ⟨hrules, (SortedMap.insert_of_get? hget).symm, rfl⟩

/-- The status of a stored object can be saved when nothing else of it has changed. -/
theorem saveStatus_ok (hrules : c.access.rules = []) {stored : Object}
    (hget : c.access.store.get? o.id = some stored) (hbody : stored.SameBody o) :
    ∃ c', c.saveStatus o = .ok c' ∧ c.Stores o.id o c' := by
  obtain ⟨⟨store, rules⟩, indexes, ladder, queues, readings⟩ := c
  cases hrules
  refine ⟨⟨⟨store.write o.id o .statusUpdated, []⟩, indexes, ladder, queues, readings⟩, ?_, rfl, rfl,
    rfl⟩
  show ((Failure.lift (store.updateStatus o) >>= _).map _) = _
  rw [Store.updateStatus_of_sameBody hget hbody]
  rfl

/-- A verdict is recorded in the common status, and the store is not asked. -/
theorem recordVerdict_eq (c : Controller) (o : Object) (v : Verdict) :
    ∃ f c', c.recordVerdict o v = (o.mapStatus f, c') ∧ c.Agrees c' := by
  unfold recordVerdict
  refine ⟨_, _, rfl, ?_⟩
  split <;> exact ⟨rfl, rfl⟩

/-- How long to wait is decided without the store and the indexes. -/
theorem delayAfter_eq (c : Controller) (retryName : String) (v : Verdict) :
    ∃ delay c', c.delayAfter retryName v = (delay, c') ∧ c.Agrees c' := by
  unfold delayAfter
  split
  · exact ⟨_, _, rfl, rfl, rfl⟩
  · split
    · exact ⟨_, _, rfl, rfl, rfl⟩
    · exact ⟨_, _, rfl, rfl, rfl⟩

/-- Reporting a verdict writes the object back. -/
theorem report_ok {before after : Object} (v : Verdict) (hrules : c.access.rules = [])
    (hget : c.access.store.get? id = some before) (hid : before.id = id)
    (hbody : before.SameBody after) :
    ∃ outcome o' c', c.report id before after v = (.ok outcome, c') ∧ outcome.ready = v.isReady ∧
      before.SameBody o' ∧ o'.recorded? = after.recorded? ∧ c.Stores id o' c' := by
  unfold report
  have hobserved := hbody.mapStatus fun s => { s with observedGeneration := after.info.generation }
  have hrecord :=
    (after.sameRoute_mapStatus fun s => { s with observedGeneration := after.info.generation }).recorded
  generalize after.mapStatus (fun s => { s with observedGeneration := after.info.generation }) = observed at *
  obtain ⟨f, c₁, hverdict, hagrees⟩ := c.recordVerdict_eq observed v
  have hobject := hobserved.mapStatus f
  have hrecord' := (observed.sameRoute_mapStatus f).recorded.trans hrecord
  dsimp only
  rw [hverdict]
  generalize observed.mapStatus f = object at *
  have hrules₁ : c₁.access.rules = [] := by rw [hagrees.access, hrules]
  have hget₁ : c₁.access.store.get? id = some before := by rw [hagrees.access, hget]
  obtain ⟨c₂, hsave, hstores⟩ :
      ∃ c₂, (if object = before then Except.ok c₁ else c₁.saveStatus object) = .ok c₂ ∧
        c₁.Stores id object c₂ := by
    split
    · rename_i heq
      rw [heq]
      exact ⟨c₁, rfl, stores_self hrules₁ hget₁⟩
    · have hid' : object.id = id := hobject.id_eq.trans hid
      rw [← hid'] at hget₁ ⊢
      exact saveStatus_ok hrules₁ hget₁ hobject
  obtain ⟨c₃, hfan, hagrees₃⟩ :
      ∃ c₃, (if differsForDependents before object then c₂.tryFanOut id else (.ok (), c₂))
        = (.ok (), c₃) ∧ c₂.Agrees c₃ := by
    split
    · exact tryFanOut_ok hstores.rules id
    · exact ⟨c₂, rfl, rfl, rfl⟩
  obtain ⟨delay, c₄, hdelay, hagrees₄⟩ := c₃.delayAfter_eq (id.kind.retryName id.key) v
  dsimp only
  rw [hsave]
  dsimp only
  rw [hfan]
  dsimp only
  rw [hdelay]
  exact ⟨_, object, c₄, rfl, rfl, hobject, hrecord',
    ((hstores.of_agrees_right hagrees₃).of_agrees_right hagrees₄).of_agrees_left hagrees⟩

/-! ## Whole passes -/

/-- Undoing the effect of an object. -/
theorem undo_outcome (hrules : c.access.rules = []) (h : c.undo o = .ok c') :
    c'.access = c.access ∧ o.UndoOutcome c.indexes c'.indexes := by
  obtain ⟨⟨store, rules⟩, indexes, ladder, queues, readings⟩ := c
  cases hrules
  cases o with
  | tenant _ =>
    cases h
    exact ⟨rfl, .nothing⟩
  | scope scope =>
    cases h
    exact ⟨rfl, .dropped rfl⟩
  | pool pool =>
    obtain ⟨changed, hundo, rfl⟩ := Except.map_eq_ok_iff.1 h
    exact ⟨rfl, Pool.undo_outcome (Failure.lift_eq_ok_iff.1 hundo)⟩
  | claim claim =>
    obtain ⟨changed, hundo, rfl⟩ := Except.map_eq_ok_iff.1 h
    exact ⟨rfl, Claim.undo_outcome hundo⟩

/-- Undoing does not crash without fault rules. -/
theorem undo_eq_error (hrules : c.access.rules = []) {f : Failure} (h : c.undo o = .error f) :
    ∃ e, f = .refused e := by
  obtain ⟨⟨store, rules⟩, indexes, ladder, queues, readings⟩ := c
  cases hrules
  cases o with
  | tenant _ => cases h
  | scope _ => cases h
  | pool pool =>
    obtain ⟨e, -, rfl⟩ := Failure.lift_eq_error_iff.1 (Except.map_eq_error_iff.1 h)
    exact ⟨e, rfl⟩
  | claim claim => exact Claim.undo_eq_error (Except.map_eq_error_iff.1 h)

/-- The ways in which a pass over an object ends: whether the object is ready then, what the store holds,
and the indexes. -/
inductive PassOutcome (c : Controller) (id : ObjectId) :
    Bool → SortedMap ObjectId Object → ScopeIndexes → Prop
  | absent (hget : c.access.store.get? id = none) :
    PassOutcome c id false c.access.store.objects c.indexes
  /-- The object keeps the network that it has, if it has one. A scope may get an empty index. -/
  | kept {o o' : Object} {ready : Bool} {indexes' : ScopeIndexes}
    (hget : c.access.store.get? id = some o) (htended : o.Tended o')
    (hrecord : o'.recorded? = o.recorded?)
    (hready : ready = true → o.kind = .tenant ∨ o.kind = .scope)
    (hindexes : indexes' = c.indexes ∨ o.kind = .scope ∧ indexes' = c.indexes.ensure o.key) :
    PassOutcome c id ready (c.access.store.objects.insert id o') indexes'
  /-- A pool or claim obtains a network. -/
  | obtained {key : ObjectKey} {index index' : RouteIndex} {n : Network} {o o' : Object}
    (hget : c.access.store.get? id = some o) (htended : o.Tended o') (hhome : id.home? = some key)
    (hindex : c.indexes.get? key = some index) (hcanonical : n.IsCanonical)
    (hrecord : o'.recorded? = some n) (hobtained : o.Obtained c.access.store key index n index') :
    PassOutcome c id true (c.access.store.objects.insert id o') (c.indexes.insert key index')
  /-- The effect of the object is undone. The object goes unless somebody else holds it. -/
  | undone {o : Object} {objects' : SortedMap ObjectId Object} {indexes' : ScopeIndexes}
    (hget : c.access.store.get? id = some o) (hdeletion : o.info.deletionRequested = true)
    (hobjects : objects' = c.access.store.objects.erase id ∨
      (∃ f ∈ o.info.finalizers, f ≠ finalizerName) ∧
        objects' = c.access.store.objects.insert id (o.mapInfo fun m =>
          { m with finalizers := o.info.finalizers.filter (· != finalizerName) }))
    (hundo : o.UndoOutcome c.indexes indexes') : PassOutcome c id false objects' indexes'

/-- Without fault rules a finalizer comes off when the store takes it off. -/
theorem removeFinalizer_of_rules {a : Access} (hrules : a.rules = []) {finalizer : String} {s' : Store}
    (h : a.store.removeFinalizer id finalizer = .ok s') :
    a.removeFinalizer id finalizer = .ok ⟨s', []⟩ := by
  obtain ⟨store, rules⟩ := a
  cases hrules
  show (Failure.lift (store.removeFinalizer id finalizer) >>= _) = _
  rw [h]
  rfl

/-- An object whose effect could not be undone keeps its network. -/
theorem postpone_outcome (hrules : c.access.rules = []) (hget : c.access.store.get? id = some o)
    (hid : o.id = id) (e : RegistryError) :
    ∃ outcome c', c.postpone id o e = (.ok outcome, c') ∧ c'.access.rules = [] ∧
      c.PassOutcome id outcome.ready c'.access.store.objects c'.indexes := by
  unfold postpone
  obtain ⟨f, c₁, hverdict, hagrees⟩ := c.recordVerdict_eq o (.stuck .terminating e)
  have hbody := (Object.SameBody.refl o).mapStatus f
  have hrecord := (o.sameRoute_mapStatus f).recorded
  rw [hverdict]
  generalize o.mapStatus f = object at *
  have hid' : object.id = id := hbody.id_eq.trans hid
  obtain ⟨c₂, hsave, hstores⟩ := c₁.saveStatus_ok (o := object) (by rw [hagrees.access, hrules])
    (by rw [hagrees.access, hid', hget]) hbody
  rw [hid'] at hstores
  dsimp only
  rw [hsave]
  have hstores := hstores.of_agrees_left hagrees
  refine ⟨_, _, rfl, hstores.rules, ?_⟩
  dsimp only
  rw [hstores.objects, hstores.indexes]
  exact .kept hget (Or.inl hbody) hrecord nofun (Or.inl rfl)

/-- An object whose effect is undone loses the registry's finalizer, and goes with its last one. -/
theorem finish_outcome {c₁ : Controller} (hrules : c.access.rules = [])
    (hget : c.access.store.get? id = some o) (hid : o.id = id)
    (hdeletion : o.info.deletionRequested = true) (haccess : c₁.access = c.access)
    (hundo : o.UndoOutcome c.indexes c₁.indexes) :
    ∃ outcome c', c₁.finish id o = (.ok outcome, c') ∧ c'.access.rules = [] ∧
      c.PassOutcome id outcome.ready c'.access.store.objects c'.indexes := by
  unfold finish
  have hrules₁ : c₁.access.rules = [] := by rw [haccess, hrules]
  have hremove := removeFinalizer_of_rules hrules₁
    (Store.removeFinalizer_of_get? finalizerName (haccess.symm ▸ hget))
  rw [hid, hremove]
  dsimp only
  rw [haccess]
  obtain ⟨c₂, hfan, hagrees⟩ := tryFanOut_ok (c := { c₁ with
    access := ⟨_, []⟩, ladder := c₁.ladder.forget (id.kind.retryName id.key) }) rfl id
  rw [hfan]
  refine ⟨_, _, rfl, by rw [hagrees.access], ?_⟩
  rw [hagrees.access, hagrees.indexes]
  refine .undone hget hdeletion ?_ hundo
  rw [hdeletion, Bool.true_and]
  split
  · exact Or.inl rfl
  · rename_i hleft
    refine Or.inr ⟨?_, rfl⟩
    rw [List.isEmpty_iff, List.filter_eq_nil_iff] at hleft
    simpa using hleft

/-- A pass over an object that is to be deleted undoes its effect and takes the finalizer off, or reports
why it cannot. -/
theorem finalize_outcome (hrules : c.access.rules = []) (hget : c.access.store.get? id = some o)
    (hid : o.id = id) (hdeletion : o.info.deletionRequested = true) :
    ∃ outcome c', c.finalize id o = (.ok outcome, c') ∧ c'.access.rules = [] ∧
      c.PassOutcome id outcome.ready c'.access.store.objects c'.indexes := by
  unfold finalize
  cases hundo : c.undo o with
  | error f =>
    obtain ⟨e, rfl⟩ := undo_eq_error hrules hundo
    exact postpone_outcome hrules hget hid e
  | ok c₁ =>
    obtain ⟨haccess, hundone⟩ := undo_outcome hrules hundo
    exact finish_outcome hrules hget hid hdeletion haccess hundone

/-- Putting the finalizer on an object. -/
theorem ensureFinalizer_ok (hrules : c.access.rules = []) (hget : c.access.store.get? id = some o) :
    ∃ before c', c.ensureFinalizer id o = .ok (before, c') ∧
      (before = o ∨ before = Store.marked o finalizerName) ∧ c.Stores id before c' := by
  unfold ensureFinalizer
  cases hfinalizer : o.info.hasFinalizer finalizerName with
  | true => exact ⟨o, c, rfl, Or.inl rfl, stores_self hrules hget⟩
  | false =>
    obtain ⟨⟨store, rules⟩, indexes, ladder, queues, readings⟩ := c
    cases hrules
    refine ⟨Store.marked o finalizerName,
      ⟨⟨⟨store.objects.insert id (Store.marked o finalizerName), store.log⟩, []⟩, indexes, ladder,
        queues, readings⟩, ?_, Or.inr rfl, rfl, rfl, rfl⟩
    show ((Failure.lift (store.addFinalizer id finalizerName) >>= _) >>= _) = _
    rw [Store.addFinalizer_of_get? hget hfinalizer]
    rfl

/-- An evaluation writes nothing to the store. -/
theorem EvaluateOutcome.access {v : Verdict} (h : c.EvaluateOutcome o v o' c') :
    c'.access = c.access := by
  cases h with
  | stuck _ _ _ _ => rfl
  | fulfilled _ _ _ haccess _ => exact haccess
  | obtained _ _ _ _ _ _ => rfl

/-- An evaluation changes the status of its object at most. -/
theorem EvaluateOutcome.sameBody {v : Verdict} (h : c.EvaluateOutcome o v o' c') : o.SameBody o' := by
  cases h with
  | stuck _ _ hbody _ => exact hbody
  | fulfilled _ hbody _ _ _ => exact hbody
  | obtained _ _ hbody _ _ _ => exact hbody

/-- A pass over an object that is to stay puts the finalizer on it, evaluates it and reports the verdict. -/
theorem maintain_outcome (hrules : c.access.rules = []) (hget : c.access.store.get? id = some o)
    (hid : o.id = id) :
    ∃ outcome c', c.maintain id o = (.ok outcome, c') ∧ c'.access.rules = [] ∧
      c.PassOutcome id outcome.ready c'.access.store.objects c'.indexes := by
  unfold maintain
  -- three steps in a row, each of which finds in the store what the one before left there
  obtain ⟨before, c₁, hensure, hbefore, hstores⟩ := ensureFinalizer_ok hrules hget
  obtain ⟨v, after, c₂, hevaluate, houtcome⟩ := evaluate_outcome hstores.rules before
  have hget₁ : c₁.access.store.get? id = some before := hstores.get?_self
  have hid₁ : before.id = id := by
    rcases hbefore with rfl | rfl
    · exact hid
    · rw [Store.id_marked, hid]
  have hroute : o.SameRoute before := by
    rcases hbefore with rfl | rfl
    · exact .refl _
    · exact o.sameRoute_marked finalizerName
  obtain ⟨outcome, o', c₃, hreport, hready, hbody, hrecord, hstores₃⟩ :=
    c₂.report_ok v (by rw [houtcome.access, hstores.rules]) (by rw [houtcome.access, hget₁]) hid₁
      houtcome.sameBody
  have htended : o.Tended o' := by
    rcases hbefore with rfl | rfl
    · exact Or.inl hbody
    · exact Or.inr hbody
  rw [hensure]
  dsimp only
  rw [hevaluate]
  dsimp only
  refine ⟨outcome, c₃, hreport, hstores₃.rules, ?_⟩
  rw [hready, hstores₃.objects, hstores₃.indexes, houtcome.access, hstores.objects,
    SortedMap.insert_insert]
  -- only an effect that obtains a network changes the index; the report never does
  cases houtcome with
  | stuck _ _ _ hrecord' =>
    exact .kept hget htended ((hrecord.trans hrecord').trans hroute.recorded) nofun
      (Or.inl hstores.indexes)
  | fulfilled hkind _ hrecord' _ hindexes =>
    rw [show before.key = o.key from congrArg ObjectId.key (hid₁.trans hid.symm), hstores.indexes,
      show before.kind = o.kind from congrArg ObjectId.kind (hid₁.trans hid.symm)] at hindexes
    rw [show before.kind = o.kind from congrArg ObjectId.kind (hid₁.trans hid.symm)] at hkind
    exact .kept hget htended ((hrecord.trans hrecord').trans hroute.recorded) (fun _ => hkind) hindexes
  | obtained hhome hindex _ hcanonical hrecord' hobtained =>
    rw [hid₁] at hhome
    rw [hstores.indexes] at hindex ⊢
    refine .obtained hget htended hhome hindex hcanonical (hrecord.trans hrecord') ?_
    refine (hroute.obtained hobtained).of_store fun scope hscope => ?_
    rw [← hscope, hstores.get?_of_ne]
    rintro rfl
    cases hhome

/-- A pass ends with an outcome, in one of four ways. -/
theorem reconcile_outcome (hrules : c.access.rules = []) (hkeyed : c.access.store.Keyed)
    (id : ObjectId) :
    ∃ outcome c', c.reconcile id = (.ok outcome, c') ∧ c'.access.rules = [] ∧
      c.PassOutcome id outcome.ready c'.access.store.objects c'.indexes := by
  unfold reconcile
  rw [Access.fetch_of_keyed hrules hkeyed]
  cases hget : c.access.store.get? id with
  | none => exact ⟨_, _, rfl, hrules, .absent hget⟩
  | some o =>
    have hid := hkeyed id o hget
    dsimp only
    split
    · rename_i hdeletion
      exact finalize_outcome hrules hget hid hdeletion
    · exact maintain_outcome hrules hget hid

end Controller

end AddressRegistry
