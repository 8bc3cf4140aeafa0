import AddressRegistry.Proofs.Reconcile.Convergence
import AddressRegistry.Proofs.Reconcile.Holdings
import AddressRegistry.Proofs.Reconcile.OwnRoute
import AddressRegistry.Proofs.Store.Lifetime

/-!
# The one route of a pool

A pass decides from the status of a pool whether the pool has to be declared anew: from the network that it
recorded as declared, and from the labels that it shows. Both were written at other moments than the route, and
in between specifications are edited, scopes lose their indexes, and passes get stuck.

What makes the decision right is that a route of a network that the pool names is never there without the pool
showing it, network and labels (`Controller.Accounted`). Nobody can change what a stored pool shows but a pass
over it, and a pass that changes the one changes the other (`Controller.PoolPass`): it gets stuck and changes
neither, or it declares the network that the pool names and takes back the route that the pool showed, or it
takes this route back for good. So at most one of these networks has a route at any time, and after a pass that
ends ready it is the network of the specification, with the labels of the specification
(`Controller.pool_owns_one_route`).
-/

namespace AddressRegistry

/-! ## What a pool shows -/

namespace Object

variable {o o' : Object} {store : Store} {key : ObjectKey} {index index' : RouteIndex} {n m : Network}
variable {labels own : Labels}

/-- The labels on the status of a pool. -/
def shownLabels? : Object → Option Labels
  | tenant _ | scope _ | claim _ => none
  | pool p => some p.status.labels

/-- The object carries the registry's finalizer and shows a route as its own. -/
structure Shows (o : Object) (n : Network) (labels : Labels) : Prop where
  finalizer : o.info.hasFinalizer finalizerName = true
  network : o.recorded? = some n
  labels : o.shownLabels? = some labels

/-- The common status has no part in the labels that a pool shows. -/
@[simp] theorem shownLabels?_mapStatus (o : Object) (f : Status → Status) :
    (o.mapStatus f).shownLabels? = o.shownLabels? := by
  cases o <;> rfl

/-- Metadata has no part in the labels that a pool shows. -/
@[simp] theorem shownLabels?_mapInfo (o : Object) (f : Metadata → Metadata) :
    (o.mapInfo f).shownLabels? = o.shownLabels? := by
  cases o <;> rfl

/-- A change of the common status leaves what an object shows. -/
theorem Shows.mapStatus (h : o.Shows n labels) (f : Status → Status) : (o.mapStatus f).Shows n labels := by
  refine ⟨?_, ?_, ?_⟩
  · rw [info_mapStatus, h.finalizer]
  · rw [(o.sameRoute_mapStatus f).recorded, h.network]
  · rw [shownLabels?_mapStatus, h.labels]

/-- A change of the metadata leaves what an object shows as long as the finalizer stays. -/
theorem Shows.mapInfo (h : o.Shows n labels) {f : Metadata → Metadata}
    (hfinalizer : (f o.info).hasFinalizer finalizerName = true) : (o.mapInfo f).Shows n labels := by
  refine ⟨?_, ?_, ?_⟩
  · rw [info_mapInfo, hfinalizer]
  · rw [recorded?_mapInfo, h.network]
  · rw [shownLabels?_mapInfo, h.labels]

/-- Only a pool shows labels. -/
theorem Shows.exists_pool (h : o.Shows n labels) :
    ∃ p, o = pool p ∧ (pool p).recorded? = some n ∧ p.status.labels = labels := by
  cases o with
  | pool p => exact ⟨p, rfl, h.network, Option.some.inj h.labels⟩
  | tenant _ => cases h.labels
  | scope _ => cases h.labels
  | claim _ => cases h.labels

/-- A pool that was not relabelled since it was declared shows its own labels. -/
theorem shownLabels?_of_not_relabelled (hkind : o.kind = .pool) (hnamed : o.named? = some n)
    (h : ¬ o.Relabelled) : o.shownLabels? = o.ownLabels? := by
  cases o with
  | pool p =>
    have hparse := Except.toOption_eq_some_iff.1 hnamed
    rw [Pool.relabelled_iff hparse, not_not] at h
    show some p.status.labels = (Network.parse p.spec.network).toOption.map _
    rw [h, hparse]
    rfl
  | tenant _ => cases hkind
  | scope _ => cases hkind
  | claim _ => cases hkind

/-- A pool that obtains its network leaves no other route of those that it can show, and this one with its own
labels. -/
theorem Obtained.only_route (h : o.Obtained store key index n index') (hkind : o.kind = .pool)
    (hcanonical : n.IsCanonical)
    (hshown : ∀ labels, index.routes.get? m = some labels → o.Shows m labels)
    (hget : index'.routes.get? m = some labels) : m = n ∧ o.ownLabels? = some labels := by
  cases h with
  | allocated hclaim _ _ _ _ =>
    subst hclaim
    cases hkind
  | @declared _ own cleared _ hnamed hlabels hcleared hdeclare =>
    obtain ⟨hself, hothers⟩ := RouteIndex.get?_of_declare hcanonical hdeclare
    -- What is left after the stale route was taken back is the network itself, under unedited labels.
    have hleft : ∀ labels, cleared.routes.get? m = some labels → m = n ∧ o.ownLabels? = some labels := by
      intro labels hleft
      have hshows := hshown labels (hcleared.get?_of_get? hleft)
      cases hcleared with
      | unchanged hrecord =>
        obtain ⟨rfl, hkept⟩ := hrecord m hshows.network
        exact ⟨rfl, (shownLabels?_of_not_relabelled hkind hnamed hkept).symm.trans hshows.labels⟩
      | takenBack hrecord _ hroutes =>
        obtain rfl := Option.some.inj (hshows.network.symm.trans hrecord)
        rw [(RouteIndex.get?_of_erase hroutes).1] at hleft
        cases hleft
    by_cases hm : m = n
    · subst hm
      rw [hself] at hget
      cases hleft' : cleared.routes.get? m with
      | none =>
        rw [hleft'] at hget
        exact ⟨rfl, hlabels.trans hget⟩
      | some labels' =>
        rw [hleft'] at hget
        exact hleft _ (hleft'.trans hget)
    · rw [hothers m hm] at hget
      exact hleft labels hget

/-- A pool obtains no network but the one that it names. -/
theorem Obtained.named?_of_pool (h : o.Obtained store key index n index') (hkind : o.kind = .pool) :
    o.named? = some n := by
  cases h with
  | declared hnamed _ _ _ => exact hnamed
  | allocated hclaim _ _ _ _ =>
    subst hclaim
    cases hkind

/-- Passes do not edit what a specification names. -/
theorem Tended.named? (h : o.Tended o') : o'.named? = o.named? := by
  have hbody : ∀ {o o' : Object}, o.SameBody o' → o'.named? = o.named? := by
    rintro _ _ ⟨⟩ <;> rfl
  rcases h with h | h
  · exact hbody h
  · exact (hbody h).trans (o.sameRoute_marked finalizerName).named

end Object

/-- When the effect of a pool is undone, the network that it recorded has no route. -/
theorem Pool.labelsAt_undo {pool : Pool} {indexes indexes' : ScopeIndexes} {key : ObjectKey} {n : Network}
    (h : pool.undo indexes = .ok indexes') (hhome : (Object.pool pool).id.home? = some key)
    (hrecord : (Object.pool pool).recorded? = some n) : indexes'.labelsAt key n = none := by
  obtain ⟨key', hkey, h⟩ := Except.bind_eq_ok_iff.1 h
  obtain rfl := Option.some.inj ((home?_eq_some_iff.2 hkey).symm.trans hhome)
  obtain ⟨raw, hdeclared, hraw⟩ := Option.bind_eq_some_iff.1 hrecord
  have hraw := Except.toOption_eq_some_iff.1 hraw
  rw [hdeclared, Option.getD_some] at h
  obtain ⟨m, hparse, ⟨hindex, rfl⟩ | ⟨index, index', -, hroutes, rfl⟩⟩ := ScopeIndexes.retract_eq_ok_iff.1 h
  · unfold ScopeIndexes.labelsAt
    rw [hindex]
    rfl
  · obtain rfl := Except.ok.inj (hraw.symm.trans hparse)
    rw [Network.parse_isCanonical hparse] at hroutes
    rw [ScopeIndexes.labelsAt_insert_self]
    exact (RouteIndex.get?_of_erase hroutes).1

/-! ## Writes of clients -/

/-- A write leaves the status of an object to the registry, and the registry's finalizer on it. -/
def Write.Respects (id : ObjectId) : Write → Prop
  | .note o => o.id ≠ id
  | .unmark id' finalizer => id' = id → finalizer ≠ finalizerName
  | .create _ | .update _ | .delete _ | .mark _ _ => True

instance (id : ObjectId) : DecidablePred (Write.Respects id)
  | .note o => inferInstanceAs (Decidable (o.id ≠ id))
  | .unmark id' finalizer => inferInstanceAs (Decidable (id' = id → finalizer ≠ finalizerName))
  | .create _ | .update _ | .delete _ | .mark _ _ => isTrue trivial

/-- Such a write does not change what an object shows. -/
theorem Write.Turns.shows {w : Write} {o : Object} {place : Option Object} {n : Network} {labels : Labels}
    (h : w.Turns (some o) place) (hrespects : w.Respects w.id) (hshows : o.Shows n labels) :
    ∃ o', place = some o' ∧ o'.Shows n labels := by
  have hfinalizer := List.any_eq_true.1 hshows.finalizer
  obtain ⟨f, hf, heq⟩ := hfinalizer
  obtain rfl := eq_of_beq heq
  cases h with
  | same => exact ⟨o, rfl, hshows⟩
  | updated _ hspec _ =>
    refine ⟨_, rfl, ?_⟩
    cases hspec <;> exact ⟨hshows.finalizer, hshows.network, hshows.labels⟩
  | noted _ _ => exact absurd rfl hrespects
  | condemned _ _ => exact ⟨_, rfl, hshows.mapInfo hshows.finalizer⟩
  | deleted _ hfree =>
    rw [hfree] at hf
    cases hf
  | marked _ f' _ =>
    refine ⟨_, rfl, hshows.mapInfo (List.any_eq_true.2 ⟨_, ?_, heq⟩)⟩
    exact List.mem_append_left _ hf
  | unmarked _ f' _ =>
    refine ⟨_, rfl, hshows.mapInfo (List.any_eq_true.2 ⟨_, ?_, heq⟩)⟩
    exact List.mem_filter.2 ⟨hf, bne_iff_ne.2 (hrespects rfl).symm⟩
  | released _ _ hlast => exact absurd (hlast _ hf).symm (hrespects rfl)

/-- A write of a client, also a refused one, leaves what an object shows. -/
theorem Store.shows_accept {s : Store} {w : Write} {id : ObjectId} {o : Object} {n : Network}
    {labels : Labels} (hrespects : w.Respects id) (hget : s.get? id = some o) (hshows : o.Shows n labels) :
    ∃ o', (s.accept w).get? id = some o' ∧ o'.Shows n labels := by
  rw [← obey_eq_accept]
  by_cases hid : id = w.id
  · subst hid
    have hturns := s.turns_obey w
    rw [hget] at hturns
    exact hturns.shows hrespects hshows
  · rw [s.get?_obey_of_ne hid]
    exact ⟨o, hget, hshows⟩

namespace Controller

variable {c c' : Controller} {id other : ObjectId} {key : ObjectKey} {o o' : Object} {n m : Network}
variable {labels : Labels} {outcome : Outcome} {happening : Happening} {happenings : List Happening}

/-! ## Passes -/

/-- A route of the network is one that the stored object shows. -/
def Accounted (c : Controller) (id : ObjectId) (key : ObjectKey) (n : Network) : Prop :=
  ∀ labels, c.indexes.labelsAt key n = some labels →
    ∃ o, c.access.store.get? id = some o ∧ o.Shows n labels

/-- How a pass over a pool ends, and which routes there are then of the networks that were accounted for. -/
inductive PoolPass (c : Controller) (id : ObjectId) (key : ObjectKey) : Outcome → Controller → Prop
  /-- The pool goes on showing what it showed, and no route changes. -/
  | stuck {outcome : Outcome} {c' : Controller} {o o' : Object} (hready : outcome.ready = false)
    (hend : outcome ≠ .removed) (hget : c.access.store.get? id = some o)
    (hget' : c'.access.store.get? id = some o')
    (hshows : ∀ n labels, o.Shows n labels → o'.Shows n labels) (hindexes : c'.indexes = c.indexes) :
    PoolPass c id key outcome c'
  /-- The network that the pool names has a route that the pool shows, and no other one has. -/
  | declared {outcome : Outcome} {c' : Controller} {o o' : Object} {m : Network} {own : Labels}
    (hend : outcome ≠ .removed) (hget : c.access.store.get? id = some o) (hnamed : o.named? = some m)
    (hget' : c'.access.store.get? id = some o') (hnamed' : o'.named? = some m)
    (hown : o'.ownLabels? = some own) (hshows : o'.Shows m own)
    (hroute : ∃ labels, c'.indexes.labelsAt key m = some labels)
    (honly : ∀ n labels, c.Accounted id key n → c'.indexes.labelsAt key n = some labels →
      n = m ∧ labels = own) : PoolPass c id key outcome c'
  /-- There is no such pool, or its effect is undone. -/
  | withdrawn {c' : Controller}
    (hroutes : ∀ n, c.Accounted id key n → c'.indexes.labelsAt key n = none) :
    PoolPass c id key .removed c'

/-- What a pool shows after its evaluation: its own labels if it was found ready, and what it showed before
otherwise. -/
theorem shownLabels?_of_evaluate (hrules : c.access.rules = []) (hkind : o.kind = .pool) {v : Verdict}
    (h : c.evaluate o = (some v, o', c')) :
    v.isReady = true ∧ o'.shownLabels? = o.ownLabels? ∨
      v.isReady = false ∧ o'.recorded? = o.recorded? ∧ o'.shownLabels? = o.shownLabels? ∧
        c'.indexes = c.indexes := by
  have hplaced : ∀ name, (o.placed name).recorded? = o.recorded? ∧
      (o.placed name).shownLabels? = o.shownLabels? :=
    fun name => ⟨(o.sameRoute_mapStatus _).recorded, o.shownLabels?_mapStatus _⟩
  cases hname : ResourceName.parse o.kind o.info.name with
  | error e =>
    rw [evaluate_of_parse_error hname] at h
    cases h
    exact Or.inr ⟨rfl, rfl, rfl, rfl⟩
  | ok name =>
    obtain ⟨hrecord, hshown⟩ := hplaced name
    cases hparent : c.checkParent (o.placed name) with
    | error f =>
      obtain ⟨e, rfl⟩ := checkParent_eq_error hrules hparent
      rw [evaluate_of_checkParent_error hname hparent] at h
      cases h
      exact Or.inr ⟨rfl, hrecord, hshown, rfl⟩
    | ok _ =>
      rcases apply_outcome hrules hparent with ⟨e, happly⟩ | ⟨o₁, c₁, happly, -⟩
      · rw [evaluate_of_checkParent hname hparent, happly] at h
        cases h
        exact Or.inr ⟨rfl, hrecord, hshown, rfl⟩
      · rw [evaluate_of_checkParent hname hparent, happly] at h
        cases h
        refine Or.inl ⟨rfl, ?_⟩
        cases o with
        | pool p =>
          obtain ⟨p', indexes', hpool, rfl, rfl⟩ := apply_pool_eq_ok_iff.1 happly
          obtain ⟨_, pool₁, _, n, index', -, hstale, hdeclare, -, rfl⟩ := Pool.apply_eq_ok_iff.1 hpool
          obtain ⟨declared, rfl⟩ := Pool.retractStale_status hstale
          have hparse : Network.parse p.spec.network = .ok n := (ScopeIndexes.declare_eq_ok_iff.1 hdeclare).1
          show some (declarationLabels p.spec.labels n) = (Network.parse p.spec.network).toOption.map _
          rw [hparse]
          rfl
        | tenant _ => cases hkind
        | scope _ => cases hkind
        | claim _ => cases hkind

/-- What a pool that is to stay shows after a pass. -/
theorem Sound.shown_of_pass (h : c.Sound) (hget : c.access.store.get? id = some o)
    (hlive : o.info.deletionRequested = false) (hkind : o.kind = .pool)
    (hpass : c.reconcile id = (.ok outcome, c')) :
    outcome ≠ .removed ∧ ∃ o', c'.access.store.get? id = some o' ∧
      o'.info.hasFinalizer finalizerName = true ∧
        (outcome.ready = true ∧ o'.shownLabels? = o.ownLabels? ∨
          outcome.ready = false ∧ o'.recorded? = o.recorded? ∧ o'.shownLabels? = o.shownLabels? ∧
            c'.indexes = c.indexes) := by
  obtain ⟨before, after, c₁, c₂, v, hbefore, hfinalizer, hstores, hevaluate, hbody, haccess, hmaintain⟩ :=
    maintain_eq_report h.rules hget
  have hid : before.id = id := (kept_of_ensureFinalizer hbefore).1.trans (h.keyed id o hget)
  have hget₂ : c₂.access.store.get? id = some before := by rw [haccess, hstores.get?_self]
  have hrules₂ : c₂.access.rules = [] := by rw [haccess, hstores.rules]
  have hstores₂ := stores_report hrules₂ hget₂ hid hbody v
  have hroute : o.SameRoute before ∧ before.shownLabels? = o.shownLabels? ∧ before.kind = .pool := by
    rcases hbefore with rfl | rfl
    · exact ⟨.refl _, rfl, hkind⟩
    · exact ⟨o.sameRoute_marked _, o.shownLabels?_mapInfo _, by rw [Store.marked, Object.kind_mapInfo, hkind]⟩
  rw [h.reconcile_of_live hget hlive, hmaintain] at hpass
  rw [hpass] at hstores₂
  have hanswer : outcome.ready = v.isReady ∧ outcome ≠ .removed := by
    rw [report_eq hrules₂ hget₂ hid hbody v] at hpass
    cases hpass
    exact ⟨rfl, fun hend => Option.some_ne_none _ (congrArg Outcome.requeueAfter hend)⟩
  refine ⟨hanswer.2, _, hstores₂.get?_self, ?_, ?_⟩
  · rw [reported_eq, Object.info_mapStatus, hbody.info_eq, hfinalizer]
  · rw [reported_eq, Object.shownLabels?_mapStatus, (after.sameRoute_mapStatus _).recorded,
      ← hroute.1.labels, ← hroute.1.recorded, ← hroute.2.1, hstores₂.indexes, ← hstores.indexes, hanswer.1]
    exact shownLabels?_of_evaluate hstores.rules hroute.2.2 hevaluate

/-- A pass that finishes an object ends with the report that it is removed. -/
theorem outcome_of_finish (h : c.finish id o = (.ok outcome, c')) : outcome = .removed := by
  unfold finish at h
  split at h
  · cases h
  · dsimp only at h
    split at h <;> cases h
    rfl

/-- A pass over a pool that is to be deleted. -/
theorem Sound.poolPass_of_deleted (h : c.Sound) (hget : c.access.store.get? id = some o)
    (hdeletion : o.info.deletionRequested = true) (hhome : id.home? = some key)
    (hpass : c.reconcile id = (.ok outcome, c')) : c.PoolPass id key outcome c' := by
  have hid := h.keyed id o hget
  rw [h.reconcile_of_deleted hget hdeletion] at hpass
  cases hundo : c.undo o with
  | error f =>
    obtain ⟨e, rfl⟩ := undo_eq_error h.rules hundo
    unfold finalize at hpass
    rw [hundo] at hpass
    dsimp only at hpass
    rw [postpone_eq h.rules hget hid e] at hpass
    cases hpass
    obtain ⟨f, hstores⟩ := c.stores_postponed h.rules hid e
    exact .stuck rfl nofun hget hstores.get?_self (fun n labels hshows => hshows.mapStatus f) hstores.indexes
  | ok c₁ =>
    have hfinish : c.finalize id o = c₁.finish id o := by
      unfold finalize
      rw [hundo]
    obtain rfl : outcome = .removed := outcome_of_finish (hfinish.symm.trans hpass)
    have hindexes : c'.indexes = c₁.indexes := by
      rw [← indexes_finish c₁ id o, ← hfinish, hpass]
    refine .withdrawn fun n haccounted => ?_
    cases hafter : c'.indexes.labelsAt key n with
    | none => rfl
    | some labels =>
      -- A route that is left would have been there before, and so the pool would have recorded it.
      have hbefore : c.indexes.labelsAt key n = some labels := by
        obtain ⟨outcome', c'', hpass', -, houtcome⟩ := h.pass id
        rw [h.reconcile_of_deleted hget hdeletion, hpass] at hpass'
        cases hpass'
        rcases houtcome.labelsAt_cases hafter with hbefore | ⟨hready, -⟩
        · exact hbefore
        · cases hready
      obtain ⟨o₀, hget₀, hshows⟩ := haccounted labels hbefore
      obtain rfl := Option.some.inj (hget.symm.trans hget₀)
      obtain ⟨p, rfl, hrecord, -⟩ := hshows.exists_pool
      obtain ⟨indexes', hundone, rfl⟩ := Except.map_eq_ok_iff.1 hundo
      rw [hindexes, Pool.labelsAt_undo (Failure.lift_eq_ok_iff.1 hundone) (hid.symm ▸ hhome) hrecord] at hafter
      cases hafter

/-- A pool that a pass found ready obtained a network. -/
theorem PassOutcome.exists_obtained {objects' : SortedMap ObjectId Object} {indexes' : ScopeIndexes}
    (h : c.PassOutcome id true objects' indexes') (hget : c.access.store.get? id = some o)
    (hkind : o.kind = .pool) (hhome : id.home? = some key) (hget' : objects'.get? id = some o') :
    ∃ m index index', c.indexes.get? key = some index ∧ m.IsCanonical ∧ o.Tended o' ∧
      o'.recorded? = some m ∧ o.Obtained c.access.store key index m index' ∧
        indexes' = c.indexes.insert key index' := by
  cases h with
  | kept hget₀ _ _ hready _ =>
    obtain rfl := Option.some.inj (hget.symm.trans hget₀)
    rcases hready rfl with h | h <;> cases hkind.symm.trans h
  | obtained hget₀ htended hhome₀ hindex hcanonical hrecord hobtained =>
    obtain rfl := Option.some.inj (hget.symm.trans hget₀)
    obtain rfl := Option.some.inj (hhome.symm.trans hhome₀)
    obtain rfl := Option.some.inj ((SortedMap.get?_insert_self _ _ _).symm.trans hget')
    exact ⟨_, _, _, hindex, hcanonical, htended, hrecord, hobtained, rfl⟩

/-- What a pass over a pool comes to. -/
theorem Sound.poolPass (h : c.Sound) (hkind : id.kind = .pool) (hhome : id.home? = some key)
    (hpass : c.reconcile id = (.ok outcome, c')) : c.PoolPass id key outcome c' := by
  obtain ⟨outcome', c'', hpass', -, houtcome⟩ := h.pass id
  cases hpass.symm.trans hpass'
  cases hget : c.access.store.get? id with
  | none =>
    rw [h.reconcile_of_absent hget] at hpass
    cases hpass
    refine .withdrawn fun n haccounted => ?_
    cases hlabels : c.indexes.labelsAt key n with
    | none => rfl
    | some labels =>
      obtain ⟨o, hget', -⟩ := haccounted labels hlabels
      cases hget.symm.trans hget'
  | some o =>
    cases hlive : o.info.deletionRequested with
    | true => exact h.poolPass_of_deleted hget hlive hhome hpass
    | false =>
      have hkind : o.kind = .pool := (h.keyed.kind_eq hget).trans hkind
      obtain ⟨hend, o', hget', hfinalizer, ⟨hready, hshown⟩ | ⟨hready, hrecord, hshown, hindexes⟩⟩ :=
        h.shown_of_pass hget hlive hkind hpass
      · rw [hready] at houtcome
        obtain ⟨m, index, index', hindex, hcanonical, htended, hrecord, hobtained, hindexes⟩ :=
          houtcome.exists_obtained hget hkind hhome hget'
        obtain ⟨own, labels, hown, hroute, -⟩ := hobtained.exists_route hcanonical
        have hnamed : o.named? = some m := hobtained.named?_of_pool hkind
        rw [← htended.ownLabels?] at hown hshown
        refine .declared hend hget hnamed hget' (htended.named?.trans hnamed) hown
          ⟨hfinalizer, hrecord, hshown.trans hown⟩ ⟨labels, ?_⟩ fun n labels haccounted hlabels => ?_
        · rw [hindexes, ScopeIndexes.labelsAt_insert_self, hroute]
        -- whatever route the pool shows afterwards is the one declared now: a stale one was taken back
        · have hshows : ∀ labels, index.routes.get? n = some labels → o.Shows n labels := by
            intro labels hlabels
            obtain ⟨o₀, hget₀, hshows⟩ := haccounted labels
              ((ScopeIndexes.labelsAt_of_get? hindex n).trans hlabels)
            obtain rfl := Option.some.inj (hget.symm.trans hget₀)
            exact hshows
          rw [hindexes, ScopeIndexes.labelsAt_insert_self] at hlabels
          obtain ⟨rfl, hlabels⟩ := hobtained.only_route hkind hcanonical hshows hlabels
          rw [← htended.ownLabels?, hown] at hlabels
          exact ⟨rfl, (Option.some.inj hlabels).symm⟩
      · refine .stuck hready hend hget hget' (fun n labels hshows => ⟨hfinalizer, ?_, ?_⟩) hindexes
        · rw [hrecord, hshows.network]
        · rw [hshown, hshows.labels]

end Controller

/-! ## Courses -/

/-- What happens leaves the status of an object to the registry, and the registry's finalizer on it, and no
call of the store fails. -/
def Happening.Respects (id : ObjectId) : Happening → Prop
  | .write w => w.Respects id
  | .faults rules => rules = []
  | .operate _ | .reconcile _ | .restart _ => True

instance (id : ObjectId) : DecidablePred (Happening.Respects id)
  | .write w => inferInstanceAs (Decidable (w.Respects id))
  | .faults rules => inferInstanceAs (Decidable (rules = []))
  | .operate _ | .reconcile _ | .restart _ => isTrue trivial

/-- A network of a scope is left to one object: no call of allocator or gateway inserts a route of it, and no
pass finds another pool or claim of the scope ready with this network. -/
def Happening.LeavesTo (id : ObjectId) (key : ObjectKey) (n : Network) (c : Controller) : Happening → Prop
  | .operate op => (c.operate op).indexes.labelsAt key n = none ∨
      (c.operate op).indexes.labelsAt key n = c.indexes.labelsAt key n
  | .reconcile other => other ≠ id → other.home? = some key →
      (c.reconcile other).1.toOption.map (·.ready) = some true →
        ((c.reconcile other).2.access.store.get? other).bind Object.recorded? ≠ some n
  | .write _ | .faults _ | .restart _ => True

instance (id : ObjectId) (key : ObjectKey) (n : Network) (c : Controller) :
    DecidablePred (Happening.LeavesTo id key n c)
  | .operate op => inferInstanceAs (Decidable ((c.operate op).indexes.labelsAt key n = none ∨
      (c.operate op).indexes.labelsAt key n = c.indexes.labelsAt key n))
  | .reconcile other => inferInstanceAs (Decidable (other ≠ id → other.home? = some key →
      (c.reconcile other).1.toOption.map (·.ready) = some true →
        ((c.reconcile other).2.access.store.get? other).bind Object.recorded? ≠ some n))
  | .write _ | .faults _ | .restart _ => isTrue trivial

namespace Controller

variable {c c' : Controller} {id : ObjectId} {key : ObjectKey} {n : Network}
variable {happening : Happening} {happenings : List Happening}

/-- The network is left to one object whatever happens in a course. -/
def LeftTo (id : ObjectId) (key : ObjectKey) (n : Network) : Controller → List Happening → Prop
  | _, [] => True
  | c, happening :: rest => happening.LeavesTo id key n c ∧ LeftTo id key n (c.undergo happening) rest

instance decidableLeftTo (id : ObjectId) (key : ObjectKey) (n : Network) :
    (c : Controller) → (happenings : List Happening) → Decidable (LeftTo id key n c happenings)
  | _, [] => isTrue trivial
  | c, happening :: rest =>
    have := decidableLeftTo id key n (c.undergo happening) rest
    inferInstanceAs (Decidable (happening.LeavesTo id key n c ∧ _))

/-- The networks that the specification of an object names in the course of time. -/
def namedDuring (id : ObjectId) : Controller → List Happening → List Network
  | c, [] => ((c.access.store.get? id).bind Object.named?).toList
  | c, happening :: rest =>
    ((c.access.store.get? id).bind Object.named?).toList ++ namedDuring id (c.undergo happening) rest

/-- What the specification names at the end of a course was named during it. -/
theorem mem_namedDuring (happenings : List Happening)
    (h : ((c.course happenings).access.store.get? id).bind Object.named? = some n) :
    n ∈ namedDuring id c happenings := by
  induction happenings generalizing c with
  | nil => exact Option.mem_toList.2 h
  | cons happening rest ih => exact List.mem_append_right _ (ih h)

/-- Where no call of the store fails, a sound controller stays sound whatever happens. -/
theorem Sound.undergo (h : c.Sound) (hrespects : happening.Respects id) : (c.undergo happening).Sound := by
  cases happening with
  | write w => exact ⟨h.rules, h.keyed.accept w⟩
  | faults rules =>
    cases hrespects
    exact ⟨rfl, h.keyed⟩
  | operate op =>
    obtain ⟨hrules, hstore, -, -⟩ := c.operate_yields op
    refine ⟨hrules.trans h.rules, ?_⟩
    rw [show (c.undergo (.operate op)).access.store = _ from hstore]
    exact h.keyed
  | reconcile id => exact h.act (.reconcile id)
  | restart policy => exact ⟨h.rules, h.keyed⟩

/-- A network that is accounted for and left to the pool stays so in a pass. -/
theorem Accounted.reconcile (h : c.Accounted id key n) (hsound : c.Sound) (hkind : id.kind = .pool)
    (hhome : id.home? = some key) {other : ObjectId}
    (hleft : Happening.LeavesTo id key n c (.reconcile other)) :
    (c.reconcile other).2.Accounted id key n := by
  intro labels hlabels
  obtain ⟨outcome, c', hpass, -, houtcome⟩ := hsound.pass other
  by_cases hother : other = id
  · subst hother
    have hpool := hsound.poolPass hkind hhome hpass
    rw [hpass] at hlabels ⊢
    cases hpool with
    | stuck _ _ hget hget' hshows hindexes =>
      rw [hindexes] at hlabels
      obtain ⟨o, hget₀, hshown⟩ := h labels hlabels
      obtain rfl := Option.some.inj (hget.symm.trans hget₀)
      exact ⟨_, hget', hshows n labels hshown⟩
    | declared _ _ _ hget' _ _ hshows _ honly =>
      obtain ⟨rfl, rfl⟩ := honly n labels h hlabels
      exact ⟨_, hget', hshows⟩
    | withdrawn hroutes => cases (hroutes n h).symm.trans hlabels
  · rw [hsound.get?_reconcile_of_ne (Ne.symm hother)]
    refine h labels ?_
    have hleft := hleft hother
    rw [hpass] at hlabels hleft
    rcases houtcome.labelsAt_cases hlabels with
      hbefore | ⟨hready, _, o', _, _, -, hget', hhome', -, hrecord, -⟩
    · exact hbefore
    · refine absurd ?_ (hleft hhome' (congrArg some hready))
      exact Option.bind_eq_some_iff.2 ⟨o', hget', hrecord⟩

/-- Whatever happens, a network that is accounted for and left to the pool stays so. Only passes and calls
of allocator or gateway touch routes, and no client can change what the pool shows. -/
theorem Accounted.undergo (h : c.Accounted id key n) (hsound : c.Sound) (hkind : id.kind = .pool)
    (hhome : id.home? = some key) (hrespects : happening.Respects id)
    (hleft : happening.LeavesTo id key n c) : (c.undergo happening).Accounted id key n := by
  cases happening with
  | write w =>
    intro labels hlabels
    obtain ⟨o, hget, hshows⟩ := h labels hlabels
    exact Store.shows_accept hrespects hget hshows
  | faults rules => exact h
  | operate op =>
    intro labels hlabels
    obtain ⟨-, hstore, -, -⟩ := c.operate_yields op
    rw [show (c.undergo (.operate op)).access.store = _ from hstore]
    rcases hleft with hnone | hsame
    · cases hnone.symm.trans hlabels
    · exact h labels (hsame.symm.trans hlabels)
  | reconcile other => exact h.reconcile hsound hkind hhome hleft
  | restart policy => exact fun labels hlabels => nomatch hlabels

/-- Along a course a network that is left to the pool has no route but the one that the pool shows. -/
theorem Accounted.course (h : c.Accounted id key n) (hsound : c.Sound) (hkind : id.kind = .pool)
    (hhome : id.home? = some key) (hrespects : ∀ happening ∈ happenings, happening.Respects id)
    (hleft : LeftTo id key n c happenings) : (c.course happenings).Accounted id key n := by
  induction happenings generalizing c with
  | nil => exact h
  | cons happening rest ih =>
    obtain ⟨hfirst, hrest⟩ := List.forall_mem_cons.1 hrespects
    exact ih (h.undergo hsound hkind hhome hfirst hleft.1) (hsound.undergo hfirst) hrest hleft.2

/-- Where no call of the store fails, a controller stays sound along a course. -/
theorem Sound.course (h : c.Sound) (hrespects : ∀ happening ∈ happenings, happening.Respects id) :
    (c.course happenings).Sound := by
  induction happenings generalizing c with
  | nil => exact h
  | cons happening rest ih =>
    obtain ⟨hfirst, hrest⟩ := List.forall_mem_cons.1 hrespects
    exact ih (h.undergo hfirst) hrest

/-- **A pool has one route.** Take a course without faults in which nobody but the registry writes the pool's
status or takes the registry's finalizer off the pool, and in which the networks that the pool's specification
names in the course of time are left to the pool. At every moment a route of one of these networks is the one
that the pool shows. After a pass over the pool that ends ready, the network of the specification has a route,
with the labels of the specification and the address family, and no other one of these networks has. After a
pass that finds the pool gone or finalizes it, none of them has. -/
theorem pool_owns_one_route (policy : RetryPolicy) (hkind : id.kind = .pool) (hhome : id.home? = some key)
    (hrespects : ∀ happening ∈ happenings, happening.Respects id)
    (hleft : ∀ n ∈ namedDuring id (fresh policy) happenings, LeftTo id key n (fresh policy) happenings) :
    (∀ n ∈ namedDuring id (fresh policy) happenings, ∀ labels,
      ((fresh policy).course happenings).indexes.labelsAt key n = some labels →
        ∃ pool, ((fresh policy).course happenings).access.store.get? id = some (.pool pool) ∧
          (Object.pool pool).recorded? = some n ∧ pool.status.labels = labels) ∧
    ∀ outcome c', ((fresh policy).course happenings).reconcile id = (.ok outcome, c') →
      (outcome.ready = true → ∃ pool n, c'.access.store.get? id = some (.pool pool) ∧
        Network.parse pool.spec.network = .ok n ∧
          c'.indexes.labelsAt key n = some (declarationLabels pool.spec.labels n) ∧
            ∀ m ∈ namedDuring id (fresh policy) happenings, m ≠ n → c'.indexes.labelsAt key m = none) ∧
      (outcome = .removed →
        ∀ n ∈ namedDuring id (fresh policy) happenings, c'.indexes.labelsAt key n = none) := by
  have hsound := (sound_fresh policy).course hrespects
  have haccounted : ∀ n ∈ namedDuring id (fresh policy) happenings,
      ((fresh policy).course happenings).Accounted id key n := by
    intro n hn
    have hfresh : (fresh policy).Accounted id key n := fun labels hlabels => nomatch hlabels
    exact hfresh.course (sound_fresh policy) hkind hhome hrespects (hleft n hn)
  refine ⟨fun n hn labels hlabels => ?_, fun outcome c' hpass => ⟨fun hready => ?_, fun hend => ?_⟩⟩
  · obtain ⟨o, hget, hshows⟩ := haccounted n hn labels hlabels
    obtain ⟨pool, rfl, hrecord, hshown⟩ := hshows.exists_pool
    exact ⟨pool, hget, hrecord, hshown⟩
  · cases hsound.poolPass hkind hhome hpass with
    | stuck hnot _ _ _ _ _ => cases hready.symm.trans hnot
    | withdrawn _ => cases hready
    | @declared _ _ o o' n own _ hget hnamed hget' hnamed' hown hshows hroute honly =>
      obtain ⟨pool, rfl, -, -⟩ := hshows.exists_pool
      have hparse := Except.toOption_eq_some_iff.1 hnamed'
      have hmem : n ∈ namedDuring id (fresh policy) happenings :=
        mem_namedDuring happenings (Option.bind_eq_some_iff.2 ⟨o, hget, hnamed⟩)
      obtain ⟨labels, hlabels⟩ := hroute
      obtain ⟨-, rfl⟩ := honly n labels (haccounted n hmem) hlabels
      refine ⟨pool, n, hget', hparse, ?_, fun m hm hne => ?_⟩
      · have hlabels' : (Network.parse pool.spec.network).toOption.map (declarationLabels pool.spec.labels)
            = some labels := hown
        rw [hparse] at hlabels'
        rw [hlabels, ← hlabels']
        rfl
      · cases hother : c'.indexes.labelsAt key m with
        | none => rfl
        | some labels' => exact absurd (honly m labels' (haccounted m hm) hother).1 hne
  · subst hend
    cases hsound.poolPass hkind hhome hpass with
    | stuck _ hnot _ _ _ _ => exact absurd rfl hnot
    | declared hnot _ _ _ _ _ _ _ _ => exact absurd rfl hnot
    | withdrawn hroutes => exact fun n hn => hroutes n (haccounted n hn)

end Controller

/-! ## A pool that is edited

The pool of the sample registry is declared, the registry starts anew and declares it again. Then the pool is
given another network, badly written at first, and other labels, while its scope is disabled. -/

namespace Lab

/-- The pool with another network and purpose. -/
def repooled (network purpose : String) : Object :=
  .newPool poolId.key.space poolId.key.name ⟨network, true, .ofList [(Labels.purposeKey, purpose)], none⟩

/-- The sample scope, to be used or not. -/
def rescoped (adminState : AdminState) : Object :=
  .newScope Sample.key.space Sample.key.name { Sample.spec with adminState }

def moving : List Happening :=
  [.write (.create (.newTenant "default" "acme" .fresh)), .write (.create (rescoped .enable)),
    .write (.create pool), .reconcile tenantId, .reconcile scopeId, .reconcile poolId,
    .restart policy, .reconcile scopeId, .reconcile poolId,
    .write (.create (dynamic edgeId (site "west"))), .reconcile edgeId,
    .write (.update (rescoped .disable)), .reconcile scopeId,
    .write (.update (repooled "10.0.1.0/99" "transit")), .reconcile poolId,
    .write (.update (repooled " 10.0.1.3/30 " "transit")), .reconcile poolId,
    .write (.update (rescoped .enable)), .reconcile scopeId]

def leaving : List Happening := moving ++ [.reconcile poolId, .write (.delete poolId)]

/-- The network `10.0.1.0/30`. -/
def movedNetwork : Network := ⟨.ipv4, 0x0a000100, 30, by decide, Sample.network.length_le⟩

end Lab

namespace Controller

/-- The next pass moves the route of the pool to its new network, and once the pool is deleted neither network
has a route. -/
theorem pool_owns_one_route_moved :
    (((fresh Lab.policy).course Lab.moving).indexes.labelsAt Sample.key Sample.network).isSome = true ∧
      (∃ outcome c' pool n, ((fresh Lab.policy).course Lab.moving).reconcile Lab.poolId = (.ok outcome, c') ∧
        c'.access.store.get? Lab.poolId = some (.pool pool) ∧ Network.parse pool.spec.network = .ok n ∧
          c'.indexes.labelsAt Sample.key n = some (declarationLabels pool.spec.labels n) ∧
            (Sample.network ≠ n → c'.indexes.labelsAt Sample.key Sample.network = none)) ∧
        ∃ c', ((fresh Lab.policy).course Lab.leaving).reconcile Lab.poolId = (.ok .removed, c') ∧
          c'.indexes.labelsAt Sample.key Sample.network = none ∧
            c'.indexes.labelsAt Sample.key Lab.movedNetwork = none := by
  have hconditions : ∀ happenings ∈ [Lab.moving, Lab.leaving],
      (∀ happening ∈ happenings, happening.Respects Lab.poolId) ∧
        (∀ n ∈ namedDuring Lab.poolId (fresh Lab.policy) happenings,
          n = Sample.network ∨ n = Lab.movedNetwork) ∧
        (∀ n ∈ [Sample.network, Lab.movedNetwork],
          n ∈ namedDuring Lab.poolId (fresh Lab.policy) happenings ∧
            LeftTo Lab.poolId Sample.key n (fresh Lab.policy) happenings) := by
    decide +kernel
  have hleft : ∀ happenings ∈ [Lab.moving, Lab.leaving],
      ∀ n ∈ namedDuring Lab.poolId (fresh Lab.policy) happenings,
        LeftTo Lab.poolId Sample.key n (fresh Lab.policy) happenings := by
    intro happenings hmem n hn
    obtain ⟨-, hnamed, hleft⟩ := hconditions happenings hmem
    rcases hnamed n hn with rfl | rfl
    · exact (hleft _ (by simp)).2
    · exact (hleft _ (by simp)).2
  have hmoving := hconditions Lab.moving (by simp)
  have hleaving := hconditions Lab.leaving (by simp)
  obtain ⟨hbefore, hready, hremoved⟩ :
      (((fresh Lab.policy).course Lab.moving).indexes.labelsAt Sample.key Sample.network).isSome = true ∧
        (((fresh Lab.policy).course Lab.moving).reconcile Lab.poolId).1.toOption.map (·.ready) = some true ∧
          (((fresh Lab.policy).course Lab.leaving).reconcile Lab.poolId).1 = .ok .removed := by
    decide +kernel
  refine ⟨hbefore, ?_, ?_⟩
  · rcases hpass : ((fresh Lab.policy).course Lab.moving).reconcile Lab.poolId with ⟨_ | outcome, c'⟩
    · rw [hpass] at hready
      cases hready
    · rw [hpass] at hready
      obtain ⟨pool, n, hget, hparse, hroute, hothers⟩ := ((pool_owns_one_route Lab.policy rfl rfl hmoving.1
        (hleft _ (by simp))).2 outcome c' hpass).1 (Option.some.inj hready)
      exact ⟨outcome, c', pool, n, rfl, hget, hparse, hroute,
        hothers _ (hmoving.2.2 _ (by simp)).1⟩
  · rcases hpass : ((fresh Lab.policy).course Lab.leaving).reconcile Lab.poolId with ⟨result, c'⟩
    rw [hpass] at hremoved
    obtain rfl : result = .ok .removed := hremoved
    have hnone := ((pool_owns_one_route Lab.policy rfl rfl hleaving.1 (hleft _ (by simp))).2 _ c' hpass).2 rfl
    exact ⟨c', rfl, hnone _ (hleaving.2.2 _ (by simp)).1, hnone _ (hleaving.2.2 _ (by simp)).1⟩

end Controller

end AddressRegistry
