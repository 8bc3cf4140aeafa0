import AddressRegistry.Proofs.Reconcile.Repeat
import AddressRegistry.Proofs.Reconcile.Separation

/-!
# What a claim holds

A claim holds a network if the network has a route that a pass over the claim inserted
(`Controller.Holds`). A pass over a claim that names its network gives up the earlier one, and so does the
pass that finalizes a claim (`Claim.labelsAt_undo`). A dynamic claim never gives one up: it looks for a
route with the labels that it is to have now and of the length that the scope gives now, and takes another
block if there is none. So after an edit of its selector or source tag, or of the scope's lengths, it holds
two networks and records one, and the other one stays when the claim is gone
(`Controller.edited_claim_leaks`).

In a history in which a dynamic claim always finds its route again (`Controller.Faithful`), a claim holds
no network but the one that it records, and none once its finalizer is off
(`Controller.records_of_holds`).
-/

namespace AddressRegistry

/-- The specification of the scope with a key. -/
def Store.scopeSpec? (s : Store) (key : ObjectKey) : Option ScopeSpec :=
  (s.get? ⟨.scope, key⟩).bind Object.scopeSpec?

/-! ## The routes that an object may insert -/

namespace Object

/-- The length that a scope gives for what the selector of a claim asks for. -/
def askedLength? (spec : ScopeSpec) : Object → Option Nat
  | tenant _ | scope _ | pool _ => none
  | claim c =>
    (c.spec.selector.get? Labels.purposeKey).bind fun purpose =>
      (c.spec.selector.get? Labels.familyKey).bind fun family =>
        (Family.parse family).toOption.bind fun family => spec.lengthFor purpose family

/-- The length that a registration asks for is the one that its claim asks for. -/
theorem askedLength?_of_asks {c : Claim} {r : Registration} {spec : ScopeSpec} {length : Nat}
    (hregistration : c.registration = .ok r) (h : r.Asks spec length) :
    (claim c).askedLength? spec = some length := by
  obtain ⟨_, -, rfl⟩ := Claim.registration_eq_ok_iff.1 hregistration
  exact Registration.askedLength?_of_asks h

/-- Passes that tend an object leave the finalizers on it. -/
theorem Tended.hasFinalizer {o o' : Object} {finalizer : String} (h : o.Tended o')
    (hfinalizer : o.info.hasFinalizer finalizer = true) : o'.info.hasFinalizer finalizer = true := by
  rcases h with h | h
  · rw [h.info_eq, hfinalizer]
  · rw [h.info_eq, Store.marked, info_mapInfo]
    simp_all [Metadata.hasFinalizer]

/-- The object describes a route: with the object's own labels, and of the network that the object names or,
for a dynamic claim, of the length that it asks for. -/
structure Describes (spec? : Option ScopeSpec) (o : Object) (n : Network) (labels : Labels) : Prop where
  labels : o.ownLabels? = some labels
  network : o.named? = some n ∨ o.IsDynamic ∧ (spec?.bind fun spec => o.askedLength? spec) = some n.length

/-- An object that obtains a network inserts at most a route of this network, and one that it describes. -/
theorem Obtained.get?_cases {o : Object} {store : Store} {key : ObjectKey} {index index' : RouteIndex}
    {n m : Network} {labels : Labels} (h : o.Obtained store key index m index')
    (hcanonical : m.IsCanonical) (hget : index'.routes.get? n = some labels) :
    index.routes.get? n = some labels ∨ n = m ∧ o.Describes (store.scopeSpec? key) n labels := by
  cases h with
  | @declared _ own cleared _ hnamed hlabels hcleared hdeclare =>
    obtain ⟨hself, hothers⟩ := RouteIndex.get?_of_declare hcanonical hdeclare
    by_cases hne : n = m
    · subst hne
      rw [hself] at hget
      cases hpresent : cleared.routes.get? n with
      | some labels' =>
        rw [hpresent] at hget
        exact Or.inl (hcleared.get?_of_get? (hpresent.trans hget))
      | none =>
        rw [hpresent] at hget
        exact Or.inr ⟨rfl, hlabels.trans hget, Or.inl hnamed⟩
    · rw [hothers n hne] at hget
      exact Or.inl (hcleared.get?_of_get? hget)
  | allocated hclaim hregistration hdynamic hscope houtcome =>
    subst hclaim
    cases houtcome with
    | owned _ _ => exact Or.inl hget
    | inserted hasks _ _ _ hfree hadd =>
      obtain ⟨-, hself, hothers⟩ := RouteIndex.get?_of_add hfree.canonical hadd
      by_cases hne : n = m
      · subst hne
        refine Or.inr ⟨rfl, ?_, Or.inr ⟨?_, ?_⟩⟩
        · rw [Claim.ownLabels?_of_registration hregistration, ← hself, hget]
        · obtain ⟨_, -, rfl⟩ := Claim.registration_eq_ok_iff.1 hregistration
          exact hdynamic
        · unfold Store.scopeSpec?
          rw [hscope]
          exact askedLength?_of_asks hregistration hasks
      · rw [hothers n hne] at hget
        exact Or.inl hget

end Object

/-! ## Giving a network up -/

/-- When the effect of a claim is undone, the network that it recorded has no route. -/
theorem Claim.labelsAt_undo {claim : Claim} {indexes indexes' : ScopeIndexes} {store : Store}
    {key : ObjectKey} {n : Network} (h : claim.undo indexes ⟨store, []⟩ = .ok indexes')
    (hhome : (Object.claim claim).id.home? = some key)
    (hrecord : (Object.claim claim).recorded? = some n) : indexes'.labelsAt key n = none := by
  obtain ⟨r, hregistration, h⟩ := Except.bind_eq_ok_iff.1 h
  have hregistration := Failure.lift_eq_ok_iff.1 hregistration
  obtain rfl := Option.some.inj ((Claim.home?_of_registration hregistration).symm.trans hhome)
  cases hderegister : indexes.deregister ⟨store, []⟩ r with
  | error f =>
    rw [hderegister] at h
    obtain ⟨e, rfl⟩ := ScopeIndexes.deregister_eq_error hderegister
    dsimp only at h
    split at h
    · rename_i hmissing
      cases h
      rw [Bool.and_eq_true, Bool.not_eq_true', SortedMap.contains, Option.isSome_eq_false_iff,
        Option.isNone_iff_eq_none] at hmissing
      unfold ScopeIndexes.labelsAt
      rw [hmissing.2]
      rfl
    · cases h
  | ok changed =>
    rw [hderegister] at h
    cases h
    have hpersisted := (Claim.recorded?_of_registration hregistration).1 hrecord
    exact ScopeIndexes.labelsAt_of_deregister hderegister hpersisted
      (Registration.isCanonical_of_persistedNetwork hpersisted)

namespace Store

variable {s s' : Store} {id id' : ObjectId} {o : Object} {finalizer : String}

/-- A deletion does not take an object away that carries a finalizer. -/
theorem get?_delete (h : s.delete id' = .ok s') (hget : s.get? id = some o)
    (hfinalizer : o.info.hasFinalizer finalizer = true) :
    s'.get? id = some o ∨
      s'.get? id = some (o.mapInfo fun m => { m with deletionRequested := true }) := by
  by_cases hid : id' = id
  · subst hid
    have hkept : o.info.finalizers.isEmpty = false := by
      cases hempty : o.info.finalizers with
      | nil => simp [Metadata.hasFinalizer, hempty] at hfinalizer
      | cons f rest => rfl
    obtain ⟨stored, hfind, h⟩ := Except.bind_eq_ok_iff.1 h
    obtain rfl := Option.some.inj (hget.symm.trans (find_eq_ok_iff.1 hfind))
    rw [hkept, if_neg Bool.false_ne_true] at h
    split at h
    · cases h
      exact Or.inl hget
    · cases h
      exact Or.inr (SortedMap.get?_insert_self _ _ _)
  · left
    rcases delete_eq_ok h with rfl | rfl | ⟨stored, -, rfl⟩
    · exact hget
    · exact (SortedMap.get?_erase_of_ne (Ne.symm hid)).trans hget
    · exact (SortedMap.get?_insert_of_ne _ (Ne.symm hid)).trans hget

/-- A request neither takes an object away that carries a finalizer nor changes what it records. -/
theorem get?_serve (q : Request) (hget : s.get? id = some o)
    (hfinalizer : o.info.hasFinalizer finalizer = true) :
    ∃ o', (s.serve q).get? id = some o' ∧ o'.info.finalizers = o.info.finalizers ∧
      o'.recorded? = o.recorded? := by
  have houtcome := s.serve_outcome q
  cases q with
  | create o₁ =>
    unfold get?
    generalize (s.serve (.create o₁)).objects = objects at *
    cases houtcome with
    | unchanged => exact ⟨o, hget, rfl, rfl⟩
    | created hnew =>
      have hne : id ≠ o₁.id := by
        rintro rfl
        cases hnew.symm.trans hget
      exact ⟨o, (SortedMap.get?_insert_of_ne _ hne).trans hget, rfl, rfl⟩
  | update o₁ =>
    unfold get?
    generalize (s.serve (.update o₁)).objects = objects at *
    cases houtcome with
    | unchanged => exact ⟨o, hget, rfl, rfl⟩
    | updated hstored hcopy =>
      by_cases hid : id = o₁.id
      · subst hid
        obtain rfl := Option.some.inj (hget.symm.trans hstored)
        refine ⟨_, SortedMap.get?_insert_self _ _ _, ?_, ?_⟩
        · rw [Object.info_mapInfo, Object.info_copySpec? hcopy]
        · rw [Object.recorded?_mapInfo, Object.recorded?_copySpec? hcopy]
      · exact ⟨o, (SortedMap.get?_insert_of_ne _ hid).trans hget, rfl, rfl⟩
  | delete id' =>
    dsimp only [serve]
    cases h : s.delete id' with
    | error e => exact ⟨o, hget, rfl, rfl⟩
    | ok s' =>
      rcases get?_delete h hget hfinalizer with h' | h'
      · exact ⟨o, h', rfl, rfl⟩
      · exact ⟨_, h', by rw [Object.info_mapInfo], by rw [Object.recorded?_mapInfo]⟩

end Store

namespace Controller

variable {c c' : Controller} {id id' : ObjectId} {key : ObjectKey} {o o' : Object} {n : Network}
variable {outcome : Outcome} {a : Action} {actions : List Action} {q : Request}

/-! ## Passes over an object that is to stay, and over one that is not -/

/-- An object that a pass maintains carries the finalizer. -/
theorem hasFinalizer_of_maintain (hrules : c.access.rules = []) (hget : c.access.store.get? id = some o)
    (hid : o.id = id) (hget' : (c.maintain id o).2.access.store.get? id = some o') :
    o'.info.hasFinalizer finalizerName = true := by
  obtain ⟨before, c₁, hensure, hbefore, hstores⟩ := ensureFinalizer_ok hrules hget
  obtain ⟨v, after, c₂, hevaluate, houtcome⟩ := evaluate_outcome hstores.rules before
  obtain ⟨outcome, o₁, c₃, hreport, -, hbody, -, hstores₃⟩ :=
    c₂.report_ok v (by rw [houtcome.access, hstores.rules])
      (by rw [houtcome.access, hstores.get?_self]) ((kept_of_ensureFinalizer hbefore).1.trans hid)
      houtcome.sameBody
  have hpass : c.maintain id o = (.ok outcome, c₃) := by
    unfold maintain
    simp only [hensure, hevaluate, hreport]
  rw [hpass, hstores₃.get?_self] at hget'
  cases hget'
  rw [hbody.info_eq]
  exact hasFinalizer_of_ensureFinalizer hensure

/-- When a claim is finalized, the network that it recorded has no route afterwards, or else the claim is
put off and goes on recording it. -/
theorem finalize_claim {claim : Claim} (hrules : c.access.rules = [])
    (hget : c.access.store.get? id = some (.claim claim)) (hid : (Object.claim claim).id = id)
    (hhome : id.home? = some key) (hrecord : (Object.claim claim).recorded? = some n) :
    (c.finalize id (.claim claim)).2.indexes.labelsAt key n = none ∨
      ∃ o', (c.finalize id (.claim claim)).2.access.store.get? id = some o' ∧
        (Object.claim claim).SameBody o' ∧ o'.recorded? = some n := by
  unfold finalize
  cases hundo : c.undo (.claim claim) with
  | error f =>
    obtain ⟨e, rfl⟩ := undo_eq_error hrules hundo
    dsimp only
    rw [postpone_eq hrules hget hid e]
    obtain ⟨f, hstores⟩ := c.stores_postponed hrules hid e
    exact Or.inr ⟨_, hstores.get?_self, (Object.SameBody.refl (.claim claim)).mapStatus f,
      ((Object.claim claim).sameRoute_mapStatus f).recorded.trans hrecord⟩
  | ok c₁ =>
    obtain ⟨⟨store, rules⟩, indexes, ladder, queues, readings⟩ := c
    cases hrules
    obtain ⟨indexes', hundone, rfl⟩ := Except.map_eq_ok_iff.1 hundo
    left
    dsimp only
    rw [indexes_finish]
    exact Claim.labelsAt_undo hundone (hid.symm ▸ hhome) hrecord

/-- A route that is there after a pass was there before, or it is the route of the network that the object
of the pass obtained and describes. -/
theorem PassOutcome.labelsAt_cases {ready : Bool} {objects' : SortedMap ObjectId Object}
    {indexes' : ScopeIndexes} {labels : Labels} (h : c.PassOutcome id ready objects' indexes')
    (hafter : indexes'.labelsAt key n = some labels) :
    c.indexes.labelsAt key n = some labels ∨
      ready = true ∧ ∃ o o' index index', c.access.store.get? id = some o ∧ objects'.get? id = some o' ∧
        id.home? = some key ∧ c.indexes.get? key = some index ∧ o'.recorded? = some n ∧
          o.Obtained c.access.store key index n index' ∧
            o.Describes (c.access.store.scopeSpec? key) n labels := by
  cases h with
  | absent _ => exact Or.inl hafter
  | kept _ _ _ _ hindexes =>
    rcases hindexes with rfl | ⟨-, rfl⟩
    · exact Or.inl hafter
    · obtain ⟨index, hindex, hlabels⟩ := Option.bind_eq_some_iff.1 hafter
      rcases ScopeIndexes.get?_ensure hindex with hindex | rfl
      · exact Or.inl ((ScopeIndexes.labelsAt_of_get? hindex n).trans hlabels)
      · cases (SortedMap.get?_empty n).symm.trans hlabels
  | @obtained key' _ _ _ _ _ hget htended hhome hindex hcanonical hrecord hobtained =>
    by_cases hkey : key = key'
    · subst hkey
      rw [ScopeIndexes.labelsAt_insert_self] at hafter
      rcases hobtained.get?_cases hcanonical hafter with hbefore | ⟨rfl, hdescribes⟩
      · exact Or.inl ((ScopeIndexes.labelsAt_of_get? hindex n).trans hbefore)
      · exact Or.inr ⟨rfl, _, _, _, _, hget, SortedMap.get?_insert_self _ _ _, hhome, hindex, hrecord,
          hobtained, hdescribes⟩
    · rw [ScopeIndexes.labelsAt_insert_of_ne _ _ hkey] at hafter
      exact Or.inl hafter
  | undone _ _ _ hundo =>
    left
    cases hundo with
    | nothing => exact hafter
    | dropped _ =>
      obtain ⟨index, hindex, hlabels⟩ := Option.bind_eq_some_iff.1 hafter
      exact (ScopeIndexes.labelsAt_of_get? (SortedMap.get?_of_get?_erase hindex) n).trans hlabels
    | @removed key' _ _ _ _ hindex _ hroutes =>
      by_cases hkey : key = key'
      · subst hkey
        rw [ScopeIndexes.labelsAt_insert_self, hroutes] at hafter
        exact (ScopeIndexes.labelsAt_of_get? hindex n).trans (SortedMap.get?_of_get?_erase hafter)
      · rw [ScopeIndexes.labelsAt_insert_of_ne _ _ hkey] at hafter
        exact hafter

/-! ## Networks that a claim holds -/

/-- The networks of a scope that a claim holds after some actions: each has a route, which a pass over the
claim inserted. -/
inductive Holds (key : ObjectKey) (id : ObjectId) (c : Controller) : List Action → Network → Prop
  | inserted {actions : List Action} {n : Network}
    (hbefore : (c.run actions).indexes.labelsAt key n = none)
    (hafter : ((c.run actions).act (.reconcile id)).indexes.labelsAt key n ≠ none) :
    Holds key id c (actions ++ [.reconcile id]) n
  | kept {actions : List Action} {n : Network} (h : Holds key id c actions n) (a : Action)
    (hafter : ((c.run actions).act a).indexes.labelsAt key n ≠ none) :
    Holds key id c (actions ++ [a]) n

/-- A network that is held has a route. -/
theorem Holds.labelsAt (h : Holds key id c actions n) :
    (c.run actions).indexes.labelsAt key n ≠ none := by
  cases h <;> rwa [run_concat]

/-- A claim goes on holding a network as long as it has a route. -/
theorem Holds.append (h : Holds key id c actions n) (rest : List Action)
    (hrest : Along (fun c a => (c.act a).indexes.labelsAt key n ≠ none) (c.run actions) rest) :
    Holds key id c (actions ++ rest) n := by
  induction rest generalizing actions with
  | nil => rwa [List.append_nil]
  | cons a rest ih =>
    rw [List.append_cons]
    exact ih (h.kept a hrest.1) (by rw [run_concat]; exact hrest.2)

/-- A dynamic claim finds the route of a network again. -/
structure FindsAgain (key : ObjectKey) (c : Controller) (o : Object) (n : Network) : Prop where
  /-- The route has the labels that the claim's own route is to have now. -/
  labels : c.indexes.labelsAt key n = o.ownLabels?
  /-- The scope still gives this length for what the claim asks for. -/
  length : ∀ spec ∈ c.access.store.scopeSpec? key, o.askedLength? spec = some n.length
  /-- No other route has these labels. -/
  only : ∀ index ∈ c.indexes.get? key, ∀ r ∈ index.toList, some r.labels = o.ownLabels? → r.network = n

/-- A pass over a claim is faithful: if the claim is dynamic then and the network that it records has a
route, it finds this route again. -/
def Faithful (key : ObjectKey) (id : ObjectId) (c : Controller) : Action → Prop
  | .request _ => True
  | .reconcile id' => id' = id → ∀ o ∈ c.access.store.get? id, o.IsDynamic →
      o.info.deletionRequested = false → ∀ n ∈ o.recorded?, c.indexes.labelsAt key n ≠ none →
        FindsAgain key c o n

instance (key : ObjectKey) (c : Controller) (o : Object) (n : Network) :
    Decidable (FindsAgain key c o n) :=
  decidable_of_iff
    (c.indexes.labelsAt key n = o.ownLabels? ∧
      (∀ spec ∈ c.access.store.scopeSpec? key, o.askedLength? spec = some n.length) ∧
        ∀ index ∈ c.indexes.get? key, ∀ r ∈ index.toList,
          some r.labels = o.ownLabels? → r.network = n)
    ⟨fun h => ⟨h.1, h.2.1, h.2.2⟩, fun h => ⟨h.labels, h.length, h.only⟩⟩

instance (key : ObjectKey) (id : ObjectId) (c : Controller) :
    (a : Action) → Decidable (Faithful key id c a)
  | .request _ => isTrue trivial
  | .reconcile id' => inferInstanceAs (Decidable (id' = id → ∀ o ∈ c.access.store.get? id,
      o.IsDynamic → o.info.deletionRequested = false → ∀ n ∈ o.recorded?,
        c.indexes.labelsAt key n ≠ none → FindsAgain key c o n))

/-- An object carries the finalizer and records a network. -/
def Records (id : ObjectId) (n : Network) (c : Controller) : Prop :=
  ∃ o, c.access.store.get? id = some o ∧ o.info.hasFinalizer finalizerName = true ∧
    o.recorded? = some n

/-- No request makes an object with a finalizer forget what it records. -/
theorem Records.request (h : Records id n c) (q : Request) : Records id n (c.act (.request q)) := by
  obtain ⟨o, hget, hfinalizer, hrecord⟩ := h
  obtain ⟨o', hget', hfinalizers, hrecord'⟩ := Store.get?_serve q hget hfinalizer
  refine ⟨o', hget', ?_, hrecord'.trans hrecord⟩
  unfold Metadata.hasFinalizer at hfinalizer ⊢
  rw [hfinalizers, hfinalizer]

/-- A pass over another object does not concern what an object records. -/
theorem Records.reconcile_of_ne (h : Records id n c) (hsound : c.Sound) (hne : id' ≠ id) :
    Records id n (c.act (.reconcile id')) := by
  obtain ⟨o, hget, hrest⟩ := h
  refine ⟨o, ?_, hrest⟩
  obtain ⟨-, ready, houtcome⟩ := hsound.act_reconcile id'
  unfold Store.get?
  generalize (c.act (.reconcile id')).access.store.objects = objects,
    (c.act (.reconcile id')).indexes = indexes' at *
  cases houtcome with
  | absent _ => exact hget
  | kept _ _ _ _ _ => exact (SortedMap.get?_insert_of_ne _ hne.symm).trans hget
  | obtained _ _ _ _ _ _ _ => exact (SortedMap.get?_insert_of_ne _ hne.symm).trans hget
  | undone _ _ hobjects _ =>
    rcases hobjects with rfl | ⟨-, rfl⟩
    · exact (SortedMap.get?_erase_of_ne hne.symm).trans hget
    · exact (SortedMap.get?_insert_of_ne _ hne.symm).trans hget

/-- A claim that finds the route of a network again is answered this network. -/
theorem FindsAgain.eq_of_register {claim : Claim} {r : Registration} {scope : Scope}
    {index index' : RouteIndex} {m : Network} (h : FindsAgain key c (.claim claim) n)
    (hindex : c.indexes.get? key = some index) (hregistration : claim.registration = .ok r)
    (hscope : c.access.store.get? ⟨.scope, key⟩ = some (.scope scope))
    (houtcome : index.RegisterOutcome scope.spec r (.ok (m, index'))) : m = n := by
  have hown := Claim.ownLabels?_of_registration hregistration
  have hlabels := h.labels
  rw [ScopeIndexes.labelsAt_of_get? hindex, hown] at hlabels
  cases houtcome with
  | owned _ hget =>
    exact h.only index hindex ⟨m, _⟩ (RouteIndex.mem_toList_iff.2 hget) hown.symm
  | inserted hasks hunowned _ _ _ _ =>
    have hlength := h.length scope.spec (Option.bind_eq_some_iff.2 ⟨_, hscope, rfl⟩)
    rw [Object.askedLength?_of_asks hregistration hasks] at hlength
    exact absurd (Option.some.inj hlength).symm (hunowned n hlabels)

/-- A claim that obtains a network gives its earlier one back, unless it fails to find the route again. -/
theorem eq_of_obtained {claim : Claim} {index index' : RouteIndex} {m : Network}
    (hfaithful : (Object.claim claim).IsDynamic → FindsAgain key c (.claim claim) n)
    (hindex : c.indexes.get? key = some index) (hcanonical : m.IsCanonical)
    (hrecord : (Object.claim claim).recorded? = some n)
    (hobtained : (Object.claim claim).Obtained c.access.store key index m index')
    (hafter : index'.routes.get? n ≠ none) : m = n := by
  cases hobtained with
  | declared hnamed hlabels hcleared hdeclare =>
    by_contra hne
    obtain ⟨-, hothers⟩ := RouteIndex.get?_of_declare hcanonical hdeclare
    rw [hothers n (Ne.symm hne)] at hafter
    cases hcleared with
    | unchanged hkept => exact hne (hkept n hrecord).1.symm
    | takenBack hrecord' _ hroutes =>
      obtain rfl := Option.some.inj (hrecord.symm.trans hrecord')
      exact hafter (RouteIndex.get?_of_erase hroutes).1
  | allocated hclaim hregistration hdynamic hscope houtcome =>
    cases hclaim
    refine (hfaithful ?_).eq_of_register hindex hregistration hscope houtcome
    obtain ⟨_, -, rfl⟩ := Claim.registration_eq_ok_iff.1 hregistration
    exact hdynamic

/-- Under the kind of claims there are claims. -/
theorem exists_claim (hkind : id.kind = .claim) (hid : o.id = id) : ∃ claim, o = .claim claim := by
  have hkind' : o.kind = .claim := by rw [← hkind, ← hid]; rfl
  cases o with
  | claim claim => exact ⟨claim, rfl⟩
  | tenant _ | scope _ | pool _ => cases hkind'

/-- After a faithful pass over a claim, the network that it recorded is still recorded or has no route. -/
theorem Records.reconcile (h : Records id n c) (hsound : c.Sound) (hkind : id.kind = .claim)
    (hhome : id.home? = some key) (hfaithful : Faithful key id c (.reconcile id))
    (hbefore : c.indexes.labelsAt key n ≠ none)
    (hafter : (c.act (.reconcile id)).indexes.labelsAt key n ≠ none) :
    Records id n (c.act (.reconcile id)) := by
  obtain ⟨o, hget, hfinalizer, hrecord⟩ := h
  have hid := hsound.keyed id o hget
  obtain ⟨claim, rfl⟩ := exists_claim hkind hid
  by_cases hdeletion : claim.info.deletionRequested = true
  · have hact : c.act (.reconcile id) = (c.finalize id (.claim claim)).2 :=
      congrArg Prod.snd (hsound.reconcile_of_deleted hget hdeletion)
    rw [hact] at hafter ⊢
    rcases finalize_claim hsound.rules hget hid hhome hrecord with hnone | ⟨o', hget', hbody, hrecord'⟩
    · exact absurd hnone hafter
    · exact ⟨o', hget', by rw [hbody.info_eq, hfinalizer], hrecord'⟩
  · have hfinds := fun hdynamic => hfaithful rfl _ hget hdynamic (Bool.eq_false_of_not_eq_true hdeletion) n
      hrecord hbefore
    obtain ⟨-, ready, houtcome⟩ := hsound.act_reconcile id
    unfold Records Store.get?
    generalize (c.act (.reconcile id)).access.store.objects = objects,
      (c.act (.reconcile id)).indexes = indexes' at *
    cases houtcome with
    | absent hget' => cases hget.symm.trans hget'
    | kept hget' htended hrecord' _ _ =>
      obtain rfl := Option.some.inj (hget.symm.trans hget')
      exact ⟨_, SortedMap.get?_insert_self _ _ _, htended.hasFinalizer hfinalizer,
        hrecord'.trans hrecord⟩
    | obtained hget' htended hhome' hindex hcanonical hrecord' hobtained =>
      obtain rfl := Option.some.inj (hget.symm.trans hget')
      obtain rfl := Option.some.inj (hhome.symm.trans hhome')
      rw [ScopeIndexes.labelsAt_insert_self] at hafter
      obtain rfl := eq_of_obtained hfinds hindex hcanonical hrecord hobtained hafter
      exact ⟨_, SortedMap.get?_insert_self _ _ _, htended.hasFinalizer hfinalizer, hrecord'⟩
    | undone hget' hdeletion' _ _ =>
      obtain rfl := Option.some.inj (hget.symm.trans hget')
      exact absurd hdeletion' hdeletion

/-- A pass in which a network gets a route ends ready, and its object obtains the network and records
it. -/
theorem Sound.pass_of_inserted (h : c.Sound) (hbefore : c.indexes.labelsAt key n = none)
    (hafter : (c.act (.reconcile id)).indexes.labelsAt key n ≠ none) :
    ∃ outcome c' o o' index index', c.reconcile id = (.ok outcome, c') ∧ outcome.ready = true ∧
      c.access.store.get? id = some o ∧ c'.access.store.get? id = some o' ∧
        c.indexes.get? key = some index ∧ o'.recorded? = some n ∧
          o.Obtained c.access.store key index n index' := by
  obtain ⟨outcome, c', hpass, -, houtcome⟩ := h.pass id
  rw [show c.act (.reconcile id) = c' from congrArg Prod.snd hpass] at hafter
  obtain ⟨labels, hlabels⟩ := Option.ne_none_iff_exists'.1 hafter
  have hnew : c.indexes.labelsAt key n ≠ some labels := by
    rw [hbefore]
    nofun
  obtain ⟨hready, o, o', index, index', hget, hget', -, hindex, hrecord, hobtained, -⟩ :=
    (houtcome.labelsAt_cases hlabels).resolve_left hnew
  exact ⟨outcome, c', o, o', index, index', hpass, hready, hget, hget', hindex, hrecord, hobtained⟩

/-- A network that gets a route in a pass over an object is recorded by the object. -/
theorem records_of_inserted (hsound : c.Sound) (hbefore : c.indexes.labelsAt key n = none)
    (hafter : (c.act (.reconcile id)).indexes.labelsAt key n ≠ none) :
    Records id n (c.act (.reconcile id)) := by
  obtain ⟨outcome, c', o, o', -, -, hpass, hready, hget, hget', -, hrecord, -⟩ :=
    hsound.pass_of_inserted hbefore hafter
  rw [show c.act (.reconcile id) = c' from congrArg Prod.snd hpass]
  refine ⟨o', hget', ?_, hrecord⟩
  cases hdeletion : o.info.deletionRequested with
  | true =>
    rw [hsound.reconcile_of_deleted hget hdeletion] at hpass
    rw [ready_of_finalize hpass] at hready
    cases hready
  | false =>
    rw [hsound.reconcile_of_live hget hdeletion] at hpass
    refine hasFinalizer_of_maintain hsound.rules hget (hsound.keyed id o hget) ?_
    rw [hpass]
    exact hget'

/-- In a faithful history a claim holds no network but the one that it records, and none at all once its
finalizer is off. -/
theorem records_of_holds {policy : RetryPolicy} (hkind : id.kind = .claim) (hhome : id.home? = some key)
    (hfaithful : Along (Faithful key id) (fresh policy) actions)
    (h : Holds key id (fresh policy) actions n) :
    ∃ o, ((fresh policy).run actions).access.store.get? id = some o ∧
      o.info.hasFinalizer finalizerName = true ∧ o.recorded? = some n := by
  show Records id n ((fresh policy).run actions)
  induction h with
  | inserted hbefore hafter =>
    rw [run_concat]
    exact records_of_inserted ((sound_fresh policy).run _) hbefore hafter
  | kept hholds a hafter ih =>
    obtain ⟨hearlier, hlast, -⟩ := along_append.1 hfaithful
    have hrecords := ih hearlier
    rw [run_concat]
    cases a with
    | request q => exact hrecords.request q
    | reconcile id' =>
      by_cases hid : id' = id
      · subst hid
        exact hrecords.reconcile ((sound_fresh policy).run _) hkind hhome hlast hholds.labelsAt hafter
      · exact hrecords.reconcile_of_ne ((sound_fresh policy).run _) hid

end Controller

/-! ## Sample histories -/

namespace Lab

/-- The edge claim waits for its network beside a pool. -/
def waiting (claim : Object) : List Action :=
  opening ++ [.request (.create pool), .reconcile poolId, .request (.create claim)]

/-- The edge claim holds a network. -/
def holding (claim : Object) : List Action := waiting claim ++ [.reconcile edgeId]

/-- The edge claim is edited and looked at again. -/
def editing (claim : Object) : List Action := [.request (.update claim)] ++ [.reconcile edgeId]

/-- The edge claim is deleted. -/
def removing : List Action := [.request (.delete edgeId), .reconcile edgeId]

/-- The network `10.9.0.1/32`. -/
def remoteAddress : Network :=
  ⟨.ipv4, 0x0a090001, 32, Nat.le_of_ble_eq_true rfl, address.length_le⟩

end Lab

namespace Controller

/-- A claim that turns from an allocated address to one that it names holds only that one. -/
theorem records_of_holds_sample :
    let history := Lab.holding (Lab.dynamic Lab.edgeId (Lab.site "west"))
      ++ Lab.editing (Lab.explicit Lab.edgeId "10.0.0.1/32" (Lab.site "west"))
    Along (Faithful Sample.key Lab.edgeId) (fresh Lab.policy) history ∧
      Holds Sample.key Lab.edgeId (fresh Lab.policy) history Lab.address ∧
        ∃ o, ((fresh Lab.policy).run history).access.store.get? Lab.edgeId = some o ∧
          o.info.hasFinalizer finalizerName = true ∧ o.recorded? = some Lab.address := by
  intro history
  let edited := Lab.holding (Lab.dynamic Lab.edgeId (Lab.site "west"))
    ++ [.request (.update (Lab.explicit Lab.edgeId "10.0.0.1/32" (Lab.site "west")))]
  have hruns : Along (Faithful Sample.key Lab.edgeId) (fresh Lab.policy) history ∧
      ((fresh Lab.policy).run edited).indexes.labelsAt Sample.key Lab.address = none ∧
        (((fresh Lab.policy).run edited).act (.reconcile Lab.edgeId)).indexes.labelsAt Sample.key Lab.address
          ≠ none := by
    decide +kernel
  obtain ⟨hfaithful, hbefore, hafter⟩ := hruns
  have hholds := Holds.inserted hbefore hafter
  exact ⟨hfaithful, hholds, records_of_holds rfl (by decide +kernel) hfaithful hholds⟩

/-- A claim that names an address first and none later, under another tag, is ready with an address of the
pool, and goes on holding the first one, even when it is gone. -/
theorem edited_claim_leaks :
    let edited := Lab.holding (Lab.explicit Lab.edgeId "10.9.0.1/32" (Lab.site "west"))
      ++ Lab.editing (Lab.dynamic Lab.edgeId (Lab.site "east"))
    Holds Sample.key Lab.edgeId (fresh Lab.policy) edited Lab.remoteAddress ∧
      Holds Sample.key Lab.edgeId (fresh Lab.policy) (edited ++ Lab.removing) Lab.remoteAddress ∧
        (∃ o ∈ ((fresh Lab.policy).run edited).access.store.get? Lab.edgeId,
          o.isReady = true ∧ o.recorded? = some Lab.firstAddress) ∧
          ((fresh Lab.policy).run (edited ++ Lab.removing)).access.store.get? Lab.edgeId = none := by
  intro edited
  let waiting := Lab.waiting (Lab.explicit Lab.edgeId "10.9.0.1/32" (Lab.site "west"))
  let rest := Lab.editing (Lab.dynamic Lab.edgeId (Lab.site "east")) ++ Lab.removing
  have hruns : ((fresh Lab.policy).run waiting).indexes.labelsAt Sample.key Lab.remoteAddress = none ∧
      (((fresh Lab.policy).run waiting).act (.reconcile Lab.edgeId)).indexes.labelsAt Sample.key
          Lab.remoteAddress ≠ none ∧
        Along (fun c a => (c.act a).indexes.labelsAt Sample.key Lab.remoteAddress ≠ none)
            ((fresh Lab.policy).run (waiting ++ [.reconcile Lab.edgeId])) rest ∧
          (∃ o ∈ ((fresh Lab.policy).run edited).access.store.get? Lab.edgeId,
            o.isReady = true ∧ o.recorded? = some Lab.firstAddress) ∧
            ((fresh Lab.policy).run (edited ++ Lab.removing)).access.store.get? Lab.edgeId = none := by
    decide +kernel
  obtain ⟨hbefore, hafter, hroute, hready, hgone⟩ := hruns
  have hfirst := Holds.inserted hbefore hafter
  have habandoned := hfirst.append rest hroute
  rw [← List.append_assoc] at habandoned
  exact ⟨hfirst.append _ (along_append.1 hroute).1, habandoned, hready, hgone⟩

end Controller

end AddressRegistry
