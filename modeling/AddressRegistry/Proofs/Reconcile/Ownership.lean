import AddressRegistry.Proofs.Reconcile.History

/-!
# Whose routes a pass takes away

A pass removes routes by their networks, whoever they belong to. What it takes away is bounded by what
its object records (`PassOutcome.labelsAt_eq`): a route goes only if the object recorded its network, or
is a pool that is finalized without having declared anything and names the network.

So an object loses its route to another one only if the two record one network. That cannot happen in an
*orderly* history (`Controller.Orderly`), where each set of labels belongs to one object, an object
that names a network finds no route of another one there, and an object that is finalized is gone. Then
every recorded network has a route with labels of the object that records it (`Controller.Owned`), and no
pass takes away what another object records (`Controller.orderly_pass_keeps_routes`).
`explicit_claim_robs_pool` shows a history that is not orderly.
-/

namespace AddressRegistry.Controller

variable {c : Controller} {id : ObjectId} {key : ObjectKey} {n : Network} {labels : Labels}

/-! ## The frame of a pass -/

/-- A pass takes a route away only from the scope of its object, and only one that the object recorded or
gives up. -/
theorem PassOutcome.labelsAt_eq {ready : Bool} {objects' : SortedMap ObjectId Object}
    {indexes' : ScopeIndexes} (h : c.PassOutcome id ready objects' indexes')
    (hkeyed : c.access.store.Keyed) (hget : c.indexes.labelsAt key n = some labels)
    (hscope : ∀ o ∈ c.access.store.get? id, id = ⟨.scope, key⟩ → o.info.deletionRequested = false)
    (hrecord : ∀ o ∈ c.access.store.get? id, id.home? = some key → o.recorded? ≠ some n)
    (hretired : ∀ o ∈ c.access.store.get? id, id.home? = some key →
      o.info.deletionRequested = true → o.retired? ≠ some n) :
    indexes'.labelsAt key n = some labels := by
  cases h with
  | absent _ => exact hget
  | kept _ _ _ _ hindexes =>
    rcases hindexes with rfl | ⟨-, rfl⟩
    · exact hget
    · exact ScopeIndexes.labelsAt_ensure hget _
  | @obtained key' index index' _ o _ hobject _ hhome hindex hcanonical _ hobtained =>
    by_cases hkey : key = key'
    · subst hkey
      rw [ScopeIndexes.labelsAt_of_get? hindex] at hget
      rw [ScopeIndexes.labelsAt_insert_self]
      exact hobtained.get?_of_ne hcanonical hget (hrecord o hobject hhome)
    · rw [ScopeIndexes.labelsAt_insert_of_ne _ _ hkey, hget]
  | @undone o _ _ hobject hdeletion _ hundo =>
    have hid := hkeyed id o hobject
    cases hundo with
    | nothing => exact hget
    | dropped hkind =>
      have hne : key ≠ o.key := by
        rintro rfl
        have hdeletion' := hscope o hobject (by rw [← hid, Object.id, hkind])
        rw [hdeletion] at hdeletion'
        cases hdeletion'
      rw [ScopeIndexes.labelsAt_erase_of_ne _ hne, hget]
    | @removed key' index index' m hhome hindex hm hroutes =>
      rw [hid] at hhome
      by_cases hkey : key = key'
      · subst hkey
        have hne : n ≠ m := by
          rintro rfl
          exact hretired o hobject hhome hdeletion hm
        rw [ScopeIndexes.labelsAt_of_get? hindex] at hget
        rw [ScopeIndexes.labelsAt_insert_self, (RouteIndex.get?_of_erase hroutes).2 n hne, hget]
      · rw [ScopeIndexes.labelsAt_insert_of_ne _ _ hkey, hget]

/-! ## Orderly histories -/

/-- What makes a pass over an object of a scope orderly, when each set of labels belongs to one object. -/
structure OwnsPlace (owner : Labels → ObjectId) (key : ObjectKey) (c : Controller) (id : ObjectId)
    (o : Object) : Prop where
  /-- The object uses labels of its own. -/
  labels : ∀ labels ∈ o.ownLabels?, owner labels = id
  /-- If the network that the object names has a route, it is a route of the object. -/
  named : ∀ n ∈ o.named?, ∀ labels ∈ c.indexes.labelsAt key n, owner labels = id
  /-- Nobody else holds the object back when it is finalized. -/
  alone : o.info.deletionRequested = true → ∀ f ∈ o.info.finalizers, f = finalizerName

/-- When an action is orderly for a scope. Objects are created without a record; the scope itself is not
finalized. -/
def Orderly (owner : Labels → ObjectId) (key : ObjectKey) (c : Controller) : Action → Prop
  | .request (.create o) => o.id.home? = some key → o.recorded? = none
  | .request (.update _) | .request (.delete _) => True
  | .reconcile id => ∀ o ∈ c.access.store.get? id,
      (id = ⟨.scope, key⟩ → o.info.deletionRequested = false) ∧
        (id.home? = some key → OwnsPlace owner key c id o)

instance (owner : Labels → ObjectId) (key : ObjectKey) (c : Controller) (id : ObjectId) (o : Object) :
    Decidable (OwnsPlace owner key c id o) :=
  decidable_of_iff
    ((∀ labels ∈ o.ownLabels?, owner labels = id) ∧
      (∀ n ∈ o.named?, ∀ labels ∈ c.indexes.labelsAt key n, owner labels = id) ∧
        (o.info.deletionRequested = true → ∀ f ∈ o.info.finalizers, f = finalizerName))
    ⟨fun h => ⟨h.1, h.2.1, h.2.2⟩, fun h => ⟨h.labels, h.named, h.alone⟩⟩

instance (owner : Labels → ObjectId) (key : ObjectKey) (c : Controller) :
    (a : Action) → Decidable (Orderly owner key c a)
  | .request (.create o) => inferInstanceAs (Decidable (o.id.home? = some key → o.recorded? = none))
  | .request (.update _) | .request (.delete _) => isTrue trivial
  | .reconcile id => inferInstanceAs (Decidable (∀ o ∈ c.access.store.get? id,
      (id = ⟨.scope, key⟩ → o.info.deletionRequested = false) ∧
        (id.home? = some key → OwnsPlace owner key c id o)))

variable {owner : Labels → ObjectId} {actions : List Action} {a : Action}

/-- Every network that an object of a scope records has a route, with labels of the object. -/
structure Owned (owner : Labels → ObjectId) (key : ObjectKey) (c : Controller) : Prop extends
    c.Sound where
  records : ∀ id o, c.access.store.get? id = some o → id.home? = some key →
    ∀ n, o.recorded? = some n → ∃ labels, c.indexes.labelsAt key n = some labels ∧ owner labels = id

/-- In a fresh registry nobody records anything. -/
theorem owned_fresh (owner : Labels → ObjectId) (key : ObjectKey) (policy : RetryPolicy) :
    (fresh policy).Owned owner key :=
  { sound_fresh policy with
    records := fun _ _ h => nomatch h.symm.trans (SortedMap.get?_empty _) }

/-- In an orderly pass no route of another object goes. -/
theorem Owned.labelsAt_pass (h : c.Owned owner key) (horderly : Orderly owner key c (.reconcile id))
    {ready : Bool} {objects' : SortedMap ObjectId Object} {indexes' : ScopeIndexes}
    (houtcome : c.PassOutcome id ready objects' indexes')
    (hget : c.indexes.labelsAt key n = some labels) (hne : owner labels ≠ id) :
    indexes'.labelsAt key n = some labels := by
  have hrecorded : ∀ o ∈ c.access.store.get? id, id.home? = some key → o.recorded? ≠ some n := by
    intro o ho hhome hrecord
    obtain ⟨labels', hlabels', howner⟩ := h.records id o ho hhome n hrecord
    obtain rfl := Option.some.inj (hget.symm.trans hlabels')
    exact hne howner
  refine houtcome.labelsAt_eq h.keyed hget (fun o ho => (horderly o ho).1) hrecorded ?_
  intro o ho hhome _ hretired
  rcases Object.recorded?_or_named?_of_retired? hretired with hrecord | hnamed
  · exact hrecorded o ho hhome hrecord
  · exact hne (((horderly o ho).2 hhome).named n hnamed labels hget)

/-- What an object obtains in an orderly pass carries labels of the object. -/
theorem OwnsPlace.obtained {o : Object} {index index' : RouteIndex} (h : OwnsPlace owner key c id o)
    (hindex : c.indexes.get? key = some index) (hcanonical : n.IsCanonical)
    (hobtained : o.Obtained c.access.store key index n index') :
    ∃ labels, index'.routes.get? n = some labels ∧ owner labels = id := by
  cases hobtained with
  | @declared _ own cleared _ hnamed hlabels hcleared hdeclare =>
    obtain ⟨hself, -⟩ := RouteIndex.get?_of_declare hcanonical hdeclare
    refine ⟨_, hself, ?_⟩
    cases hget : cleared.routes.get? n with
    | none => exact h.labels own hlabels
    | some labels =>
      refine h.named n hnamed labels ?_
      rw [ScopeIndexes.labelsAt_of_get? hindex]
      exact hcleared.get?_of_get? hget
  | allocated hclaim hregistration _ _ houtcome =>
    subst hclaim
    exact ⟨_, houtcome.get?_block, h.labels _ (Claim.ownLabels?_of_registration hregistration)⟩

/-- After an orderly pass every object still has the routes that it records. -/
theorem Owned.records_pass (h : c.Owned owner key) (horderly : Orderly owner key c (.reconcile id))
    {ready : Bool} {objects' : SortedMap ObjectId Object} {indexes' : ScopeIndexes}
    (houtcome : c.PassOutcome id ready objects' indexes') :
    ∀ id' o', objects'.get? id' = some o' → id'.home? = some key →
      ∀ n, o'.recorded? = some n →
        ∃ labels, indexes'.labelsAt key n = some labels ∧ owner labels = id' := by
  have hothers : ∀ id' o', id' ≠ id → c.access.store.get? id' = some o' → id'.home? = some key →
      ∀ n, o'.recorded? = some n →
        ∃ labels, indexes'.labelsAt key n = some labels ∧ owner labels = id' := by
    intro id' o' hne hget hhome n hrecord
    obtain ⟨labels, hlabels, howner⟩ := h.records id' o' hget hhome n hrecord
    exact ⟨labels, h.labelsAt_pass horderly houtcome hlabels (howner ▸ hne), howner⟩
  cases houtcome with
  | absent hnone => exact h.records
  | kept hget _ hrecord _ hindexes =>
    refine Store.forall_get?_insert rfl hothers fun hhome n hn => ?_
    obtain ⟨labels, hlabels, howner⟩ := h.records id _ hget hhome n (hrecord ▸ hn)
    refine ⟨labels, ?_, howner⟩
    rcases hindexes with rfl | ⟨-, rfl⟩
    · exact hlabels
    · exact ScopeIndexes.labelsAt_ensure hlabels _
  | obtained hget _ hhome' hindex hcanonical hrecord hobtained =>
    refine Store.forall_get?_insert rfl hothers fun hhome n hn => ?_
    obtain rfl := Option.some.inj (hhome'.symm.trans hhome)
    obtain rfl := Option.some.inj (hrecord.symm.trans hn)
    obtain ⟨labels, hlabels, howner⟩ :=
      ((horderly _ hget).2 hhome).obtained hindex hcanonical hobtained
    exact ⟨labels, by rw [ScopeIndexes.labelsAt_insert_self, hlabels], howner⟩
  | undone hget hdeletion hobjects _ =>
    rcases hobjects with hobjects | ⟨hforeign, hobjects⟩
    · exact Store.forall_get?_erase hobjects hothers
    · refine Store.forall_get?_insert hobjects hothers fun hhome n hn => ?_
      obtain ⟨f, hf, hne⟩ := hforeign
      exact absurd (((horderly _ hget).2 hhome).alone hdeletion f hf) hne

/-- Requests and orderly passes keep every recorded network with a route of its object. What a client
creates records nothing, and what it edits keeps its record. -/
theorem Owned.act (h : c.Owned owner key) (horderly : Orderly owner key c a) :
    (c.act a).Owned owner key := by
  refine { h.toSound.act a with records := ?_ }
  cases a with
  | request q =>
    refine Store.forall_get?_serve q h.records ?_ ?_ ?_
    · rintro o rfl hhome n hrecord
      rw [Store.created, Object.recorded?_mapInfo, horderly hhome] at hrecord
      cases hrecord
    · intro o stored copied _ hget hcopy hhome n hrecord
      rw [Object.recorded?_mapInfo, Object.recorded?_copySpec? hcopy] at hrecord
      exact h.records _ _ hget hhome n hrecord
    · intro id stored hget hhome n hrecord
      rw [Object.recorded?_mapInfo] at hrecord
      exact h.records _ _ hget hhome n hrecord
  | reconcile id =>
    obtain ⟨-, ready, houtcome⟩ := h.toSound.act_reconcile id
    exact h.records_pass horderly houtcome

/-- In an orderly history every recorded network has a route of its object. -/
theorem Owned.run (h : c.Owned owner key) (horderly : Along (Orderly owner key) c actions) :
    (c.run actions).Owned owner key :=
  horderly.invariant (fun _ _ h horderly => h.act horderly) h

/-- In an orderly history of a registry, a pass over one object keeps the route of every network that
another object of the scope records, with its labels. -/
theorem orderly_pass_keeps_routes (policy : RetryPolicy)
    (horderly : Along (Orderly owner key) (fresh policy) (actions ++ [.reconcile id]))
    {other : ObjectId} {o : Object} (hother : other ≠ id)
    (hget : ((fresh policy).run actions).access.store.get? other = some o)
    (hhome : other.home? = some key) (hrecord : o.recorded? = some n) :
    ∃ labels, ((fresh policy).run actions).indexes.labelsAt key n = some labels ∧
      ((fresh policy).run (actions ++ [.reconcile id])).indexes.labelsAt key n = some labels := by
  obtain ⟨hbefore, hlast, -⟩ := along_append.1 horderly
  have howned := (owned_fresh owner key policy).run hbefore
  obtain ⟨labels, hlabels, howner⟩ := howned.records other o hget hhome n hrecord
  refine ⟨labels, hlabels, ?_⟩
  obtain ⟨-, ready, houtcome⟩ := howned.toSound.act_reconcile id
  rw [run_concat]
  exact howned.labelsAt_pass hlast houtcome hlabels (howner ▸ hother)

end AddressRegistry.Controller

namespace AddressRegistry

/-! ## Sample histories -/

namespace Lab

/-- Labels with a site belong to the claim of the site, all others to the pool. -/
def owner (labels : Labels) : ObjectId :=
  match labels.get? "site" with
  | some "west" => edgeId
  | some "east" => coreId
  | _ => poolId

/-- Two claims get addresses from a pool, and the first of them is deleted. -/
def orderly : List Action :=
  [.request (.create pool), .reconcile poolId, .request (.create (dynamic edgeId (site "west"))),
    .reconcile edgeId, .request (.create (dynamic coreId (site "east"))), .reconcile coreId,
    .request (.delete edgeId)]

/-- A claim names the network of a pool and is deleted again. -/
def robbing : List Action :=
  [.request (.create pool), .reconcile poolId,
    .request (.create (explicit edgeId "10.0.0.0/30" (site "west"))), .reconcile edgeId,
    .request (.delete edgeId)]

end Lab

namespace Controller

/-- The second claim keeps its address when the first one is finalized. -/
theorem orderly_pass_keeps_routes_sample :
    Along (Orderly Lab.owner Sample.key) (fresh Lab.policy)
        (Lab.opening ++ Lab.orderly ++ [.reconcile Lab.edgeId]) ∧
      ∃ o, (Lab.after Lab.orderly).access.store.get? Lab.coreId = some o ∧
        o.recorded? = some Lab.address ∧
          ∃ labels, (Lab.after Lab.orderly).indexes.labelsAt Sample.key Lab.address = some labels ∧
            ((fresh Lab.policy).run (Lab.opening ++ Lab.orderly ++ [.reconcile Lab.edgeId])).indexes.labelsAt
              Sample.key Lab.address = some labels := by
  have horderly : Along (Orderly Lab.owner Sample.key) (fresh Lab.policy)
      (Lab.opening ++ Lab.orderly ++ [.reconcile Lab.edgeId]) := by
    decide +kernel
  have hrecord : ((Lab.after Lab.orderly).access.store.get? Lab.coreId).bind (·.recorded?)
      = some Lab.address := by
    decide +kernel
  obtain ⟨o, hget, hrecord⟩ := Option.bind_eq_some_iff.1 hrecord
  exact ⟨horderly, o, hget, hrecord,
    orderly_pass_keeps_routes Lab.policy horderly (by decide) hget (by decide +kernel) hrecord⟩

/-- The pool stays ready, but its route goes with the claim that named its network. -/
theorem explicit_claim_robs_pool :
    ((Lab.after Lab.robbing).access.store.get? Lab.poolId).map (fun o => (o.isReady, o.recorded?))
        = some (true, some Sample.network) ∧
      ((Lab.after Lab.robbing).indexes.labelsAt Sample.key Sample.network).isSome = true ∧
        ((Lab.after Lab.robbing).act (.reconcile Lab.edgeId)).indexes.labelsAt Sample.key Sample.network
          = none := by
  decide +kernel

end Controller

end AddressRegistry
