import AddressRegistry.Proofs.Allocation.Apart
import AddressRegistry.Proofs.Reconcile.Ownership

/-!
# Dynamic claims with blocks of their own

Two dynamic claims with the same selector and the same source tag want one label set, find one route and
hold one block (`twin_claims_share_block`). In an orderly history each label set belongs to one object. If
moreover source tags leave purpose and family to the selectors, no claim turns from a dynamic one into one
that names its network or back, and no network is named inside a block of a dynamic claim
(`Controller.Separate`), then the blocks that dynamic claims of a scope record have no address in common
(`Controller.dynamic_claims_apart`), whether the claims are ready or not.
-/

namespace AddressRegistry

namespace Object

/-- The specification of a scope. -/
def scopeSpec? : Object → Option ScopeSpec
  | scope s => some s.spec
  | tenant _ | pool _ | claim _ => none

/-- The source tag leaves purpose and family to the selector. -/
def HasNeutralTag : Object → Prop
  | tenant _ | scope _ | pool _ => True
  | claim c =>
    (sourceTagOrDefault c.spec.sourceTag c.info.name).get? Labels.purposeKey = none ∧
      (sourceTagOrDefault c.spec.sourceTag c.info.name).get? Labels.familyKey = none

instance : (o : Object) → Decidable o.HasNeutralTag
  | tenant _ | scope _ | pool _ => isTrue trivial
  | claim _ => inferInstanceAs (Decidable (_ ∧ _))

instance : (o : Object) → Decidable o.IsDynamic
  | tenant _ | scope _ | pool _ => isFalse not_false
  | claim c => inferInstanceAs (Decidable (c.spec.network = none))

/-- The tag that a claim registers leaves purpose and family to the selector if its own does. -/
theorem HasNeutralTag.neutralTag {c : Claim} {r : Registration} (h : (claim c).HasNeutralTag)
    (hregistration : c.registration = .ok r) : r.NeutralTag := by
  obtain ⟨_, -, rfl⟩ := Claim.registration_eq_ok_iff.1 hregistration
  exact ⟨h.1, h.2⟩

end Object

namespace Controller

variable {c : Controller} {a : Action} {actions : List Action} {id id' : ObjectId} {key : ObjectKey}
variable {owner : Labels → ObjectId} {dynamic : ObjectId → Bool} {spec : ScopeSpec}
variable {o o' : Object} {n n' : Network} {index index' : RouteIndex}

/-- What keeps the blocks of dynamic claims apart in a pass over an object of a scope. -/
structure SetsApart (owner : Labels → ObjectId) (dynamic : ObjectId → Bool) (spec : ScopeSpec)
    (key : ObjectKey) (c : Controller) (o : Object) : Prop where
  /-- The scope is as it always is. -/
  scope : ∀ s ∈ c.access.store.get? ⟨.scope, key⟩, ∀ spec' ∈ s.scopeSpec?, spec' = spec
  tag : o.HasNeutralTag
  /-- The network that the object names lies in no block of a dynamic claim. -/
  outside : ∀ n ∈ o.named?, ∀ index ∈ c.indexes.get? key, ∀ r ∈ index.toList,
    dynamic (owner r.labels) = true → r.network.contains n = false

instance (owner : Labels → ObjectId) (dynamic : ObjectId → Bool) (spec : ScopeSpec) (key : ObjectKey)
    (c : Controller) (o : Object) : Decidable (SetsApart owner dynamic spec key c o) :=
  decidable_of_iff
    ((∀ s ∈ c.access.store.get? ⟨.scope, key⟩, ∀ spec' ∈ s.scopeSpec?, spec' = spec) ∧
      o.HasNeutralTag ∧
        ∀ n ∈ o.named?, ∀ index ∈ c.indexes.get? key, ∀ r ∈ index.toList,
          dynamic (owner r.labels) = true → r.network.contains n = false)
    ⟨fun h => ⟨h.1, h.2.1, h.2.2⟩, fun h => ⟨h.scope, h.tag, h.outside⟩⟩

/-- When an action keeps the blocks of dynamic claims of a scope apart. Which objects are dynamic claims
is settled once and for all. -/
def Separate (owner : Labels → ObjectId) (dynamic : ObjectId → Bool) (spec : ScopeSpec)
    (key : ObjectKey) (c : Controller) : Action → Prop
  | .request (.create o) | .request (.update o) =>
    o.id.home? = some key → (dynamic o.id = true ↔ o.IsDynamic)
  | .request (.delete _) => True
  | .reconcile id => id.home? = some key → ∀ o ∈ c.access.store.get? id,
      SetsApart owner dynamic spec key c o

instance (owner : Labels → ObjectId) (dynamic : ObjectId → Bool) (spec : ScopeSpec) (key : ObjectKey)
    (c : Controller) : (a : Action) → Decidable (Separate owner dynamic spec key c a)
  | .request (.create o) | .request (.update o) =>
    inferInstanceAs (Decidable (o.id.home? = some key → (dynamic o.id = true ↔ o.IsDynamic)))
  | .request (.delete _) => isTrue trivial
  | .reconcile id => inferInstanceAs (Decidable (id.home? = some key →
      ∀ o ∈ c.access.store.get? id, SetsApart owner dynamic spec key c o))

/-- The blocks of dynamic claims are held apart. -/
structure Parted (owner : Labels → ObjectId) (dynamic : ObjectId → Bool) (spec : ScopeSpec)
    (key : ObjectKey) (c : Controller) : Prop extends Owned owner key c where
  sides : ∀ id o, c.access.store.get? id = some o → id.home? = some key →
    (dynamic id = true ↔ o.IsDynamic)
  apart : ∀ index, c.indexes.get? key = some index →
    index.HoldsApart spec fun labels => dynamic (owner labels) = true

/-- In a fresh registry there is nothing to keep apart. -/
theorem parted_fresh (owner : Labels → ObjectId) (dynamic : ObjectId → Bool) (spec : ScopeSpec)
    (key : ObjectKey) (policy : RetryPolicy) : (fresh policy).Parted owner dynamic spec key :=
  { owned_fresh owner key policy with
    sides := fun _ _ h => nomatch h.symm.trans (SortedMap.get?_empty _)
    apart := fun _ h => nomatch h.symm.trans (SortedMap.get?_empty _) }

/-- Obtaining a network keeps the blocks of dynamic claims apart. -/
theorem SetsApart.obtained (h : SetsApart owner dynamic spec key c o)
    (howns : OwnsPlace owner key c id o) (hside : dynamic id = true ↔ o.IsDynamic)
    (hindex : c.indexes.get? key = some index) (hcanonical : n.IsCanonical)
    (hobtained : o.Obtained c.access.store key index n index')
    (hapart : index.HoldsApart spec fun labels => dynamic (owner labels) = true) :
    index'.HoldsApart spec fun labels => dynamic (owner labels) = true := by
  cases hobtained with
  | @declared _ own cleared _ hnamed hlabels hcleared hdeclare =>
    have hother : ¬ dynamic (owner own) = true := by
      rw [howns.labels own hlabels, hside]
      exact Object.not_isDynamic_of_named? hnamed
    have houtside : ∀ m labels, index.routes.get? m = some labels →
        dynamic (owner labels) = true → m.contains n = false := fun m labels hm hmine =>
      h.outside n hnamed index hindex ⟨m, labels⟩ (RouteIndex.mem_toList_iff.2 hm) hmine
    cases hcleared with
    | unchanged _ => exact hapart.declare hcanonical hother houtside hdeclare
    | takenBack _ _ hroutes =>
      refine (hapart.erase hroutes).declare hcanonical hother (fun m labels hm => ?_) hdeclare
      exact houtside m labels (SortedMap.get?_of_get?_erase (hroutes ▸ hm))
  | allocated hclaim hregistration hdynamic hscope houtcome =>
    subst hclaim
    obtain rfl := h.scope _ hscope _ rfl
    refine hapart.register (h.tag.neutralTag hregistration) ?_ houtcome
    have hown := Claim.ownLabels?_of_registration hregistration
    rw [howns.labels _ hown, hside]
    obtain ⟨_, -, rfl⟩ := Claim.registration_eq_ok_iff.1 hregistration
    exact hdynamic

/-- An action keeps the sides of the objects. -/
theorem Parted.sides_act (h : c.Parted owner dynamic spec key)
    (hseparate : Separate owner dynamic spec key c a) :
    ∀ id o, (c.act a).access.store.get? id = some o → id.home? = some key →
      (dynamic id = true ↔ o.IsDynamic) := by
  cases a with
  | request q =>
    refine Store.forall_get?_serve q h.sides ?_ ?_ ?_
    · rintro o rfl hhome
      rw [Store.created, Object.isDynamic_mapInfo]
      exact hseparate hhome
    · rintro o stored copied rfl hget hcopy hhome
      rw [Object.isDynamic_mapInfo, Object.isDynamic_copySpec? hcopy]
      exact hseparate hhome
    · intro id stored hget hhome
      rw [Object.isDynamic_mapInfo]
      exact h.sides _ _ hget hhome
  | reconcile id =>
    obtain ⟨-, ready, houtcome⟩ := h.toSound.act_reconcile id
    refine houtcome.forall_get? h.sides ?_ ?_
    · intro o o' hside htended hhome
      rw [htended.isDynamic_iff]
      exact hside hhome
    · intro o finalizers hside hhome
      rw [Object.isDynamic_mapInfo]
      exact hside hhome

/-- A pass keeps the blocks of dynamic claims apart. -/
theorem Parted.apart_pass (h : c.Parted owner dynamic spec key)
    (horderly : Orderly owner key c (.reconcile id))
    (hseparate : Separate owner dynamic spec key c (.reconcile id)) {ready : Bool}
    {objects' : SortedMap ObjectId Object} {indexes' : ScopeIndexes}
    (houtcome : c.PassOutcome id ready objects' indexes') :
    ∀ index, indexes'.get? key = some index →
      index.HoldsApart spec fun labels => dynamic (owner labels) = true := by
  cases houtcome with
  | absent _ => exact h.apart
  | kept _ _ _ _ hindexes =>
    rcases hindexes with rfl | ⟨-, rfl⟩
    · exact h.apart
    · intro index hindex
      rcases ScopeIndexes.get?_ensure hindex with hindex | rfl
      · exact h.apart index hindex
      · exact RouteIndex.holdsApart_empty spec _
  | @obtained key' index index' _ o _ hget _ hhome hindex hcanonical _ hobtained =>
    intro index₁ hindex₁
    by_cases hkey : key = key'
    · subst hkey
      rw [SortedMap.get?_insert_self] at hindex₁
      cases hindex₁
      exact (hseparate hhome o hget).obtained ((horderly o hget).2 hhome) (h.sides id o hget hhome)
        hindex hcanonical hobtained (h.apart index hindex)
    · rw [SortedMap.get?_insert_of_ne _ hkey] at hindex₁
      exact h.apart index₁ hindex₁
  | undone _ _ _ hundo =>
    intro index₁ hindex₁
    cases hundo with
    | nothing => exact h.apart index₁ hindex₁
    | dropped _ => exact h.apart index₁ (SortedMap.get?_of_get?_erase hindex₁)
    | @removed key' index index' _ _ hindex _ hroutes =>
      by_cases hkey : key = key'
      · subst hkey
        rw [SortedMap.get?_insert_self] at hindex₁
        cases hindex₁
        exact (h.apart index hindex).erase hroutes
      · rw [SortedMap.get?_insert_of_ne _ hkey] at hindex₁
        exact h.apart index₁ hindex₁

/-- An action that is orderly and keeps blocks apart keeps them apart: the sides and the owners of the
routes stay, and a pass inserts one network at most. -/
theorem Parted.act (h : c.Parted owner dynamic spec key) (horderly : Orderly owner key c a)
    (hseparate : Separate owner dynamic spec key c a) : (c.act a).Parted owner dynamic spec key := by
  refine { h.toOwned.act horderly with sides := h.sides_act hseparate, apart := ?_ }
  cases a with
  | request q => exact h.apart
  | reconcile id =>
    obtain ⟨-, ready, houtcome⟩ := h.toSound.act_reconcile id
    exact h.apart_pass horderly hseparate houtcome

/-- In a history of a registry that is orderly and keeps blocks of dynamic claims apart, the networks that
two dynamic claims of the scope record have no address in common. -/
theorem dynamic_claims_apart (policy : RetryPolicy)
    (horderly : Along (Orderly owner key) (fresh policy) actions)
    (hseparate : Along (Separate owner dynamic spec key) (fresh policy) actions) (hne : id ≠ id')
    (hget : ((fresh policy).run actions).access.store.get? id = some o)
    (hget' : ((fresh policy).run actions).access.store.get? id' = some o')
    (hhome : id.home? = some key) (hhome' : id'.home? = some key) (hdynamic : o.IsDynamic)
    (hdynamic' : o'.IsDynamic) (hrecord : o.recorded? = some n) (hrecord' : o'.recorded? = some n') :
    n.overlaps n' = false := by
  have hparted : ((fresh policy).run actions).Parted owner dynamic spec key :=
    (horderly.and hseparate).invariant (fun _ _ h ha => h.act ha.1 ha.2)
      (parted_fresh owner dynamic spec key policy)
  obtain ⟨labels, hlabels, howner⟩ := hparted.records id o hget hhome n hrecord
  obtain ⟨labels', hlabels', howner'⟩ := hparted.records id' o' hget' hhome' n' hrecord'
  obtain ⟨index, hindex, hn⟩ := Option.bind_eq_some_iff.1 hlabels
  rw [ScopeIndexes.labelsAt_of_get? hindex] at hlabels'
  refine (hparted.apart index hindex).overlaps_eq_false hn ?_ hlabels' ?_ ?_
  · rw [howner]
    exact (hparted.sides id o hget hhome).2 hdynamic
  · rw [howner']
    exact (hparted.sides id' o' hget' hhome').2 hdynamic'
  · rintro rfl
    obtain rfl := Option.some.inj (hn.symm.trans hlabels')
    exact hne (howner.symm.trans howner')

end Controller

/-! ## Sample histories -/

namespace Lab

/-- Two dynamic claims with source tags get addresses from a pool. -/
def sharing (first second : Labels) : List Action :=
  [.request (.create pool), .reconcile poolId, .request (.create (dynamic edgeId first)),
    .request (.create (dynamic coreId second)), .reconcile edgeId, .reconcile coreId]

/-- Two claims with different tags. -/
def neighbours : Controller := after (sharing (site "west") (site "east"))

/-- Two claims with one tag. -/
def twins : Controller := after (sharing (site "west") (site "west"))

/-- The network `10.0.0.0/32`. -/
def firstAddress : Network :=
  ⟨.ipv4, Sample.network.address, 32, Sample.network.address_lt, address.length_le⟩

def isClaim (id : ObjectId) : Bool := id.kind == .claim

end Lab

namespace Controller

/-- Two claims with different tags get addresses of their own from one pool. -/
theorem dynamic_claims_apart_sample :
    Along (Orderly Lab.owner Sample.key) (fresh Lab.policy)
        (Lab.opening ++ Lab.sharing (Lab.site "west") (Lab.site "east")) ∧
      Along (Separate Lab.owner Lab.isClaim Sample.spec Sample.key) (fresh Lab.policy)
          (Lab.opening ++ Lab.sharing (Lab.site "west") (Lab.site "east")) ∧
        ∃ o o' n n', Lab.neighbours.access.store.get? Lab.edgeId = some o ∧
          Lab.neighbours.access.store.get? Lab.coreId = some o' ∧ o.IsDynamic ∧ o'.IsDynamic ∧
            o.recorded? = some n ∧ o'.recorded? = some n' ∧ n.overlaps n' = false := by
  have horderly : Along (Orderly Lab.owner Sample.key) (fresh Lab.policy)
      (Lab.opening ++ Lab.sharing (Lab.site "west") (Lab.site "east")) := by
    decide +kernel
  have hseparate : Along (Separate Lab.owner Lab.isClaim Sample.spec Sample.key) (fresh Lab.policy)
      (Lab.opening ++ Lab.sharing (Lab.site "west") (Lab.site "east")) := by
    decide +kernel
  have hedge : ∃ o ∈ Lab.neighbours.access.store.get? Lab.edgeId, o.IsDynamic ∧
      o.recorded? = some Lab.firstAddress := by
    decide +kernel
  have hcore : ∃ o ∈ Lab.neighbours.access.store.get? Lab.coreId, o.IsDynamic ∧
      o.recorded? = some Lab.address := by
    decide +kernel
  obtain ⟨o, hget, hdynamic, hrecord⟩ := hedge
  obtain ⟨o', hget', hdynamic', hrecord'⟩ := hcore
  exact ⟨horderly, hseparate, o, o', _, _, hget, hget', hdynamic, hdynamic', hrecord, hrecord',
    dynamic_claims_apart Lab.policy horderly hseparate (by decide) hget hget' (by decide +kernel)
      (by decide +kernel) hdynamic hdynamic' hrecord hrecord'⟩

/-- Both claims are ready with one address. -/
theorem twin_claims_share_block :
    (∃ o ∈ Lab.twins.access.store.get? Lab.edgeId, o.isReady = true ∧ o.IsDynamic ∧
        o.recorded? = some Lab.firstAddress) ∧
      ∃ o ∈ Lab.twins.access.store.get? Lab.coreId, o.isReady = true ∧ o.IsDynamic ∧
        o.recorded? = some Lab.firstAddress := by
  decide +kernel

end Controller

end AddressRegistry
