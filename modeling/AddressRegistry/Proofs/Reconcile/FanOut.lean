import AddressRegistry.Proofs.Reconcile.History
import AddressRegistry.Proofs.Reconcile.Waking
import AddressRegistry.Proofs.Resource.Naming
import AddressRegistry.Proofs.Retry.Delays
import Mathlib.Data.List.Nodup

/-!
# Who depends on a change

A scope depends on its tenant, a pool or claim on its scope, and a pool also on the claims beside it, in one
namespace and by the names of the parents (`ObjectId.DependsOn`). The fan-out filters by placements instead; for
names that parse the two agree (`Controller.concerns_iff_dependsOn`). So a fan-out without faults wakes exactly
the stored objects that depend on the changed one, and touches nothing else
(`Controller.fanOut_wakes_dependents`).

What it comes to that some objects are woken is `Controller.Wakes`: their retry counters are zero, their keys are
added to the queues of their kinds, each once, and all else is as before.
-/

namespace AddressRegistry

/-- An object depends on a changed one: the scopes of a tenant, the pools and claims of a scope, and the pools
in the scope of a claim do, in the same namespace. -/
def ObjectId.DependsOn (d id : ObjectId) : Prop :=
  d.key.space = id.key.space ∧
    match id.kind with
    | .tenant => d.kind = .scope ∧ ResourceName.parent d.kind d.key.name = .ok (some id.key.name)
    | .scope =>
      (d.kind = .pool ∨ d.kind = .claim) ∧ ResourceName.parent d.kind d.key.name = .ok (some id.key.name)
    | .claim =>
      d.kind = .pool ∧ ∃ scope, ResourceName.parent d.kind d.key.name = .ok (some scope) ∧
        ResourceName.parent id.kind id.key.name = .ok (some scope)
    | .pool => False

/-! ## Listings -/

namespace Store

variable {s : Store} {o : Object}

/-- A listing of a namespace shows what is stored there of the kind. -/
theorem mem_list_iff {kind : Kind} {space : String} :
    o ∈ s.list kind (some space) ↔
      ∃ id, s.get? id = some o ∧ id.kind = kind ∧ id.key.space = space := by
  simp only [list, SortedMap.values, List.mem_map, Prod.exists, SortedMap.mem_entries_iff,
    SortedMap.get?_filter, Option.filter_eq_some_iff, Bool.and_eq_true, beq_iff_eq, Option.all_some]
  constructor
  · rintro ⟨id, _, ⟨hget, hkind, hspace⟩, rfl⟩
    exact ⟨id, hget, hkind, hspace.symm⟩
  · rintro ⟨id, hget, hkind, hspace⟩
    exact ⟨id, o, ⟨hget, hkind, hspace.symm⟩, rfl⟩

/-- Where objects stand under their own kinds and keys, a listing shows each once. -/
theorem Keyed.nodup_list (h : s.Keyed) (kind : Kind) (space : String) :
    ((s.list kind (some space)).map fun o => (⟨kind, o.key⟩ : ObjectId)).Nodup := by
  let listed := s.objects.filter fun id _ => id.kind == kind && (some space).all (· == id.key.space)
  have hkeys : (s.list kind (some space)).map (fun o => (⟨kind, o.key⟩ : ObjectId)) = listed.keys := by
    rw [list, SortedMap.values, List.map_map]
    refine List.map_congr_left fun e he => ?_
    have hget := SortedMap.mem_entries_iff.1 he
    rw [SortedMap.get?_filter, Option.filter_eq_some_iff, Bool.and_eq_true, beq_iff_eq] at hget
    obtain ⟨hget, rfl, -⟩ := hget
    have hid := h e.1 e.2 hget
    exact congrArg (ObjectId.mk e.1.kind) (congrArg ObjectId.key hid)
  rw [hkeys]
  exact listed.nodup_keys

end Store

/-! ## What waking does -/

namespace Queues

/-- A queue is given the keys of the objects of its kind, in the order in which these come. -/
theorem get_addAll (q : Queues) (ids : List ObjectId) (kind : Kind) :
    (q.addAll ids).get kind =
      ((ids.filter (·.kind = kind)).map (·.key)).foldl WorkQueue.add (q.get kind) := by
  induction ids generalizing q with
  | nil => rfl
  | cons id rest ih =>
    have hrest := ih (q.modify id.kind (·.add id.key))
    by_cases hkind : id.kind = kind
    · subst hkind
      simpa [addAll] using hrest
    · rw [get_modify_of_ne _ _ (Ne.symm hkind)] at hrest
      simpa [addAll, hkind] using hrest

end Queues

namespace Controller

/-- Some objects were woken, and nothing else happened. -/
structure Wakes (c : Controller) (ids : List ObjectId) (c' : Controller) : Prop where
  access : c'.access = c.access
  indexes : c'.indexes = c.indexes
  readings : c'.readings = c.readings
  policy : c'.ladder.policy = c.ladder.policy
  /-- The counters of the objects are zero. -/
  reset : ∀ id ∈ ids, c'.ladder.counter? (id.kind.retryName id.key) = some 0
  /-- No other counter changed. -/
  kept : ∀ name, (∀ id ∈ ids, id.kind.retryName id.key ≠ name) →
    c'.ladder.counter? name = c.ladder.counter? name
  /-- The keys of the objects were added to the queues of their kinds, and no others. -/
  queues : ∀ kind, c'.queues.get kind =
    ((ids.filter (·.kind = kind)).map (·.key)).foldl WorkQueue.add (c.queues.get kind)

variable {c c' : Controller} {id : ObjectId} {ids : List ObjectId}

/-- Waking does not read the clock. -/
theorem readings_wakeAll (c : Controller) (ids : List ObjectId) : (c.wakeAll ids).readings = c.readings := by
  induction ids generalizing c with
  | nil => rfl
  | cons id rest ih => exact ih (c.wake id)

/-- Waking puts the counters of the objects back to zero. -/
theorem ladder_wakeAll (c : Controller) (ids : List ObjectId) :
    (c.wakeAll ids).ladder = (ids.map fun id => id.kind.retryName id.key).foldl Ladder.reset c.ladder := by
  induction ids generalizing c with
  | nil => rfl
  | cons id rest ih => exact ih (c.wake id)

end Controller

namespace Ladder

/-- Putting counters back leaves the delays of the ladder alone. -/
theorem policy_foldl_reset (l : Ladder) (names : List String) : (names.foldl reset l).policy = l.policy := by
  induction names generalizing l with
  | nil => rfl
  | cons name rest ih => exact ih (l.reset name)

/-- A counter is zero when its name was put back, and is what it was otherwise. -/
theorem counter?_foldl_reset (l : Ladder) (names : List String) (name : String) :
    (names.foldl reset l).counter? name = if name ∈ names then some 0 else l.counter? name := by
  induction names generalizing l with
  | nil => rfl
  | cons first rest ih =>
    rw [List.foldl_cons, ih, counter?_reset]
    by_cases hrest : name ∈ rest <;> by_cases hfirst : name = first <;> simp [hrest, hfirst]

end Ladder

namespace Controller

variable {c c' : Controller} {id : ObjectId} {ids : List ObjectId}

/-- Waking some objects wakes these objects. -/
theorem wakes_wakeAll (c : Controller) (ids : List ObjectId) : c.Wakes ids (c.wakeAll ids) where
  access := access_wakeAll c ids
  indexes := indexes_wakeAll c ids
  readings := readings_wakeAll c ids
  policy := by rw [ladder_wakeAll, Ladder.policy_foldl_reset]
  reset id hid := by
    rw [ladder_wakeAll, Ladder.counter?_foldl_reset, if_pos (List.mem_map_of_mem hid)]
  kept name hname := by
    rw [ladder_wakeAll, Ladder.counter?_foldl_reset, if_neg]
    simpa using hname
  queues kind := by rw [queues_wakeAll, Queues.get_addAll]

/-- An open queue marks the keys of the woken objects. -/
theorem Wakes.contains_dirty_iff {d : ObjectId} (h : c.Wakes ids c')
    (hopen : (c.queues.get d.kind).shutDown = false) :
    (c'.queues.get d.kind).dirty.contains d.key = true ↔
      (c.queues.get d.kind).dirty.contains d.key = true ∨ d ∈ ids := by
  rw [h.queues, WorkQueue.contains_dirty_foldl_add]
  refine or_congr_right ((and_iff_right hopen).trans ?_)
  simp only [List.mem_map, List.mem_filter, decide_eq_true_eq]
  constructor
  · rintro ⟨id, ⟨hid, hkind⟩, hkey⟩
    obtain ⟨kind, key⟩ := id
    obtain rfl : kind = d.kind := hkind
    obtain rfl : key = d.key := hkey
    exact hid
  · intro hid
    exact ⟨d, ⟨hid, rfl⟩, rfl⟩

/-- The objects of some kinds that a change at a place concerns. -/
def concerned (c : Controller) (kind : Kind) (space : String) (source : Placement) (kinds : List Kind) :
    List ObjectId :=
  kinds.flatMap fun dependent =>
    ((c.access.store.list dependent (some space)).filter (concerns kind source dependent)).map
      fun o => ⟨dependent, o.key⟩

/-- Without faults a fan-out over some kinds goes to the end, and wakes and counts what it finds. -/
theorem fanOutOver_eq (hrules : c.access.rules = []) (kind : Kind) (space : String) (source : Placement)
    (kinds : List Kind) :
    c.fanOutOver kind space source kinds
      = (.ok (c.concerned kind space source kinds).length,
          c.wakeAll (c.concerned kind space source kinds)) := by
  induction kinds generalizing c with
  | nil => rfl
  | cons dependent rest ih =>
    let woken := ((c.access.store.list dependent (some space)).filter (concerns kind source dependent)).map
      fun o => (⟨dependent, o.key⟩ : ObjectId)
    have hfan : c.fanOutTo kind space source dependent = .ok (woken.length, c.wakeAll woken) := by
      unfold fanOutTo
      rw [Access.list_of_rules hrules, ← foldl_wake_eq_wakeAll]
      simp [woken, bind, Except.bind, pure, Except.pure]
    have hrest := ih (c := c.wakeAll woken) (by rw [access_wakeAll, hrules])
    have hconcerned : (c.wakeAll woken).concerned kind space source rest = c.concerned kind space source rest := by
      unfold concerned
      rw [access_wakeAll]
    have hcons : c.concerned kind space source (dependent :: rest)
        = woken ++ c.concerned kind space source rest := by
      simp [concerned, woken]
    unfold fanOutOver
    rw [hfan]
    dsimp only
    rw [hrest, hconcerned, hcons, wakeAll_append, List.length_append]

/-! ## Who is concerned -/

section

variable {kind dependent : Kind} {source : Placement} {o : Object} {lead own : List String}

/-- For a name of known parts, what the filter compares is the place of these parts. -/
theorem concerns_of_parts (h : ResourceName.Parts dependent o.info.name lead own) :
    concerns kind source dependent o =
      if kind = .tenant then source.sameTenant (ResourceName.ofParts lead own).placement
      else source.sameScope (ResourceName.ofParts lead own).placement := by
  unfold concerns
  rw [h.parse_eq_ok]
  cases kind <;> rfl

/-- Whoever is concerned has a name that can be parsed. -/
theorem exists_parts_of_concerns (h : concerns kind source dependent o = true) :
    ∃ lead own, ResourceName.Parts dependent o.info.name lead own := by
  unfold concerns at h
  split at h
  · rename_i name hname
    obtain ⟨lead, own, hparts, -⟩ := ResourceName.parse_eq_ok_iff.1 hname
    exact ⟨lead, own, hparts⟩
  · cases h

/-- For the dependent kinds, the filter on placements is the relation between names. -/
theorem concerns_iff_dependsOn {name : ResourceName}
    (hname : ResourceName.parse id.kind id.key.name = .ok name) (hkind : dependent ∈ id.kind.dependents)
    (hspace : o.info.space = id.key.space) :
    concerns id.kind name.placement dependent o = true ↔ (⟨dependent, o.key⟩ : ObjectId).DependsOn id := by
  obtain ⟨lead, own, hparts, rfl⟩ := ResourceName.parse_eq_ok_iff.1 hname
  obtain ⟨kind, key⟩ := id
  by_cases hparse : ∃ lead' own', ResourceName.Parts dependent o.info.name lead' own'
  · obtain ⟨lead', own', hparts'⟩ := hparse
    rw [concerns_of_parts hparts']
    cases kind with
    | tenant =>
      obtain rfl : dependent = .scope := List.mem_singleton.1 hkind
      rw [if_pos rfl, ResourceName.sameTenant_iff hparts hparts']
      have hparent := hparts.parent_eq_iff_alike hparts' (by decide) rfl
      exact ⟨fun h => ⟨hspace, rfl, hparent.2 h⟩, fun h => hparent.1 h.2.2⟩
    | scope =>
      have hscope : Kind.scope ≠ .tenant := by decide
      have hdependent : dependent = .pool ∨ dependent = .claim := by
        simpa [Kind.dependents] using hkind
      have hne : dependent ≠ .tenant := by
        rcases hdependent with rfl | rfl <;> decide
      have hdepth : ResourceName.depth .scope = ResourceName.depth dependent - 1 := by
        rcases hdependent with rfl | rfl <;> rfl
      rw [if_neg hscope, ResourceName.sameScope_iff hparts hparts' hscope hne]
      have hparent := hparts.parent_eq_iff_alike hparts' hne hdepth
      exact ⟨fun h => ⟨hspace, hdependent, hparent.2 h⟩, fun h => hparent.1 h.2.2⟩
    | claim =>
      have hclaim : Kind.claim ≠ .tenant := by decide
      obtain rfl : dependent = .pool := List.mem_singleton.1 hkind
      rw [if_neg hclaim, ResourceName.sameScope_iff hparts hparts' hclaim (by decide), eq_comm]
      have hparent := hparts'.exists_parent_iff_alike hparts (by decide) hclaim
      exact ⟨fun h => ⟨hspace, rfl, hparent.2 h⟩, fun h => hparent.1 h.2.2⟩
    | pool => cases hkind
  · -- a name that does not parse has neither a placement nor a parent
    refine iff_of_false (fun h => hparse (exists_parts_of_concerns h)) ?_
    rintro ⟨-, h⟩
    cases kind with
    | tenant => exact hparse (ResourceName.exists_parts_of_parent h.2)
    | scope => exact hparse (ResourceName.exists_parts_of_parent h.2)
    | claim =>
      obtain ⟨-, scope, hparent, -⟩ := h
      exact hparse (ResourceName.exists_parts_of_parent hparent)
    | pool => exact h

end

/-! ## The fan-out -/

section

variable {name : ResourceName} {d : ObjectId}

/-- Dependents are of dependent kinds. -/
theorem kind_mem_dependents (h : d.DependsOn id) : d.kind ∈ id.kind.dependents := by
  obtain ⟨-, h⟩ := h
  obtain ⟨kind, key⟩ := id
  cases kind with
  | tenant => simp [Kind.dependents, h.1]
  | scope => rcases h.1 with hkind | hkind <;> simp [Kind.dependents, hkind]
  | claim => simp [Kind.dependents, h.1]
  | pool => exact h.elim

/-- The objects that a change concerns are the stored ones that depend on the changed object. -/
theorem mem_concerned_iff (hkeyed : c.access.store.Keyed)
    (hname : ResourceName.parse id.kind id.key.name = .ok name) :
    d ∈ c.concerned id.kind id.key.space name.placement id.kind.dependents ↔
      (∃ o, c.access.store.get? d = some o) ∧ d.DependsOn id := by
  simp only [concerned, List.mem_flatMap, List.mem_map, List.mem_filter, Store.mem_list_iff]
  constructor
  · rintro ⟨dependent, hkind, o, ⟨⟨id', hget, rfl, hspace⟩, hconcerns⟩, rfl⟩
    obtain rfl : o.id = id' := hkeyed id' o hget
    exact ⟨⟨o, hget⟩, (concerns_iff_dependsOn hname hkind hspace).1 hconcerns⟩
  · rintro ⟨⟨o, hget⟩, hdepends⟩
    obtain rfl : o.id = d := hkeyed d o hget
    have hkind := kind_mem_dependents hdepends
    exact ⟨o.kind, hkind, o, ⟨⟨o.id, hget, rfl, hdepends.1⟩,
      (concerns_iff_dependsOn hname hkind hdepends.1).2 hdepends⟩, rfl⟩

/-- A fan-out finds nothing twice: a listing shows an object once, and the dependent kinds differ. -/
theorem nodup_concerned (hkeyed : c.access.store.Keyed) (kind : Kind) (space : String) (source : Placement) :
    (c.concerned kind space source kind.dependents).Nodup := by
  refine List.nodup_flatMap.2 ⟨fun dependent _ => ?_, ?_⟩
  · exact (hkeyed.nodup_list dependent space).sublist (List.filter_sublist.map _)
  · have hdisjoint : ∀ {a b : Kind}, a ≠ b → ∀ objects objects' : List Object,
        (objects.map fun o => (⟨a, o.key⟩ : ObjectId)).Disjoint (objects'.map fun o => ⟨b, o.key⟩) := by
      intro a b hne objects objects' id hid hid'
      obtain ⟨o, -, rfl⟩ := List.mem_map.1 hid
      obtain ⟨o', -, heq⟩ := List.mem_map.1 hid'
      exact hne (congrArg ObjectId.kind heq).symm
    have hkinds : kind.dependents.Nodup := by cases kind <;> decide
    exact hkinds.imp fun hne => hdisjoint hne _ _

/-- **A fan-out wakes exactly the dependents.** Without faults it answers the number of the stored objects that
depend on the changed one; their counters go back to zero, their keys are added to the queues of their kinds, and
nothing else changes. The filter on placements agrees with the relation between the names. A store keeps each
object under its own kind and key (`Store.Keyed`). -/
theorem fanOut_wakes_dependents (c : Controller) (hrules : c.access.rules = [])
    (hkeyed : c.access.store.Keyed) (hopen : ∀ kind, (c.queues.get kind).shutDown = false) (id : ObjectId)
    (hname : ResourceName.parse id.kind id.key.name = .ok name) :
    (∃ ids : List ObjectId, ids.Nodup ∧
      (∀ d, d ∈ ids ↔ (∃ o, c.access.store.get? d = some o) ∧ d.DependsOn id) ∧
      (c.fanOut id).1 = .ok ids.length ∧ c.Wakes ids (c.fanOut id).2 ∧
      ∀ d : ObjectId, ((c.fanOut id).2.queues.get d.kind).dirty.contains d.key = true ↔
        (c.queues.get d.kind).dirty.contains d.key = true ∨ d ∈ ids) ∧
    ∀ dependent ∈ id.kind.dependents, ∀ o : Object, o.info.space = id.key.space →
      (concerns id.kind name.placement dependent o = true ↔ (⟨dependent, o.key⟩ : ObjectId).DependsOn id) := by
  let ids := c.concerned id.kind id.key.space name.placement id.kind.dependents
  have hfan : c.fanOut id = (.ok ids.length, c.wakeAll ids) := by
    unfold fanOut fanOutFrom
    rw [hname]
    exact fanOutOver_eq hrules _ _ _ _
  have hwakes : c.Wakes ids (c.wakeAll ids) := wakes_wakeAll c ids
  refine ⟨⟨ids, nodup_concerned hkeyed _ _ _, fun d => mem_concerned_iff hkeyed hname, ?_⟩,
    fun dependent hkind o hspace => concerns_iff_dependsOn hname hkind hspace⟩
  rw [hfan]
  exact ⟨rfl, hwakes, fun d => hwakes.contains_dirty_iff (hopen d.kind)⟩

/-- A change of the sample scope wakes its pool and its claim. -/
theorem fanOut_wakes_dependents_sample :
    let c := Lab.after Lab.allocating
    ∃ ids : List ObjectId, (c.fanOut Lab.scopeId).1 = .ok ids.length ∧ ids.length = 2 ∧
      Lab.poolId ∈ ids ∧ Lab.edgeId ∈ ids ∧ c.Wakes ids (c.fanOut Lab.scopeId).2 := by
  intro c
  have hsound : c.Sound := (Lab.after_reachable _).sound
  obtain ⟨hqueues, hanswer, hpool, hedge⟩ :
      (∀ kind ∈ [Kind.tenant, .scope, .pool, .claim], (c.queues.get kind).shutDown = false) ∧
        (c.fanOut Lab.scopeId).1 = .ok 2 ∧ (c.access.store.get? Lab.poolId).isSome = true ∧
          (c.access.store.get? Lab.edgeId).isSome = true := by decide +kernel
  have hopen : ∀ kind, (c.queues.get kind).shutDown = false := by
    intro kind
    refine hqueues kind ?_
    cases kind <;> simp
  have hname : ResourceName.parse Lab.scopeId.kind Lab.scopeId.key.name
      = .ok ⟨none, none, none, "acme", some "lab", none⟩ := by decide +kernel
  obtain ⟨⟨ids, -, hids, hcount, hwakes, -⟩, -⟩ :=
    fanOut_wakes_dependents c hsound.rules hsound.keyed hopen Lab.scopeId hname
  refine ⟨ids, hcount, ?_,
    (hids _).2 ⟨Option.isSome_iff_exists.1 hpool, rfl, Or.inl rfl, by decide +kernel⟩,
    (hids _).2 ⟨Option.isSome_iff_exists.1 hedge, rfl, Or.inr rfl, by decide +kernel⟩, hwakes⟩
  exact Except.ok.inj (hcount.symm.trans hanswer)

end

end Controller

end AddressRegistry
