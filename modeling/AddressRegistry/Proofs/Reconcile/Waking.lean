import AddressRegistry.Proofs.Outcome
import AddressRegistry.Proofs.Queue.Sound
import AddressRegistry.Reconcile.Round

/-!
# Who is woken

Whatever sets passes off adds keys to work queues, and workers take them from there
(`Controller.takeKey_eq_some_iff`). A fan-out wakes the objects of dependent kinds that it finds
(`Controller.dependentsOf`) and does nothing else (`Controller.tryFanOut_eq_dependentsOf`); an object is never
of a kind that depends on its own kind (`Kind.ne_of_mem_dependents`), so no fan-out adds to the queue of the
kind that it starts from. A listing of everything queues every stored object (`Controller.enqueueAll_eq`).
-/

namespace AddressRegistry

/-- No kind depends on itself. -/
theorem Kind.ne_of_mem_dependents {kind dependent : Kind} (h : dependent ∈ kind.dependents) :
    dependent ≠ kind := by
  cases kind <;> cases dependent <;> simp_all [dependents]

/-- Two objects of one kind have different keys. -/
theorem ObjectId.key_ne_of_ne {id id' : ObjectId} (h : id' ≠ id) (hkind : id'.kind = id.kind) :
    id'.key ≠ id.key := by
  intro hkey
  obtain ⟨kind, key⟩ := id
  obtain ⟨kind', key'⟩ := id'
  cases hkind
  cases hkey
  exact h rfl

/-! ## The queues of all kinds -/

namespace Queues

variable {q : Queues} {kind kind' : Kind} {ids : List ObjectId} {id : ObjectId}

/-- The queue of a kind is what it was changed to. -/
@[simp] theorem get_modify_self (q : Queues) (kind : Kind) (f : WorkQueue → WorkQueue) :
    (q.modify kind f).get kind = f (q.get kind) := by
  cases kind <;> rfl

/-- The queues of the other kinds are not changed. -/
theorem get_modify_of_ne (q : Queues) (f : WorkQueue → WorkQueue) (h : kind' ≠ kind) :
    (q.modify kind f).get kind' = q.get kind' := by
  cases kind <;> cases kind' <;> first | rfl | exact absurd rfl h

/-- Which queue was changed depends on the kind only. -/
theorem get_modify (q : Queues) (kind kind' : Kind) (f : WorkQueue → WorkQueue) :
    (q.modify kind f).get kind' = if kind' = kind then f (q.get kind') else q.get kind' := by
  split
  · rename_i h
    rw [h, get_modify_self]
  · rename_i h
    exact get_modify_of_ne q f h

/-- Add the keys of some objects, each to the queue of its kind. -/
def addAll (q : Queues) (ids : List ObjectId) : Queues :=
  ids.foldl (fun q id => q.modify id.kind (·.add id.key)) q

/-- No key is added when there is no object. -/
theorem addAll_nil (q : Queues) : q.addAll [] = q := rfl

/-- Adding some objects and then others is adding them all. -/
theorem addAll_append (q : Queues) (ids ids' : List ObjectId) :
    q.addAll (ids ++ ids') = (q.addAll ids).addAll ids' :=
  List.foldl_append

/-- What every addition of a key keeps holds of a queue afterwards. -/
theorem get_addAll_induction {P : WorkQueue → Prop} (hadd : ∀ q key, P q → P (q.add key))
    (h : P (q.get kind)) (ids : List ObjectId) : P ((q.addAll ids).get kind) := by
  induction ids generalizing q with
  | nil => exact h
  | cons id rest ih =>
    refine ih ?_
    by_cases hkind : kind = id.kind
    · subst hkind
      rw [get_modify_self]
      exact hadd _ _ h
    · rwa [get_modify_of_ne _ _ hkind]

/-- The queues of other kinds are left alone. -/
theorem get_addAll_of_ne (q : Queues) (h : ∀ id ∈ ids, id.kind ≠ kind) :
    (q.addAll ids).get kind = q.get kind := by
  induction ids generalizing q with
  | nil => rfl
  | cons id rest ih =>
    obtain ⟨hid, hrest⟩ := List.forall_mem_cons.1 h
    exact (ih _ hrest).trans (get_modify_of_ne _ _ hid.symm)

/-- Queues that objects are added to only grow. -/
theorem grown_addAll (q : Queues) (ids : List ObjectId) (kind : Kind) :
    (q.get kind).Grown ((q.addAll ids).get kind) :=
  get_addAll_induction (P := (q.get kind).Grown) (fun _ key h => h.add key) (.refl _) ids

/-- An open queue marks what it takes in. -/
theorem contains_dirty_addAll (hopen : (q.get id.kind).shutDown = false) (hid : id ∈ ids) :
    ((q.addAll ids).get id.kind).dirty.contains id.key = true := by
  obtain ⟨before, after, rfl⟩ := List.append_of_mem hid
  have hgrown := q.grown_addAll before id.kind
  rw [addAll_append]
  refine (grown_addAll _ after id.kind).dirty id.key ?_
  rw [get_modify_self]
  exact WorkQueue.contains_dirty_add.2 (Or.inr ⟨hgrown.shutDown.trans hopen, rfl⟩)

end Queues

namespace Controller

variable {c : Controller} {id : ObjectId}

/-! ## Waking -/

/-- Wake some objects, one after the other. -/
def wakeAll (c : Controller) (ids : List ObjectId) : Controller := ids.foldl wake c

/-- A loop over listed objects wakes them under the kind of the list. -/
theorem foldl_wake_eq_wakeAll (c : Controller) (kind : Kind) (objects : List Object) :
    objects.foldl (fun c o => c.wake ⟨kind, o.key⟩) c = c.wakeAll (objects.map fun o => ⟨kind, o.key⟩) :=
  List.foldl_map.symm

/-- Waking some objects and then others is waking them all. -/
theorem wakeAll_append (c : Controller) (ids ids' : List ObjectId) :
    c.wakeAll (ids ++ ids') = (c.wakeAll ids).wakeAll ids' :=
  List.foldl_append

/-- Waking writes nothing to the store. -/
@[simp] theorem access_wakeAll (c : Controller) (ids : List ObjectId) :
    (c.wakeAll ids).access = c.access := by
  induction ids generalizing c with
  | nil => rfl
  | cons id rest ih => exact ih (c.wake id)

/-- Waking touches no index. -/
@[simp] theorem indexes_wakeAll (c : Controller) (ids : List ObjectId) :
    (c.wakeAll ids).indexes = c.indexes := by
  induction ids generalizing c with
  | nil => rfl
  | cons id rest ih => exact ih (c.wake id)

/-- Waking adds the keys of the objects, each to the queue of its kind. -/
@[simp] theorem queues_wakeAll (c : Controller) (ids : List ObjectId) :
    (c.wakeAll ids).queues = c.queues.addAll ids := by
  induction ids generalizing c with
  | nil => rfl
  | cons id rest ih => exact ih (c.wake id)

/-- What every waking keeps holds after some objects were woken. -/
theorem wakeAll_induction {P : Controller → Prop} (hwake : ∀ c id, P c → P (c.wake id)) (h : P c)
    (ids : List ObjectId) : P (c.wakeAll ids) := by
  induction ids generalizing c with
  | nil => exact h
  | cons id rest ih => exact ih (hwake c id h)

/-! ## Fan-outs -/

/-- The objects of some dependent kinds that a fan-out wakes: it goes from kind to kind until one cannot be
listed. -/
def concernedOver (c : Controller) (kind : Kind) (space : String) (source : Placement) :
    List Kind → List ObjectId
  | [] => []
  | dependent :: rest =>
    match c.access.list dependent (some space) with
    | .error _ => []
    | .ok objects =>
      ((objects.filter (concerns kind source dependent)).map fun o => ⟨dependent, o.key⟩)
        ++ c.concernedOver kind space source rest

/-- The objects that a fan-out of an object wakes. -/
def dependentsOf (c : Controller) (id : ObjectId) : List ObjectId :=
  match ResourceName.parse id.kind id.key.name with
  | .error _ => []
  | .ok name => c.concernedOver id.kind id.key.space name.placement id.kind.dependents

/-- What a fan-out over some kinds finds depends on the store and its faults only. -/
theorem concernedOver_congr {c' : Controller} (h : c'.access = c.access) (kind : Kind) (space : String)
    (source : Placement) (kinds : List Kind) :
    c'.concernedOver kind space source kinds = c.concernedOver kind space source kinds := by
  induction kinds with
  | nil => rfl
  | cons dependent rest ih =>
    unfold concernedOver
    rw [h, ih]

/-- Who depends on an object is read off the store and its faults only. -/
theorem dependentsOf_congr {c' : Controller} (h : c'.access = c.access) (id : ObjectId) :
    c'.dependentsOf id = c.dependentsOf id := by
  unfold dependentsOf
  split
  · rfl
  · exact concernedOver_congr h _ _ _ _

/-- A fan-out over some kinds finds objects of these kinds. -/
theorem mem_kinds_of_mem_concernedOver {kind : Kind} {space : String} {source : Placement} {kinds : List Kind}
    (h : id ∈ c.concernedOver kind space source kinds) : id.kind ∈ kinds := by
  induction kinds with
  | nil => cases h
  | cons dependent rest ih =>
    unfold concernedOver at h
    split at h
    · cases h
    · rcases List.mem_append.1 h with h | h
      · obtain ⟨o, -, rfl⟩ := List.mem_map.1 h
        exact List.mem_cons_self
      · exact List.mem_cons_of_mem _ (ih h)

/-- Who depends on an object is of a dependent kind. -/
theorem mem_dependents_of_mem_dependentsOf {d : ObjectId} (h : d ∈ c.dependentsOf id) :
    d.kind ∈ id.kind.dependents := by
  unfold dependentsOf at h
  split at h
  · cases h
  · exact mem_kinds_of_mem_concernedOver h

/-- A fan-out over some kinds wakes what it finds, also when it is cut short by a listing that fails. -/
theorem fanOutOver_eq_concernedOver (c : Controller) (kind : Kind) (space : String) (source : Placement)
    (kinds : List Kind) :
    (c.fanOutOver kind space source kinds).2 = c.wakeAll (c.concernedOver kind space source kinds) := by
  induction kinds generalizing c with
  | nil => rfl
  | cons dependent rest ih =>
    unfold fanOutOver fanOutTo concernedOver
    cases hlist : c.access.list dependent (some space) with
    | error f => rfl
    | ok objects =>
      let woken := (objects.filter (concerns kind source dependent)).map
        fun o => (⟨dependent, o.key⟩ : ObjectId)
      have hsame := concernedOver_congr (access_wakeAll c woken) kind space source rest
      dsimp only [bind, Except.bind, pure, Except.pure]
      rw [foldl_wake_eq_wakeAll, wakeAll_append, ← hsame, ← ih]
      split <;> rename_i hrest <;> rw [hrest]

/-- The fan-out of an object wakes those who depend on it, when its name can be parsed. -/
theorem fanOut_eq_dependentsOf (c : Controller) (id : ObjectId) :
    (c.fanOut id).2 = c.wakeAll (c.dependentsOf id) := by
  unfold fanOut dependentsOf
  cases ResourceName.parse id.kind id.key.name with
  | error e => rfl
  | ok name => exact c.fanOutOver_eq_concernedOver _ _ _ _

/-- A fan-out whose errors are no concern of the caller wakes the same objects. -/
theorem tryFanOut_eq_dependentsOf (c : Controller) (id : ObjectId) :
    (c.tryFanOut id).2 = c.wakeAll (c.dependentsOf id) := by
  rw [← fanOut_eq_dependentsOf]
  unfold tryFanOut
  split <;> rename_i hanswer <;> rw [hanswer]

/-- All that a fan-out over some kinds does is wake objects of these kinds. -/
theorem fanOutOver_eq_wakeAll (c : Controller) (kind : Kind) (space : String) (source : Placement)
    (kinds : List Kind) :
    ∃ ids : List ObjectId, (∀ id ∈ ids, id.kind ∈ kinds) ∧
      (c.fanOutOver kind space source kinds).2 = c.wakeAll ids :=
  ⟨_, fun _ => mem_kinds_of_mem_concernedOver, c.fanOutOver_eq_concernedOver kind space source kinds⟩

/-- A fan-out wakes some objects of dependent kinds. -/
theorem tryFanOut_eq_wakeAll (c : Controller) (id : ObjectId) :
    ∃ ids : List ObjectId, (∀ i ∈ ids, i.kind ∈ id.kind.dependents) ∧
      (c.tryFanOut id).2 = c.wakeAll ids :=
  ⟨_, fun _ => mem_dependents_of_mem_dependentsOf, c.tryFanOut_eq_dependentsOf id⟩

/-- What every waking keeps holds after a fan-out. -/
theorem tryFanOut_induction {P : Controller → Prop} (hwake : ∀ c id, P c → P (c.wake id)) (h : P c)
    (id : ObjectId) : P (c.tryFanOut id).2 := by
  obtain ⟨ids, -, hfan⟩ := c.tryFanOut_eq_wakeAll id
  rw [hfan]
  exact wakeAll_induction hwake h ids

end Controller

/-! ## Queueing everything -/

/-- The kinds and keys under which the objects of some kinds are listed. -/
def Store.listed (s : Store) (kinds : List Kind) : List ObjectId :=
  kinds.flatMap fun kind => (s.list kind none).map fun o => ⟨kind, o.key⟩

/-- Every object that stands under its own kind and key is listed. -/
theorem Store.mem_listed {s : Store} {id : ObjectId} {o : Object} (hget : s.get? id = some o)
    (hid : o.id = id) : id ∈ s.listed Kind.all := by
  have hlisted : o ∈ s.list id.kind none := by
    refine List.mem_map.2 ⟨(id, o), SortedMap.mem_entries_iff.2 ?_, rfl⟩
    rw [SortedMap.get?_filter, show s.objects.get? id = some o from hget]
    simp
  refine List.mem_flatMap.2 ⟨id.kind, ?_, List.mem_map.2 ⟨o, hlisted, ?_⟩⟩
  · cases id.kind <;> decide
  · subst hid
    rfl

namespace Controller

variable {c : Controller}

/-- Without fault rules, queueing some kinds succeeds and queues what is listed. -/
theorem enqueueKinds_eq (hrules : c.access.rules = []) (kinds : List Kind) :
    ∃ n, c.enqueueKinds kinds
      = (.ok n, { c with queues := c.queues.addAll (c.access.store.listed kinds) }) := by
  induction kinds generalizing c with
  | nil => exact ⟨0, rfl⟩
  | cons kind rest ih =>
    have henqueue : ∀ (objects : List Object) (c : Controller),
        objects.foldl (fun c o => c.enqueue ⟨kind, o.key⟩) c
          = { c with queues := c.queues.addAll (objects.map fun o => ⟨kind, o.key⟩) } := by
      intro objects
      induction objects with
      | nil => exact fun c => rfl
      | cons o objects ih => exact fun c => ih _
    have hlist : c.access.list kind none = .ok (c.access.store.list kind none) := by
      unfold Access.list Access.guarded Access.effect?
      rw [hrules]
      rfl
    let queued := (c.access.store.list kind none).map fun o => (⟨kind, o.key⟩ : ObjectId)
    obtain ⟨n, hrest⟩ := ih (c := { c with queues := c.queues.addAll queued }) hrules
    refine ⟨(c.access.store.list kind none).length + n, ?_⟩
    unfold enqueueKinds
    rw [hlist]
    dsimp only
    rw [henqueue, hrest]
    dsimp only
    rw [← Queues.addAll_append]
    rfl

/-- Without fault rules, queueing everything queues every listed object. -/
theorem enqueueAll_eq (hrules : c.access.rules = []) :
    ∃ n, c.enqueueAll
      = (.ok n, { c with queues := c.queues.addAll (c.access.store.listed Kind.all) }) :=
  enqueueKinds_eq hrules Kind.all

/-! ## Handing keys out -/

/-- A worker is handed the first key that waits, and the queue notes that. -/
theorem takeKey_eq_some_iff {c' : Controller} {kind : Kind} {key : ObjectKey} :
    c.takeKey kind = some (key, c') ↔
      (∃ rest, (c.queues.get kind).waiting = key :: rest) ∧
        c' = c.withQueue kind (·.handed key) := by
  have hwith : ∀ key', (c.withQueue kind fun _ => (c.queues.get kind).handed key')
      = c.withQueue kind (·.handed key') := by
    intro key'
    cases kind <;> rfl
  unfold takeKey
  cases hwaiting : (c.queues.get kind).waiting with
  | nil =>
    rw [WorkQueue.take_of_nil hwaiting]
    refine iff_of_false ?_ fun ⟨⟨_, h⟩, _⟩ => nomatch h
    split
    · rename_i heq
      split at heq <;> cases heq
    · nofun
  | cons first rest =>
    rw [WorkQueue.take_of_cons hwaiting]
    dsimp only
    rw [hwith, Option.some.injEq, Prod.mk.injEq]
    constructor
    · rintro ⟨rfl, rfl⟩
      exact ⟨⟨rest, rfl⟩, rfl⟩
    · rintro ⟨⟨_, h⟩, rfl⟩
      cases h
      exact ⟨rfl, rfl⟩

end Controller

end AddressRegistry
