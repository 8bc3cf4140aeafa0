import AddressRegistry.Proofs.Reconcile.History
import AddressRegistry.Proofs.Service.Crew
import Mathlib.Data.List.Induction

/-!
# No object is forgotten

While an engine is at work, every stored object that is not finalized (`Object.Live`) will be looked at again:
a change of it is still to be delivered, its key is marked, a worker holds it, or a running timer will add it
(`Crew.Attends`, `Crew.attends_of_live`). Clients write at any time, and workers come and go in any order.

There is one exception, and it concerns one object at a time. A client may put the registry's finalizer on an
object that was finalized before, and the store tells nobody of such a write (`Crew.PutBack`). Then the object
is forgotten (`Crew.marked_object_is_forgotten`) until a change of it is logged; all others are looked after.

A pass may end without asking for another one only when it has finalized what it found. By then another
object may stand in its place, or the deletion may not have been requested of it (`Stage.Overlooks`). Such an
object is due: it came into its place by a change that is to be delivered, or whose delivery has marked the
key. So the proof has two parts, each with one lemma for every move: what is true of a crew whatever clients
write (`Crew.Sound`), and what covers one object (`Crew.Covers`).
-/

namespace AddressRegistry

/-! ## Objects that need attention -/

/-- An object that is not finalized: it is to stay, or it still carries the registry's finalizer. -/
def Object.Live (o : Object) : Prop :=
  o.info.deletionRequested = false ∨ o.info.hasFinalizer finalizerName = true

instance (o : Object) : Decidable o.Live :=
  inferInstanceAs (Decidable (_ ∨ _))

/-- A write that is announced by a change of more than the status, or after which an object is as live as it
was before. -/
theorem Store.Written.announced {s s' : Store} {w : Write} {id : ObjectId} {o : Object} (h : s.Written w s')
    (hfair : w = .mark id finalizerName → ∀ o ∈ s.get? id, o.Live) (hget : s'.get? id = some o)
    (hlive : o.Live) :
    ∃ events : List Event, s'.log = events ++ s.log ∧
      ((∃ event ∈ events, event.id = id ∧ event.change.concernsDependents = true) ∨
        ∃ o₀, s.get? id = some o₀ ∧ o₀.Live ∧ o₀.info.deletionRequested = o.info.deletionRequested) := by
  by_cases hid : id = w.id
  · subst hid
    cases h with
    | kept _ _ _ => exact ⟨[], rfl, Or.inr ⟨o, hget, hlive, rfl⟩⟩
    | created _ => exact ⟨[_], rfl, Or.inl ⟨_, List.mem_singleton_self _, rfl, rfl⟩⟩
    | updated _ _ _ _ => exact ⟨[_], rfl, Or.inl ⟨_, List.mem_singleton_self _, rfl, rfl⟩⟩
    | condemned _ => exact ⟨[_], rfl, Or.inl ⟨_, List.mem_singleton_self _, rfl, rfl⟩⟩
    | @noted _ _ stored hstored hinfo _ =>
      cases hget.symm.trans (get?_write_self _ _ _ _)
      refine ⟨[_], rfl, Or.inr ⟨stored, hstored, ?_, by rw [hinfo]⟩⟩
      unfold Object.Live at hlive ⊢
      rwa [hinfo] at hlive
    | @marked _ f stored hstored _ =>
      cases hget.symm.trans (SortedMap.get?_insert_self _ _ _)
      refine ⟨[], rfl, Or.inr ⟨stored, hstored, ?_, by rw [info_marked]⟩⟩
      by_cases hf : f = finalizerName
      · subst hf
        exact hfair rfl stored hstored
      · refine hlive.imp (fun h => by rwa [info_marked] at h) fun h => ?_
        rw [info_marked] at h
        unfold Metadata.hasFinalizer at h ⊢
        rw [List.any_append, Bool.or_eq_true] at h
        refine h.resolve_right fun h => hf ?_
        simpa using h
    | @unmarked _ f stored hstored =>
      cases hget.symm.trans (SortedMap.get?_insert_self _ _ _)
      refine ⟨[], rfl, Or.inr ⟨stored, hstored, ?_, by rw [info_unmarked]⟩⟩
      refine hlive.imp (fun h => by rwa [info_unmarked] at h) fun h => ?_
      rw [info_unmarked] at h
      obtain ⟨f', hf', heq⟩ := List.any_eq_true.1 h
      exact List.any_eq_true.2 ⟨f', (List.mem_filter.1 hf').1, heq⟩
    | removed _ _ _ => cases hget.symm.trans (get?_remove_self _ _)
  · obtain ⟨events, hlog, -⟩ := h.log
    exact ⟨events, hlog, Or.inr ⟨o, (h.get?_of_ne hid).symm.trans hget, hlive, rfl⟩⟩

/-! ## Passes that do not come back -/

namespace Stage

/-- A pass at this stage may be over without another one being asked for, although the stored object is not
the one that it has finalized. -/
def Overlooks (o : Object) : Stage → Prop
  | .found o₀ => o₀.info.deletionRequested = true ∧ o.info.deletionRequested = false
  | .undone _ => o.info.deletionRequested = false
  | .freed _ => True
  | .ended (.ok outcome) => outcome.requeueAfter = none
  | .begun | .marked _ | .admitted _ _ | .cleared _ _ _ | .judged _ _ _ | .saved _ _ _ | .blocked _ _
  | .ended (.error _) => False

/-- While a pass tends its object it ends with a delay, so it overlooks nothing. -/
theorem Tends.not_overlooks {stage : Stage} (h : stage.Tends) (o : Object) : ¬ stage.Overlooks o := by
  cases stage <;> first | exact id | cases h

/-- What a pass overlooks of an object is whether the deletion was requested. -/
theorem overlooks_congr {o o' : Object} {stage : Stage}
    (h : o'.info.deletionRequested = o.info.deletionRequested) : stage.Overlooks o' ↔ stage.Overlooks o := by
  cases stage <;> simp only [Overlooks, h]

end Stage

/-- What a pass overlooks after a step it has overlooked before: what it finds it looks at. -/
theorem Controller.Advanced.overlooks {c c' : Controller} {id : ObjectId} {stage stage' : Stage} {o : Object}
    (h : c.Advanced id stage stage' c') (hget : c'.access.store.get? id = some o) (hlive : o.Live)
    (hoverlooks : stage'.Overlooks o) :
    ∃ o₀, c.access.store.get? id = some o₀ ∧ o₀.Live ∧ stage.Overlooks o₀ := by
  cases h with
  | absent hnone h =>
    rw [h.store, hnone] at hget
    cases hget
  | found hfound =>
    cases hfound.symm.trans hget
    exact absurd (hoverlooks.1.symm.trans hoverlooks.2) nofun
  | undone hdeletion _ h =>
    rw [h.store] at hget
    exact ⟨o, hget, hlive, hdeletion, hoverlooks⟩
  | dropped hdeletion _ haccess _ _ =>
    rw [haccess] at hget
    exact ⟨o, hget, hlive, hdeletion, hoverlooks⟩
  | tended _ hstage' _ => exact absurd hoverlooks (hstage'.not_overlooks o)
  | failed _ | blocked _ | carried _ _ | marked _ _ | established _ _ _ _ | saved _ _ =>
    exact False.elim hoverlooks
  | told hagain _ | postponed _ hagain _ => exact absurd hoverlooks hagain
  | freed h =>
    -- the finalizer is off, so an object that is live is to stay
    have hwritten : c.access.store.Written (.unmark id finalizerName) c'.access.store := h.store
    generalize c.access.store = s, c'.access.store = s' at hwritten hget ⊢
    cases hwritten with
    | kept _ _ hw => exact absurd rfl (hw _)
    | @unmarked _ _ stored hstored =>
      cases hget.symm.trans (SortedMap.get?_insert_self _ _ _)
      have hlacks : (Store.unmarked stored finalizerName).info.hasFinalizer finalizerName = false := by
        rw [Store.info_unmarked]
        simp [Metadata.hasFinalizer]
      have hdeletion := hlive.resolve_right (Bool.eq_false_iff.1 hlacks)
      rw [Store.info_unmarked] at hdeletion
      exact ⟨stored, hstored, Or.inl hdeletion, hdeletion⟩
    | removed _ _ _ => cases hget.symm.trans (Store.get?_remove_self _ _)
  | removed h =>
    rw [h.store] at hget
    exact ⟨o, hget, hlive, trivial⟩
  | settled => exact ⟨o, hget, hlive, hoverlooks⟩

/-! ## What is true at every moment -/

/-- A change of the object is to be delivered, or its key is marked. -/
def Engine.Due (e : Engine) (id : ObjectId) : Prop :=
  (∃ event ∈ e.store.eventsAfter e.delivered, event.id = id ∧ event.change.concernsDependents = true) ∨
    (e.controller.queues.get id.kind).dirty.contains id.key = true

/-- An engine at work: no call of its store fails, and its queues are sound and open. -/
structure Engine.Orderly (e : Engine) : Prop where
  rules : e.controller.access.rules = []
  keyed : e.store.Keyed
  behind : e.delivered ≤ e.store.log.length
  queues : ∀ kind, (e.controller.queues.get kind).Sound
  opened : ∀ kind, (e.controller.queues.get kind).shutDown = false

namespace Crew

/-- A pass is under way that will see to the object, or without a pass the key is scheduled. -/
def Minds (crew : Crew) (id : ObjectId) (o : Object) : Prop :=
  match crew.passes.get? id with
  | none => (crew.queue id.kind).scheduled.contains id.key = true
  | some stage => ¬ stage.Overlooks o

/-- The object of this kind and key, if one is stored that is not finalized, is due, or somebody minds it. -/
def Covers (crew : Crew) (id : ObjectId) : Prop :=
  ∀ o, crew.store.get? id = some o → o.Live → crew.engine.Due id ∨ crew.Minds id o

/-- The invariant of crews, whatever clients write. -/
structure Sound (crew : Crew) : Prop where
  orderly : crew.engine.Orderly
  /-- The objects of the passes under way are those whose keys are held. -/
  held : ∀ id, crew.passes.contains id = (crew.queue id.kind).processing.contains id.key
  about : ∀ id stage, crew.passes.get? id = some stage → stage.About id

end Crew

namespace Engine

variable {e e' : Engine} {id : ObjectId} {ids : List ObjectId} {kind : Kind} {f : WorkQueue → WorkQueue}

/-- What is due stays due while changes are logged and keys are marked. -/
theorem Due.mono {events : List Event} (h : e.Due id) (hlog : e'.store.log = events ++ e.store.log)
    (hdelivered : e'.delivered = e.delivered) (hbehind : e.delivered ≤ e.store.log.length)
    (hdirty : (e.controller.queues.get id.kind).dirty.contains id.key = true →
      (e'.controller.queues.get id.kind).dirty.contains id.key = true) : e'.Due id := by
  refine h.imp ?_ hdirty
  rintro ⟨event, hevent, hid⟩
  rw [hdelivered]
  exact ⟨event, (Store.mem_eventsAfter_append hlog hbehind).2 (Or.inr hevent), hid⟩

/-- An engine stays orderly when keys are added to its queues and the watch goes on. -/
theorem Orderly.grow (h : e.Orderly) (haccess : e'.controller.access = e.controller.access)
    (hqueues : e'.controller.queues = e.controller.queues.addAll ids)
    (hbehind : e'.delivered ≤ e.store.log.length) : e'.Orderly := by
  have hgrown := e.controller.queues.grown_addAll ids
  have hstore : e'.store = e.store := congrArg Access.store haccess
  refine ⟨by rw [haccess]; exact h.rules, by rw [hstore]; exact h.keyed, by rw [hstore]; exact hbehind, ?_, ?_⟩
  · intro kind
    rw [hqueues]
    exact (hgrown kind).sound (h.queues kind)
  · intro kind
    rw [hqueues]
    exact (hgrown kind).shutDown.trans (h.opened kind)

/-- The queue of one kind is another one, and the store and the watch are as they were. -/
structure Requeued (e : Engine) (kind : Kind) (f : WorkQueue → WorkQueue) (e' : Engine) : Prop where
  access : e'.controller.access = e.controller.access
  queues : e'.controller.queues = e.controller.queues.modify kind f
  delivered : e'.delivered = e.delivered

/-- The queue of the kind is the new one, and those of the other kinds are as they were. -/
theorem Requeued.get (h : e.Requeued kind f e') (kind' : Kind) :
    e'.controller.queues.get kind' =
      if kind' = kind then f (e.controller.queues.get kind') else e.controller.queues.get kind' := by
  rw [h.queues]
  exact Queues.get_modify _ _ _ _

/-- An engine stays orderly when the queue of one kind is replaced by one that is sound and open. -/
theorem Requeued.orderly (h : e.Requeued kind f e') (horderly : e.Orderly)
    (hsound : (f (e.controller.queues.get kind)).Sound)
    (hopen : (f (e.controller.queues.get kind)).shutDown = false) : e'.Orderly := by
  have hstore : e'.store = e.store := congrArg Access.store h.access
  refine ⟨by rw [h.access]; exact horderly.rules, by rw [hstore]; exact horderly.keyed,
    by rw [hstore, h.delivered]; exact horderly.behind, fun kind' => ?_, fun kind' => ?_⟩
  · rw [h.get]
    split
    · rename_i hkind
      exact hkind ▸ hsound
    · exact horderly.queues kind'
  · rw [h.get]
    split
    · rename_i hkind
      exact hkind ▸ hopen
    · exact horderly.opened kind'

/-- What is due stays due when the queue of one kind is replaced by one in which the key is still marked. -/
theorem Requeued.due (h : e.Requeued kind f e') (hbehind : e.delivered ≤ e.store.log.length)
    (hdirty : id.kind = kind → (e.controller.queues.get id.kind).dirty.contains id.key = true →
      (f (e.controller.queues.get id.kind)).dirty.contains id.key = true) (hdue : e.Due id) : e'.Due id := by
  have hstore : e'.store = e.store := congrArg Access.store h.access
  refine hdue.mono (by rw [hstore]; exact (List.nil_append _).symm) h.delivered hbehind fun hmarked => ?_
  rw [h.get]
  split
  · rename_i hkind
    exact hdirty hkind hmarked
  · exact hmarked

end Engine

namespace Crew

variable {crew crew' : Crew} {id id' : ObjectId} {o o' : Object} {m : Move} {moves : List Move}

/-- Somebody goes on minding an object while the pass over it and the deletion request stay, and the key
stays scheduled. -/
theorem Minds.congr (h : crew.Minds id o) (hpasses : crew'.passes.get? id = crew.passes.get? id)
    (hscheduled : (crew.queue id.kind).scheduled.contains id.key = true →
      (crew'.queue id.kind).scheduled.contains id.key = true)
    (hdeletion : o.info.deletionRequested = o'.info.deletionRequested) : crew'.Minds id o' := by
  unfold Minds at h ⊢
  rw [hpasses]
  split at h
  · exact hscheduled h
  · exact fun hoverlooks => h ((Stage.overlooks_congr hdeletion).2 hoverlooks)

/-- An object stays covered in a move that leaves it and the pass over it alone: what is due stays due, and
what is scheduled stays scheduled or comes to be due. -/
theorem Covers.mono (h : crew.Covers id) (hget : crew'.store.get? id = crew.store.get? id)
    (hpasses : crew'.passes.get? id = crew.passes.get? id) (hdue : crew.engine.Due id → crew'.engine.Due id)
    (hscheduled : (crew.queue id.kind).scheduled.contains id.key = true →
      (crew'.queue id.kind).scheduled.contains id.key = true ∨ crew'.engine.Due id) : crew'.Covers id := by
  intro o hstored hlive
  rcases h o (hget.symm.trans hstored) hlive with hbefore | hminds
  · exact Or.inl (hdue hbefore)
  · by_cases hafter : crew'.engine.Due id
    · exact Or.inl hafter
    · exact Or.inr (hminds.congr hpasses (fun hs => (hscheduled hs).resolve_right hafter) rfl)

/-- What is due is covered, whatever is stored. -/
theorem covers_of_due (h : crew.engine.Due id) : crew.Covers id := fun _ _ _ => Or.inl h

/-- A pass that overlooks nothing covers its object. -/
theorem covers_of_pass {stage : Stage} (hstage : crew.passes.get? id = some stage)
    (h : ∀ o, ¬ stage.Overlooks o) : crew.Covers id := by
  refine fun o _ _ => Or.inr ?_
  unfold Minds
  rw [hstage]
  exact h o

/-! ### The watch and the clients -/

/-- Writes of clients do not concern queues and passes. -/
theorem Sound.write (h : crew.Sound) (w : Write) : (crew.act (.write w)).Sound := by
  refine ⟨⟨h.orderly.rules, h.orderly.keyed.accept w, ?_, h.orderly.queues, h.orderly.opened⟩, h.held, h.about⟩
  show crew.engine.delivered ≤ (crew.store.accept w).log.length
  rcases crew.store.accept_cases w with hsame | hwritten
  · rw [hsame]
    exact h.orderly.behind
  · obtain ⟨events, hlog, -⟩ := hwritten.log
    rw [hlog, List.length_append]
    exact h.orderly.behind.trans (Nat.le_add_left _ _)

/-- A write covers its object by the change that it logs, unless it leaves the object as live as it was. The
one write that does neither is that of the registry's finalizer on a finalized object. -/
theorem Covers.write {w : Write} (hcovers : crew.Covers id) (h : crew.Sound)
    (hfair : w = .mark id finalizerName → ∀ o ∈ crew.store.get? id, o.Live) :
    (crew.act (.write w)).Covers id := by
  rcases crew.store.accept_cases w with hsame | hwritten
  · show (⟨crew.engine.withStore (crew.store.accept w), crew.passes⟩ : Crew).Covers id
    rw [hsame]
    exact hcovers
  · intro o hget hlive
    obtain ⟨events, hlog, ⟨event, hevent, hid⟩ | ⟨o₀, hget₀, hlive₀, hdeletion⟩⟩ :=
      hwritten.announced hfair hget hlive
    · exact Or.inl (Or.inl
        ⟨event, (Store.mem_eventsAfter_append hlog h.orderly.behind).2 (Or.inl hevent), hid⟩)
    · refine (hcovers o₀ hget₀ hlive₀).imp (fun hdue => ?_) fun hminds => ?_
      · exact hdue.mono hlog rfl h.orderly.behind fun hdirty => hdirty
      · exact hminds.congr rfl (fun hscheduled => hscheduled) hdeletion

/-- What the watch makes of the engine: it adds keys to the queues, and forgets nothing that is due. -/
structure Hears (crew : Crew) (e' : Engine) : Prop where
  access : e'.controller.access = crew.engine.controller.access
  queues : ∃ ids, e'.controller.queues = crew.engine.controller.queues.addAll ids
  behind : e'.delivered ≤ crew.store.log.length
  due : ∀ id o, crew.store.get? id = some o → crew.engine.Due id → e'.Due id

/-- A watch to which changes were lost queues every stored object, so each of them is due by its key. -/
theorem Sound.hears_catchUp (h : crew.Sound) : crew.Hears crew.engine.catchUp := by
  obtain ⟨n, henqueue⟩ := Controller.enqueueAll_eq h.orderly.rules
  have hcatchUp : crew.engine.catchUp.controller = { crew.engine.controller with
      queues := crew.engine.controller.queues.addAll (crew.store.listed Kind.all) } := by
    unfold Engine.catchUp
    rw [henqueue]
    exact Engine.controller_noted _ _
  have hdelivered : crew.engine.catchUp.delivered = crew.store.log.length - Engine.retained :=
    Engine.delivered_noted _ _
  refine ⟨by rw [hcatchUp], ⟨crew.store.listed Kind.all, by rw [hcatchUp]⟩, hdelivered ▸ Nat.sub_le _ _,
    fun id o hget _ => Or.inr ?_⟩
  rw [hcatchUp]
  exact Queues.contains_dirty_addAll (h.orderly.opened id.kind)
    (Store.mem_listed hget (h.orderly.keyed id o hget))

/-- A change that is delivered marks the key of its object, and the other changes are still to come. -/
theorem Sound.hears_deliver (h : crew.Sound) (hbacklog : 0 < crew.engine.backlog) :
    crew.Hears crew.engine.deliver := by
  have hbehind : crew.engine.delivered < crew.store.log.length := Nat.lt_of_sub_pos hbacklog
  obtain ⟨event, hevent, hdeliver⟩ := Engine.deliver_eq hbacklog
  obtain ⟨ids, haccess, hqueues, hwoken⟩ := crew.engine.controller.observe_eq event
  have hcontroller : crew.engine.deliver.controller = (crew.engine.controller.observe event).2 := by
    rw [hdeliver]
    exact Engine.controller_noted _ _
  have hdelivered : crew.engine.deliver.delivered = crew.engine.delivered + 1 := by
    rw [hdeliver]
    exact Engine.delivered_noted _ _
  have hstore : crew.engine.deliver.store = crew.store := by
    unfold Engine.store
    rw [hcontroller, haccess]
    rfl
  refine ⟨by rw [hcontroller, haccess], ⟨ids, by rw [hcontroller, hqueues]⟩,
    by rw [hdelivered]; exact hbehind, fun id o _ hdue => ?_⟩
  unfold Engine.Due at hdue ⊢
  rw [hcontroller, hqueues, hdelivered, hstore]
  rcases hdue with ⟨event', hevent', rfl, hconcerns⟩ | hdirty
  · rw [Store.eventsAfter_eq_cons hevent hbehind] at hevent'
    rcases List.mem_cons.1 hevent' with rfl | hlater
    · exact Or.inr (Queues.contains_dirty_addAll (h.orderly.opened _) (hwoken hconcerns))
    · exact Or.inl ⟨event', hlater, rfl, hconcerns⟩
  · exact Or.inr ((Queues.grown_addAll _ _ _).dirty _ hdirty)

/-- The watch lost changes, delivers the next one, or has none to deliver. -/
theorem Sound.hears (h : crew.Sound) : crew.Hears crew.engine.hear := by
  unfold Engine.hear
  split
  · exact h.hears_catchUp
  · split
    · rename_i hbacklog
      exact h.hears_deliver hbacklog
    · exact ⟨rfl, ⟨[], (Queues.addAll_nil _).symm⟩, h.orderly.behind, fun _ _ _ hdue => hdue⟩

/-- The watch adds keys only, so a crew stays sound. -/
theorem Sound.hear (h : crew.Sound) : (crew.act .hear).Sound := by
  obtain ⟨haccess, ⟨ids, hqueues⟩, hbehind, -⟩ := h.hears
  refine ⟨h.orderly.grow haccess hqueues hbehind, fun id => (h.held id).trans ?_, h.about⟩
  unfold queue act
  dsimp only
  rw [hqueues, (Queues.grown_addAll _ _ _).processing]

/-- What the watch delivers it marks, so what was covered by a change is covered by its key. -/
theorem Covers.hear (hcovers : crew.Covers id) (h : crew.Sound) : (crew.act .hear).Covers id := by
  obtain ⟨haccess, ⟨ids, hqueues⟩, -, hdue⟩ := h.hears
  have hstore : (crew.act .hear).store = crew.store := congrArg Access.store haccess
  intro o hget hlive
  replace hget : crew.store.get? id = some o := hstore ▸ hget
  refine (hcovers o hget hlive).imp (hdue id o hget) fun hminds => hminds.congr rfl (fun hscheduled => ?_) rfl
  unfold queue act at *
  dsimp only
  rwa [hqueues, (Queues.grown_addAll _ _ _).scheduled]

/-! ### Workers -/

/-- What a step of a pass makes of the engine: it may log changes and add keys, it writes no object but its
own, and what it overlooks afterwards it has overlooked before. -/
structure Goes (crew : Crew) (id : ObjectId) (stage stage' : Stage) (e' : Engine) : Prop where
  about : stage'.About id
  rules : e'.controller.access.rules = crew.engine.controller.access.rules
  keyed : e'.store.Keyed
  log : ∃ events, e'.store.log = events ++ crew.store.log
  delivered : e'.delivered = crew.engine.delivered
  queues : ∃ ids, e'.controller.queues = crew.engine.controller.queues.addAll ids
  others : ∀ id' ≠ id, e'.store.get? id' = crew.store.get? id'
  own : ∀ o, e'.store.get? id = some o → o.Live → stage'.Overlooks o →
    ∃ o₀, crew.store.get? id = some o₀ ∧ o₀.Live ∧ stage.Overlooks o₀

section

variable {stage stage' : Stage} {e' : Engine}

/-- A step of a pass neither delivers a change nor takes a mark away. -/
theorem Goes.due (hgoes : crew.Goes id stage stage' e') (h : crew.Sound) (hdue : crew.engine.Due id') :
    e'.Due id' := by
  obtain ⟨events, hlog⟩ := hgoes.log
  obtain ⟨ids, hqueues⟩ := hgoes.queues
  refine hdue.mono hlog hgoes.delivered h.orderly.behind fun hdirty => ?_
  rw [hqueues]
  exact (Queues.grown_addAll _ _ _).dirty _ hdirty

/-- A sound crew stays sound when a pass goes on by a step: the same keys are held. -/
theorem Sound.insert (h : crew.Sound) (hstage : crew.passes.get? id = some stage)
    (hgoes : crew.Goes id stage stage' e') : (⟨e', crew.passes.insert id stage'⟩ : Crew).Sound := by
  obtain ⟨events, hlog⟩ := hgoes.log
  obtain ⟨ids, hqueues⟩ := hgoes.queues
  have hgrown := crew.engine.controller.queues.grown_addAll ids
  refine ⟨⟨hgoes.rules.trans h.orderly.rules, hgoes.keyed, ?_, fun kind => ?_, fun kind => ?_⟩, fun id' => ?_,
    fun id' stage₁ hstage₁ => ?_⟩
  · rw [hgoes.delivered, hlog, List.length_append]
    exact h.orderly.behind.trans (Nat.le_add_left _ _)
  · rw [hqueues]
    exact (hgrown kind).sound (h.orderly.queues kind)
  · rw [hqueues]
    exact (hgrown kind).shutDown.trans (h.orderly.opened kind)
  · have hcontains : SortedMap.contains (crew.passes.insert id stage') id' = crew.passes.contains id' := by
      rw [Bool.eq_iff_iff, SortedMap.contains_insert_iff]
      refine or_iff_right_of_imp ?_
      rintro rfl
      exact Option.isSome_iff_exists.2 ⟨_, hstage⟩
    refine hcontains.trans ((h.held id').trans ?_)
    unfold queue
    dsimp only
    rw [hqueues, (hgrown id'.kind).processing]
  · rcases SortedMap.get?_insert_eq_some_iff.1 hstage₁ with ⟨rfl, rfl⟩ | ⟨hne, hstage₁⟩
    · exact hgoes.about
    · exact h.about id' stage₁ hstage₁

/-- A step of a pass leaves every object covered. For its own object, what the pass overlooks now it has
overlooked before, and then the object was due. -/
theorem Covers.insert (hcovers : crew.Covers id') (h : crew.Sound) (hstage : crew.passes.get? id = some stage)
    (hgoes : crew.Goes id stage stage' e') : (⟨e', crew.passes.insert id stage'⟩ : Crew).Covers id' := by
  -- the step writes no object but its own, so another one is covered as before
  by_cases hid : id' = id
  · subst hid
    intro o hget hlive
    by_cases hoverlooks : stage'.Overlooks o
    · obtain ⟨o₀, hget₀, hlive₀, hoverlooks₀⟩ := hgoes.own o hget hlive hoverlooks
      refine Or.inl (hgoes.due h ((hcovers o₀ hget₀ hlive₀).resolve_right fun hminds => ?_))
      unfold Minds at hminds
      rw [hstage] at hminds
      exact hminds hoverlooks₀
    · refine Or.inr ?_
      unfold Minds
      dsimp only
      rwa [SortedMap.get?_insert_self]
  · refine hcovers.mono (hgoes.others id' hid) (SortedMap.get?_insert_of_ne _ hid) (hgoes.due h)
      fun hscheduled => Or.inl ?_
    obtain ⟨ids, hqueues⟩ := hgoes.queues
    unfold queue at hscheduled ⊢
    dsimp only
    rwa [hqueues, (Queues.grown_addAll _ _ _).scheduled]

/-- The next step of a pass. -/
theorem Sound.goes_proceed (h : crew.Sound) (hstage : crew.passes.get? id = some stage) :
    ∃ stage' e', crew.act (.proceed id) = ⟨e', crew.passes.insert id stage'⟩ ∧
      crew.Goes id stage stage' e' := by
  unfold act
  dsimp only
  unfold Controller.proceed
  have hrefuses : Access.Refuses crew.engine.controller.access.rules := by
    rw [h.orderly.rules]
    exact fun rule hrule => absurd hrule List.not_mem_nil
  have hleads := Controller.leads_advance hrefuses h.orderly.keyed (h.about id stage hstage)
  rw [hstage]
  dsimp only
  generalize crew.engine.controller.advance id stage = next at hleads ⊢
  obtain ⟨stage', c⟩ := next
  obtain ⟨hadvanced, habout⟩ := hleads
  exact ⟨stage', _, rfl, habout, hadvanced.rules, hadvanced.keyed h.orderly.keyed, hadvanced.log, rfl,
    hadvanced.queues, fun id' hne => hadvanced.get?_of_ne hne, fun o => hadvanced.overlooks⟩

/-- A pass that comes down changes nothing, and is to be made again. -/
theorem Sound.goes_crashed (h : crew.Sound) :
    crew.Goes id stage (.ended (.error .crashed)) crew.engine :=
  ⟨trivial, rfl, h.orderly.keyed, ⟨[], rfl⟩, rfl, ⟨[], (Queues.addAll_nil _).symm⟩,
    fun _ _ => rfl, fun _ _ _ => False.elim⟩

/-- A pass comes down unless it has ended. -/
theorem act_abort (crew : Crew) (id : ObjectId) :
    crew.act (.abort id) = crew ∨ ∃ stage, crew.passes.get? id = some stage ∧
      crew.act (.abort id) = ⟨crew.engine, crew.passes.insert id (.ended (.error .crashed))⟩ := by
  unfold act Passes.abort
  dsimp only
  cases hstage : crew.passes.get? id with
  | none => exact Or.inl rfl
  | some stage =>
    cases stage with
    | ended result => exact Or.inl rfl
    | _ => exact Or.inr ⟨_, rfl, rfl⟩

/-- Where there is no pass, none goes on. -/
theorem act_proceed_of_none (hstage : crew.passes.get? id = none) : crew.act (.proceed id) = crew := by
  unfold act
  dsimp only
  unfold Controller.proceed
  rw [hstage]

/-- A crew stays sound when a pass goes on. -/
theorem Sound.proceed (h : crew.Sound) (id : ObjectId) : (crew.act (.proceed id)).Sound := by
  cases hstage : crew.passes.get? id with
  | none => rwa [act_proceed_of_none hstage]
  | some stage =>
    obtain ⟨stage', e', heq, hgoes⟩ := h.goes_proceed hstage
    rw [heq]
    exact h.insert hstage hgoes

/-- An object stays covered when a pass goes on, be it over this object or another one. -/
theorem Covers.proceed (hcovers : crew.Covers id') (h : crew.Sound) (id : ObjectId) :
    (crew.act (.proceed id)).Covers id' := by
  cases hstage : crew.passes.get? id with
  | none => rwa [act_proceed_of_none hstage]
  | some stage =>
    obtain ⟨stage', e', heq, hgoes⟩ := h.goes_proceed hstage
    rw [heq]
    exact hcovers.insert h hstage hgoes

/-- A crew stays sound when a pass comes down. -/
theorem Sound.abort (h : crew.Sound) (id : ObjectId) : (crew.act (.abort id)).Sound := by
  obtain hsame | ⟨stage, hstage, hcrashed⟩ := crew.act_abort id
  · rwa [hsame]
  · rw [hcrashed]
    exact h.insert hstage h.goes_crashed

/-- A pass that comes down is to be made again, so it covers its object. -/
theorem Covers.abort (hcovers : crew.Covers id') (h : crew.Sound) (id : ObjectId) :
    (crew.act (.abort id)).Covers id' := by
  obtain hsame | ⟨stage, hstage, hcrashed⟩ := crew.act_abort id
  · rwa [hsame]
  · rw [hcrashed]
    exact hcovers.insert h hstage h.goes_crashed

end

/-! ### Taking keys -/

/-- A worker finds no key, or takes the first one and begins a pass. -/
theorem act_take (crew : Crew) (kind : Kind) :
    crew.act (.take kind) = crew ∨ ∃ key rest e', (crew.queue kind).waiting = key :: rest ∧
      crew.act (.take kind) = ⟨e', crew.passes.insert ⟨kind, key⟩ .begun⟩ ∧
        crew.engine.Requeued kind (·.handed key) e' := by
  unfold act
  dsimp only
  cases htake : crew.engine.controller.takeKey kind with
  | none => exact Or.inl rfl
  | some taken =>
    obtain ⟨key, c⟩ := taken
    obtain ⟨⟨rest, hwaiting⟩, rfl⟩ := Controller.takeKey_eq_some_iff.1 htake
    exact Or.inr ⟨key, rest, _, hwaiting, rfl, rfl, rfl, rfl⟩

/-- A worker that takes a key holds it, and a pass begins: the passes under way are still those of the keys
held. -/
theorem Sound.take (h : crew.Sound) (kind : Kind) : (crew.act (.take kind)).Sound := by
  obtain hsame | ⟨key, rest, e', hwaiting, heq, hrequeued⟩ := crew.act_take kind
  · rwa [hsame]
  rw [heq]
  refine ⟨hrequeued.orderly h.orderly ((h.orderly.queues kind).handed hwaiting) (h.orderly.opened kind),
    fun id => ?_, fun id stage hstage => ?_⟩
  -- passes and held keys gain the same object, since the kind decides the queue
  · unfold queue
    dsimp only
    rw [hrequeued.get, Bool.eq_iff_iff, SortedMap.contains_insert_iff, h.held id]
    split
    · rename_i hkind
      refine Iff.trans (or_congr_left ?_) SortedMap.contains_insert_iff.symm
      exact ⟨fun hid => congrArg ObjectId.key hid,
        fun hkey => not_imp_comm.1 (fun hne => ObjectId.key_ne_of_ne hne hkind) (· hkey)⟩
    · rename_i hkind
      exact or_iff_right fun hid => hkind (congrArg ObjectId.kind hid)
  · rcases SortedMap.get?_insert_eq_some_iff.1 hstage with ⟨rfl, rfl⟩ | ⟨-, hstage⟩
    · trivial
    · exact h.about id stage hstage

/-- The key that is taken is marked no more, but the pass that begins will find the object as it is. -/
theorem Covers.take (hcovers : crew.Covers id) (h : crew.Sound) (kind : Kind) :
    (crew.act (.take kind)).Covers id := by
  obtain hsame | ⟨key, rest, e', -, heq, hrequeued⟩ := crew.act_take kind
  · rwa [hsame]
  rw [heq]
  by_cases hid : id = ⟨kind, key⟩
  · subst hid
    exact covers_of_pass (SortedMap.get?_insert_self _ _ _) fun _ => not_false
  · refine hcovers.mono (congrArg (Store.get? · id) (congrArg Access.store hrequeued.access))
      (SortedMap.get?_insert_of_ne _ hid) (hrequeued.due h.orderly.behind fun hkind hdirty => ?_)
      fun hscheduled => Or.inl ?_
    · exact SortedMap.contains_erase_iff.2 ⟨ObjectId.key_ne_of_ne hid hkind, hdirty⟩
    · unfold queue
      dsimp only
      rw [hrequeued.get]
      split <;> exact hscheduled

/-! ### The end of a pass -/

/-- A pass that has ended is over: its key is done, and is added again later unless the outcome of the pass
asks for nothing. -/
theorem act_conclude (crew : Crew) (id : ObjectId) :
    crew.act (.conclude id) = crew ∨ ∃ result delay e', crew.passes.get? id = some (.ended result) ∧
      crew.act (.conclude id) = ⟨e', crew.passes.erase id⟩ ∧
        crew.engine.Requeued id.kind (·.dismissed crew.engine.now id.key delay) e' ∧
          (delay = none → ∃ outcome, result = .ok outcome ∧ outcome.requeueAfter = none) := by
  unfold act
  dsimp only
  split
  · rename_i result hstage
    obtain ⟨ladder, delay, hdismiss, hdelay⟩ := crew.engine.dismiss_eq id result
    rw [hdismiss]
    exact Or.inr ⟨result, delay, _, hstage, rfl, ⟨rfl, rfl, rfl⟩, hdelay⟩
  · exact Or.inl rfl

/-- A worker that is done holds its key no more, and the pass is over. -/
theorem Sound.conclude (h : crew.Sound) (id : ObjectId) : (crew.act (.conclude id)).Sound := by
  obtain hsame | ⟨result, delay, e', hstage, heq, hrequeued, -⟩ := crew.act_conclude id
  · rwa [hsame]
  rw [heq]
  have hprocessing : (crew.queue id.kind).processing.contains id.key = true :=
    (h.held id).symm.trans (Option.isSome_iff_exists.2 ⟨_, hstage⟩)
  refine ⟨hrequeued.orderly h.orderly ((h.orderly.queues id.kind).dismissed hprocessing)
    (WorkQueue.dismissed_of_open (h.orderly.opened id.kind)).1, fun id' => ?_, fun id' stage hstage' => ?_⟩
  · unfold queue
    dsimp only
    rw [hrequeued.get, Bool.eq_iff_iff, SortedMap.contains_erase_iff, h.held id']
    split
    · rename_i hkind
      rw [(WorkQueue.dismissed_of_open (h.orderly.opened _)).2.1, SortedMap.contains_erase_iff]
      refine and_congr_left fun _ => ⟨fun hne => ObjectId.key_ne_of_ne hne hkind, fun hkey hid => hkey ?_⟩
      rw [hid]
    · rename_i hkind
      exact and_iff_right fun hid => hkind (congrArg ObjectId.kind hid)
  · exact h.about id' stage (SortedMap.get?_of_get?_erase hstage')

/-- What is scheduled at the end of a pass: what was, and the key of the pass if it is to be made again. -/
theorem contains_scheduled_conclude {delay : Option Nat} {e' : Engine} {passes : Passes} (h : crew.Sound)
    (hrequeued : crew.engine.Requeued id.kind (·.dismissed crew.engine.now id.key delay) e')
    (hscheduled : delay ≠ none ∧ id' = id ∨ (crew.queue id'.kind).scheduled.contains id'.key = true) :
    ((⟨e', passes⟩ : Crew).queue id'.kind).scheduled.contains id'.key = true := by
  unfold queue
  dsimp only
  rw [hrequeued.get]
  split
  · rw [WorkQueue.contains_scheduled_dismissed (h.orderly.opened _)]
    exact hscheduled.imp_left fun h => ⟨h.1, congrArg ObjectId.key h.2⟩
  · rename_i hkind
    exact hscheduled.resolve_left fun h => hkind (congrArg ObjectId.kind h.2)

/-- A pass that did not overlook its object asks for another one. -/
theorem Covers.conclude (hcovers : crew.Covers id') (h : crew.Sound) (id : ObjectId) :
    (crew.act (.conclude id)).Covers id' := by
  obtain hsame | ⟨result, delay, e', hstage, heq, hrequeued, hdelay⟩ := crew.act_conclude id
  · rwa [hsame]
  rw [heq]
  have hstore : e'.store = crew.store := congrArg Access.store hrequeued.access
  have hdue : crew.engine.Due id' → e'.Due id' := hrequeued.due h.orderly.behind fun _ hdirty => by
    rwa [(WorkQueue.dismissed_of_open (h.orderly.opened _)).2.2]
  by_cases hid : id' = id
  · subst hid
    intro o hget hlive
    refine (hcovers o (hstore ▸ hget) hlive).imp hdue fun hminds => ?_
    unfold Minds at hminds ⊢
    rw [hstage] at hminds
    dsimp only
    rw [SortedMap.get?_erase_self]
    refine contains_scheduled_conclude h hrequeued (Or.inl ⟨fun hnone => ?_, rfl⟩)
    obtain ⟨outcome, rfl, hagain⟩ := hdelay hnone
    exact hminds hagain
  · exact hcovers.mono (congrArg (Store.get? · id') hstore) (SortedMap.get?_erase_of_ne hid) hdue
      fun hscheduled => Or.inl (contains_scheduled_conclude h hrequeued (Or.inr hscheduled))

/-! ### Timers -/

/-- The end of a timer concerns the queue of its kind. -/
theorem requeued_fire (crew : Crew) (kind : Kind) (t : Timer) :
    crew.engine.Requeued kind (·.fire t) (crew.act (.fire kind t)).engine :=
  ⟨rfl, rfl, rfl⟩

/-- The end of a timer concerns no pass, and leaves the queue of its kind sound. -/
theorem Sound.fire (h : crew.Sound) (kind : Kind) (t : Timer) : (crew.act (.fire kind t)).Sound := by
  have hrequeued := crew.requeued_fire kind t
  refine ⟨hrequeued.orderly h.orderly ((h.orderly.queues kind).fire t)
    (WorkQueue.fire_of_open (h.orderly.opened kind) t default).1, fun id => (h.held id).trans ?_, h.about⟩
  unfold queue
  rw [hrequeued.get]
  split
  · exact congrArg (SortedMap.contains · id.key)
      (WorkQueue.fire_of_open (h.orderly.opened _) t id.key).2.1.symm
  · rfl

/-- A timer that ends takes its key off the schedule only when it marks the key. -/
theorem Covers.fire (hcovers : crew.Covers id) (h : crew.Sound) (kind : Kind) (t : Timer) :
    (crew.act (.fire kind t)).Covers id := by
  have hrequeued := crew.requeued_fire kind t
  obtain ⟨-, -, hdirty, hscheduled⟩ := WorkQueue.fire_of_open (h.orderly.opened id.kind) t id.key
  refine hcovers.mono rfl rfl (hrequeued.due h.orderly.behind fun _ => hdirty) fun hbefore => ?_
  unfold Engine.Due queue
  rw [hrequeued.get]
  split
  · exact (hscheduled hbefore).imp_right Or.inr
  · exact Or.inl hbefore

/-! ### Runs -/

/-- When a run begins every stored object is queued. -/
theorem sound_start (store : Store) (hkeyed : store.Keyed) (policy : RetryPolicy) :
    (start store policy).Sound ∧ ∀ id, (start store policy).Covers id := by
  let c : Controller := .start ⟨store, []⟩ policy
  obtain ⟨n, henqueue⟩ := Controller.enqueueAll_eq (c := c) rfl
  have hstart : start store policy = ⟨{ Engine.initial { c with
      queues := c.queues.addAll (store.listed Kind.all) } with
        delivered := store.log.length, stage := .running, working := true }, .empty⟩ := by
    unfold start Engine.commence Engine.initial
    dsimp only
    rw [show (Controller.start ⟨store, []⟩ policy).enqueueAll = _ from henqueue]
    rfl
  have hempty : ∀ kind, c.queues.get kind = .empty := fun kind => by cases kind <;> rfl
  have hgrown : ∀ kind, WorkQueue.empty.Grown ((c.queues.addAll (store.listed Kind.all)).get kind) := by
    intro kind
    rw [← hempty kind]
    exact Queues.grown_addAll _ _ kind
  rw [hstart]
  refine ⟨⟨⟨rfl, hkeyed, Nat.le_refl _, fun kind => (hgrown kind).sound WorkQueue.sound_empty,
    fun kind => (hgrown kind).shutDown⟩, fun id => ?_, fun id stage hstage => ?_⟩, fun id o hget _ => ?_⟩
  · exact (congrArg (SortedMap.contains · id.key) (hgrown id.kind).processing).symm
  · cases (SortedMap.get?_empty id).symm.trans hstage
  · refine Or.inl (Or.inr (Queues.contains_dirty_addAll ?_ (Store.mem_listed hget (hkeyed id o hget))))
    rw [hempty]
    rfl

/-- One step lemma for all moves. -/
theorem Sound.act (h : crew.Sound) (m : Move) : (crew.act m).Sound := by
  cases m with
  | write w => exact h.write w
  | hear => exact h.hear
  | take kind => exact h.take kind
  | proceed id => exact h.proceed id
  | abort id => exact h.abort id
  | conclude id => exact h.conclude id
  | fire kind t => exact h.fire kind t
  | wait duration => exact ⟨⟨h.orderly.rules, h.orderly.keyed, h.orderly.behind, h.orderly.queues,
      h.orderly.opened⟩, h.held, h.about⟩

/-- A crew stays sound in every run. -/
theorem Sound.run (h : crew.Sound) (moves : List Move) : (crew.run moves).Sound := by
  induction moves generalizing crew with
  | nil => exact h
  | cons m rest ih => exact ih (h.act m)

/-- In one move an object stays covered, unless the move puts the registry's finalizer back on it. -/
theorem Covers.act (hcovers : crew.Covers id) (h : crew.Sound)
    (hfair : m = .write (.mark id finalizerName) → ∀ o ∈ crew.store.get? id, o.Live) :
    (crew.act m).Covers id := by
  cases m with
  | write w => exact hcovers.write h fun hw => hfair (congrArg Move.write hw)
  | hear => exact hcovers.hear h
  | take kind => exact hcovers.take h kind
  | proceed id => exact hcovers.proceed h id
  | abort id => exact hcovers.abort h id
  | conclude id => exact hcovers.conclude h id
  | fire kind t => exact hcovers.fire h kind t
  | wait duration => exact hcovers

/-- The log grows, and what is new in it is still to be delivered. -/
def Logs (crew crew' : Crew) : Prop :=
  ∃ events, crew'.store.log = events ++ crew.store.log ∧
    ∀ event ∈ events, event ∈ crew'.store.eventsAfter crew'.engine.delivered

/-- Where nothing is delivered, what is logged is to be delivered. -/
theorem Sound.logs_of_log (h : crew.Sound) {crew' : Crew} {events : List Event}
    (hlog : crew'.store.log = events ++ crew.store.log)
    (hdelivered : crew'.engine.delivered = crew.engine.delivered) : crew.Logs crew' := by
  refine ⟨events, hlog, fun event hevent => ?_⟩
  rw [hdelivered]
  exact (Store.mem_eventsAfter_append hlog h.orderly.behind).2 (Or.inl hevent)

/-- Where the store stays as it is, nothing is logged. -/
theorem logs_of_store {crew' : Crew} (hstore : crew'.store = crew.store) : crew.Logs crew' :=
  ⟨[], congrArg Store.log hstore, nofun⟩

/-- What a move logs is to be delivered after it. Only a write and a step of a pass log anything. -/
theorem Sound.logs (h : crew.Sound) (m : Move) : crew.Logs (crew.act m) := by
  cases m with
  | write w =>
    rcases crew.store.accept_cases w with hkept | hwritten
    · exact logs_of_store hkept
    · obtain ⟨events, hlog, -⟩ := hwritten.log
      exact h.logs_of_log hlog rfl
  | proceed id =>
    cases hstage : crew.passes.get? id with
    | none => exact logs_of_store (congrArg store (act_proceed_of_none hstage))
    | some stage =>
      obtain ⟨stage', e', heq, hgoes⟩ := h.goes_proceed hstage
      obtain ⟨events, hlog⟩ := hgoes.log
      rw [heq]
      exact h.logs_of_log hlog hgoes.delivered
  | hear => exact logs_of_store (congrArg Access.store h.hears.access)
  | take kind =>
    obtain heq | ⟨key, rest, e', -, heq, hrequeued⟩ := crew.act_take kind
    · exact logs_of_store (congrArg store heq)
    · exact logs_of_store (by rw [heq]; exact congrArg Access.store hrequeued.access)
  | conclude id =>
    obtain heq | ⟨result, delay, e', -, heq, hrequeued, -⟩ := crew.act_conclude id
    · exact logs_of_store (congrArg store heq)
    · exact logs_of_store (by rw [heq]; exact congrArg Access.store hrequeued.access)
  | abort id => exact logs_of_store rfl
  | fire kind t => exact logs_of_store rfl
  | wait duration => exact logs_of_store rfl

/-- The log only grows. -/
theorem Sound.log_run (h : crew.Sound) (moves : List Move) :
    ∃ events, (crew.run moves).store.log = events ++ crew.store.log := by
  induction moves generalizing crew with
  | nil => exact ⟨[], rfl⟩
  | cons m rest ih =>
    obtain ⟨events, hlog, -⟩ := h.logs m
    obtain ⟨events', hlog'⟩ := ih (h.act m)
    exact ⟨events' ++ events, by rw [run_cons, hlog', hlog, List.append_assoc]⟩

/-! ### Finalizers that are put back -/

/-- A client has put the registry's finalizer on an object that was finalized at that time, and no change of
the object but of its status was logged since. -/
def PutBack (crew : Crew) (moves : List Move) (id : ObjectId) : Prop :=
  ∃ earlier later, moves = earlier ++ .write (.mark id finalizerName) :: later ∧
    (∃ o ∈ (crew.run earlier).store.get? id, ¬ o.Live) ∧
      ∀ event ∈ (crew.run moves).store.eventsAfter (crew.run earlier).store.log.length,
        event.id = id → event.change.concernsDependents = false

/-- Putting a finalizer on logs nothing. -/
theorem log_act_mark (crew : Crew) (id : ObjectId) (f : String) :
    (crew.act (.write (.mark id f))).store.log = crew.store.log := by
  have hlog : (crew.store.accept (.mark id f)).log = crew.store.log := by
    rcases crew.store.accept_cases (.mark id f) with hkept | hwritten
    · rw [hkept]
    · generalize crew.store.accept (.mark id f) = s' at hwritten
      cases hwritten with
      | kept _ _ _ => rfl
      | marked _ _ => rfl
      | removed _ hw _ =>
        rcases hw with hw | ⟨_, hw⟩
        · cases hw
        · cases hw
  exact hlog

/-- An object that was put back stays so until a change of it is logged, which then is to be delivered. -/
theorem PutBack.concat (hback : crew.PutBack moves id) (h : crew.Sound) (m : Move) :
    ((crew.run moves).act m).Covers id ∨ crew.PutBack (moves ++ [m]) id := by
  obtain ⟨earlier, later, hsplit, hstale, hsilent⟩ := hback
  obtain ⟨events, hlog, hpending⟩ := (h.run moves).logs m
  -- a change that this move tells of covers the object; else the move adds nothing to what was silent
  by_cases htold : ∃ event ∈ events, event.id = id ∧ event.change.concernsDependents = true
  · obtain ⟨event, hevent, hconcerns⟩ := htold
    exact Or.inl (covers_of_due (Or.inl ⟨event, hpending event hevent, hconcerns⟩))
  · refine Or.inr ⟨earlier, later ++ [m], by rw [hsplit, List.append_assoc, List.cons_append], hstale, ?_⟩
    intro event hevent hid
    have hlength : (crew.run earlier).store.log.length ≤ (crew.run moves).store.log.length := by
      obtain ⟨events', hlog'⟩ := (h.run earlier).log_run (.write (.mark id finalizerName) :: later)
      rw [hsplit, run_append, hlog', List.length_append]
      exact Nat.le_add_left _ _
    rw [run_concat] at hevent
    rcases (Store.mem_eventsAfter_append hlog hlength).1 hevent with hnew | hold
    · exact Bool.eq_false_iff.2 fun hconcerns => htold ⟨event, hnew, hid, hconcerns⟩
    · exact hsilent event hold hid

/-- An object is covered in every run in which the registry's finalizer was not put back on it. -/
theorem Sound.covers_or_putBack (h : crew.Sound) (hcovers : crew.Covers id) (moves : List Move) :
    (crew.run moves).Covers id ∨ crew.PutBack moves id := by
  -- from the end: the last move either keeps the cover or puts the finalizer back
  induction moves using List.reverseRecOn with
  | nil => exact Or.inl hcovers
  | append_singleton moves m ih =>
    rw [run_concat]
    rcases ih with hcovers | hback
    · by_cases hfair : m = .write (.mark id finalizerName) → ∀ o ∈ (crew.run moves).store.get? id, o.Live
      · exact Or.inl (hcovers.act (h.run moves) hfair)
      · obtain ⟨rfl, hlive⟩ := Classical.not_imp.1 hfair
        obtain ⟨o, ho⟩ := not_forall.1 hlive
        obtain ⟨hget, hstale⟩ := Classical.not_imp.1 ho
        refine Or.inr ⟨moves, [], rfl, ⟨o, hget, hstale⟩, fun event hevent => ?_⟩
        rw [run_concat, Store.eventsAfter, log_act_mark, Nat.sub_self] at hevent
        cases hevent
    · exact hback.concat h m

/-- An object gets attention: it is due, or a worker holds its key, or its latest timer is running. -/
def Attends (crew : Crew) (id : ObjectId) : Prop :=
  crew.engine.Due id ∨ (crew.queue id.kind).processing.contains id.key = true ∨
    ∃ t ∈ (crew.queue id.kind).timers, t.key = id.key ∧ (crew.queue id.kind).isCurrent t = true

instance (crew : Crew) (id : ObjectId) : Decidable (crew.Attends id) :=
  inferInstanceAs (Decidable ((_ ∨ _) ∨ _ ∨ _))

/-- In a sound crew, what covers an object gives it attention: a pass under way means that its key is held,
and a scheduled key has its timer running. -/
theorem Sound.attends (h : crew.Sound) (hcovers : crew.Covers id) (hget : crew.store.get? id = some o)
    (hlive : o.Live) : crew.Attends id := by
  refine (hcovers o hget hlive).imp_right fun hminds => ?_
  unfold Minds at hminds
  cases hstage : crew.passes.get? id with
  | some stage => exact Or.inl ((h.held id).symm.trans (Option.isSome_iff_exists.2 ⟨_, hstage⟩))
  | none =>
    rw [hstage] at hminds
    exact Or.inr ((h.orderly.queues id.kind).exists_timer hminds)

/-- **No object is forgotten.** While an engine is at work, every stored object that is not finalized has a
change that is to be delivered, or its key is marked, held by a worker, or scheduled with its timer running.
This is so for each object by itself, whatever clients do to the others; it fails only for one on which a
client has put the registry's finalizer back, until the next change of it. -/
theorem attends_of_live (store : Store) (hkeyed : store.Keyed) (policy : RetryPolicy) (moves : List Move)
    (id : ObjectId) (hkept : ¬ PutBack (start store policy) moves id) (o : Object)
    (hget : ((start store policy).run moves).store.get? id = some o) (hlive : o.Live) :
    ((start store policy).run moves).Attends id := by
  obtain ⟨hsound, hcovers⟩ := sound_start store hkeyed policy
  exact (hsound.run moves).attends ((hsound.covers_or_putBack (hcovers id) moves).resolve_right hkept) hget hlive

end Crew

/-! ### Sample runs -/

namespace Lab

/-- A tenant is stored, and its creation is delivered. -/
def tenantStored : List Crew.Move := [.write (.create (.newTenant "default" "acme" .fresh)), .hear]

/-- The timer that the first pass over the tenant starts. -/
def firstTimer : Timer := ⟨60000, tenantId.key, 1⟩

/-- A tenant is finalized, and another finalizer keeps it in the store; then a client puts the registry's
finalizer back on. -/
def finalizerRestored : List Crew.Move :=
  tenantStored ++ [.write (.mark tenantId "audit")] ++ Crew.work tenantId ++
    [.write (.delete tenantId), .hear, .hear, .wait 60000, .fire .tenant firstTimer] ++ Crew.work tenantId ++
      [.write (.mark tenantId finalizerName), .hear]

/-- Another tenant. -/
def siblingId : ObjectId := ⟨.tenant, ⟨"default", "globex"⟩⟩

/-- After that another tenant is stored, and its deletion is requested while a worker makes a pass over it. -/
def siblingInterrupted : List Crew.Move :=
  finalizerRestored ++ [.write (.create (.newTenant "default" "globex" .fresh)), .hear, .take .tenant,
    .proceed siblingId, .proceed siblingId, .write (.delete siblingId)] ++
      List.replicate 5 (.proceed siblingId) ++ [.conclude siblingId, .hear, .hear]

end Lab

namespace Crew

/-- Nobody hears of a finalizer that a client puts on: a finalized object that carries the registry's
finalizer again is not looked at. -/
theorem marked_object_is_forgotten :
    let crew := (start .empty Lab.policy).run Lab.finalizerRestored
    (∃ o ∈ crew.store.get? Lab.tenantId,
      o.info.deletionRequested = true ∧ o.info.hasFinalizer finalizerName = true) ∧
      ¬ crew.Attends Lab.tenantId := by
  decide +kernel

/-- The tenant that a client has put the finalizer back on is forgotten, and the other one is not. -/
theorem attends_of_live_sibling :
    let crew := (start .empty Lab.policy).run Lab.siblingInterrupted
    ¬ PutBack (start .empty Lab.policy) Lab.siblingInterrupted Lab.siblingId ∧
      (∃ o, crew.store.get? Lab.siblingId = some o ∧ o.info.deletionRequested = true ∧ o.Live) ∧
        crew.Attends Lab.siblingId ∧ ¬ crew.Attends Lab.tenantId := by
  intro crew
  have hkept : ¬ PutBack (start .empty Lab.policy) Lab.siblingInterrupted Lab.siblingId := by
    rintro ⟨earlier, later, hsplit, -⟩
    have hmoves : Move.write (.mark Lab.siblingId finalizerName) ∉ Lab.siblingInterrupted := by decide +kernel
    exact hmoves (hsplit ▸ List.mem_append_right _ List.mem_cons_self)
  have hruns : (∃ o ∈ crew.store.get? Lab.siblingId, o.info.deletionRequested = true ∧ o.Live) ∧
      ¬ crew.Attends Lab.tenantId := by
    decide +kernel
  obtain ⟨⟨o, hget, hdeletion, hlive⟩, hforgotten⟩ := hruns
  exact ⟨hkept, ⟨o, hget, hdeletion, hlive⟩, attends_of_live .empty (fun _ _ => nofun) Lab.policy
    Lab.siblingInterrupted Lab.siblingId hkept o hget hlive, hforgotten⟩

end Crew

end AddressRegistry
