import AddressRegistry.Proofs.Service.Crew
import Mathlib.Data.Prod.Lex
import Mathlib.Order.WellFounded

/-!
# The controller comes to rest

While nobody writes and no timer ends, an engine can deliver a change of its store or make a pass over a
waiting key, in any order (`Engine.Stirs`). Both can make more work: a delivery wakes the object and what
depends on it, and a pass writes a status, which is delivered in turn, or takes an object away, which wakes
what depends on it. Still no such run goes on forever (`Engine.comes_to_rest`), whatever state it starts
from and whatever calls of the store fail.

The reason is the order of what counts (`Engine.load`): first the objects, then the changes to be delivered
that concern dependents, then the waiting keys, those of parents before those of children, and last the
statuses to be delivered. A pass takes an object away, or else it logs statuses only and wakes objects of
dependent kinds only (`Controller.reconcile_subsides`), so that its own key waits no more.
-/

namespace AddressRegistry

/-! ## What passes do to the store -/

namespace Store

variable {s s' s'' : Store} {w : Write} {id : ObjectId} {o : Object} {f : String}

/-- Statuses were written, or objects are gone. -/
inductive Subsides (s s' : Store) : Prop
  | noted (events : List Event) (hlog : s'.log = events ++ s.log)
    (hevents : ∀ event ∈ events, event.change.concernsDependents = false) (hsize : s'.size = s.size)
  | shrunk (hsize : s'.size < s.size)

/-- Where nothing happened, no status was written. -/
theorem Subsides.refl (s : Store) : s.Subsides s := .noted [] rfl nofun rfl

/-- One store subsides to another through any number between. -/
theorem Subsides.trans (h : s.Subsides s') (h' : s'.Subsides s'') : s.Subsides s'' := by
  cases h with
  | noted events hlog hevents hsize =>
    cases h' with
    | noted events' hlog' hevents' hsize' =>
      refine .noted (events' ++ events) ?_ ?_ (hsize'.trans hsize)
      · rw [hlog', hlog, List.append_assoc]
      · exact List.forall_mem_append.2 ⟨hevents', hevents⟩
    | shrunk hsize' => exact .shrunk (hsize ▸ hsize')
  | shrunk hsize =>
    cases h' with
    | noted _ _ _ hsize' => exact .shrunk (hsize' ▸ hsize)
    | shrunk hsize' => exact .shrunk (hsize'.trans hsize)

/-- Writing a status or a finalizer lets a store subside; creating, editing and deleting do not. -/
theorem Written.subsides (h : s.Written w s')
    (hw : (∃ o, w = .note o) ∨ (∃ id f, w = .mark id f) ∨ ∃ id f, w = .unmark id f) : s.Subsides s' := by
  cases h with
  | kept _ _ _ => exact .refl s
  | created _ => simp at hw
  | updated _ _ _ _ => simp at hw
  | condemned _ => simp at hw
  | @noted o _ _ hget _ _ =>
    refine .noted [⟨o.id, .statusUpdated⟩] rfl ?_ (SortedMap.size_insert_of_get? hget _)
    intro event hevent
    rw [List.mem_singleton.1 hevent]
    rfl
  | marked hget _ => exact .noted [] rfl nofun (SortedMap.size_insert_of_get? hget _)
  | unmarked hget => exact .noted [] rfl nofun (SortedMap.size_insert_of_get? hget _)
  | removed hget _ _ => exact .shrunk (SortedMap.size_erase_lt hget)

end Store

namespace Controller

variable {c c' c'' : Controller} {id : ObjectId} {o o' : Object} {kind : Kind}

/-- What a pass over an object of a kind comes to: the store subsides, and nothing is added to the queues
of kinds that do not depend on this one. -/
structure Subsides (kind : Kind) (c c' : Controller) : Prop where
  store : c.access.store.Subsides c'.access.store
  queues : ∀ kind' ∉ kind.dependents, c'.queues.get kind' = c.queues.get kind'

/-- What subsides twice has subsided. -/
theorem Subsides.trans (h : c.Subsides kind c') (h' : c'.Subsides kind c'') : c.Subsides kind c'' :=
  ⟨h.store.trans h'.store, fun kind' hkind => (h'.queues kind' hkind).trans (h.queues kind' hkind)⟩

/-- What touches neither store nor queues lets everything subside. -/
theorem subsides_of_eq (haccess : c'.access = c.access) (hqueues : c'.queues = c.queues) :
    c.Subsides kind c' :=
  ⟨by rw [haccess]; exact .refl _, fun _ _ => by rw [hqueues]⟩

/-- A write that lets the store subside queues nothing. -/
theorem subsides_of_written {store : Store} {w : Write} (h : c.access.store.Written w store)
    (hw : (∃ o, w = .note o) ∨ (∃ id f, w = .mark id f) ∨ ∃ id f, w = .unmark id f) :
    c.Subsides kind { c with access := { c.access with store } } :=
  ⟨h.subsides hw, fun _ _ => rfl⟩

/-- A fan-out wakes objects of dependent kinds. -/
theorem tryFanOut_subsides (c : Controller) (id : ObjectId) : c.Subsides id.kind (c.tryFanOut id).2 := by
  obtain ⟨ids, hids, hfan⟩ := c.tryFanOut_eq_wakeAll id
  rw [hfan]
  refine ⟨by rw [access_wakeAll]; exact .refl _, fun kind' hkind => ?_⟩
  rw [queues_wakeAll]
  refine Queues.get_addAll_of_ne _ fun i hi => ?_
  rintro rfl
  exact hkind (hids i hi)

/-- An evaluation writes nothing and wakes nobody. -/
theorem evaluate_subsides (c : Controller) (o : Object) : c.Subsides kind (c.evaluate o).2.2 := by
  unfold evaluate
  split
  · exact subsides_of_eq rfl rfl
  · dsimp only
    split
    · exact subsides_of_eq rfl rfl
    · obtain ⟨-, haccess, hqueues, -⟩ := apply_frame (c := c) rfl
      exact subsides_of_eq haccess hqueues

/-- A report writes a status and wakes objects of dependent kinds. -/
theorem report_subsides (c : Controller) (id : ObjectId) (before after : Object) (v : Verdict) :
    c.Subsides id.kind (c.report id before after v).2 := by
  unfold report
  dsimp only
  generalize after.mapStatus (fun s => { s with observedGeneration := after.info.generation }) = observed
  obtain ⟨readings, hrecord⟩ := c.recordVerdict_frame observed v
  generalize c.recordVerdict observed v = recorded at hrecord
  obtain ⟨object, c₁⟩ := recorded
  cases hrecord
  dsimp only
  have hrecorded : c.Subsides id.kind { c with readings } := subsides_of_eq rfl rfl
  split
  · exact hrecorded
  · rename_i c₂ hsave
    have hsaved : c.Subsides id.kind c₂ := by
      refine hrecorded.trans ?_
      split at hsave
      · cases hsave
        exact subsides_of_eq rfl rfl
      · obtain ⟨store, hwritten, rfl⟩ := saveStatus_frame hsave
        exact subsides_of_written hwritten (Or.inl ⟨_, rfl⟩)
    have htold : c₂.Subsides id.kind
        (if differsForDependents before object then c₂.tryFanOut id else (.ok (), c₂)).2 := by
      split
      · exact tryFanOut_subsides c₂ id
      · exact subsides_of_eq rfl rfl
    split
    · rename_i f c₃ hfan
      rw [hfan] at htold
      exact hsaved.trans htold
    · rename_i c₃ hfan
      rw [hfan] at htold
      obtain ⟨ladder, hdelay⟩ := c₃.delayAfter_frame (id.kind.retryName id.key) v
      dsimp only
      rw [hdelay]
      exact (hsaved.trans htold).trans (subsides_of_eq rfl rfl)

/-- A pass that maintains its object writes a finalizer and a status, and creates nothing. -/
theorem maintain_subsides (c : Controller) (id : ObjectId) (o : Object) :
    c.Subsides id.kind (c.maintain id o).2 := by
  unfold maintain
  split
  · exact subsides_of_eq rfl rfl
  · rename_i before c₁ hensure
    have hensured : c.Subsides id.kind c₁ := by
      rcases ensureFinalizer_frame hensure with ⟨-, -, rfl⟩ | ⟨-, store, hwritten, rfl⟩
      · exact subsides_of_eq rfl rfl
      · exact subsides_of_written hwritten (Or.inr (Or.inl ⟨_, _, rfl⟩))
    have hevaluated : c₁.Subsides id.kind (c₁.evaluate before).2.2 := c₁.evaluate_subsides before
    split
    · rename_i v after c₂ hevaluate
      rw [hevaluate] at hevaluated
      exact (hensured.trans hevaluated).trans (c₂.report_subsides id before after v)
    · rename_i after c₂ hevaluate
      rw [hevaluate] at hevaluated
      exact hensured.trans hevaluated

/-- A pass that finishes an object takes a finalizer off, perhaps with the object, and wakes objects of
dependent kinds. -/
theorem finish_subsides (c : Controller) (id : ObjectId) (hkind : o.kind = id.kind) :
    c.Subsides id.kind (c.finish id o).2 := by
  unfold finish
  split
  · exact subsides_of_eq rfl rfl
  · rename_i access hremove
    obtain ⟨hwritten, heq⟩ := Access.written_of_removeFinalizer hremove
    have hremoved : c.Subsides id.kind
        { c with access, ladder := c.ladder.forget (id.kind.retryName id.key) } := by
      rw [heq]
      exact ⟨hwritten.subsides (Or.inr (Or.inr ⟨_, _, rfl⟩)), fun _ _ => rfl⟩
    have htold := tryFanOut_subsides
      { c with access, ladder := c.ladder.forget (id.kind.retryName id.key) } o.id
    rw [show o.id.kind = id.kind from hkind] at htold
    dsimp only
    split <;> rename_i hfan <;> rw [hfan] at htold <;> exact hremoved.trans htold

/-- A pass that puts its object off writes a status. -/
theorem postpone_subsides (c : Controller) (id : ObjectId) (o : Object) (e : RegistryError) :
    c.Subsides kind (c.postpone id o e).2 := by
  unfold postpone
  obtain ⟨readings, hrecord⟩ := c.recordVerdict_frame o (.stuck .terminating e)
  generalize c.recordVerdict o (.stuck .terminating e) = recorded at hrecord
  obtain ⟨object, c₁⟩ := recorded
  cases hrecord
  dsimp only
  split
  · exact subsides_of_eq rfl rfl
  · rename_i c₂ hsave
    obtain ⟨store, hwritten, rfl⟩ := saveStatus_frame hsave
    have hsaved := (subsides_of_eq rfl rfl : c.Subsides kind { c with readings }).trans
      (subsides_of_written hwritten (Or.inl ⟨_, rfl⟩))
    exact ⟨hsaved.store, hsaved.queues⟩

/-- A pass that finalizes its object puts it off or finishes it. -/
theorem finalize_subsides (c : Controller) (id : ObjectId) (hkind : o.kind = id.kind) :
    c.Subsides id.kind (c.finalize id o).2 := by
  unfold finalize
  split
  · rename_i c₁ hundo
    obtain ⟨haccess, hqueues, -⟩ := undo_frame hundo
    exact (subsides_of_eq haccess hqueues).trans (c₁.finish_subsides id hkind)
  · exact c.postpone_subsides id o _
  · exact subsides_of_eq rfl rfl

/-- A pass takes its object away, or else it writes statuses only; and it wakes objects of dependent kinds
only. -/
theorem reconcile_subsides (c : Controller) (id : ObjectId) : c.Subsides id.kind (c.reconcile id).2 := by
  unfold reconcile
  split
  · exact subsides_of_eq rfl rfl
  · exact subsides_of_eq rfl rfl
  · rename_i o hfetch
    split
    · exact c.finalize_subsides id (Access.kind_of_fetch hfetch)
    · exact c.maintain_subsides id o

end Controller

/-! ## A measure of the work left -/

/-- The waiting keys by kind, parents first. -/
def Queues.load (q : Queues) : ℕ ×ₗ ℕ ×ₗ ℕ ×ₗ ℕ :=
  toLex (q.tenants.waiting.length, toLex (q.scopes.waiting.length,
    toLex (q.claims.waiting.length, q.pools.waiting.length)))

/-- The load shrinks when a queue shrinks and at most the queues of dependent kinds grow. -/
theorem Queues.load_lt {q q' : Queues} {kind : Kind}
    (hless : (q'.get kind).waiting.length < (q.get kind).waiting.length)
    (hothers : ∀ kind' ∉ kind.dependents, kind' ≠ kind → q'.get kind' = q.get kind') :
    q'.load < q.load := by
  have htenants : kind ≠ .tenant → q'.tenants = q.tenants := fun hne =>
    hothers .tenant (by cases kind <;> decide) hne.symm
  have hscopes : kind ≠ .tenant → kind ≠ .scope → q'.scopes = q.scopes := fun htenant hne =>
    hothers .scope (by cases kind <;> first | decide | exact absurd rfl htenant) hne.symm
  have hclaims : kind = .pool → q'.claims = q.claims := by
    rintro rfl
    exact hothers .claim (by decide) nofun
  unfold load
  simp only [Prod.Lex.toLex_lt_toLex]
  cases kind with
  | tenant => exact Or.inl hless
  | scope => exact Or.inr ⟨by rw [htenants nofun], Or.inl hless⟩
  | claim => exact Or.inr ⟨by rw [htenants nofun], Or.inr ⟨by rw [hscopes nofun nofun], Or.inl hless⟩⟩
  | pool =>
    exact Or.inr ⟨by rw [htenants nofun], Or.inr ⟨by rw [hscopes nofun nofun],
      Or.inr ⟨by rw [hclaims rfl], hless⟩⟩⟩

namespace Engine

variable {e e' : Engine} {kind : Kind} {id : ObjectId}

/-- The number of changes to be delivered that concern dependents. -/
def unheeded (e : Engine) : ℕ :=
  (e.store.log.take e.backlog).countP fun event => event.change.concernsDependents

/-- What is left to do, the most weighty first. -/
def load (e : Engine) : ℕ ×ₗ ℕ ×ₗ (ℕ ×ₗ ℕ ×ₗ ℕ ×ₗ ℕ) ×ₗ ℕ :=
  toLex (e.store.size, toLex (e.unheeded, toLex (e.controller.queues.load, e.backlog)))

/-- What an engine can do while nobody writes and no timer ends: deliver a change, or make a pass over a
waiting key of some kind. -/
inductive Stirs (e : Engine) : Engine → Prop
  | deliver (hbacklog : 0 < e.backlog) : Stirs e e.deliver
  | work {kind : Kind} {e' : Engine} (hwork : e.work? kind = some e') : Stirs e e'

/-! ## Deliveries -/

/-- A delivery has less to do after it: one change less that concerns dependents, whatever it wakes, or else
one status less. -/
theorem load_deliver_lt (hbacklog : 0 < e.backlog) : e.deliver.load < e.load := by
  obtain ⟨n, hn⟩ := Nat.exists_eq_succ_of_ne_zero hbacklog.ne'
  obtain ⟨event, hevent, hdeliver⟩ := deliver_eq hbacklog
  obtain ⟨ids, haccess, -, -⟩ := e.controller.observe_eq event
  rw [hn, Nat.succ_sub_one] at hevent
  have hcontroller : e.deliver.controller = (e.controller.observe event).2 := by
    rw [hdeliver, controller_noted]
  have hstore : e.deliver.store = e.store := by
    unfold store
    rw [hcontroller, haccess]
  have hbacklog' : e.deliver.backlog = n := by
    have hdelivered : e.deliver.delivered = e.delivered + 1 := by
      rw [hdeliver, delivered_noted]
    unfold backlog at hn ⊢
    rw [hstore, hdelivered]
    omega
  have hunheeded : e.unheeded = (e.store.log.take n).countP (fun event => event.change.concernsDependents)
      + if event.change.concernsDependents then 1 else 0 := by
    unfold unheeded
    rw [hn, Nat.succ_eq_add_one, List.take_add_one, hevent, List.countP_append]
    simp
  unfold load
  simp only [Prod.Lex.toLex_lt_toLex, hstore]
  refine Or.inr ⟨trivial, ?_⟩
  rw [hunheeded]
  unfold unheeded
  rw [hstore, hbacklog']
  cases hconcerns : event.change.concernsDependents with
  | true => exact Or.inl (Nat.lt_succ_self _)
  | false =>
    refine Or.inr ⟨rfl, Or.inr ⟨?_, by omega⟩⟩
    rw [hcontroller]
    unfold Controller.observe
    rw [hconcerns]
    rfl

/-! ## Passes -/

/-- The status changes at the head of the log concern nobody. -/
theorem countP_take_append {α : Type} {p : α → Bool} {new log : List α} (hnew : ∀ a ∈ new, p a = false)
    (n : ℕ) :
    ((new ++ log).take ((new ++ log).length - n)).countP p = (log.take (log.length - n)).countP p := by
  rw [List.take_append, List.countP_append]
  have hnone : (new.take ((new ++ log).length - n)).countP p = 0 := by
    rw [List.countP_eq_zero]
    intro a ha
    rw [hnew a (List.mem_of_mem_take ha)]
    nofun
  rw [hnone, List.length_append, Nat.zero_add]
  congr 2
  omega

/-- A key that was not marked again does not wait when its pass is over, whether or not it is added
later. -/
theorem waiting_dismissed {q : WorkQueue} {key : ObjectKey} (hunmarked : q.dirty.contains key = false)
    (now : ℕ) (delay : Option ℕ) : (q.dismissed now key delay).waiting = q.waiting := by
  have hdone : (q.done key).waiting = q.waiting := by
    unfold WorkQueue.done WorkQueue.returns
    rw [hunmarked]
    rfl
  cases delay with
  | none => exact hdone
  | some delay =>
    dsimp only [WorkQueue.dismissed]
    unfold WorkQueue.addAfter
    split <;> exact hdone

/-- A pass has less to do after it: there is an object less, or its own key waits no more and it woke only
those who depend on it. A key that was marked meanwhile would wait again, but nothing comes between in a
step of the engine. -/
theorem load_lt_of_work (hwork : e.work? kind = some e') : e'.load < e.load := by
  obtain ⟨⟨key, c₁⟩, htake, rfl⟩ := Option.map_eq_some_iff.1 hwork
  obtain ⟨⟨rest, hwaiting⟩, hc₁⟩ := Controller.takeKey_eq_some_iff.1 htake
  have hsubsides := c₁.reconcile_subsides ⟨kind, key⟩
  dsimp only
  rw [pass_eq_dismiss]
  dsimp only
  generalize c₁.reconcile ⟨kind, key⟩ = pass at hsubsides ⊢
  obtain ⟨result, c₂⟩ := pass
  obtain ⟨ladder, delay, hdismiss, -⟩ := { e with controller := c₂ }.dismiss_eq ⟨kind, key⟩ result
  dsimp only at hsubsides hdismiss ⊢
  rw [hdismiss]
  have hqueue : ∀ kind', ({ c₂ with ladder }.withQueue kind (·.dismissed e.now key delay)).queues.get kind'
      = if kind' = kind then (c₂.queues.get kind').dismissed e.now key delay else c₂.queues.get kind' :=
    fun kind' => Queues.get_modify _ _ _ _
  -- the queue of the pass's own kind: its key waits no more and is not marked
  have hown : c₂.queues.get kind = (e.controller.queues.get kind).handed key := by
    rw [hsubsides.queues kind fun h => Kind.ne_of_mem_dependents h rfl, hc₁]
    exact Queues.get_modify_self _ _ _
  have hless : (({ c₂ with ladder }.withQueue kind (·.dismissed e.now key delay)).queues.get kind).waiting.length
      < (e.controller.queues.get kind).waiting.length := by
    have hunmarked : (c₂.queues.get kind).dirty.contains key = false := by
      rw [hown, SortedMap.contains_eq_false_iff]
      exact SortedMap.get?_erase_self _ _
    rw [hqueue, if_pos rfl, waiting_dismissed hunmarked, hown, WorkQueue.handed, hwaiting]
    exact Nat.lt_succ_self _
  have hothers : ∀ kind' ∉ kind.dependents, kind' ≠ kind →
      ({ c₂ with ladder }.withQueue kind (·.dismissed e.now key delay)).queues.get kind'
        = e.controller.queues.get kind' := by
    intro kind' hkind hne
    rw [hqueue, if_neg hne]
    refine (hsubsides.queues kind' hkind).trans ?_
    rw [hc₁]
    exact Queues.get_modify_of_ne _ _ hne
  have hsubsided : e.store.Subsides c₂.access.store := by
    rw [show e.store = c₁.access.store by rw [hc₁]; rfl]
    exact hsubsides.store
  unfold load
  simp only [Prod.Lex.toLex_lt_toLex]
  cases hsubsided with
  | shrunk hsize => exact Or.inl hsize
  | noted events hlog hevents hsize =>
    refine Or.inr ⟨hsize, Or.inr ⟨?_, Or.inl (Queues.load_lt hless hothers)⟩⟩
    show (c₂.access.store.log.take (c₂.access.store.log.length - e.delivered)).countP _ = e.unheeded
    rw [hlog]
    exact countP_take_append hevents e.delivered

/-- Whatever an engine does by itself leaves it less to do. -/
theorem load_lt_of_stirs (h : e.Stirs e') : e'.load < e.load := by
  cases h with
  | deliver hbacklog => exact load_deliver_lt hbacklog
  | work hwork => exact load_lt_of_work hwork

/-- **The controller comes to rest.** An engine cannot go on forever delivering changes and making passes
over waiting keys. -/
theorem comes_to_rest (run : ℕ → Engine) : ∃ n, ¬ (run n).Stirs (run (n + 1)) := by
  have hwf : WellFounded fun e' e : Engine => e'.load < e.load := InvImage.wf load wellFounded_lt
  by_contra hforever
  push Not at hforever
  exact (wellFounded_iff_isEmpty_descending_chain.1 hwf).false
    ⟨run, fun n => load_lt_of_stirs (hforever n)⟩

end Engine

end AddressRegistry
