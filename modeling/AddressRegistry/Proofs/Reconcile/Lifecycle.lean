import AddressRegistry.Proofs.Gateway.Calls
import AddressRegistry.Proofs.Reconcile.History
import AddressRegistry.Proofs.Reconcile.Stage

/-!
# The life of an index

A registry is at work (`Workshop`): clients write to the store, passes over different objects are under way
at the same time and go on step by step, calls of the store fail from time to time, and allocator and gateway
serve requests (`Workshop.Move`). Clients never take the registry's finalizer off.

A scope with an index is then a stored scope that carries the finalizer, at every moment, and it loses the
index only in a pass over this scope, after its deletion was requested (`Workshop.index_lifecycle`). The
invariant is `Workshop.Sound`: besides the statement itself it says what a pass under way may rely on
(`Stage.Fits`). A pass puts the finalizer on before it gives a scope an index, and takes the index away
before it takes the finalizer off; a fault between the two leaves a finalizer without an index.
-/

namespace AddressRegistry

/-! ## Allocator and gateway -/

/-- A call of the allocator or of a gateway. Calls that only look something up change nothing and are left
out. -/
inductive ServiceCall where
  | register (r : Registration)
  | deregister (r : Registration)
  | declare (scope : ObjectKey) (pool : Pool)
  | retract (scope : ObjectKey) (raw : String)
  | request (g : Gateway) (q : ClaimRequest) (network : Option String)
  | release (g : Gateway) (q : ClaimRequest)

namespace Controller

/-- Serve a call; one that fails changes no index. -/
def operate (c : Controller) : ServiceCall → Controller
  | .register r => { c with indexes := c.indexes.after (c.indexes.register c.access r) }
  | .deregister r =>
    { c with indexes := (c.indexes.deregister c.access r).toOption.getD c.indexes }
  | .declare scope pool => { c with indexes := c.indexes.after (c.indexes.declare scope pool).2 }
  | .retract scope raw => { c with indexes := (c.indexes.retract scope raw).toOption.getD c.indexes }
  | .request g q network => (c.request g q network).2.1
  | .release g q => (c.release g q).2.1

variable {c c' : Controller}

/-- What a gateway notes down about a call that it served is not an object and not an index. -/
theorem served_yields (g : Gateway) (q : ClaimRequest) (h : c.Yields none c') :
    c.Yields none (c'.served g q).2 := by
  unfold served
  split
  · exact h.tryFanOut _
  · exact h

/-- A call adds no index and drops none. -/
theorem operate_yields (c : Controller) (op : ServiceCall) : c.Yields none (c.operate op) := by
  cases op with
  | register r =>
    dsimp only [operate]
    cases h : c.indexes.register c.access r with
    | error f => exact .refl c
    | ok answer => exact yields_of_frame rfl rfl (ScopeIndexes.sameScopes_of_register h)
  | deregister r =>
    dsimp only [operate]
    cases h : c.indexes.deregister c.access r with
    | error f => exact .refl c
    | ok changed => exact yields_of_frame rfl rfl (ScopeIndexes.sameScopes_of_deregister h)
  | declare scope pool =>
    dsimp only [operate]
    cases h : (c.indexes.declare scope pool).2 with
    | error e => exact .refl c
    | ok answer => exact yields_of_frame rfl rfl (ScopeIndexes.sameScopes_of_declare h)
  | retract scope raw =>
    dsimp only [operate]
    cases h : c.indexes.retract scope raw with
    | error e => exact .refl c
    | ok changed => exact yields_of_frame rfl rfl (ScopeIndexes.sameScopes_of_retract h)
  | request g q network =>
    dsimp only [operate, request]
    split
    · exact .refl c
    · exact .refl c
    -- the fan-out of a served request wakes objects, which concerns no index
    · rename_i granted indexes g' hrequest
      obtain ⟨r, n, -, hregister, -⟩ := Gateway.request_eq_ok hrequest
      have hregistered : c.Yields none { c with indexes } :=
        yields_of_frame rfl rfl (ScopeIndexes.sameScopes_of_register hregister)
      have hserved := served_yields g' q hregistered
      split <;> rename_i hanswer <;> rw [hanswer] at hserved <;> exact hserved
  | release g q =>
    dsimp only [operate, release]
    split
    · exact .refl c
    · exact .refl c
    · rename_i changed g' hrelease
      obtain ⟨r, persisted, -, -, hderegister, -⟩ := Gateway.release_eq_ok hrelease
      have hderegistered : c.Yields none { c with indexes := changed } :=
        yields_of_frame rfl rfl (ScopeIndexes.sameScopes_of_deregister hderegister)
      have hserved := served_yields g' q hderegistered
      split <;> rename_i hanswer <;> rw [hanswer] at hserved <;> exact hserved

end Controller

/-! ## The registry at work -/

/-- A controller and the passes under way. -/
structure Workshop where
  controller : Controller
  passes : Passes

namespace Workshop

/-- What happens in a registry at work. -/
inductive Move where
  /-- A client writes to the store. -/
  | write (w : Write)
  /-- From now on these calls of the store fail. -/
  | faults (rules : List FaultRule)
  /-- A pass over an object begins. -/
  | launch (id : ObjectId)
  /-- The pass over an object goes on by one step. -/
  | proceed (id : ObjectId)
  /-- The pass over an object comes down. -/
  | abort (id : ObjectId)
  /-- Allocator or gateway serve a call. -/
  | operate (op : ServiceCall)

variable {w : Workshop} {m : Move} {moves : List Move} {id : ObjectId}

/-- One move. -/
def act (w : Workshop) : Move → Workshop
  | .write write =>
    { w with controller := { w.controller with
        access := { w.controller.access with store := w.controller.access.store.accept write } } }
  | .faults rules => { w with controller := w.controller.withRules rules }
  | .launch id => { w with passes := w.passes.launch id }
  | .proceed id =>
    let (controller, passes) := w.controller.proceed w.passes id
    ⟨controller, passes⟩
  | .abort id => { w with passes := w.passes.abort id }
  | .operate op => { w with controller := w.controller.operate op }

/-- One move after the other. -/
def run (w : Workshop) (moves : List Move) : Workshop := moves.foldl act w

/-- A registry at its start, over a store with anything in it. -/
def start (store : Store) (policy : RetryPolicy) : Workshop := ⟨.start ⟨store, []⟩ policy, .empty⟩

/-- The object store. -/
def store (w : Workshop) : Store := w.controller.access.store

/-- Clients leave the registry's finalizer alone, and faults are refusals: no call lies or crashes. -/
def Move.Fair : Move → Prop
  | .write w => ∀ id, w ≠ .unmark id finalizerName
  | .faults rules => Access.Refuses rules
  | .launch _ | .proceed _ | .abort _ | .operate _ => True

end Workshop

/-! ## Stored objects with the finalizer -/

/-- A stored object carries the registry's finalizer. -/
def Store.Holds (s : Store) (id : ObjectId) : Prop :=
  ∃ o, s.get? id = some o ∧ o.info.hasFinalizer finalizerName = true

/-- A stored object carries the finalizer, and its deletion is requested if that of another one is. -/
def Store.Retains (s : Store) (id : ObjectId) (o : Object) : Prop :=
  ∃ stored, s.get? id = some stored ∧ stored.info.hasFinalizer finalizerName = true ∧
    (o.info.deletionRequested = true → stored.info.deletionRequested = true)

/-- An object is a scope with an index. -/
def Controller.Indexed (c : Controller) (id : ObjectId) : Prop :=
  id.kind = .scope ∧ c.indexes.contains id.key = true

namespace Store

variable {s s' : Store} {w : Write} {id : ObjectId} {o : Object}

/-- An object that carries the finalizer stays while nobody takes that off. -/
theorem Written.retains (h : s.Written w s') (hfair : w ≠ .unmark id finalizerName)
    (hretains : s.Retains id o) : s'.Retains id o := by
  obtain ⟨stored, hget, hfinalizer, hdeletion⟩ := hretains
  -- a write to another place is no concern; in its own place only taking the finalizer off is ruled out
  by_cases hid : id = w.id
  · subst hid
    cases h with
    | kept _ _ _ => exact ⟨stored, hget, hfinalizer, hdeletion⟩
    | created hnew => cases hnew.symm.trans hget
    | updated hget' hfinalizers hdeletion' _ =>
      cases hget'.symm.trans hget
      refine ⟨_, get?_write_self _ _ _ _, ?_, fun h => hdeletion'.trans (hdeletion h)⟩
      unfold Metadata.hasFinalizer at hfinalizer ⊢
      rw [hfinalizers, hfinalizer]
    | condemned hget' =>
      cases hget'.symm.trans hget
      exact ⟨_, get?_write_self _ _ _ _, by rw [info_condemned]; exact hfinalizer,
        fun _ => by rw [info_condemned]⟩
    | noted hget' hinfo _ =>
      cases hget'.symm.trans hget
      exact ⟨_, get?_write_self _ _ _ _, by rw [hinfo, hfinalizer], fun h => by rw [hinfo, hdeletion h]⟩
    | marked hget' _ =>
      cases hget'.symm.trans hget
      refine ⟨_, SortedMap.get?_insert_self _ _ _, ?_, fun h => by rw [info_marked]; exact hdeletion h⟩
      rw [info_marked]
      unfold Metadata.hasFinalizer at hfinalizer ⊢
      rw [List.any_append, hfinalizer, Bool.true_or]
    | @unmarked _ f _ hget' =>
      cases hget'.symm.trans hget
      refine ⟨_, SortedMap.get?_insert_self _ _ _, ?_, fun h => by rw [info_unmarked]; exact hdeletion h⟩
      rw [info_unmarked]
      unfold Metadata.hasFinalizer at hfinalizer ⊢
      obtain ⟨f', hf', heq⟩ := List.any_eq_true.1 hfinalizer
      refine List.any_eq_true.2 ⟨f', List.mem_filter.2 ⟨hf', ?_⟩, heq⟩
      rw [beq_iff_eq] at heq
      rw [bne_iff_ne, heq]
      rintro rfl
      exact hfair rfl
    | removed hget' _ hfree =>
      cases hget'.symm.trans hget
      obtain ⟨f, hf, heq⟩ := List.any_eq_true.1 hfinalizer
      rw [beq_iff_eq] at heq
      exact absurd (heq ▸ hfree f hf) hfair
  · exact ⟨stored, (h.get?_of_ne hid).trans hget, hfinalizer, hdeletion⟩

/-- An object carries the finalizer when some object, be it itself, is retained. -/
theorem holds_iff_retains : s.Holds id ↔ ∃ o, s.Retains id o := by
  constructor
  · rintro ⟨o, hget, hfinalizer⟩
    exact ⟨o, o, hget, hfinalizer, fun h => h⟩
  · rintro ⟨o, stored, hget, hfinalizer, -⟩
    exact ⟨stored, hget, hfinalizer⟩

/-- What retains every object keeps the finalizer on each. -/
theorem Holds.mono (h : s.Holds id) (hretains : ∀ o, s.Retains id o → s'.Retains id o) : s'.Holds id := by
  obtain ⟨o, ho⟩ := holds_iff_retains.1 h
  exact holds_iff_retains.2 ⟨o, hretains o ho⟩

/-- An object carries the finalizer that was put on it. -/
theorem Written.holds_of_mark (h : s.Written (.mark id finalizerName) s') : s'.Holds id := by
  cases h with
  | kept hget hcarried _ => exact ⟨_, hget, hcarried _ rfl⟩
  | marked hget _ =>
    refine ⟨_, SortedMap.get?_insert_self _ _ _, ?_⟩
    rw [info_marked]
    simp [Metadata.hasFinalizer]
  | removed _ hw _ => rcases hw with hw | ⟨f, hw⟩ <;> cases hw

end Store

/-! ## What a pass under way relies on -/

namespace Stage

/-- What a pass knows stays true while it is interrupted. -/
def Fits (c : Controller) (id : ObjectId) : Stage → Prop
  | .found o =>
    (c.Indexed id → o.info.hasFinalizer finalizerName = true) ∧
      (o.info.hasFinalizer finalizerName = true → c.access.store.Retains id o)
  | .marked _ | .admitted _ _ | .cleared _ _ _ | .judged _ _ _ => c.access.store.Holds id
  | .undone _ => ¬ c.Indexed id
  | .begun | .saved _ _ _ | .blocked _ _ | .freed _ | .ended _ => True

variable {c c' : Controller} {id : ObjectId} {stage : Stage}

/-- A pass that tends its object relies on the finalizer, at each of its stages. -/
theorem Fits.holds (h : stage.Fits c id) (hstage : stage.Tends) : c.access.store.Holds id := by
  cases stage <;> first | exact h | cases hstage

/-- At the stages between finding and saving, a stored object with the finalizer is all that a pass relies
on. -/
theorem fits_of_tends (hstage : stage.Tends) (h : c.access.store.Holds id) : stage.Fits c id := by
  cases stage <;> first | exact h | cases hstage

/-- What a pass relies on is kept by whatever keeps the finalizer of its object and the index. -/
theorem Fits.mono (h : stage.Fits c id)
    (hretains : ∀ o, c.access.store.Retains id o → c'.access.store.Retains id o)
    (hindexed : c'.Indexed id ↔ c.Indexed id) : stage.Fits c' id := by
  have hholds : c.access.store.Holds id → c'.access.store.Holds id := fun h => h.mono hretains
  cases stage with
  | found o => exact ⟨fun hi => h.1 (hindexed.1 hi), fun hf => hretains o (h.2 hf)⟩
  | marked _ => exact hholds h
  | admitted _ _ => exact hholds h
  | cleared _ _ _ => exact hholds h
  | judged _ _ _ => exact hholds h
  | undone _ => exact fun hi => h (hindexed.1 hi)
  | begun => trivial
  | saved _ _ _ => trivial
  | blocked _ _ => trivial
  | freed _ => trivial
  | ended _ => trivial

end Stage

namespace Controller

variable {c c' : Controller} {id id' : ObjectId} {stage stage' : Stage} {w : Option Write}

/-- A step that neither adds nor drops an index and leaves the finalizer on keeps what passes rely on. -/
theorem Yields.keeps (h : c.Yields w c') (id : ObjectId)
    (hw : ∀ w', w = some w' → w' ≠ .unmark id finalizerName) :
    (∀ o, c.access.store.Retains id o → c'.access.store.Retains id o) ∧ (c'.Indexed id ↔ c.Indexed id) := by
  constructor
  · intro o ho
    cases w with
    | none => rwa [h.store]
    | some w' => exact Store.Written.retains h.store (hw w' rfl) ho
  · exact and_congr_right fun _ => by rw [h.scopes id.key]

/-- What the step of a pass is to be given, and what it leaves behind. -/
structure Anchored (c : Controller) (id : ObjectId) (stage : Stage) : Prop where
  holds : c.Indexed id → c.access.store.Holds id
  fits : stage.Fits c id

/-- What keeps the finalizer and the index keeps an anchored pass anchored. -/
theorem Anchored.mono (h : c.Anchored id stage)
    (hkeeps : (∀ o, c.access.store.Retains id o → c'.access.store.Retains id o) ∧
      (c'.Indexed id ↔ c.Indexed id)) : c'.Anchored id stage := by
  exact ⟨fun hi => (h.holds (hkeeps.2.1 hi)).mono hkeeps.1, h.fits.mono hkeeps.1 hkeeps.2⟩

/-- A step of a pass leaves an index only to a scope that carries the finalizer. -/
theorem Advanced.anchored (h : c.Advanced id stage stage' c') (hanchored : c.Anchored id stage) :
    c'.Anchored id stage' := by
  -- a step that neither writes the object's place nor touches its index keeps both parts
  have hnone : ∀ {c'' : Controller}, c.Yields none c'' → c''.Anchored id stage :=
    fun h => hanchored.mono (h.keeps id fun _ hw => nomatch hw)
  cases h with
  | absent _ h | failed h | told _ h | removed h => exact ⟨(hnone h).holds, trivial⟩
  | found hget =>
    refine ⟨hanchored.holds, fun hi => ?_, fun hf => ⟨_, hget, hf, fun h => h⟩⟩
    obtain ⟨o, hget', hfinalizer⟩ := hanchored.holds hi
    cases hget'.symm.trans hget
    exact hfinalizer
  | undone _ hkind h => exact ⟨(hnone h).holds, fun hi => hkind hi.1⟩
  | dropped _ _ _ _ hindexes =>
    have hlost : ¬ c'.Indexed id := fun hi => by
      have hcontains := hi.2
      rw [hindexes] at hcontains
      exact (SortedMap.contains_erase_iff.1 hcontains).1 rfl
    exact ⟨fun hi => absurd hi hlost, hlost⟩
  | blocked _ | settled => exact ⟨hanchored.holds, trivial⟩
  | carried _ hcarried =>
    exact ⟨hanchored.holds, Store.holds_iff_retains.2 ⟨_, hanchored.fits.2 hcarried⟩⟩
  | marked _ h =>
    have hholds : c'.access.store.Holds id := Store.Written.holds_of_mark h.store
    exact ⟨fun _ => hholds, hholds⟩
  | tended hstage hstage' h =>
    exact ⟨(hnone h).holds, Stage.fits_of_tends hstage' ((hnone h).fits.holds hstage)⟩
  | established _ haccess _ _ =>
    have hholds : c'.access.store.Holds id := by
      rw [haccess]
      exact hanchored.fits.holds trivial
    exact ⟨fun _ => hholds, hholds⟩
  | saved hw h =>
    refine ⟨(hanchored.mono (h.keeps id fun w' hw' => ?_)).holds, trivial⟩
    obtain ⟨o, rfl, -⟩ := hw w' hw'
    nofun
  | freed h =>
    have hlost : ¬ c'.Indexed id := fun hi =>
      hanchored.fits ⟨hi.1, (h.scopes id.key).symm.trans hi.2⟩
    exact ⟨fun hi => absurd hi hlost, trivial⟩
  | postponed _ _ h =>
    exact ⟨(hanchored.mono (h.keeps id (by rintro _ ⟨⟩; nofun))).holds, trivial⟩

/-- A step concerns no index but that of its own object. -/
theorem Advanced.indexed_of_ne (h : c.Advanced id stage stage' c') (hne : id' ≠ id) :
    c'.Indexed id' ↔ c.Indexed id' := by
  refine and_congr_right fun hkind' => ?_
  have hkey : id.kind = .scope → id'.key ≠ id.key := fun hkind =>
    ObjectId.key_ne_of_ne hne (hkind'.trans hkind.symm)
  cases h with
  | found _ | blocked _ | carried _ _ | settled => rfl
  | dropped _ hkind _ _ hindexes =>
    rw [hindexes, SortedMap.contains_erase_iff, and_iff_right (hkey hkind)]
  | established hkind _ _ hindexes =>
    rw [hindexes, ScopeIndexes.contains_ensure_iff, or_iff_right (hkey hkind)]
  | absent _ h | failed h | undone _ _ h | tended _ _ h | told _ h | removed h => rw [h.scopes id'.key]
  | marked _ h | freed h | postponed _ _ h | saved _ h => rw [h.scopes id'.key]

/-- Only a pass that found the deletion of its scope requested takes the index away. -/
theorem Advanced.stage_of_lost (h : c.Advanced id stage stage' c') (hindexed : c.Indexed id)
    (hlost : ¬ c'.Indexed id) : ∃ o, stage = .found o ∧ o.info.deletionRequested = true := by
  have hsame : ∀ {w : Option Write}, ¬ c.Yields w c' := fun h =>
    hlost ⟨hindexed.1, (h.scopes id.key).trans hindexed.2⟩
  cases h with
  | found _ | blocked _ | carried _ _ | settled => exact absurd hindexed hlost
  | dropped hdeletion _ _ _ _ => exact ⟨_, rfl, hdeletion⟩
  | established _ _ _ hindexes =>
    refine absurd ⟨hindexed.1, ?_⟩ hlost
    rw [hindexes]
    exact ScopeIndexes.contains_ensure_iff.2 (Or.inl rfl)
  | absent _ h | failed h | undone _ _ h | tended _ _ h | told _ h | removed h => exact absurd h hsame
  | marked _ h | freed h | postponed _ _ h | saved _ h => exact absurd h hsame

end Controller

/-! ## Runs -/

/-- A pass that is launched has just begun. -/
theorem Passes.get?_launch {passes : Passes} {id id' : ObjectId} {stage : Stage}
    (h : (passes.launch id).get? id' = some stage) : passes.get? id' = some stage ∨ stage = .begun := by
  unfold launch at h
  split at h
  · exact (SortedMap.get?_insert_eq_some_iff.1 h).symm.imp And.right And.right
  · exact (SortedMap.get?_insert_eq_some_iff.1 h).symm.imp And.right And.right
  · exact Or.inl h

/-- A pass that is brought down has ended. -/
theorem Passes.get?_abort {passes : Passes} {id id' : ObjectId} {stage : Stage}
    (h : (passes.abort id).get? id' = some stage) :
    passes.get? id' = some stage ∨ stage = .ended (.error .crashed) := by
  unfold abort at h
  split at h
  · exact Or.inl h
  · exact Or.inl h
  · exact (SortedMap.get?_insert_eq_some_iff.1 h).symm.imp And.right And.right

namespace Workshop

variable {w : Workshop} {m : Move} {moves : List Move} {id : ObjectId} {stage : Stage}

/-- What is true at every moment: a scope with an index carries the finalizer, and passes under way can
rely on what they know. -/
structure Sound (w : Workshop) : Prop where
  rules : Access.Refuses w.controller.access.rules
  keyed : w.store.Keyed
  holds : ∀ id, w.controller.Indexed id → w.store.Holds id
  about : ∀ id stage, w.passes.get? id = some stage → stage.About id
  fits : ∀ id stage, w.passes.get? id = some stage → stage.Fits w.controller id

/-- A pass of a sound workshop is anchored. -/
theorem Sound.anchored (h : w.Sound) (hstage : w.passes.get? id = some stage) :
    w.controller.Anchored id stage :=
  ⟨h.holds id, h.fits id stage hstage⟩

/-- The step of a pass under way in a sound workshop leads where steps lead. -/
theorem Sound.advanced (h : w.Sound) (hstage : w.passes.get? id = some stage) :
    w.controller.Leads id stage (w.controller.advance id stage) :=
  Controller.leads_advance h.rules h.keyed (h.about id stage hstage)

/-- At the start no scope has an index and no pass is under way. -/
theorem sound_start (store : Store) (policy : RetryPolicy) (hkeyed : store.Keyed) :
    (start store policy).Sound := by
  have hpasses : ∀ id stage, (start store policy).passes.get? id ≠ some stage := fun id stage h => by
    cases (SortedMap.get?_empty id).symm.trans h
  refine ⟨fun rule hrule => ?_, hkeyed, fun id hi => ?_, fun id stage hstage => ?_, fun id stage hstage => ?_⟩
  · cases hrule
  · exact absurd hi.2 Bool.false_ne_true
  · exact absurd hstage (hpasses id stage)
  · exact absurd hstage (hpasses id stage)

/-- A move of the controller that touches no index and leaves the finalizer on every object. -/
theorem Sound.keep {c' : Controller} (h : w.Sound) (hrules : Access.Refuses c'.access.rules)
    (hkeyed : c'.access.store.Keyed)
    (hretains : ∀ id o, w.store.Retains id o → c'.access.store.Retains id o)
    (hindexed : ∀ id, c'.Indexed id ↔ w.controller.Indexed id) : (⟨c', w.passes⟩ : Workshop).Sound where
  rules := hrules
  keyed := hkeyed
  holds id hi := (h.holds id ((hindexed id).1 hi)).mono (hretains id)
  about := h.about
  fits id stage hstage := (h.fits id stage hstage).mono (hretains id) (hindexed id)

/-- A step of one pass keeps the workshop sound: its own scope by `Advanced.anchored`, and for the others
because a step concerns one object and one index. -/
theorem Sound.proceed (h : w.Sound) (id : ObjectId) : (w.act (.proceed id)).Sound := by
  unfold act Controller.proceed
  dsimp only
  cases hstage : w.passes.get? id with
  | none => exact h
  | some stage =>
    obtain ⟨hadvanced, habout⟩ := h.advanced hstage
    have hanchored := hadvanced.anchored (h.anchored hstage)
    have hretains : ∀ {id' : ObjectId} {o : Object}, id' ≠ id → w.store.Retains id' o →
        (w.controller.advance id stage).2.access.store.Retains id' o := by
      rintro id' o hne ⟨stored, hget, hstored⟩
      exact ⟨stored, (hadvanced.get?_of_ne hne).trans hget, hstored⟩
    dsimp only
    constructor
    · exact hadvanced.rules ▸ h.rules
    · exact hadvanced.keyed h.keyed
    · intro id' hi
      by_cases hid : id' = id
      · subst hid
        exact hanchored.holds hi
      · exact (h.holds id' ((hadvanced.indexed_of_ne hid).1 hi)).mono fun _ => hretains hid
    · intro id' stage' hstage'
      rcases SortedMap.get?_insert_eq_some_iff.1 hstage' with ⟨rfl, rfl⟩ | ⟨hne, hstage'⟩
      · exact habout
      · exact h.about id' stage' hstage'
    · intro id' stage' hstage'
      rcases SortedMap.get?_insert_eq_some_iff.1 hstage' with ⟨rfl, rfl⟩ | ⟨hne, hstage'⟩
      · exact hanchored.fits
      · exact (h.fits id' stage' hstage').mono (fun _ => hretains hne) (hadvanced.indexed_of_ne hne)

/-- One step lemma for all moves. -/
theorem Sound.act (h : w.Sound) (hfair : m.Fair) : (w.act m).Sound := by
  cases m with
  | write write =>
    refine h.keep h.rules (h.keyed.accept write) (fun id o ho => ?_) fun _ => Iff.rfl
    rcases w.store.accept_cases write with hsame | hwritten
    · show (w.store.accept write).Retains id o
      rwa [hsame]
    · exact hwritten.retains (hfair id) ho
  | faults rules => exact h.keep hfair h.keyed (fun _ _ ho => ho) fun _ => Iff.rfl
  | launch id =>
    refine ⟨h.rules, h.keyed, h.holds, fun id' stage hstage => ?_, fun id' stage hstage => ?_⟩
    · rcases Passes.get?_launch hstage with hstage | rfl
      · exact h.about id' stage hstage
      · trivial
    · rcases Passes.get?_launch hstage with hstage | rfl
      · exact h.fits id' stage hstage
      · trivial
  | proceed id => exact h.proceed id
  | abort id =>
    refine ⟨h.rules, h.keyed, h.holds, fun id' stage hstage => ?_, fun id' stage hstage => ?_⟩
    · rcases Passes.get?_abort hstage with hstage | rfl
      · exact h.about id' stage hstage
      · trivial
    · rcases Passes.get?_abort hstage with hstage | rfl
      · exact h.fits id' stage hstage
      · trivial
  | operate op =>
    have hyields := w.controller.operate_yields op
    have hkeeps := fun id => hyields.keeps id fun _ hw => nomatch hw
    refine h.keep ?_ ?_ (fun id => (hkeeps id).1) fun id => (hkeeps id).2
    · rw [hyields.rules]
      exact h.rules
    · rw [hyields.store]
      exact h.keyed

/-- A workshop is sound in every run in which clients leave the finalizer alone. -/
theorem Sound.run (h : w.Sound) (hfair : ∀ m ∈ moves, m.Fair) : (w.run moves).Sound := by
  induction moves generalizing w with
  | nil => exact h
  | cons m rest ih =>
    obtain ⟨hm, hrest⟩ := List.forall_mem_cons.1 hfair
    exact ih (h.act hm) hrest

/-- An index is lost to a step of a pass that found the deletion of its scope requested. -/
theorem Sound.of_lost (h : w.Sound) (hindexed : w.controller.Indexed id)
    (hlost : ¬ (w.act m).controller.Indexed id) :
    m = .proceed id ∧ ∃ o, w.passes.get? id = some (.found o) ∧ o.info.deletionRequested = true := by
  cases m with
  | write _ => exact absurd hindexed hlost
  | faults _ => exact absurd hindexed hlost
  | launch _ => exact absurd hindexed hlost
  | abort _ => exact absurd hindexed hlost
  | operate op =>
    exact absurd (((w.controller.operate_yields op).keeps id fun _ hw => nomatch hw).2.2 hindexed) hlost
  | proceed id' =>
    unfold Workshop.act Controller.proceed at hlost
    dsimp only at hlost
    cases hstage : w.passes.get? id' with
    | none =>
      rw [hstage] at hlost
      exact absurd hindexed hlost
    | some stage =>
      rw [hstage] at hlost
      obtain ⟨hadvanced, -⟩ := h.advanced hstage
      by_cases hid : id = id'
      · subst hid
        obtain ⟨o, rfl, hdeletion⟩ := hadvanced.stage_of_lost hindexed hlost
        exact ⟨rfl, o, hstage, hdeletion⟩
      · exact absurd ((hadvanced.indexed_of_ne hid).2 hindexed) hlost

/-- A scope with an index is stored and carries the registry's finalizer, and it loses the index only in a
pass over it, once its deletion was requested. Clients write, passes are interrupted and store calls fail
at any point. -/
theorem index_lifecycle (store : Store) (hkeyed : store.Keyed) (policy : RetryPolicy) (moves : List Move)
    (hfair : ∀ m ∈ moves, m.Fair) (key : ObjectKey)
    (hindexed : ((start store policy).run moves).controller.indexes.contains key = true) :
    (∃ scope : Scope, ((start store policy).run moves).store.get? ⟨.scope, key⟩ = some (.scope scope) ∧
      scope.info.hasFinalizer finalizerName = true) ∧
    ∀ m : Move, (((start store policy).run moves).act m).controller.indexes.contains key = false →
      m = .proceed ⟨.scope, key⟩ ∧
        ∃ scope : Scope, ((start store policy).run moves).store.get? ⟨.scope, key⟩ = some (.scope scope) ∧
          scope.info.deletionRequested = true := by
  have hsound := (sound_start store policy hkeyed).run hfair
  generalize (start store policy).run moves = w at hsound hindexed ⊢
  have hindexed : w.controller.Indexed ⟨.scope, key⟩ := ⟨rfl, hindexed⟩
  have hscope : ∀ {o : Object}, w.store.get? ⟨.scope, key⟩ = some o → ∃ scope : Scope, o = .scope scope := by
    intro o hget
    have hkind := congrArg ObjectId.kind (hsound.keyed _ o hget)
    cases o with
    | scope scope => exact ⟨scope, rfl⟩
    | tenant _ | pool _ | claim _ => cases hkind
  constructor
  · obtain ⟨o, hget, hfinalizer⟩ := hsound.holds _ hindexed
    obtain ⟨scope, rfl⟩ := hscope hget
    exact ⟨scope, hget, hfinalizer⟩
  · intro m hlost
    obtain ⟨rfl, found, hstage, hdeletion⟩ :=
      hsound.of_lost (m := m) hindexed fun hi => Bool.false_ne_true (hlost.symm.trans hi.2)
    obtain ⟨hfinalizer, hretains⟩ := hsound.fits _ _ hstage
    obtain ⟨o, hget, -, hrequested⟩ := hretains (hfinalizer hindexed)
    obtain ⟨scope, rfl⟩ := hscope hget
    exact ⟨rfl, scope, hget, hrequested hdeletion⟩

end Workshop

/-! ## A scope that is about to lose its index -/

namespace Lab

/-- A pass over an object from its beginning to its end. -/
def pass (id : ObjectId) : List Workshop.Move := .launch id :: List.replicate 7 (.proceed id)

/-- A scope has an index, its deletion is requested, and a pass has found it. -/
def closing : List Workshop.Move :=
  [.write (.create (.newTenant "default" "acme" .fresh)),
    .write (.create (.newScope Sample.key.space Sample.key.name Sample.spec))] ++
    pass tenantId ++ pass scopeId ++ [.write (.delete scopeId), .launch scopeId, .proceed scopeId]

end Lab

/-- A scope is deleted by a client, and the pass that finds this takes the index away with its next step. -/
theorem Workshop.index_lifecycle_sample :
    let workshop := (start .empty Lab.policy).run Lab.closing
    workshop.controller.indexes.contains Sample.key = true ∧
      (workshop.act (.proceed Lab.scopeId)).controller.indexes.contains Sample.key = false ∧
        (∃ scope : Scope, workshop.store.get? Lab.scopeId = some (.scope scope) ∧
          scope.info.hasFinalizer finalizerName = true) ∧
          ∃ scope : Scope, workshop.store.get? Lab.scopeId = some (.scope scope) ∧
            scope.info.deletionRequested = true := by
  intro workshop
  have hruns : workshop.controller.indexes.contains Sample.key = true ∧
      (workshop.act (.proceed Lab.scopeId)).controller.indexes.contains Sample.key = false := by
    decide +kernel
  have hfair : ∀ m ∈ Lab.closing, m.Fair := by
    simp [Lab.closing, Lab.pass, Move.Fair, List.replicate]
  obtain ⟨hpresent, habsent⟩ := hruns
  obtain ⟨hcarries, hloses⟩ :=
    index_lifecycle .empty (fun _ _ => nofun) Lab.policy Lab.closing hfair Sample.key hpresent
  exact ⟨hpresent, habsent, hcarries, (hloses _ habsent).2⟩

end AddressRegistry
