import AddressRegistry.Proofs.Reconcile.Frame
import AddressRegistry.Proofs.Reconcile.Retry

/-!
# Passes step by step

Between two calls of the store, or of the indexes, a pass can be interrupted: by clients, by passes over
other objects, by a fault. `Stage` says how far a pass is and what it knows then, and `Controller.advance`
takes it one step further. Taking steps until the pass has ended comes to the pass itself
(`Controller.iterate_advance`), since a step does not change what the pass will come to
(`Controller.rest_advance`).

`Controller.Advanced` says what one step does, with one constructor for each way: it makes at most one
write, of the pass's own object, and only a pass over a scope adds an index or drops one.
-/

namespace AddressRegistry

/-- How far a pass is, and what it knows. -/
inductive Stage where
  | begun
  | found (o : Object)
  /-- The object carries the finalizer. -/
  | marked (before : Object)
  /-- Name and parent were checked, and the object knows its place. -/
  | admitted (before placed : Object)
  /-- A claim has released the network that it no longer names. -/
  | cleared (before : Object) (claim : Claim) (r : Registration)
  | judged (before after : Object) (v : Verdict)
  /-- The verdict was written to the store. -/
  | saved (before object : Object) (v : Verdict)
  /-- The effect of an object that is to be deleted is undone. -/
  | undone (o : Object)
  /-- The effect of an object that is to be deleted could not be undone. -/
  | blocked (o : Object) (e : RegistryError)
  /-- The finalizer is off. -/
  | freed (o : Object)
  | ended (result : Except Failure Outcome)

/-- The greatest number of steps that a pass can still take. -/
def Stage.rank : Stage → Nat
  | .begun => 7
  | .found _ => 6
  | .marked _ => 5
  | .admitted _ _ => 4
  | .cleared _ _ _ => 3
  | .judged _ _ _ | .undone _ => 2
  | .saved _ _ _ | .blocked _ _ | .freed _ => 1
  | .ended _ => 0

/-- The stage after an evaluation came to a result. -/
def Stage.ofResult (before after : Object) (phase : Phase) (result : Except Failure Unit) : Stage :=
  match Verdict.ofResult? phase result with
  | some v => .judged before after v
  | none => .ended (.error .crashed)

namespace Controller

/-! ## Steps -/

/-- Begin to apply the effect of an object. Only a claim takes two steps for it. -/
def applyFirst (c : Controller) (before : Object) : Object → Stage × Controller
  | .claim claim =>
    match claim.registration with
    | .error e => (.judged before (.claim claim) (.stuck .initializing e), c)
    | .ok r =>
      match claim.releaseMoved r c.indexes c.access with
      | .error f => (.ofResult before (.claim claim) .initializing (.error f), c)
      | .ok (claim, indexes) => (.cleared before claim r, { c with indexes })
  | placed =>
    match c.apply placed with
    | (result, after, c) => (.ofResult before after .initializing result, c)

/-- Wake what depends on an object that was reported, and look up the delay. -/
def tell (c : Controller) (id : ObjectId) (before object : Object) (v : Verdict) :
    Except Failure Outcome × Controller :=
  match (if differsForDependents before object then c.tryFanOut id else (.ok (), c)) with
  | (.error f, c) => (.error f, c)
  | (.ok (), c) =>
    let (delay, c) := c.delayAfter (id.kind.retryName id.key) v
    (.ok ⟨v.phase, v.isReady, v.failure?, some delay⟩, c)

/-- Wake what depended on an object that is gone. -/
def tellGone (c : Controller) (o : Object) : Except Failure Outcome × Controller :=
  match c.tryFanOut o.id with
  | (.error f, c) => (.error f, c)
  | (.ok (), c) => (.ok .removed, c)

/-- Take a pass over an object one step further. -/
def advance (c : Controller) (id : ObjectId) : Stage → Stage × Controller
  | .begun =>
    match c.access.fetch id.kind id.key with
    | .error f => (.ended (.error f), c)
    | .ok none =>
      (.ended (.ok .removed), { c with ladder := c.ladder.forget (id.kind.retryName id.key) })
    | .ok (some o) => (.found o, c)
  | .found o =>
    if o.info.deletionRequested then
      match c.undo o with
      | .ok c => (.undone o, c)
      | .error (.refused e) => (.blocked o e, c)
      | .error .crashed => (.ended (.error .crashed), c)
    else
      match c.ensureFinalizer id o with
      | .error f => (.ended (.error f), c)
      | .ok (before, c) => (.marked before, c)
  | .marked before =>
    match ResourceName.parse before.kind before.info.name with
    | .error e => (.judged before before (.stuck .pending e), c)
    | .ok name =>
      match c.checkParent (before.placed name) with
      | .error f => (.ofResult before (before.placed name) .pending (.error f), c)
      | .ok () => (.admitted before (before.placed name), c)
  | .admitted before placed => c.applyFirst before placed
  | .cleared before claim r =>
    match c.indexes.register c.access r with
    | .error f => (.ofResult before (.claim claim) .initializing (.error f), c)
    | .ok (n, indexes) =>
      (.judged before (.claim (claim.withNetwork (some n.text))) .ready, { c with indexes })
  | .judged before after v =>
    let observed := after.mapStatus fun s => { s with observedGeneration := after.info.generation }
    let (object, c) := c.recordVerdict observed v
    match (if object = before then .ok c else c.saveStatus object) with
    | .error f => (.ended (.error f), c)
    | .ok c => (.saved before object v, c)
  | .saved before object v =>
    let (result, c) := c.tell id before object v
    (.ended result, c)
  | .undone o =>
    match c.access.removeFinalizer o.id finalizerName with
    | .error f => (.ended (.error f), c)
    | .ok access =>
      (.freed o, { c with access, ladder := c.ladder.forget (id.kind.retryName id.key) })
  | .blocked o e =>
    let (result, c) := c.postpone id o e
    (.ended result, c)
  | .freed o =>
    let (result, c) := c.tellGone o
    (.ended result, c)
  | .ended result => (.ended result, c)

/-! ## Whole passes -/

/-- Report what an evaluation came to. -/
def reportEvaluated (id : ObjectId) (before : Object) :
    Option Verdict × Object × Controller → Except Failure Outcome × Controller
  | (some v, after, c) => c.report id before after v
  | (none, _, c) => (.error .crashed, c)

/-- What a pass comes to from some stage on. -/
def rest (c : Controller) (id : ObjectId) : Stage → Except Failure Outcome × Controller
  | .begun => c.reconcile id
  | .found o => if o.info.deletionRequested then c.finalize id o else c.maintain id o
  | .marked before => reportEvaluated id before (c.evaluate before)
  | .admitted before placed =>
    match c.apply placed with
    | (result, after, c) => reportEvaluated id before (Verdict.ofResult? .initializing result, after, c)
  | .cleared before claim r =>
    match c.indexes.register c.access r with
    | .error f =>
      reportEvaluated id before (Verdict.ofResult? .initializing (.error f), .claim claim, c)
    | .ok (n, indexes) =>
      { c with indexes }.report id before (.claim (claim.withNetwork (some n.text))) .ready
  | .judged before after v => c.report id before after v
  | .saved before object v => c.tell id before object v
  | .undone o => c.finish id o
  | .blocked o e => c.postpone id o e
  | .freed o => c.tellGone o
  | .ended result => (result, c)

variable {c c' : Controller} {id : ObjectId}

/-- After an evaluation the rest of a pass is the report of its verdict, and after a crash nothing. -/
theorem rest_ofResult (c : Controller) (id : ObjectId) (before after : Object) (phase : Phase)
    (result : Except Failure Unit) :
    c.rest id (.ofResult before after phase result)
      = reportEvaluated id before (Verdict.ofResult? phase result, after, c) := by
  unfold Stage.ofResult
  cases Verdict.ofResult? phase result <;> rfl

/-- A claim is applied in two steps, any other object in one; together they are what applying is. -/
theorem rest_applyFirst (c : Controller) (id : ObjectId) (before placed : Object) :
    (c.applyFirst before placed).2.rest id (c.applyFirst before placed).1
      = c.rest id (.admitted before placed) := by
  cases placed with
  | tenant t => exact rest_ofResult _ _ _ _ _ _
  | scope s => exact rest_ofResult _ _ _ _ _ _
  | pool p => exact rest_ofResult _ _ _ _ _ _
  | claim claim =>
    unfold applyFirst rest apply Claim.apply
    dsimp only
    cases claim.registration with
    | error e => rfl
    | ok r =>
      dsimp only
      cases claim.releaseMoved r c.indexes c.access with
      | error f => exact rest_ofResult _ _ _ _ _ _
      | ok released =>
        obtain ⟨claim₁, indexes₁⟩ := released
        dsimp only [rest]
        cases ScopeIndexes.register indexes₁ c.access r with
        | error f => rfl
        | ok granted => rfl

/-- The first step looks the object up, as a pass does. -/
theorem rest_advance_begun (c : Controller) (id : ObjectId) :
    (c.advance id .begun).2.rest id (c.advance id .begun).1 = c.rest id .begun := by
  unfold advance rest reconcile
  dsimp only
  cases c.access.fetch id.kind id.key with
  | error f => rfl
  | ok found => cases found <;> rfl

/-- An object that is to go is finalized step by step, and any other one is maintained: the step that undoes
its effect, or puts the finalizer on, is the first thing that the rest of the pass does. -/
theorem rest_advance_found (c : Controller) (id : ObjectId) (o : Object) :
    (c.advance id (.found o)).2.rest id (c.advance id (.found o)).1 = c.rest id (.found o) := by
  dsimp only [advance, rest]
  by_cases hdeletion : o.info.deletionRequested = true
  · rw [if_pos hdeletion, if_pos hdeletion]
    unfold finalize
    cases c.undo o with
    | ok c' => rfl
    | error f => cases f <;> rfl
  · rw [if_neg hdeletion, if_neg hdeletion]
    unfold maintain
    cases c.ensureFinalizer id o <;> rfl

/-- The checks of name and parent come before anything is applied, and one that fails ends the evaluation. -/
theorem rest_advance_marked (c : Controller) (id : ObjectId) (before : Object) :
    (c.advance id (.marked before)).2.rest id (c.advance id (.marked before)).1 = c.rest id (.marked before) := by
  unfold advance
  dsimp only
  cases hname : ResourceName.parse before.kind before.info.name with
  | error e =>
    dsimp only [rest]
    rw [evaluate_of_parse_error hname]
    rfl
  | ok name =>
    dsimp only
    cases hparent : c.checkParent (before.placed name) with
    | error f =>
      dsimp only
      rw [rest_ofResult]
      dsimp only [rest]
      rw [evaluate_of_checkParent_error hname hparent]
    | ok _ =>
      dsimp only [rest]
      rw [evaluate_of_checkParent hname hparent]

/-- A status is saved only if the verdict made another object of the one that was read. -/
theorem rest_advance_judged (c : Controller) (id : ObjectId) (before after : Object) (v : Verdict) :
    (c.advance id (.judged before after v)).2.rest id (c.advance id (.judged before after v)).1
      = c.rest id (.judged before after v) := by
  dsimp only [advance, rest, report]
  generalize c.recordVerdict _ v = recorded
  by_cases hsame : recorded.1 = before
  · simp only [if_pos hsame]
    rfl
  · simp only [if_neg hsame]
    cases recorded.2.saveStatus recorded.1 <;> rfl

/-- A step does not change what the pass will come to. -/
theorem rest_advance (c : Controller) (id : ObjectId) (stage : Stage) :
    (c.advance id stage).2.rest id (c.advance id stage).1 = c.rest id stage := by
  cases stage with
  | begun => exact c.rest_advance_begun id
  | found o => exact c.rest_advance_found id o
  | marked before => exact c.rest_advance_marked id before
  | admitted before placed => exact c.rest_applyFirst id before placed
  | cleared before claim r =>
    unfold advance
    dsimp only [rest]
    cases c.indexes.register c.access r with
    | error f => exact rest_ofResult _ _ _ _ _ _
    | ok granted => rfl
  | judged before after v => exact c.rest_advance_judged id before after v
  | saved before object v => rfl
  | undone o =>
    dsimp only [advance, rest, finish]
    cases c.access.removeFinalizer o.id finalizerName <;> rfl
  | blocked o e => rfl
  | freed o => rfl
  | ended result => rfl

/-- Two steps remain at most when an evaluation has come to a result. -/
theorem rank_ofResult_le (before after : Object) (phase : Phase) (result : Except Failure Unit) :
    (Stage.ofResult before after phase result).rank ≤ 2 := by
  unfold Stage.ofResult
  split
  · exact Nat.le_refl _
  · exact Nat.zero_le _

/-- Three steps remain at most when an effect begins to be applied, for a claim has to be registered yet. -/
theorem rank_applyFirst_le (c : Controller) (before placed : Object) :
    (c.applyFirst before placed).1.rank ≤ 3 := by
  unfold applyFirst
  split
  · split
    · exact Nat.le_of_lt (Nat.lt_succ_self _)
    · split
      · exact (rank_ofResult_le _ _ _ _).trans (by decide)
      · exact Nat.le_refl _
  · exact (rank_ofResult_le _ _ _ _).trans (by decide)

/-- Every step brings a pass nearer to its end, so no pass takes more than seven. -/
theorem rank_advance_le (c : Controller) (id : ObjectId) (stage : Stage) :
    (c.advance id stage).1.rank ≤ stage.rank - 1 := by
  -- the outcome of a step depends on calls that may fail; every branch ends at a lower rank
  cases stage with
  | begun =>
    unfold advance
    dsimp only
    split <;> simp [Stage.rank]
  | found o =>
    unfold advance
    dsimp only
    split
    · split <;> simp [Stage.rank]
    · split <;> simp [Stage.rank]
  | marked before =>
    unfold advance
    dsimp only
    split
    · simp [Stage.rank]
    · split
      · exact (rank_ofResult_le _ _ _ _).trans (by simp [Stage.rank])
      · simp [Stage.rank]
  | admitted before placed => exact c.rank_applyFirst_le before placed
  | cleared before claim r =>
    unfold advance
    dsimp only
    split
    · exact rank_ofResult_le _ _ _ _
    · exact Nat.le_refl _
  | judged before after v =>
    unfold advance
    dsimp only
    split <;> simp [Stage.rank]
  | undone o =>
    unfold advance
    dsimp only
    split <;> simp [Stage.rank]
  | saved before object v => exact Nat.le_refl _
  | blocked o e => exact Nat.le_refl _
  | freed o => exact Nat.le_refl _
  | ended result => exact Nat.le_refl _

/-- A pass from some stage on, with at least as many steps as it can still take. -/
theorem iterate_advance_of_rank_le (id : ObjectId) {n : Nat} :
    ∀ {stage : Stage} {c : Controller}, stage.rank ≤ n →
      (fun pass : Stage × Controller => pass.2.advance id pass.1)^[n] (stage, c)
        = (.ended (c.rest id stage).1, (c.rest id stage).2) := by
  induction n with
  | zero =>
    intro stage c hrank
    cases stage with
    | ended result => rfl
    | _ => cases hrank
  | succ n ih =>
    intro stage c hrank
    rw [Function.iterate_succ_apply, ih ((c.rank_advance_le id stage).trans (Nat.sub_le_of_le_add hrank)),
      rest_advance]

/-- Taking steps until a pass has ended comes to the pass. -/
theorem iterate_advance (c : Controller) (id : ObjectId) :
    (fun pass : Stage × Controller => pass.2.advance id pass.1)^[7] (.begun, c)
      = (.ended (c.reconcile id).1, (c.reconcile id).2) :=
  iterate_advance_of_rank_le id (Nat.le_refl 7)

end Controller

/-! ## What one step does -/

/-- The stages of a pass over an object that is to stay, until the verdict is written. -/
def Stage.Tends : Stage → Prop
  | .marked _ | .admitted _ _ | .cleared _ _ _ | .judged _ _ _ => True
  | .begun | .found _ | .saved _ _ _ | .undone _ | .blocked _ _ | .freed _ | .ended _ => False

/-- The pass is over the object of a kind and key. -/
def Stage.About (id : ObjectId) : Stage → Prop
  | .begun | .saved _ _ _ | .ended _ => True
  | .found o | .undone o | .blocked o _ | .freed o => o.id = id
  | .marked before => before.id = id
  | .admitted _ placed => placed.id = id
  | .cleared _ claim _ => (Object.claim claim).id = id
  | .judged _ after _ => after.id = id

namespace Controller

/-- What a step does besides: it makes this write, if any, queues some objects, and neither adds nor drops an
index. -/
structure Yields (c : Controller) (w : Option Write) (c' : Controller) : Prop where
  rules : c'.access.rules = c.access.rules
  store : match w with
    | none => c'.access.store = c.access.store
    | some w => c.access.store.Written w c'.access.store
  scopes : c.indexes.SameScopes c'.indexes
  queues : ∃ ids, c'.queues = c.queues.addAll ids

/-- What a step of a pass over an object does, and where it leads. -/
inductive Advanced (c : Controller) (id : ObjectId) : Stage → Stage → Controller → Prop
  | absent {c' : Controller} (hget : c.access.store.get? id = none) (h : c.Yields none c') :
    Advanced c id .begun (.ended (.ok .removed)) c'
  | found {o : Object} (hget : c.access.store.get? id = some o) : Advanced c id .begun (.found o) c
  | failed {stage : Stage} {f : Failure} {c' : Controller} (h : c.Yields none c') :
    Advanced c id stage (.ended (.error f)) c'
  | undone {o : Object} {c' : Controller} (hdeletion : o.info.deletionRequested = true)
    (hkind : id.kind ≠ .scope) (h : c.Yields none c') : Advanced c id (.found o) (.undone o) c'
  /-- A scope that is to be deleted loses its index. -/
  | dropped {o : Object} {c' : Controller} (hdeletion : o.info.deletionRequested = true)
    (hkind : id.kind = .scope) (haccess : c'.access = c.access) (hqueues : c'.queues = c.queues)
    (hindexes : c'.indexes = c.indexes.erase id.key) : Advanced c id (.found o) (.undone o) c'
  | blocked {o : Object} {e : RegistryError} (hdeletion : o.info.deletionRequested = true) :
    Advanced c id (.found o) (.blocked o e) c
  | carried {o : Object} (hdeletion : o.info.deletionRequested = false)
    (hcarried : o.info.hasFinalizer finalizerName = true) : Advanced c id (.found o) (.marked o) c
  | marked {o before : Object} {c' : Controller} (hdeletion : o.info.deletionRequested = false)
    (h : c.Yields (some (.mark id finalizerName)) c') : Advanced c id (.found o) (.marked before) c'
  | tended {stage stage' : Stage} {c' : Controller} (hstage : stage.Tends) (hstage' : stage'.Tends)
    (h : c.Yields none c') : Advanced c id stage stage' c'
  /-- A scope has an index from now on. -/
  | established {before placed after : Object} {v : Verdict} {c' : Controller} (hkind : id.kind = .scope)
    (haccess : c'.access = c.access) (hqueues : c'.queues = c.queues)
    (hindexes : c'.indexes = c.indexes.ensure id.key) :
    Advanced c id (.admitted before placed) (.judged before after v) c'
  | saved {before after object : Object} {v : Verdict} {w : Option Write} {c' : Controller}
    (hw : ∀ write, w = some write → ∃ o, write = .note o ∧ o.id = id) (h : c.Yields w c') :
    Advanced c id (.judged before after v) (.saved before object v) c'
  | told {before object : Object} {v : Verdict} {outcome : Outcome} {c' : Controller}
    (hagain : outcome.requeueAfter ≠ none) (h : c.Yields none c') :
    Advanced c id (.saved before object v) (.ended (.ok outcome)) c'
  | freed {o : Object} {c' : Controller} (h : c.Yields (some (.unmark id finalizerName)) c') :
    Advanced c id (.undone o) (.freed o) c'
  | removed {o : Object} {c' : Controller} (h : c.Yields none c') :
    Advanced c id (.freed o) (.ended (.ok .removed)) c'
  | postponed {o object : Object} {e : RegistryError} {outcome : Outcome} {c' : Controller}
    (hid : object.id = id) (hagain : outcome.requeueAfter ≠ none)
    (h : c.Yields (some (.note object)) c') :
    Advanced c id (.blocked o e) (.ended (.ok outcome)) c'
  | settled {result : Except Failure Outcome} : Advanced c id (.ended result) (.ended result) c

variable {c c' c'' : Controller} {id : ObjectId} {stage : Stage} {w : Option Write}

/-- A step that does nothing yields nothing. -/
theorem Yields.refl (c : Controller) : c.Yields none c := ⟨rfl, rfl, .refl _, [], rfl⟩

/-- What touches neither the store nor the queues, and no index but what is in it, yields no write. -/
theorem yields_of_frame (haccess : c'.access = c.access) (hqueues : c'.queues = c.queues)
    (hscopes : c.indexes.SameScopes c'.indexes) : c.Yields none c' :=
  ⟨by rw [haccess], by rw [haccess], hscopes, [], hqueues⟩

/-- Queueing comes on top of what else a step does. -/
theorem Yields.queue {ids : List ObjectId} (h : c.Yields w c') (haccess : c''.access = c'.access)
    (hindexes : c''.indexes = c'.indexes) (hqueues : c''.queues = c'.queues.addAll ids) :
    c.Yields w c'' := by
  obtain ⟨ids', hqueues'⟩ := h.queues
  refine ⟨by rw [haccess, h.rules], ?_, by rw [hindexes]; exact h.scopes, ids' ++ ids, ?_⟩
  · have hstore := h.store
    rw [haccess]
    exact hstore
  · rw [hqueues, hqueues', Queues.addAll_append]

/-- A fan-out at the end of a step queues some objects besides. -/
theorem Yields.tryFanOut (h : c.Yields w c') (id : ObjectId) : c.Yields w (c'.tryFanOut id).2 := by
  obtain ⟨ids, -, hfan⟩ := c'.tryFanOut_eq_wakeAll id
  rw [hfan]
  exact h.queue (c'.access_wakeAll ids) (c'.indexes_wakeAll ids) (c'.queues_wakeAll ids)

/-! ### The steps, one by one -/

variable {o : Object}

/-- What a step leads to, and that it is still a step of the same pass. -/
def Leads (c : Controller) (id : ObjectId) (stage : Stage) (next : Stage × Controller) : Prop :=
  c.Advanced id stage next.1 next.2 ∧ next.1.About id

/-- An evaluation that has come to a result goes on to its verdict, or crashes. What has happened by then is
no write. -/
theorem leads_of_ofResult {before after : Object} {phase : Phase} {result : Except Failure Unit}
    (hstage : stage.Tends) (hid : after.id = id) (h : c.Yields none c') :
    c.Leads id stage (.ofResult before after phase result, c') := by
  unfold Leads Stage.ofResult
  dsimp only
  split
  · exact ⟨.tended hstage trivial h, hid⟩
  · exact ⟨.failed h, trivial⟩

/-- The first step finds the object under its own kind and key, or that there is none. -/
theorem leads_begun (hrules : Access.Refuses c.access.rules) (hkeyed : c.access.store.Keyed) :
    c.Leads id .begun (c.advance id .begun) := by
  obtain ⟨⟨store, rules⟩, indexes, ladder, queues, readings⟩ := c
  unfold advance
  dsimp only at hrules hkeyed ⊢
  rcases Access.fetch_of_refuses hrules store id.kind with ⟨e, hfetch⟩ | hfetch
  · rw [hfetch]
    exact ⟨.failed (.refl _), trivial⟩
  · rw [hfetch, Access.fetch_of_keyed rfl hkeyed]
    cases hget : store.get? id with
    | none => exact ⟨.absent hget (yields_of_frame rfl rfl (.refl _)), trivial⟩
    | some o => exact ⟨.found hget, hkeyed id o hget⟩

/-- An object that is found is finalized or maintained. The finalizer is put on in a write; an effect is
undone without one, and only that of a scope drops an index. -/
theorem leads_found (hid : o.id = id) : c.Leads id (.found o) (c.advance id (.found o)) := by
  have hkind : o.kind = id.kind := congrArg ObjectId.kind hid
  have hkey : o.key = id.key := congrArg ObjectId.key hid
  unfold advance
  dsimp only
  split
  · rename_i hdeletion
    split
    · rename_i c' hundo
      obtain ⟨haccess, hqueues, ⟨hne, hscopes⟩ | ⟨hscope, hindexes⟩⟩ := undo_frame hundo
      · exact ⟨.undone hdeletion (hkind ▸ hne) (yields_of_frame haccess hqueues hscopes), hid⟩
      · rw [hkey] at hindexes
        exact ⟨.dropped hdeletion (hkind ▸ hscope) haccess hqueues hindexes, hid⟩
    · exact ⟨.blocked hdeletion, hid⟩
    · exact ⟨.failed (.refl c), trivial⟩
  · rename_i hdeletion
    rw [Bool.not_eq_true] at hdeletion
    split
    · exact ⟨.failed (.refl c), trivial⟩
    · rename_i before c' hensure
      rcases ensureFinalizer_frame hensure with ⟨hcarried, rfl, rfl⟩ | ⟨rfl, store, hwritten, rfl⟩
      · exact ⟨.carried hdeletion hcarried, hid⟩
      · exact ⟨.marked hdeletion ⟨rfl, hwritten, .refl _, [], rfl⟩, (Store.id_marked _ _).trans hid⟩

/-- A marked object is admitted or judged, without a write. -/
theorem leads_marked (hid : o.id = id) : c.Leads id (.marked o) (c.advance id (.marked o)) := by
  unfold advance
  dsimp only
  split
  · exact ⟨.tended trivial trivial (.refl c), hid⟩
  · have hplaced : ∀ name, (o.placed name).id = id := fun name =>
      ((Object.SameBody.refl o).mapStatus _).id_eq.trans hid
    split
    · exact leads_of_ofResult trivial (hplaced _) (.refl c)
    · exact ⟨.tended trivial trivial (.refl c), hplaced _⟩

/-- Applying an effect is no write either, and only a scope gains an index by it. -/
theorem leads_admitted {before placed : Object} (hid : placed.id = id) :
    c.Leads id (.admitted before placed) (c.advance id (.admitted before placed)) := by
  show c.Leads id (.admitted before placed) (c.applyFirst before placed)
  unfold applyFirst
  cases placed with
  | tenant t => exact leads_of_ofResult trivial hid (.refl c)
  | scope s =>
    have hkind : id.kind = .scope := (congrArg ObjectId.kind hid).symm
    have hkey : s.info.key = id.key := congrArg ObjectId.key hid
    dsimp only [apply]
    cases s.checkSpec with
    | ok _ => exact ⟨.established hkind rfl rfl (congrArg c.indexes.ensure hkey), hid⟩
    | error e => exact ⟨.tended trivial trivial (.refl c), hid⟩
  | pool p =>
    obtain ⟨hbody, hscopes⟩ := p.apply_frame (rfl : p.apply c.indexes = _)
    exact leads_of_ofResult trivial (hbody.id_eq.trans hid) (yields_of_frame rfl rfl hscopes)
  | claim claim =>
    dsimp only
    split
    · exact ⟨.tended trivial trivial (.refl c), hid⟩
    · split
      · exact leads_of_ofResult trivial hid (.refl c)
      · rename_i claim₁ indexes₁ hrelease
        obtain ⟨hbody, hscopes⟩ := Claim.releaseMoved_frame hrelease
        exact ⟨.tended trivial trivial (yields_of_frame rfl rfl hscopes), hbody.id_eq.trans hid⟩

/-- A claim that was cleared is registered, which changes what is in the index of its scope. -/
theorem leads_cleared {before : Object} {claim : Claim} {r : Registration}
    (hid : (Object.claim claim).id = id) :
    c.Leads id (.cleared before claim r) (c.advance id (.cleared before claim r)) := by
  unfold advance
  dsimp only
  split
  · exact leads_of_ofResult trivial hid (.refl c)
  · rename_i n indexes hregister
    exact ⟨.tended trivial trivial
      (yields_of_frame rfl rfl (ScopeIndexes.sameScopes_of_register hregister)), hid⟩

/-- A verdict is written to the object's status, unless it shows it already. -/
theorem leads_judged {before after : Object} {v : Verdict} (hid : after.id = id) :
    c.Leads id (.judged before after v) (c.advance id (.judged before after v)) := by
  unfold advance
  dsimp only
  have hobserved : (after.mapStatus fun s => { s with observedGeneration := after.info.generation }).id
      = id := ((Object.SameBody.refl after).mapStatus _).id_eq.trans hid
  generalize after.mapStatus (fun s => { s with observedGeneration := after.info.generation }) = observed at *
  obtain ⟨f, _, hverdict, -⟩ := c.recordVerdict_eq observed v
  obtain ⟨readings, hframe⟩ := c.recordVerdict_frame observed v
  have hobject : (c.recordVerdict observed v).1.id = id := by
    rw [hverdict]
    exact ((Object.SameBody.refl observed).mapStatus f).id_eq.trans hobserved
  rw [hframe]
  split
  · exact ⟨.failed (yields_of_frame rfl rfl (.refl _)), trivial⟩
  · rename_i c' hsave
    split at hsave
    · cases hsave
      exact ⟨.saved (w := none) (fun _ h => nomatch h) (yields_of_frame rfl rfl (.refl _)), trivial⟩
    · obtain ⟨store, hwritten, rfl⟩ := saveStatus_frame hsave
      refine ⟨.saved (w := some (.note (c.recordVerdict observed v).1)) ?_
        ⟨rfl, hwritten, .refl _, [], rfl⟩, trivial⟩
      rintro _ ⟨⟩
      exact ⟨_, rfl, hobject⟩

/-- After the verdict was saved the dependents are woken, and the pass ends with a delay after which it is
made again. -/
theorem leads_saved {before object : Object} {v : Verdict} :
    c.Leads id (.saved before object v) (c.advance id (.saved before object v)) := by
  unfold advance tell
  dsimp only
  have htold : c.Yields none
      (if differsForDependents before object then c.tryFanOut id else (.ok (), c)).2 := by
    split
    · exact (Yields.refl c).tryFanOut id
    · exact .refl c
  split
  · rename_i hfan
    rw [hfan] at htold
    exact ⟨.failed htold, trivial⟩
  · rename_i c' hfan
    rw [hfan] at htold
    obtain ⟨ladder, hdelay⟩ := c'.delayAfter_frame (id.kind.retryName id.key) v
    dsimp only
    rw [hdelay]
    exact ⟨.told nofun (htold.queue rfl rfl (Queues.addAll_nil _).symm), trivial⟩

/-- The finalizer comes off in a write, with the last finalizer the object as well. -/
theorem leads_undone (hid : o.id = id) : c.Leads id (.undone o) (c.advance id (.undone o)) := by
  unfold advance
  dsimp only
  split
  · exact ⟨.failed (.refl c), trivial⟩
  · rename_i access hremove
    obtain ⟨hwritten, heq⟩ := Access.written_of_removeFinalizer hremove
    rw [hid] at hwritten
    exact ⟨.freed ⟨by rw [heq], hwritten, .refl _, [], rfl⟩, hid⟩

/-- That an effect could not be undone is written to the object's status, and the pass ends with a delay. -/
theorem leads_blocked {e : RegistryError} (hid : o.id = id) :
    c.Leads id (.blocked o e) (c.advance id (.blocked o e)) := by
  unfold advance postpone
  dsimp only
  obtain ⟨f, _, hverdict, -⟩ := c.recordVerdict_eq o (.stuck .terminating e)
  obtain ⟨readings, hframe⟩ := c.recordVerdict_frame o (.stuck .terminating e)
  have hobject : (c.recordVerdict o (.stuck .terminating e)).1.id = id := by
    rw [hverdict]
    exact ((Object.SameBody.refl o).mapStatus f).id_eq.trans hid
  rw [hframe]
  split
  · exact ⟨.failed (yields_of_frame rfl rfl (.refl _)), trivial⟩
  · rename_i c' hsave
    obtain ⟨store, hwritten, rfl⟩ := saveStatus_frame hsave
    exact ⟨.postponed hobject nofun ⟨rfl, hwritten, .refl _, [], rfl⟩, trivial⟩

/-- After the object was freed the dependents are woken, and the pass ends as removed. -/
theorem leads_freed : c.Leads id (.freed o) (c.advance id (.freed o)) := by
  unfold advance tellGone
  dsimp only
  have htold := (Yields.refl c).tryFanOut o.id
  split <;> rename_i hfan <;> rw [hfan] at htold
  · exact ⟨.failed htold, trivial⟩
  · exact ⟨.removed htold, trivial⟩

/-- One step of a pass, when the store answers truly or refuses to. -/
theorem leads_advance (hrules : Access.Refuses c.access.rules) (hkeyed : c.access.store.Keyed)
    (habout : stage.About id) : c.Leads id stage (c.advance id stage) := by
  cases stage with
  | begun => exact leads_begun hrules hkeyed
  | found o => exact leads_found habout
  | marked before => exact leads_marked habout
  | admitted before placed => exact leads_admitted habout
  | cleared before claim r => exact leads_cleared habout
  | judged before after v => exact leads_judged habout
  | saved before object v => exact leads_saved
  | undone o => exact leads_undone habout
  | blocked o e => exact leads_blocked habout
  | freed o => exact leads_freed
  | ended result => exact ⟨.settled, trivial⟩

/-! ### What all steps have in common -/

section

variable {stage' : Stage}

/-- A step that makes a write of some sort leaves the store alone or makes such a write. -/
theorem Yields.writes {write : Write → Prop} (h : c.Yields w c') (hw : ∀ w', w = some w' → write w') :
    c'.access.store = c.access.store ∨ ∃ w, write w ∧ c.access.store.Written w c'.access.store := by
  cases w with
  | none => exact Or.inl h.store
  | some w => exact Or.inr ⟨w, hw w rfl, h.store⟩

/-- A step makes at most one write, of the pass's own object. -/
theorem Advanced.writes (h : c.Advanced id stage stage' c') :
    c'.access.store = c.access.store ∨
      ∃ w : Write, w.id = id ∧ c.access.store.Written w c'.access.store := by
  cases h with
  | found _ | blocked _ | carried _ _ | settled => exact Or.inl rfl
  | dropped _ _ haccess _ _ | established _ haccess _ _ => exact Or.inl (by rw [haccess])
  | absent _ h | failed h | undone _ _ h | tended _ _ h | told _ h | removed h => exact Or.inl h.store
  | marked _ h | freed h => exact Or.inr ⟨_, rfl, h.store⟩
  | postponed hid _ h => exact Or.inr ⟨.note _, hid, h.store⟩
  | saved hw h =>
    refine h.writes fun w' hw' => ?_
    obtain ⟨o, rfl, hid⟩ := hw w' hw'
    exact hid

/-- A step concerns no object but its own. -/
theorem Advanced.get?_of_ne (h : c.Advanced id stage stage' c') {id' : ObjectId} (hne : id' ≠ id) :
    c'.access.store.get? id' = c.access.store.get? id' := by
  rcases h.writes with hsame | ⟨w, rfl, hwritten⟩
  · rw [hsame]
  · exact hwritten.get?_of_ne hne

/-- Every object still stands under its own kind and key after a step. -/
theorem Advanced.keyed (h : c.Advanced id stage stage' c') (hkeyed : c.access.store.Keyed) :
    c'.access.store.Keyed := by
  rcases h.writes with hsame | ⟨w, -, hwritten⟩
  · rwa [hsame]
  · exact hwritten.keyed hkeyed

/-- A step only adds to the log. -/
theorem Advanced.log (h : c.Advanced id stage stage' c') :
    ∃ events, c'.access.store.log = events ++ c.access.store.log := by
  rcases h.writes with hsame | ⟨w, -, hwritten⟩
  · exact ⟨[], by rw [hsame]; rfl⟩
  · obtain ⟨events, hlog, -⟩ := hwritten.log
    exact ⟨events, hlog⟩

/-- A step leaves the fault rules alone. -/
theorem Advanced.rules (h : c.Advanced id stage stage' c') : c'.access.rules = c.access.rules := by
  cases h with
  | found _ | blocked _ | carried _ _ | settled => rfl
  | dropped _ _ haccess _ _ | established _ haccess _ _ => rw [haccess]
  | absent _ h | failed h | undone _ _ h | tended _ _ h | told _ h | removed h => exact h.rules
  | marked _ h | freed h | postponed _ _ h | saved _ h => exact h.rules

/-- A step adds keys to queues. -/
theorem Advanced.queues (h : c.Advanced id stage stage' c') : ∃ ids, c'.queues = c.queues.addAll ids := by
  cases h with
  | found _ | blocked _ | carried _ _ | settled => exact ⟨[], rfl⟩
  | dropped _ _ _ hqueues _ | established _ _ hqueues _ => exact ⟨[], hqueues⟩
  | absent _ h | failed h | undone _ _ h | tended _ _ h | told _ h | removed h => exact h.queues
  | marked _ h | freed h | postponed _ _ h | saved _ h => exact h.queues

end

end Controller

/-! ## Passes under way -/

/-- The passes under way, by their objects. -/
abbrev Passes := SortedMap ObjectId Stage

namespace Passes

/-- Begin a pass over an object, unless one is under way. -/
def launch (passes : Passes) (id : ObjectId) : Passes :=
  match passes.get? id with
  | none | some (.ended _) => passes.insert id .begun
  | some _ => passes

/-- Bring a pass down that has not ended. -/
def abort (passes : Passes) (id : ObjectId) : Passes :=
  match passes.get? id with
  | none | some (.ended _) => passes
  | some _ => passes.insert id (.ended (.error .crashed))

end Passes

/-- Take the pass over an object one step further, if there is one. -/
def Controller.proceed (c : Controller) (passes : Passes) (id : ObjectId) : Controller × Passes :=
  match passes.get? id with
  | none => (c, passes)
  | some stage =>
    let (stage, c) := c.advance id stage
    (c, passes.insert id stage)

/-- A pass that nothing interrupts goes through its stages as if it were alone. -/
theorem Controller.iterate_proceed {passes : Passes} {id : ObjectId} {stage : Stage}
    (hstage : passes.get? id = some stage) (c : Controller) (n : Nat) :
    ((fun s : Controller × Passes => s.1.proceed s.2 id)^[n] (c, passes)).1
        = ((fun pass : Stage × Controller => pass.2.advance id pass.1)^[n] (stage, c)).2 ∧
      ((fun s : Controller × Passes => s.1.proceed s.2 id)^[n] (c, passes)).2.get? id
        = some ((fun pass : Stage × Controller => pass.2.advance id pass.1)^[n] (stage, c)).1 := by
  induction n generalizing c passes stage with
  | zero => exact ⟨rfl, hstage⟩
  | succ n ih =>
    have hproceed : c.proceed passes id
        = ((c.advance id stage).2, passes.insert id (c.advance id stage).1) := by
      unfold proceed
      rw [hstage]
    simp only [Function.iterate_succ_apply]
    rw [hproceed]
    exact ih (SortedMap.get?_insert_self _ _ _) _

end AddressRegistry
