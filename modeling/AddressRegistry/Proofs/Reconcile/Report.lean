import AddressRegistry.Proofs.Reconcile.Pass

/-!
# What a pass writes back

Without faults a report writes the object back with the verdict on it, wakes the dependents if they could
see a difference, and ends with a delay (`Controller.report_eq`). It takes no retry counter away
(`Controller.contains_told`), and of an object that shows its readiness already it changes nothing
(`Controller.report_of_shown`). An object that is to be deleted loses the finalizer
(`Controller.finish_of_tryFanOut`) or is put off (`Controller.postpone_eq`).
-/

namespace AddressRegistry

/-! ## The status that all kinds share -/

namespace Object

/-- A change of the common status keeps the kind. -/
@[simp] theorem kind_mapStatus (o : Object) (f : Status → Status) : (o.mapStatus f).kind = o.kind := by
  cases o <;> rfl

/-- A change of the common status keeps the metadata. -/
@[simp] theorem info_mapStatus (o : Object) (f : Status → Status) : (o.mapStatus f).info = o.info := by
  cases o <;> rfl

/-- A change of the common status is seen on the common status. -/
@[simp] theorem status_mapStatus (o : Object) (f : Status → Status) :
    (o.mapStatus f).status = f o.status := by
  cases o <;> rfl

/-- Two changes of the common status are one. -/
theorem mapStatus_mapStatus (o : Object) (f g : Status → Status) :
    (o.mapStatus f).mapStatus g = o.mapStatus fun s => g (f s) := by
  cases o <;> rfl

/-- What is done with a common status matters on the status at hand only. -/
theorem mapStatus_congr {o : Object} {f g : Status → Status} (h : f o.status = g o.status) :
    o.mapStatus f = o.mapStatus g := by
  cases o with
  | tenant t => exact congrArg (fun s => tenant { t with status := s }) h
  | scope t => exact congrArg (fun s => scope { t with status := s }) h
  | pool t => exact congrArg (fun s => pool { t with status := { t.status with common := s } }) h
  | claim t => exact congrArg (fun s => claim { t with status := { t.status with common := s } }) h

/-- A change that leaves the common status as it is leaves the object as it is. -/
theorem mapStatus_of_status {o : Object} {f : Status → Status} (h : f o.status = o.status) :
    o.mapStatus f = o := by
  have hsame : o.mapStatus (fun s => s) = o := by cases o <;> rfl
  rw [mapStatus_congr (g := fun s => s) h, hsame]

end Object

namespace Controller

variable {c c' : Controller} {o : Object} {id : ObjectId} {before after object : Object} {v : Verdict}

/-- The object as a report writes it back. -/
def reported (c : Controller) (after : Object) (v : Verdict) : Object :=
  (c.recordVerdict
    (after.mapStatus fun s => { s with observedGeneration := after.info.generation }) v).1

/-- What a report writes, field by field: generation, phase and condition come from the verdict, and
everything else from the evaluation. -/
theorem reported_eq (c : Controller) (after : Object) (v : Verdict) :
    c.reported after v = after.mapStatus fun s => { s with
      observedGeneration := after.info.generation
      phase := v.phase
      condition := s.condition.set c.time v.isReady v.reason v.message } := by
  unfold reported recordVerdict
  dsimp only
  rw [Object.mapStatus_mapStatus]

/-- The controller after an object was written back. -/
def saved (c : Controller) (o : Object) : Controller :=
  { c with access := { c.access with store := c.access.store.write o.id o .statusUpdated } }

/-- The controller after a verdict was noted on an object and dependents were woken. -/
def told (c : Controller) (id : ObjectId) (before after : Object) (v : Verdict) : Controller :=
  let object := c.reported after v
  let noted := (c.recordVerdict
    (after.mapStatus fun s => { s with observedGeneration := after.info.generation }) v).2
  let stored := if object = before then noted else noted.saved object
  if differsForDependents before object then (stored.tryFanOut id).2 else stored

/-- Without faults the status of a stored object is written when nothing else of it has changed. -/
theorem saveStatus_eq (hrules : c.access.rules = []) {stored : Object}
    (hget : c.access.store.get? o.id = some stored) (hbody : stored.SameBody o) :
    c.saveStatus o = .ok (c.saved o) := by
  obtain ⟨⟨store, rules⟩, indexes, ladder, queues, readings⟩ := c
  cases hrules
  show ((Failure.lift (store.updateStatus o) >>= _).map _) = _
  rw [Store.updateStatus_of_sameBody hget hbody]
  rfl

/-- A report without faults. -/
theorem report_eq (hrules : c.access.rules = []) (hget : c.access.store.get? id = some before)
    (hid : before.id = id) (hbody : before.SameBody after) (v : Verdict) :
    c.report id before after v =
      let (delay, c') := (c.told id before after v).delayAfter (id.kind.retryName id.key) v
      (.ok ⟨v.phase, v.isReady, v.failure?, some delay⟩, c') := by
  unfold report told reported
  have hobserved := hbody.mapStatus fun s => { s with observedGeneration := after.info.generation }
  generalize after.mapStatus (fun s => { s with observedGeneration := after.info.generation }) = observed at *
  obtain ⟨f, c₁, hverdict, hagrees⟩ := c.recordVerdict_eq observed v
  have hobject := hobserved.mapStatus f
  dsimp only
  rw [hverdict]
  generalize observed.mapStatus f = object at *
  have hrules₁ : c₁.access.rules = [] := by rw [hagrees.access, hrules]
  have hsave : (if object = before then Except.ok c₁ else c₁.saveStatus object)
      = .ok (if object = before then c₁ else c₁.saved object) := by
    split
    · rfl
    · refine saveStatus_eq hrules₁ ?_ hobject
      rw [hagrees.access, hobject.id_eq, hid, hget]
  dsimp only
  rw [hsave]
  have hrules₂ : (if object = before then c₁ else c₁.saved object).access.rules = [] := by
    split
    · exact hrules₁
    · exact hrules₁
  generalize (if object = before then c₁ else c₁.saved object) = c₂ at *
  have hfan : (if differsForDependents before object then c₂.tryFanOut id else (.ok (), c₂))
      = (.ok (), if differsForDependents before object then (c₂.tryFanOut id).2 else c₂) := by
    split
    · obtain ⟨c₃, hfan, -⟩ := tryFanOut_ok hrules₂ id
      rw [hfan]
    · rfl
  dsimp only
  rw [hfan]

/-- A report writes the object back and takes no counter away. -/
theorem stores_told (hrules : c.access.rules = []) (hget : c.access.store.get? id = some before)
    (hid : before.id = id) (hbody : before.SameBody after) (v : Verdict) :
    c.Stores id (c.reported after v) (c.told id before after v) := by
  unfold told reported
  have hobserved := hbody.mapStatus fun s => { s with observedGeneration := after.info.generation }
  generalize after.mapStatus (fun s => { s with observedGeneration := after.info.generation }) = observed at *
  obtain ⟨f, c₁, hverdict, hagrees⟩ := c.recordVerdict_eq observed v
  have hobject := hobserved.mapStatus f
  rw [hverdict]
  generalize observed.mapStatus f = object at *
  have hrules₁ : c₁.access.rules = [] := by rw [hagrees.access, hrules]
  have hstores : c₁.Stores id object (if object = before then c₁ else c₁.saved object) := by
    split
    · rename_i heq
      rw [heq]
      exact stores_self hrules₁ (by rw [hagrees.access, hget])
    · rw [← hid, ← hobject.id_eq]
      exact ⟨hrules₁, rfl, rfl⟩
  refine Stores.of_agrees_left hagrees ?_
  dsimp only
  split
  · obtain ⟨c₂, hfan, hagrees₂⟩ := tryFanOut_ok hstores.rules id
    rw [hfan]
    exact hstores.of_agrees_right hagrees₂
  · exact hstores

/-- Noting a verdict moves no retry counter. -/
theorem ladder_recordVerdict (c : Controller) (o : Object) (v : Verdict) :
    (c.recordVerdict o v).2.ladder = c.ladder := by
  unfold recordVerdict
  dsimp only
  split <;> rfl

/-- Telling the dependents resets counters and drops none. -/
theorem contains_told {name : String} (h : c.ladder.counters.contains name = true) (id : ObjectId)
    (before after : Object) (v : Verdict) :
    (c.told id before after v).ladder.counters.contains name = true := by
  unfold told
  rw [← c.ladder_recordVerdict] at h
  dsimp only
  split
  · refine tryFanOut_induction (P := fun c => c.ladder.counters.contains name = true) ?_ ?_ id
    · exact fun c id h => SortedMap.contains_insert _ h
    · split <;> exact h
  · split <;> exact h

/-- A report of what the object shows already changes nothing. -/
theorem report_of_shown (hphase : object.status.phase = .ready) {t : Timestamp}
    (hcondition : object.status.condition = ⟨true, "Ready", "", some t⟩)
    (hgeneration : object.status.observedGeneration = object.info.generation) :
    c.report id object object .ready = (.ok ⟨.ready, true, none, some c.ladder.policy.poll⟩, c) := by
  have hobserved : (object.mapStatus fun s => { s with observedGeneration := object.info.generation })
      = object := by
    apply Object.mapStatus_of_status
    rw [← hgeneration]
  have hrecord : c.recordVerdict object .ready = (object, c) := by
    have hset : object.status.condition.set c.time true "Ready" "" = object.status.condition := by
      rw [hcondition]
      rfl
    have hchanges : object.status.condition.changes Verdict.ready.isReady = false := by
      rw [hcondition]
      rfl
    unfold recordVerdict
    rw [hchanges]
    refine congrArg (·, c) (Object.mapStatus_of_status ?_)
    show (Status.mk .ready (object.status.condition.set c.time true "Ready" "") _ _) = _
    rw [hset, ← hphase]
  have hsame : differsForDependents object object = false := by
    cases object <;> simp [differsForDependents]
  unfold report
  dsimp only
  rw [hobserved, hrecord]
  dsimp only
  rw [if_pos rfl]
  dsimp only
  rw [hsame]
  rfl

/-- A ready object as a report writes it back. -/
theorem reported_ready (c : Controller) (after : Object) :
    ∃ f, c.reported after .ready = after.mapStatus f ∧ (∀ s, (f s).placement = s.placement) ∧
      (f after.status).phase = .ready ∧ (f after.status).observedGeneration = after.info.generation ∧
        ∃ t, (f after.status).condition = ⟨true, "Ready", "", some t⟩ := by
  rw [reported_eq]
  refine ⟨_, rfl, fun _ => rfl, rfl, rfl, ?_⟩
  dsimp only [Condition.set, Verdict.isReady, Verdict.reason, Verdict.message]
  split
  · exact ⟨_, rfl⟩
  · rename_i hkept
    unfold Condition.changes at hkept
    rw [Bool.or_eq_true, not_or, Option.isNone_iff_eq_none] at hkept
    obtain ⟨t, ht⟩ := Option.ne_none_iff_exists'.1 hkept.2
    exact ⟨t, by rw [ht]⟩

/-! ## Objects that are to be deleted -/

/-- The controller after an object was put off. -/
def postponed (c : Controller) (id : ObjectId) (o : Object) (e : RegistryError) : Controller :=
  let noted := c.recordVerdict o (.stuck .terminating e)
  { noted.2.saved noted.1 with ladder := (c.ladder.next (id.kind.retryName id.key)).2 }

/-- Putting an object off without faults. -/
theorem postpone_eq (hrules : c.access.rules = []) (hget : c.access.store.get? id = some o)
    (hid : o.id = id) (e : RegistryError) :
    c.postpone id o e =
      (.ok ⟨.terminating, false, some e.reason, some (c.ladder.next (id.kind.retryName id.key)).1⟩,
        c.postponed id o e) := by
  have hladder := c.ladder_recordVerdict o (.stuck .terminating e)
  obtain ⟨f, noted, hverdict, hagrees⟩ := c.recordVerdict_eq o (.stuck .terminating e)
  have hbody := (Object.SameBody.refl o).mapStatus f
  have hsave := saveStatus_eq (c := noted) (o := o.mapStatus f) (by rw [hagrees.access, hrules])
    (by rw [hagrees.access, hbody.id_eq, hid, hget]) hbody
  unfold postpone postponed
  rw [hverdict] at hladder ⊢
  dsimp only
  rw [hsave]
  dsimp only [saved]
  rw [hladder]

/-- An object that was put off is written back with another status. -/
theorem stores_postponed (hrules : c.access.rules = []) (hid : o.id = id) (e : RegistryError) :
    ∃ f, c.Stores id (o.mapStatus f) (c.postponed id o e) := by
  obtain ⟨f, noted, hverdict, hagrees⟩ := c.recordVerdict_eq o (.stuck .terminating e)
  have hid' : (o.mapStatus f).id = id := ((Object.SameBody.refl o).mapStatus f).id_eq.trans hid
  refine ⟨f, .of_agrees_left hagrees ?_⟩
  unfold postponed
  rw [hverdict, ← hid']
  exact ⟨by rw [← hrules, ← hagrees.access]; rfl, rfl, rfl⟩

/-- Where the fan-out does not crash, a finalized object ends its pass as removed, with its counter
forgotten. -/
theorem finish_of_tryFanOut {access : Access}
    (hremove : c.access.removeFinalizer o.id finalizerName = .ok access)
    (hfan : { c with access, ladder := c.ladder.forget (id.kind.retryName id.key) }.tryFanOut o.id
      = (.ok (), c')) : c.finish id o = (.ok .removed, c') := by
  unfold finish
  rw [hremove]
  dsimp only
  rw [hfan]

/-- Taking the finalizer off is not undoing: the indexes stay as they are. -/
theorem indexes_finish (c : Controller) (id : ObjectId) (o : Object) :
    (c.finish id o).2.indexes = c.indexes := by
  unfold finish
  split
  · rfl
  · rename_i access hremove
    have hfan := tryFanOut_induction (P := fun c' => c'.indexes = c.indexes) (fun _ _ h => h)
      (c := { c with access, ladder := c.ladder.forget (id.kind.retryName id.key) }) rfl o.id
    dsimp only
    split <;> rename_i hanswer <;> rw [hanswer] at hfan <;> exact hfan

end Controller

end AddressRegistry
