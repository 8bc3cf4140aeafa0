import AddressRegistry.Proofs.Reconcile.Lifecycle

/-!
# The course of stored objects

Clients write to the store, the registry makes passes and serves its gateways, calls of the store fail from
time to time, and the registry is started anew over the same store (`Happening`). Clients create objects
that no pass has looked at and leave the status to the registry (`Happening.Proper`).

Whatever happens, an object that is stored afterwards is new, or it has developed from the one that was
stored before in one of three ways (`Object.Develops`, `Controller.undergo_grows`): somebody edited it, a
pass judged it, or a pass could not undo its effect. What is to hold of every stored object at every moment
is proved by cases on these (`Controller.course_induction`).
-/

namespace AddressRegistry

/-! ## Reads that do not lie -/

/-- The effect answers a read with something that need not be stored. -/
def Effect.isLie : Effect → Bool
  | .answer _ => true
  | .fail _ | .crash => false

namespace Access

variable {a : Access} {kind : Kind} {key : ObjectKey} {o : Object}

/-- The rules make calls fail or crash; none makes a read lie. -/
def Honest (rules : List FaultRule) : Prop := ∀ rule ∈ rules, rule.effect.isLie = false

instance (rules : List FaultRule) : Decidable (Honest rules) :=
  inferInstanceAs (Decidable (∀ rule ∈ rules, rule.effect.isLie = false))

/-- No rule of an honest store answers a read with an object of its own. -/
theorem effect?_ne_answer (h : Honest a.rules) (method : Method) (kind : Kind) (o : Object) :
    a.effect? method kind ≠ some (.answer o) := by
  unfold effect?
  intro heffect
  obtain ⟨rule, hfind, hanswer⟩ := Option.map_eq_some_iff.1 heffect
  have hlie := h rule (List.mem_of_find?_eq_some hfind)
  rw [hanswer] at hlie
  cases hlie

/-- What is fetched is stored. -/
theorem get?_of_fetch (h : Honest a.rules) (hfetch : a.fetch kind key = .ok (some o)) :
    a.store.get? ⟨kind, key⟩ = some o := by
  unfold fetch at hfetch
  split at hfetch
  · cases hfetch
  · cases hfetch
  · rename_i found hget
    split at hfetch
    · cases hfetch
      unfold get at hget
      split at hget
      · rename_i heffect
        exact absurd heffect (effect?_ne_answer h .get kind _)
      · exact Except.ok.inj (guarded_eq_ok hget)
    · cases hfetch

end Access

/-! ## How an object develops -/

namespace Object

variable {o o' q : Object}

/-- No pass has looked at the object. -/
def IsNew : Object → Prop
  | tenant r => r.status = .fresh
  | scope r => r.status = .fresh
  | pool r => r.status = .fresh
  | claim r => r.status = .fresh

instance : DecidablePred IsNew := fun o => by
  cases o <;> exact inferInstanceAs (Decidable (_ = _))

/-- A new object has the status that objects are created with. -/
theorem IsNew.status_eq (h : o.IsNew) : o.status = .fresh := by
  cases o with
  | tenant r => exact h
  | scope r => exact h
  | pool r => exact congrArg PoolStatus.common h
  | claim r => exact congrArg ClaimStatus.common h

/-- Metadata is none of the business of a pass; an object with other metadata is as new as before. -/
theorem IsNew.mapInfo (h : o.IsNew) (f : Metadata → Metadata) : (o.mapInfo f).IsNew := by
  cases o <;> exact h

/-- Two objects of one kind have the same status. -/
inductive SameStatus : Object → Object → Prop
  | tenant {r : Tenant} (info : Metadata) (spec : TenantSpec) :
    SameStatus (tenant r) (tenant { r with info, spec })
  | scope {r : Scope} (info : Metadata) (spec : ScopeSpec) :
    SameStatus (scope r) (scope { r with info, spec })
  | pool {r : Pool} (info : Metadata) (spec : PoolSpec) :
    SameStatus (pool r) (pool { r with info, spec })
  | claim {r : Claim} (info : Metadata) (spec : ClaimSpec) :
    SameStatus (claim r) (claim { r with info, spec })

/-- Editing the metadata does not change a status. -/
theorem SameStatus.mapInfo (h : o.SameStatus o') (f : Metadata → Metadata) :
    o.SameStatus (o'.mapInfo f) := by
  cases h with
  | tenant _ spec => exact .tenant _ spec
  | scope _ spec => exact .scope _ spec
  | pool _ spec => exact .pool _ spec
  | claim _ spec => exact .claim _ spec

/-- An object has the status that it has. -/
theorem SameStatus.refl (o : Object) : o.SameStatus o := by
  cases o with
  | tenant r => exact .tenant r.info r.spec
  | scope r => exact .scope r.info r.spec
  | pool r => exact .pool r.info r.spec
  | claim r => exact .claim r.info r.spec

/-- Copying a specification does not touch the status. -/
theorem sameStatus_of_copySpec? (h : o.copySpec? q = some o') : o.SameStatus o' := by
  cases o <;> cases q <;> cases h <;> constructor

/-- The common part of a status is the same where the status is. -/
theorem SameStatus.status_eq (h : o.SameStatus o') : o'.status = o.status := by
  cases h <;> rfl

/-- One change of a stored object. A pass that judges an object puts the finalizer on it first. -/
inductive Develops (o : Object) : Object → Prop
  /-- Specification or finalizers were written, or deletion was requested, or nothing changed. -/
  | edited {o' : Object} (hid : o'.id = o.id) (hstatus : o.SameStatus o')
    (hdeletion : o.info.deletionRequested = true → o'.info.deletionRequested = true) : Develops o o'
  | judged {c c' : Controller} {before after : Object} {v : Verdict}
    (hlive : o.info.deletionRequested = false)
    (hbefore : before = o ∨ before = Store.marked o finalizerName)
    (hbody : before.SameBody after) (hevaluate : c.evaluate before = (some v, after, c')) :
    Develops o (c'.reported after v)
  /-- The effect of an object that is to be deleted could not be undone. -/
  | blocked (c : Controller) (e : RegistryError) (hdeletion : o.info.deletionRequested = true) :
    Develops o (c.recordVerdict o (.stuck .terminating e)).1

/-- An object to which nothing happens has developed trivially. -/
theorem Develops.refl (o : Object) : o.Develops o := .edited rfl (.refl o) fun h => h

/-- Putting a finalizer on edits the metadata. -/
theorem develops_marked (o : Object) (finalizer : String) : o.Develops (Store.marked o finalizer) :=
  .edited (Store.id_marked o finalizer) ((SameStatus.refl o).mapInfo _) fun h => by
    rw [Store.info_marked]
    exact h

/-- However an object develops, it keeps its kind and key. -/
theorem Develops.id_eq (h : o.Develops o') : o'.id = o.id := by
  cases h with
  | edited hid _ _ => exact hid
  | @judged c c' before after v _ hbefore hbody _ =>
    have hid : before.id = o.id := by
      rcases hbefore with rfl | rfl
      · rfl
      · exact Store.id_marked o finalizerName
    rw [Controller.reported_eq]
    exact (hbody.mapStatus _).id_eq.trans hid
  | blocked c e _ =>
    obtain ⟨f, _, hverdict, -⟩ := c.recordVerdict_eq o (.stuck .terminating e)
    rw [hverdict]
    exact ((SameBody.refl o).mapStatus f).id_eq

/-- A request for deletion is never taken back. -/
theorem Develops.deletionRequested (h : o.Develops o') (hdeletion : o.info.deletionRequested = true) :
    o'.info.deletionRequested = true := by
  cases h with
  | edited _ _ hkept => exact hkept hdeletion
  | judged hlive _ _ _ =>
    rw [hlive] at hdeletion
    cases hdeletion
  | blocked c e _ =>
    unfold Controller.recordVerdict
    rw [info_mapStatus]
    exact hdeletion

end Object

/-- A write leaves statuses alone: whoever creates an object creates one that no pass has looked at. -/
def Write.SparesStatus : Write → Prop
  | .create o => o.IsNew
  | .note _ => False
  | .update _ | .delete _ | .mark _ _ | .unmark _ _ => True

instance : DecidablePred Write.SparesStatus
  | .create o => inferInstanceAs (Decidable o.IsNew)
  | .note _ => isFalse id
  | .update _ | .delete _ | .mark _ _ | .unmark _ _ => isTrue trivial

/-! ## How a store grows -/

namespace Store

variable {s s' : Store} {id : ObjectId} {o o' : Object}

/-- Every object of `s'` has developed from the one of the same kind and key in `s`. -/
def Grows (s s' : Store) : Prop :=
  ∀ id o', s'.get? id = some o' → ∃ o, s.get? id = some o ∧ o.Develops o'

/-- What a store logs is no development of its objects. -/
theorem grows_of_objects (h : s'.objects = s.objects) : s.Grows s' := by
  intro id o hget
  unfold get? at hget
  rw [h] at hget
  exact ⟨o, hget, .refl o⟩

/-- In a store to which nothing happens every object has developed trivially. -/
theorem Grows.refl (s : Store) : s.Grows s := grows_of_objects rfl

/-- Objects develop where they stand, so they still stand under their own kind and key. -/
theorem Grows.keyed (h : s.Grows s') (hkeyed : s.Keyed) : s'.Keyed := by
  intro id o' hget
  obtain ⟨o, hstored, hdevelops⟩ := h id o' hget
  exact hdevelops.id_eq.trans (hkeyed id o hstored)

/-- If one object was replaced by what it developed to, the store has grown. -/
theorem grows_insert (hget : s.get? id = some o) (hdevelops : o.Develops o')
    (h : s'.objects = s.objects.insert id o') : s.Grows s' :=
  forall_get?_insert h (fun _ o' _ hget' => ⟨o', hget', .refl o'⟩) ⟨o, hget, hdevelops⟩

/-- Objects that go leave no development to account for. -/
theorem grows_erase (h : s'.objects = s.objects.erase id) : s.Grows s' :=
  forall_get?_erase h fun _ o' _ hget' => ⟨o', hget', .refl o'⟩

/-- An update edits one object. -/
theorem grows_of_update (h : s.update o = .ok (o', s')) : s.Grows s' := by
  rcases update_eq_ok h with rfl | ⟨stored, copied, hget, hcopy, rfl, rfl⟩
  · exact .refl _
  · have hinfo : copied.info = stored.info := Object.info_copySpec? hcopy
    refine grows_insert hget
      (.edited ?_ ((Object.sameStatus_of_copySpec? hcopy).mapInfo _) fun hdeletion => ?_) rfl
    · exact (Object.id_mapInfo _ _ rfl rfl).trans (Object.id_copySpec? hcopy)
    · rw [Object.info_mapInfo, hinfo]
      exact hdeletion

/-- A deletion removes its object or requests that it go. -/
theorem grows_of_delete (h : s.delete id = .ok s') : s.Grows s' := by
  rcases delete_eq_ok h with rfl | rfl | ⟨stored, hget, rfl⟩
  · exact .refl _
  · exact grows_erase rfl
  · refine grows_insert hget
      (.edited (id_condemned stored) ((Object.SameStatus.refl stored).mapInfo _) fun _ => ?_) rfl
    exact congrArg Metadata.deletionRequested (info_condemned stored)

/-- Whoever puts a finalizer on edits one object. -/
theorem grows_of_mark {f : String} (h : s.Written (.mark id f) s') : s.Grows s' := by
  cases h with
  | kept _ _ _ => exact .refl _
  | marked hget _ => exact grows_insert hget (Object.develops_marked _ f) rfl
  | removed _ hw _ => rcases hw with hw | ⟨_, hw⟩ <;> cases hw

/-- Whoever takes a finalizer off edits one object or removes it. -/
theorem grows_of_unmark {f : String} (h : s.Written (.unmark id f) s') : s.Grows s' := by
  cases h with
  | kept _ _ _ => exact .refl _
  | @unmarked _ _ stored hget =>
    refine grows_insert hget (.edited (id_unmarked stored f)
      ((Object.SameStatus.refl stored).mapInfo _) fun hdeletion => ?_) rfl
    rw [info_unmarked]
    exact hdeletion
  | removed _ _ _ => exact grows_erase rfl

/-- A write that leaves statuses alone lets objects develop. Only what is created has no past. -/
theorem grows_of_accept (s : Store) {w : Write} (hspares : w.SparesStatus) :
    s.Grows (s.accept w) ∨
      ∃ o : Object, o.IsNew ∧ s.get? o.id = none ∧
        (s.accept w).objects = s.objects.insert o.id (created o) := by
  unfold accept
  cases hperform : s.perform w with
  | error e => exact Or.inl (.refl s)
  | ok s' =>
    show s.Grows s' ∨ ∃ o : Object, o.IsNew ∧ s.get? o.id = none ∧ s'.objects = _
    cases w with
    | create o =>
      obtain ⟨answer, hcreate, rfl⟩ := Except.map_eq_ok_iff.1 hperform
      obtain ⟨hnew, hanswer, hs'⟩ :=
        create_eq_ok_iff.1 (show s.create o = .ok (answer.1, answer.2) from hcreate)
      refine Or.inr ⟨o, hspares, hnew, ?_⟩
      rw [hs', hanswer]
      rfl
    | update o =>
      obtain ⟨answer, hupdate, rfl⟩ := Except.map_eq_ok_iff.1 hperform
      exact Or.inl (grows_of_update (show s.update o = .ok (answer.1, answer.2) from hupdate))
    | delete id => exact Or.inl (grows_of_delete hperform)
    | note o => exact hspares.elim
    | mark id f => exact Or.inl (grows_of_mark (written_of_addFinalizer hperform))
    | unmark id f => exact Or.inl (grows_of_unmark (written_of_removeFinalizer hperform))

end Store

/-! ## How a pass lets its object develop -/

namespace Controller

variable {c c' : Controller} {id : ObjectId} {o o' before after : Object} {v : Verdict}

/-- A fan-out reads the store and writes nothing to it. -/
theorem access_tryFanOut (c : Controller) (id : ObjectId) : (c.tryFanOut id).2.access = c.access := by
  obtain ⟨ids, -, hfan⟩ := c.tryFanOut_eq_wakeAll id
  rw [hfan, access_wakeAll]

/-- Telling the dependents of a change reads the store and writes nothing to it. -/
theorem access_tell (c : Controller) (id : ObjectId) (before object : Object) (v : Verdict) :
    (c.tell id before object v).2.access = c.access := by
  have htold : (if differsForDependents before object then c.tryFanOut id
      else (.ok (), c)).2.access = c.access := by
    split
    · exact c.access_tryFanOut id
    · rfl
  unfold tell
  split <;> rename_i c' hfan <;> rw [hfan] at htold
  · exact htold
  · obtain ⟨ladder, hdelay⟩ := c'.delayAfter_frame (id.kind.retryName id.key) v
    dsimp only
    rw [hdelay]
    exact htold

/-- Telling the dependents of a removal reads the store and writes nothing to it. -/
theorem access_tellGone (c : Controller) (o : Object) : (c.tellGone o).2.access = c.access := by
  have htold := c.access_tryFanOut o.id
  unfold tellGone
  split <;> rename_i hfan <;> rw [hfan] at htold <;> exact htold

/-- An evaluation writes nothing to the store. -/
theorem evaluate_frame {verdict : Option Verdict} (h : c.evaluate o = (verdict, o', c')) :
    o.SameBody o' ∧ c'.access = c.access := by
  unfold evaluate at h
  split at h
  · cases h
    exact ⟨.refl o, rfl⟩
  · rename_i name hname
    have hplaced := (Object.SameBody.refl o).mapStatus fun s => { s with placement := name.placement }
    dsimp only at h
    split at h
    · cases h
      exact ⟨hplaced, rfl⟩
    · obtain ⟨hbody, haccess, -, -⟩ := apply_frame (c := c)
        (rfl : c.apply (o.mapStatus fun s => { s with placement := name.placement }) = _)
      cases h
      exact ⟨hplaced.trans hbody, haccess⟩

/-- An evaluation never ends in a phase of deletion. -/
theorem isLive_of_evaluate (h : c.evaluate o = (some v, o', c')) : v.phase.isLive = true := by
  have hresult : ∀ (phase : Phase) {result : Except Failure Unit}, phase.isLive = true →
      Verdict.ofResult? phase result = some v → v.phase.isLive = true := by
    intro phase result hphase hverdict
    unfold Verdict.ofResult? at hverdict
    split at hverdict <;> cases hverdict
    · rfl
    · exact hphase
  unfold evaluate at h
  split at h
  · cases h
    rfl
  · dsimp only at h
    split at h
    · exact hresult .pending rfl (Prod.ext_iff.1 h).1
    · exact hresult .initializing rfl (Prod.ext_iff.1 h).1

/-- A pass goes on with the object as it is stored: with the finalizer on, put there by itself or found. -/
theorem objects_of_ensureFinalizer (hget : c.access.store.get? id = some o)
    (h : c.ensureFinalizer id o = .ok (before, c')) :
    (before = o ∨ before = Store.marked o finalizerName) ∧
      c'.access.rules = c.access.rules ∧
        c'.access.store.objects = c.access.store.objects.insert id before := by
  unfold ensureFinalizer at h
  split at h
  · cases h
    exact ⟨Or.inl rfl, rfl, (SortedMap.insert_of_get? hget).symm⟩
  · rename_i hlacks
    obtain ⟨access, hcall, h⟩ := Except.bind_eq_ok_iff.1 h
    obtain ⟨store, hstore, hcall⟩ := Except.bind_eq_ok_iff.1 hcall
    have hmarked := Access.guarded_eq_ok hstore
    rw [Store.addFinalizer_of_get? hget (Bool.eq_false_of_not_eq_true hlacks)] at hmarked
    cases hmarked
    cases hcall
    cases h
    exact ⟨Or.inr rfl, rfl, rfl⟩

/-- A status that could be written is on the object then. -/
theorem objects_of_saveStatus {stored : Object} (hget : c.access.store.get? o.id = some stored)
    (hbody : stored.SameBody o) (h : c.saveStatus o = .ok c') :
    c'.access.rules = c.access.rules ∧
      c'.access.store.objects = c.access.store.objects.insert o.id o := by
  obtain ⟨access, hcall, rfl⟩ := Except.map_eq_ok_iff.1 h
  obtain ⟨store, hstore, hcall⟩ := Except.bind_eq_ok_iff.1 hcall
  have hwritten := Access.guarded_eq_ok hstore
  rw [Store.updateStatus_of_sameBody hget hbody] at hwritten
  cases hwritten
  cases hcall
  exact ⟨rfl, rfl⟩

/-- A status is written only when it differs; either way it is on the object then. -/
theorem objects_of_save {object : Object} (hget : c.access.store.get? id = some before)
    (hid : before.id = id) (hbody : before.SameBody object)
    (h : (if object = before then .ok c else c.saveStatus object) = Except.ok c') :
    c'.access.rules = c.access.rules ∧
      c'.access.store.objects = c.access.store.objects.insert id object := by
  split at h
  · rename_i hsame
    cases h
    rw [hsame]
    exact ⟨rfl, (SortedMap.insert_of_get? hget).symm⟩
  · have hid' : object.id = id := hbody.id_eq.trans hid
    rw [← hid'] at hget ⊢
    exact objects_of_saveStatus hget hbody h

/-- A report writes the object back with the verdict on it, or the store refuses. -/
theorem objects_of_report (hget : c.access.store.get? id = some before) (hid : before.id = id)
    (hbody : before.SameBody after) (v : Verdict) :
    (c.report id before after v).2.access.rules = c.access.rules ∧
      ∃ object, (object = before ∨ object = c.reported after v) ∧
        (c.report id before after v).2.access.store.objects
          = c.access.store.objects.insert id object := by
  unfold report reported
  have hobserved := hbody.mapStatus fun s => { s with observedGeneration := after.info.generation }
  generalize after.mapStatus (fun s => { s with observedGeneration := after.info.generation }) = observed at *
  obtain ⟨f, c₁, hverdict, haccess, -⟩ := c.recordVerdict_eq observed v
  have hobject := hobserved.mapStatus f
  dsimp only
  rw [hverdict, ← haccess]
  rw [← haccess] at hget
  generalize observed.mapStatus f = object at *
  dsimp only
  split
  · exact ⟨rfl, before, Or.inl rfl, (SortedMap.insert_of_get? hget).symm⟩
  · rename_i c₂ hsave
    have hsaved := objects_of_save hget hid hobject hsave
    show (c₂.tell id before object v).2.access.rules = _ ∧
      ∃ o, _ ∧ (c₂.tell id before object v).2.access.store.objects = _
    rw [c₂.access_tell]
    exact ⟨hsaved.1, object, Or.inr rfl, hsaved.2⟩

/-- The objects of a controller have developed, under the same fault rules. -/
structure Grows (c c' : Controller) : Prop where
  rules : c'.access.rules = c.access.rules
  store : c.access.store.Grows c'.access.store

/-- A controller with the same access to the store has objects that developed trivially. -/
theorem grows_of_access (h : c'.access = c.access) : c.Grows c' :=
  ⟨by rw [h], by rw [h]; exact .refl _⟩

/-- What follows without touching the store changes nothing about how objects developed. -/
theorem Grows.trans_access {c'' : Controller} (h : c.Grows c') (haccess : c''.access = c'.access) :
    c.Grows c'' :=
  ⟨by rw [haccess, h.rules], by rw [haccess]; exact h.store⟩

/-- What came before without touching the store changes nothing about how objects developed. -/
theorem Grows.of_access {c₁ : Controller} (h : c₁.Grows c') (haccess : c₁.access = c.access) :
    c.Grows c' := by
  obtain ⟨hrules, hstore⟩ := h
  rw [haccess] at hrules hstore
  exact ⟨hrules, hstore⟩

/-- A pass that maintains its object lets it develop: the finalizer is put on and the verdict saved, or the
store refuses one of the two and the other may have happened. -/
theorem maintain_grows (hget : c.access.store.get? id = some o) (hid : o.id = id)
    (hlive : o.info.deletionRequested = false) : c.Grows (c.maintain id o).2 := by
  unfold maintain
  split
  · exact grows_of_access rfl
  · rename_i before c₁ hensure
    obtain ⟨hbefore, hrules, hobjects⟩ := objects_of_ensureFinalizer hget hensure
    have hdevelops : o.Develops before := by
      rcases hbefore with rfl | rfl
      · exact .refl before
      · exact Object.develops_marked o finalizerName
    have hensured : c.Grows c₁ := ⟨hrules, Store.grows_insert hget hdevelops hobjects⟩
    split
    · rename_i v after c₂ hevaluate
      obtain ⟨hbody, haccess⟩ := evaluate_frame hevaluate
      have hget₂ : c₂.access.store.get? id = some before := by
        unfold Store.get?
        rw [haccess, hobjects, SortedMap.get?_insert_self]
      obtain ⟨hrules', object, hobject, hobjects'⟩ :=
        objects_of_report hget₂ (hdevelops.id_eq.trans hid) hbody v
      rw [haccess, hobjects, SortedMap.insert_insert] at hobjects'
      refine ⟨by rw [hrules', haccess, hrules], Store.grows_insert hget ?_ hobjects'⟩
      rcases hobject with rfl | rfl
      · exact hdevelops
      · exact .judged hlive hbefore hbody hevaluate
    · rename_i after c₂ hevaluate
      exact hensured.trans_access (evaluate_frame hevaluate).2

/-- A pass that cannot undo the effect of its object lets it develop: it is blocked, and the status says so.
-/
theorem postpone_grows (hget : c.access.store.get? id = some o) (hid : o.id = id)
    (hdeletion : o.info.deletionRequested = true) (e : RegistryError) :
    c.Grows (c.postpone id o e).2 := by
  have hblocked := Object.Develops.blocked c e hdeletion
  unfold postpone
  obtain ⟨f, c₁, hverdict, hagrees⟩ := c.recordVerdict_eq o (.stuck .terminating e)
  have hbody := (Object.SameBody.refl o).mapStatus f
  have hid' : (o.mapStatus f).id = id := hbody.id_eq.trans hid
  rw [hverdict] at hblocked ⊢
  dsimp only
  split
  · exact grows_of_access hagrees.access
  · rename_i c₂ hsave
    have hstored : c₁.access.store.get? (o.mapStatus f).id = some o := by
      rw [hagrees.access, hid', hget]
    obtain ⟨hrules, hobjects⟩ := objects_of_saveStatus hstored hbody hsave
    rw [hid', hagrees.access] at hobjects
    exact ⟨by rw [hrules, hagrees.access], Store.grows_insert hget hblocked hobjects⟩

/-- A pass that finalizes its object takes the finalizer off, and perhaps the object with it. -/
theorem finish_grows (c : Controller) (id : ObjectId) (o : Object) : c.Grows (c.finish id o).2 := by
  unfold finish
  split
  · exact grows_of_access rfl
  · rename_i access hremove
    obtain ⟨hwritten, haccess⟩ := Access.written_of_removeFinalizer hremove
    have hrules : access.rules = c.access.rules := by rw [haccess]
    exact Grows.trans_access ⟨hrules, Store.grows_of_unmark hwritten⟩
      (access_tellGone { c with access, ladder := c.ladder.forget (id.kind.retryName id.key) } o)

/-- A pass over an object lets this object develop, if anything. -/
theorem reconcile_grows (hrules : Access.Honest c.access.rules) (hkeyed : c.access.store.Keyed)
    (id : ObjectId) : c.Grows (c.reconcile id).2 := by
  unfold reconcile
  split
  · exact grows_of_access rfl
  · exact grows_of_access rfl
  · rename_i o hfetch
    have hget : c.access.store.get? id = some o := Access.get?_of_fetch hrules hfetch
    have hid := hkeyed id o hget
    split
    · rename_i hdeletion
      unfold finalize
      split
      · rename_i c₁ hundo
        exact (c₁.finish_grows id o).of_access (undo_frame hundo).1
      · exact postpone_grows hget hid hdeletion _
      · exact grows_of_access rfl
    · rename_i hdeletion
      exact maintain_grows hget hid (Bool.eq_false_of_not_eq_true hdeletion)

end Controller

/-! ## Everything that happens -/

/-- What happens to a registry and its store. -/
inductive Happening where
  /-- A client writes to the store. -/
  | write (w : Write)
  /-- From now on these calls of the store fail. -/
  | faults (rules : List FaultRule)
  /-- Allocator or gateway serve a call. -/
  | operate (op : ServiceCall)
  | reconcile (id : ObjectId)
  /-- The registry is started anew. -/
  | restart (policy : RetryPolicy)

/-- Clients write no status, and no call of the store lies. -/
def Happening.Proper : Happening → Prop
  | .write w => w.SparesStatus
  | .faults rules => Access.Honest rules
  | .operate _ | .reconcile _ | .restart _ => True

instance : DecidablePred Happening.Proper
  | .write w => inferInstanceAs (Decidable w.SparesStatus)
  | .faults rules => inferInstanceAs (Decidable (Access.Honest rules))
  | .operate _ | .reconcile _ | .restart _ => isTrue trivial

namespace Controller

variable {c : Controller} {happening : Happening} {happenings : List Happening}

/-- Let something happen. -/
def undergo (c : Controller) : Happening → Controller
  | .write w => { c with access := { c.access with store := c.access.store.accept w } }
  | .faults rules => c.withRules rules
  | .operate op => c.operate op
  | .reconcile id => (c.reconcile id).2
  | .restart policy => .start c.access policy

/-- One thing happens after the other. -/
def course (c : Controller) (happenings : List Happening) : Controller := happenings.foldl undergo c

/-- Where passes can be relied on: no call of the store lies, and every object stands under its own kind and
key. -/
structure Truthful (c : Controller) : Prop where
  rules : Access.Honest c.access.rules
  keyed : c.access.store.Keyed

/-- What can be relied on before something proper happens can be relied on afterwards. -/
theorem Truthful.undergo (h : c.Truthful) (hproper : happening.Proper) : (c.undergo happening).Truthful := by
  cases happening with
  | write w => exact ⟨h.rules, h.keyed.accept w⟩
  | faults rules => exact ⟨hproper, h.keyed⟩
  | operate op =>
    obtain ⟨hrules, hstore, -, -⟩ := c.operate_yields op
    exact ⟨by rw [show (c.undergo (.operate op)).access.rules = _ from hrules]; exact h.rules,
      by rw [show (c.undergo (.operate op)).access.store = _ from hstore]; exact h.keyed⟩
  | reconcile id =>
    have hgrows := reconcile_grows h.rules h.keyed id
    refine ⟨?_, hgrows.store.keyed h.keyed⟩
    rw [show (c.undergo (.reconcile id)).access.rules = _ from hgrows.rules]
    exact h.rules
  | restart policy => exact ⟨h.rules, h.keyed⟩

/-- A store without fault rules is honest. -/
theorem Sound.truthful (h : c.Sound) : c.Truthful := by
  refine ⟨?_, h.keyed⟩
  rw [h.rules]
  exact fun _ hrule => absurd hrule List.not_mem_nil

/-- Whatever happens, objects develop. Only what a client creates has no past. -/
theorem undergo_grows (h : c.Truthful) (hproper : happening.Proper) :
    c.access.store.Grows (c.undergo happening).access.store ∨
      ∃ o : Object, o.IsNew ∧ c.access.store.get? o.id = none ∧
        (c.undergo happening).access.store.objects = c.access.store.objects.insert o.id (Store.created o) := by
  cases happening with
  | write w => exact c.access.store.grows_of_accept hproper
  | faults rules => exact Or.inl (.refl _)
  | operate op =>
    obtain ⟨-, hstore, -, -⟩ := c.operate_yields op
    exact Or.inl (Store.grows_of_objects (congrArg Store.objects hstore))
  | reconcile id => exact Or.inl (reconcile_grows h.rules h.keyed id).store
  | restart policy => exact Or.inl (.refl _)

/-- What holds of every new object, and of whatever an object with it develops to, holds of every stored
object at every moment. -/
theorem course_induction {P : Object → Prop} (hnew : ∀ o : Object, o.IsNew → P (Store.created o))
    (hdevelops : ∀ o o', P o → o.Develops o' → P o') (policy : RetryPolicy)
    (hproper : ∀ happening ∈ happenings, happening.Proper) :
    ((fresh policy).course happenings).Truthful ∧
      ∀ id o, ((fresh policy).course happenings).access.store.get? id = some o → P o := by
  have hcourse : ∀ c : Controller, c.Truthful → (∀ id o, c.access.store.get? id = some o → P o) →
      (c.course happenings).Truthful ∧
        ∀ id o, (c.course happenings).access.store.get? id = some o → P o := by
    induction happenings with
    | nil => exact fun c htruthful h => ⟨htruthful, h⟩
    | cons happening rest ih =>
      intro c htruthful h
      have hfirst := hproper happening List.mem_cons_self
      refine ih (fun later hlater => hproper later (List.mem_cons_of_mem _ hlater)) _
        (htruthful.undergo hfirst) ?_
      rcases undergo_grows htruthful hfirst with hgrows | ⟨o, hisNew, -, hobjects⟩
      · intro id o' hget
        obtain ⟨o, hstored, hdeveloped⟩ := hgrows id o' hget
        exact hdevelops o o' (h id o hstored) hdeveloped
      · exact Store.forall_get?_insert hobjects (fun id' o' _ => h id' o') (hnew o hisNew)
  exact hcourse _ (sound_fresh policy).truthful fun _ _ hget =>
    nomatch hget.symm.trans (SortedMap.get?_empty _)

end Controller

end AddressRegistry
