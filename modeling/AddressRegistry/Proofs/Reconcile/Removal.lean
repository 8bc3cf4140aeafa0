import AddressRegistry.Proofs.Reconcile.Incidents

/-!
# Objects that are reported removed

A pass over an object whose deletion was requested undoes the effect of the object, takes the registry's
finalizer off and reports that the object is removed. It does not ask whether anybody else still holds the
object. Under another finalizer the object stays, reported as removed and never to be looked at again
(`Controller.removed_unless_held`), and whatever sets off another pass has the effect undone once more.

What undid the effect of an object since the object was created is `cleanups`. All but the last one were
hindered: somebody else held the object, or the store did not take the finalizer off. Where nothing hinders
them there is at most one, and the object is gone after it.
-/

namespace AddressRegistry

/-- Somebody besides the registry holds the object. -/
def Object.heldByOthers (o : Object) : Bool := o.info.finalizers.any (· != finalizerName)

/-- The effect of an object was undone. -/
structure Cleanup where
  object : Object
  /-- The store did not take the finalizer off. -/
  refused : Bool
deriving DecidableEq

/-- The object could not go after its effect was undone. -/
def Cleanup.Hindered (x : Cleanup) : Prop := x.refused = true ∨ x.object.heldByOthers = true

instance : DecidablePred Cleanup.Hindered := fun _ => inferInstanceAs (Decidable (_ ∨ _))

namespace Controller

variable {c c' : Controller} {id : ObjectId} {o : Object} {x : Cleanup} {outcome : Outcome}

/-- The cleanup that a pass over an object succeeds in. -/
def cleanup? (c : Controller) (id : ObjectId) : Option Cleanup :=
  match c.access.fetch id.kind id.key with
  | .ok (some o) =>
    if o.info.deletionRequested then
      match c.undo o with
      | .ok c' => some ⟨o, !(c'.access.removeFinalizer o.id finalizerName).isOk⟩
      | .error _ => none
    else
      none
  | _ => none

/-! ## What a pass that removes does -/

/-- A cleanup has found its object with its deletion requested, and undone its effect. -/
theorem cleanup?_eq_some (h : c.cleanup? id = some x) :
    c.access.fetch id.kind id.key = .ok (some x.object) ∧ x.object.info.deletionRequested = true ∧
      ∃ c', c.undo x.object = .ok c' ∧
        x.refused = !(c'.access.removeFinalizer x.object.id finalizerName).isOk := by
  unfold cleanup? at h
  split at h
  · rename_i o hfetch
    split at h
    · rename_i hdeletion
      split at h
      · rename_i c' hundo
        cases h
        exact ⟨hfetch, hdeletion, c', hundo, rfl⟩
      · cases h
    · cases h
  · cases h

/-- Whoever finds an object that is to be deleted, and can undo its effect, cleans it up. -/
theorem cleanup?_of_undo (hfetch : c.access.fetch id.kind id.key = .ok (some o))
    (hdeletion : o.info.deletionRequested = true) (hundo : c.undo o = .ok c') :
    c.cleanup? id = some ⟨o, !(c'.access.removeFinalizer o.id finalizerName).isOk⟩ := by
  unfold cleanup?
  rw [hfetch]
  dsimp only
  rw [if_pos hdeletion, hundo]

/-- Taking the registry's finalizer off an object that is to be deleted leaves it to the others. -/
theorem get?_of_removeFinalizer {access : Access} (hget : c.access.store.get? id = some o)
    (hdeletion : o.info.deletionRequested = true)
    (h : c.access.removeFinalizer id finalizerName = .ok access) :
    access.store.get? id = if o.heldByOthers then some (Store.unmarked o finalizerName) else none := by
  obtain ⟨store, hcall, h⟩ := Except.bind_eq_ok_iff.1 h
  cases h
  have hremoved := Access.guarded_eq_ok hcall
  rw [Store.removeFinalizer_of_get? finalizerName hget, hdeletion, Bool.true_and] at hremoved
  cases hremoved
  have hheld : (o.info.finalizers.filter (· != finalizerName)).isEmpty = !o.heldByOthers := by
    rw [Object.heldByOthers, Bool.eq_iff_iff, List.isEmpty_iff, List.filter_eq_nil_iff]
    simp
  rw [hheld]
  cases o.heldByOthers
  · exact Store.get?_remove_self _ _
  · exact SortedMap.get?_insert_self _ _ _

/-- A pass that ends after telling the dependents ends with the verdict. -/
theorem tell_eq_ok {before object : Object} {v : Verdict} (h : (c.tell id before object v).1 = .ok outcome) :
    ∃ delay, outcome = ⟨v.phase, v.isReady, v.failure?, delay⟩ := by
  unfold tell at h
  split at h <;> cases h
  exact ⟨_, rfl⟩

/-- A pass that ends with a report ends with the verdict. -/
theorem report_eq_ok {before after : Object} {v : Verdict}
    (h : (c.report id before after v).1 = .ok outcome) :
    ∃ delay, outcome = ⟨v.phase, v.isReady, v.failure?, delay⟩ := by
  unfold report at h
  dsimp only at h
  split at h
  · cases h
  · exact tell_eq_ok h

/-- A pass over an object that is to stay ends with a verdict in a phase of the living. -/
theorem maintain_eq_ok (h : (c.maintain id o).1 = .ok outcome) :
    ∃ (v : Verdict) (delay : Option Nat), v.phase.isLive = true ∧
      outcome = ⟨v.phase, v.isReady, v.failure?, delay⟩ := by
  unfold maintain at h
  split at h
  · cases h
  · split at h
    · rename_i v after c₂ hevaluate
      obtain ⟨delay, houtcome⟩ := report_eq_ok h
      exact ⟨v, delay, isLive_of_evaluate hevaluate, houtcome⟩
    · cases h

/-- An object that was put off is still in its phase of deletion. -/
theorem phase_of_postpone {e : RegistryError} (h : (c.postpone id o e).1 = .ok outcome) :
    outcome.phase = .terminating := by
  unfold postpone at h
  dsimp only at h
  split at h <;> cases h
  rfl

/-- A pass that finishes an object took the finalizer off and calls it removed. -/
theorem finish_eq_ok (h : (c.finish id o).1 = .ok outcome) :
    outcome = .removed ∧ (c.access.removeFinalizer o.id finalizerName).isOk = true := by
  unfold finish at h
  split at h
  · cases h
  · rename_i access hremove
    dsimp only at h
    split at h <;> cases h
    rw [hremove]
    exact ⟨rfl, rfl⟩

/-- An object is reported removed when it is not stored, or when its effect was undone and the store took the
finalizer off. -/
theorem reconcile_removed_cases (h : (c.reconcile id).1 = .ok outcome) (hphase : outcome.phase = .removed) :
    outcome = .removed ∧
      (c.access.fetch id.kind id.key = .ok none ∨ ∃ x, c.cleanup? id = some x ∧ x.refused = false) := by
  cases hfetch : c.access.fetch id.kind id.key with
  | error f =>
    rw [reconcile_of_error hfetch] at h
    cases h
  | ok found =>
    rcases found with _ | o
    · rw [reconcile_of_none hfetch] at h
      cases h
      exact ⟨rfl, Or.inl rfl⟩
    · cases hdeletion : o.info.deletionRequested with
      | false =>
        rw [reconcile_of_live hfetch hdeletion] at h
        obtain ⟨v, delay, hlive, rfl⟩ := maintain_eq_ok h
        rw [show v.phase = .removed from hphase] at hlive
        cases hlive
      | true =>
        rw [reconcile_of_deleted hfetch hdeletion] at h
        unfold finalize at h
        split at h
        · rename_i c' hundo
          obtain ⟨houtcome, hremove⟩ := finish_eq_ok h
          refine ⟨houtcome, Or.inr ⟨_, cleanup?_of_undo hfetch hdeletion hundo, ?_⟩⟩
          rw [hremove]
          rfl
        · rw [phase_of_postpone h] at hphase
          cases hphase
        · cases h

/-- After its effect was undone and the finalizer was taken off, an object is there for others only. -/
theorem Truthful.get?_of_cleanup (h : c.Truthful) (hcleanup : c.cleanup? id = some x)
    (haccepted : x.refused = false) :
    (c.reconcile id).2.access.store.get? id =
      if x.object.heldByOthers then some (Store.unmarked x.object finalizerName) else none := by
  obtain ⟨hfetch, hdeletion, c', hundo, hrefused⟩ := cleanup?_eq_some hcleanup
  obtain ⟨haccess, -, -⟩ := undo_frame hundo
  have hget : c'.access.store.get? id = some x.object := by
    rw [haccess]
    exact Access.get?_of_fetch h.rules hfetch
  have hid : x.object.id = id := h.keyed id _ (Access.get?_of_fetch h.rules hfetch)
  cases hremove : c'.access.removeFinalizer x.object.id finalizerName with
  | error f =>
    rw [hremove, haccepted] at hrefused
    cases hrefused
  | ok access =>
    have hleft := get?_of_removeFinalizer hget hdeletion (hid ▸ hremove)
    rw [reconcile_of_deleted hfetch hdeletion, finalize, hundo]
    dsimp only
    rw [finish, hremove]
    show (tellGone _ _).2.access.store.get? id = _
    rw [access_tellGone]
    exact hleft

/-- Where nothing hindered the cleanup, the object is gone. -/
theorem Truthful.get?_of_cleanup_free (h : c.Truthful) (hcleanup : c.cleanup? id = some x)
    (hfree : ¬ x.Hindered) : (c.reconcile id).2.access.store.get? id = none := by
  obtain ⟨haccepted, hheld⟩ := not_or.1 hfree
  rw [h.get?_of_cleanup hcleanup (Bool.eq_false_of_not_eq_true haccepted), if_neg hheld]

/-- What is reported removed is gone, unless others hold it. -/
theorem Truthful.get?_of_removed (h : c.Truthful) (hok : (c.reconcile id).1 = .ok outcome)
    (hphase : outcome.phase = .removed) :
    outcome = .removed ∧
      (c.reconcile id).2.access.store.get? id =
        ((c.access.store.get? id).filter Object.heldByOthers).map (Store.unmarked · finalizerName) := by
  obtain ⟨houtcome, hfetch | ⟨x, hcleanup, haccepted⟩⟩ := reconcile_removed_cases hok hphase
  · refine ⟨houtcome, ?_⟩
    have hnone := Access.get?_of_fetch_none h.rules hfetch
    rw [reconcile_of_none hfetch, hnone]
    rfl
  · refine ⟨houtcome, ?_⟩
    have hget := Access.get?_of_fetch h.rules (cleanup?_eq_some hcleanup).1
    rw [h.get?_of_cleanup hcleanup haccepted, hget]
    cases hheld : x.object.heldByOthers <;> simp [Option.filter, hheld]

end Controller

/-! ## Cleanups in a lifetime -/

namespace Episode

/-- The cleanup of an object that succeeds. -/
def cleanup? (e : Episode) (id : ObjectId) : Option Cleanup :=
  match e.incident with
  | .happen (.reconcile id') => if id' = id then e.before.cleanup? id else none
  | _ => none

end Episode

/-- The cleanups of an object that succeeded since it was created. -/
def cleanups (id : ObjectId) (t : List Episode) : List Cleanup :=
  (t.rtakeWhile fun e => !e.creates id).filterMap fun e => e.cleanup? id

/-- The cleanups of a lifetime after one more episode: a creation begins a new lifetime. -/
theorem cleanups_concat (id : ObjectId) (t : List Episode) (e : Episode) :
    cleanups id (t ++ [e]) = if e.creates id then [] else cleanups id t ++ (e.cleanup? id).toList := by
  unfold cleanups
  rw [List.rtakeWhile_concat]
  by_cases hcreates : e.creates id = true
  · simp [hcreates]
  · cases hcleanup : e.cleanup? id <;> simp [hcreates, hcleanup]

namespace Controller

/-- The cleanups of an object that did not end its lifetime were hindered. -/
structure Accounts (c : Controller) (id : ObjectId) (seen : List Cleanup) : Prop where
  earlier : ∀ x ∈ seen.dropLast, x.Hindered
  stored : ∀ o, c.access.store.get? id = some o → ∀ x ∈ seen, x.Hindered

/-- Where no cleanup was seen, there is nothing to account for. -/
theorem accounts_nil (c : Controller) (id : ObjectId) : c.Accounts id [] :=
  ⟨fun _ hx => absurd hx List.not_mem_nil, fun _ _ _ hx => absurd hx List.not_mem_nil⟩

/-- A cleanup that nothing hindered leaves no object that could be cleaned up again. -/
theorem Accounts.concat {c c' : Controller} {id : ObjectId} {seen : List Cleanup} {x : Cleanup}
    (h : c.Accounts id seen) {o : Object} (hget : c.access.store.get? id = some o)
    (hfree : ¬ x.Hindered → c'.access.store.get? id = none) : c'.Accounts id (seen ++ [x]) := by
  have hseen := h.stored o hget
  refine ⟨?_, fun o' hget' y hy => ?_⟩
  · rw [List.dropLast_concat]
    exact hseen
  · rcases List.mem_append.1 hy with hy | hy
    · exact hseen y hy
    · rw [List.mem_singleton.1 hy]
      by_contra hx
      rw [hfree hx] at hget'
      cases hget'

/-- An incident keeps the account. A creation begins a new one; a pass that cleans up adds itself, and is
hindered or leaves no object behind; nothing else makes an object appear. -/
theorem Accounts.meet {c : Controller} {id : ObjectId} {seen : List Cleanup} (h : c.Accounts id seen)
    (htruthful : c.Truthful) (incident : Incident) :
    (c.meet incident).Accounts id
      (if (Episode.mk c incident).creates id then [] else seen ++ ((Episode.mk c incident).cleanup? id).toList) := by
  by_cases hcreates : (Episode.mk c incident).creates id = true
  · rw [if_pos hcreates]
    exact accounts_nil _ id
  · rw [if_neg hcreates]
    cases hcleanup : (Episode.mk c incident).cleanup? id with
    | none =>
      rw [Option.toList_none, List.append_nil]
      refine ⟨h.earlier, fun o hget => ?_⟩
      obtain ⟨o', hget'⟩ := Episode.exists_before htruthful (eq_false_of_ne_true hcreates) hget
      exact h.stored o' hget'
    | some x =>
      unfold Episode.cleanup? at hcleanup
      split at hcleanup
      · rename_i id' hincident
        dsimp only at hincident
        subst hincident
        split at hcleanup
        · rename_i hid
          subst hid
          have hget := Access.get?_of_fetch htruthful.rules (cleanup?_eq_some hcleanup).1
          exact h.concat hget fun hfree => htruthful.get?_of_cleanup_free hcleanup hfree
        · cases hcleanup
      · cases hcleanup

/-- The account is kept in every run, by induction on the incidents from the last one. -/
theorem accounts_outlive {c : Controller} (hc : c.Truthful) {incidents : List Incident}
    (hhonest : ∀ incident ∈ incidents, incident.Honest) (id : ObjectId) :
    (c.outlive incidents).Accounts id (cleanups id (c.chronicle incidents)) := by
  induction incidents using List.reverseRecOn with
  | nil => exact accounts_nil c id
  | append_singleton incidents incident ih =>
    have hearlier : ∀ i ∈ incidents, i.Honest := fun i hi => hhonest i (List.mem_append_left _ hi)
    rw [outlive_concat, chronicle_concat, cleanups_concat]
    exact (ih hearlier).meet (hc.outlive hearlier) incident

/-- Only what others hold stays when it is reported removed. -/
theorem removed_unless_held (policy : RetryPolicy) (incidents : List Incident)
    (hhonest : ∀ incident ∈ incidents, incident.Honest) (id : ObjectId) :
    let c := (fresh policy).outlive incidents
    let seen := cleanups id ((fresh policy).chronicle incidents)
    (∀ outcome, (c.reconcile id).1 = .ok outcome → outcome.phase = .removed →
        outcome.requeueAfter = none ∧
        (c.reconcile id).2.access.store.get? id =
          ((c.access.store.get? id).filter Object.heldByOthers).map (Store.unmarked · finalizerName)) ∧
      (∀ x ∈ seen.dropLast, x.Hindered) ∧
      (∀ o, c.access.store.get? id = some o → ∀ x ∈ seen, x.Hindered) ∧
      ((∀ x ∈ seen, ¬ x.Hindered) → seen.length ≤ 1) := by
  intro c seen
  have htruthful : c.Truthful := (sound_fresh policy).truthful.outlive hhonest
  obtain ⟨hearlier, hstored⟩ : c.Accounts id seen :=
    accounts_outlive (sound_fresh policy).truthful hhonest id
  refine ⟨fun outcome hok hphase => ?_, hearlier, hstored, fun hfree => ?_⟩
  · obtain ⟨rfl, hleft⟩ := htruthful.get?_of_removed hok hphase
    exact ⟨rfl, hleft⟩
  · -- a second one would have hindered the first one
    by_contra hmany
    have hpos : 0 < seen.dropLast.length := by
      rw [List.length_dropLast]
      omega
    have hfirst := List.getElem_mem hpos
    exact hfree _ (List.dropLast_subset _ hfirst) (hearlier _ hfirst)

end Controller

/-! An audit holds a pool that the registry has reported removed. The pool's network is declared anew by a
twin; another pass over the pool takes the route of the twin away. -/

namespace Audited

def pool : Object := Lab.pool.mapInfo fun m => { m with finalizers := ["audit"] }

def twinId : ObjectId := ⟨.pool, ⟨"default", "acme.lab.twin"⟩⟩

def twin : Object :=
  .newPool "default" "acme.lab.twin"
    ⟨"10.0.0.0/30", true, .ofList [(Labels.purposeKey, "loopback")], none⟩

def incidents : List Incident :=
  [.happen (.write (.create (.newTenant "default" "acme" .fresh))),
    .happen (.write (.create (.newScope Sample.key.space Sample.key.name Sample.spec))),
    .happen (.reconcile Lab.tenantId), .happen (.reconcile Lab.scopeId), .happen (.write (.create pool)),
    .happen (.reconcile Lab.poolId), .happen (.write (.delete Lab.poolId))]

/-- The pool waits for its deletion. -/
def waiting : Controller := (Controller.fresh Lab.policy).outlive incidents

/-- The pool was reported removed, and its twin declares the network. -/
def succeeded : Controller :=
  waiting.outlive [.happen (.reconcile Lab.poolId), .happen (.write (.create twin)), .happen (.reconcile twinId)]

end Audited

/-- The audited pool is reported removed, and it is what the audit holds. -/
theorem Controller.removed_unless_held_audited :
    (∀ incident ∈ Audited.incidents, incident.Honest) ∧
      (Audited.waiting.reconcile Lab.poolId).1 = .ok .removed ∧
      (Audited.waiting.reconcile Lab.poolId).2.access.store.get? Lab.poolId =
        ((Audited.waiting.access.store.get? Lab.poolId).filter Object.heldByOthers).map
          (Store.unmarked · finalizerName) := by
  have hhonest : ∀ incident ∈ Audited.incidents, incident.Honest := by decide
  have hremoved : (Audited.waiting.reconcile Lab.poolId).1 = .ok .removed := by decide +kernel
  have hlaw := (removed_unless_held Lab.policy Audited.incidents hhonest Lab.poolId).1
  exact ⟨hhonest, hremoved, (hlaw .removed hremoved rfl).2⟩

/-- The pool is reported removed twice and is still there, and its effect was undone twice: the second time the
route of its twin was removed, which is ready. -/
theorem audited_pool_stays :
    (Audited.waiting.reconcile Lab.poolId).1 = .ok .removed ∧
      ((Audited.waiting.reconcile Lab.poolId).2.access.store.get? Lab.poolId).isSome = true ∧
      (Audited.succeeded.indexes.labelsAt Sample.key Sample.network).isSome = true ∧
      (Audited.succeeded.reconcile Lab.poolId).1 = .ok .removed ∧
      (Audited.succeeded.reconcile Lab.poolId).2.indexes.labelsAt Sample.key Sample.network = none ∧
      ((Audited.succeeded.reconcile Lab.poolId).2.access.store.get? Audited.twinId).any Object.isReady = true ∧
      ((Audited.succeeded.cleanup? Lab.poolId).isSome = true ∧
        (Audited.waiting.cleanup? Lab.poolId).isSome = true) := by
  decide +kernel

end AddressRegistry
