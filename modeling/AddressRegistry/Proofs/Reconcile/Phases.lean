import AddressRegistry.Proofs.Reconcile.Course

/-!
# Phases and readiness

No pass asks whether the phase that it records may follow the one before (`Phase.canFollow`). It always may
(`Controller.phases_follow`), because of what ties the phase to the deletion request: an object is recorded
as terminating only when its deletion was requested, which is never taken back, and from then on passes
record no other phase. The invariant is `Object.Coherent`; it also says that an object is ready exactly when
its phase and its reason say so.
-/

namespace AddressRegistry

/-! ## Phases -/

namespace Phase

variable {p p' : Phase}

/-- A phase may follow itself. -/
theorem canFollow_self (p : Phase) : p.canFollow p = true := by
  cases p <;> rfl

/-- Any two phases of the living may follow one another. -/
theorem canFollow_of_isLive (h : p.isLive = true) (h' : p'.isLive = true) : p.canFollow p' = true := by
  revert h h'
  cases p <;> cases p' <;> decide

/-- Whatever was not removed may be terminated. -/
theorem canFollow_terminating (h : p ≠ .removed) : p.canFollow .terminating = true := by
  cases p <;> first | rfl | exact absurd rfl h

/-- All phases but the two of deletion are phases of the living. -/
theorem isLive_of_ne (hterminating : p ≠ .terminating) (hremoved : p ≠ .removed) : p.isLive = true := by
  cases p <;> first | rfl | exact absurd rfl hterminating | exact absurd rfl hremoved

end Phase

/-- No error has the reason that a ready object shows. -/
theorem RegistryError.reason_ne_ready (e : RegistryError) : e.reason ≠ "Ready" := by
  cases e <;> simp [reason]

/-- A verdict is ready exactly when its phase and its reason say so. -/
theorem Verdict.isReady_iff (v : Verdict) : v.isReady = true ↔ v.phase = .ready ∧ v.reason = "Ready" := by
  cases v with
  | ready => exact iff_of_true rfl ⟨rfl, rfl⟩
  | stuck phase e => exact iff_of_false nofun fun h => e.reason_ne_ready h.2

/-! ## What holds of every stored object -/

namespace Object

variable {o o' : Object}

/-- The phase agrees with readiness and with the deletion request, and the object is not recorded as gone. -/
structure Coherent (o : Object) : Prop where
  ready_iff : o.isReady = true ↔ o.status.phase = .ready ∧ o.status.condition.reason = "Ready"
  terminating : o.status.phase = .terminating → o.info.deletionRequested = true
  ne_removed : o.status.phase ≠ .removed

/-- A new object is pending, not ready, and not recorded as gone. -/
theorem IsNew.coherent (h : o.IsNew) : o.Coherent where
  ready_iff := by
    unfold isReady
    rw [h.status_eq]
    exact iff_of_false nofun nofun
  terminating := by
    rw [h.status_eq]
    exact nofun
  ne_removed := by
    rw [h.status_eq]
    exact nofun

/-- A verdict leaves an object coherent unless it belies the deletion request. -/
theorem coherent_recordVerdict (c : Controller) (o : Object) {v : Verdict}
    (hterminating : v.phase = .terminating → o.info.deletionRequested = true)
    (hremoved : v.phase ≠ .removed) : (c.recordVerdict o v).1.Coherent := by
  unfold Controller.recordVerdict
  refine ⟨?_, ?_, ?_⟩
  · unfold isReady
    rw [status_mapStatus]
    exact v.isReady_iff
  · rw [status_mapStatus, info_mapStatus]
    exact hterminating
  · rw [status_mapStatus]
    exact hremoved

/-- The phase of an object that is to stay is live. -/
theorem Coherent.isLive (h : o.Coherent) (hlive : o.info.deletionRequested = false) :
    o.status.phase.isLive = true := by
  refine Phase.isLive_of_ne (fun hphase => ?_) h.ne_removed
  rw [h.terminating hphase] at hlive
  cases hlive

/-- However an object develops, it stays coherent and its phase may follow the one before. -/
theorem Coherent.develops (h : o.Coherent) (hdevelops : o.Develops o') :
    o'.Coherent ∧ o.status.phase.canFollow o'.status.phase = true := by
  cases hdevelops with
  | edited _ hstatus hdeletion =>
    have hsame := hstatus.status_eq
    refine ⟨⟨?_, ?_, ?_⟩, ?_⟩
    · unfold isReady
      rw [hsame]
      exact h.ready_iff
    · rw [hsame]
      exact fun hphase => hdeletion (h.terminating hphase)
    · rw [hsame]
      exact h.ne_removed
    · rw [hsame]
      exact Phase.canFollow_self _
  | @judged c c' before after v hlive _ _ hevaluate =>
    have hverdict : v.phase.isLive = true := Controller.isLive_of_evaluate hevaluate
    constructor
    · refine coherent_recordVerdict c' _ (fun hphase => ?_) fun hphase => ?_ <;> rw [hphase] at hverdict <;>
        cases hverdict
    · rw [Controller.reported_eq, status_mapStatus]
      exact Phase.canFollow_of_isLive (h.isLive hlive) hverdict
  | blocked c e hdeletion =>
    constructor
    · exact coherent_recordVerdict c o (fun _ => hdeletion) nofun
    · unfold Controller.recordVerdict
      rw [status_mapStatus]
      exact Phase.canFollow_terminating h.ne_removed

end Object

namespace Controller

variable {happenings : List Happening}

/-- On every course of things a stored object is ready exactly when its phase is ready and its reason says
so, and whatever happens next, the phase that is recorded then may follow the phase before. -/
theorem phases_follow (policy : RetryPolicy) (hproper : ∀ happening ∈ happenings, happening.Proper) :
    (∀ id o, ((fresh policy).course happenings).access.store.get? id = some o →
      (o.isReady = true ↔ o.status.phase = .ready ∧ o.status.condition.reason = "Ready")) ∧
      ∀ next : Happening, next.Proper → ∀ id o o',
        ((fresh policy).course happenings).access.store.get? id = some o →
          (((fresh policy).course happenings).undergo next).access.store.get? id = some o' →
            o.status.phase.canFollow o'.status.phase = true := by
  obtain ⟨htruthful, hcoherent⟩ := course_induction (P := Object.Coherent)
    (fun o hnew => (hnew.mapInfo _).coherent) (fun o o' h hdevelops => (h.develops hdevelops).1) policy hproper
  refine ⟨fun id o hget => (hcoherent id o hget).ready_iff, ?_⟩
  intro next hnext id o o' hget hget'
  rcases undergo_grows htruthful hnext with hgrows | ⟨created, -, hvacant, hobjects⟩
  · obtain ⟨before, hstored, hdevelops⟩ := hgrows id o' hget'
    cases hget.symm.trans hstored
    exact ((hcoherent id o hget).develops hdevelops).2
  · -- Nothing was stored where the new object stands, so this one is as it was.
    have hne : id ≠ created.id := by
      rintro rfl
      cases hget.symm.trans hvacant
    unfold Store.get? at hget'
    rw [hobjects, SortedMap.get?_insert_of_ne _ hne] at hget'
    cases hget.symm.trans hget'
    exact Phase.canFollow_self _

end Controller

/-- A pool of the sample registry is ready when its scope goes. -/
def Lab.orphaning : List Happening :=
  [.write (.create (.newTenant "default" "acme" .fresh)),
    .write (.create (.newScope Sample.key.space Sample.key.name Sample.spec)), .write (.create Lab.pool),
    .reconcile Lab.tenantId, .reconcile Lab.scopeId, .reconcile Lab.poolId,
    .write (.delete Lab.scopeId), .reconcile Lab.scopeId]

/-- The pool of the sample registry falls back from ready to pending, as it may. -/
theorem Controller.phases_follow_sample :
    (∀ happening ∈ Lab.orphaning, happening.Proper) ∧
      ∃ o o', ((fresh Lab.policy).course Lab.orphaning).access.store.get? Lab.poolId = some o ∧
        (((fresh Lab.policy).course Lab.orphaning).undergo (.reconcile Lab.poolId)).access.store.get?
          Lab.poolId = some o' ∧
          o.status.phase = .ready ∧ o'.status.phase = .pending ∧
            o.status.phase.canFollow o'.status.phase = true := by
  have hproper : ∀ happening ∈ Lab.orphaning, happening.Proper := by decide
  have hphase : (((fresh Lab.policy).course Lab.orphaning).access.store.get? Lab.poolId).map
      (·.status.phase) = some .ready := by decide +kernel
  have hphase' : ((((fresh Lab.policy).course Lab.orphaning).undergo
      (.reconcile Lab.poolId)).access.store.get? Lab.poolId).map (·.status.phase) = some .pending := by
    decide +kernel
  obtain ⟨o, hget, hready⟩ := Option.map_eq_some_iff.1 hphase
  obtain ⟨o', hget', hpending⟩ := Option.map_eq_some_iff.1 hphase'
  exact ⟨hproper, o, o', hget, hget', hready, hpending,
    (phases_follow Lab.policy hproper).2 (.reconcile Lab.poolId) trivial Lab.poolId o o' hget hget'⟩

end AddressRegistry
