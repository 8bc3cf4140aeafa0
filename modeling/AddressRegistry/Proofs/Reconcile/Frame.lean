import AddressRegistry.Proofs.Reconcile.Repeat
import AddressRegistry.Proofs.Store.Writes

/-!
# What the parts of a pass leave alone

Whatever faults there are, each part of a pass touches little. Allocator operations add no index and drop
none (`ScopeIndexes.SameScopes`); applying an effect and undoing it concern the indexes and the retry
counters (`Controller.apply_frame`, `Controller.undo_frame`); a call of the store that succeeds is one write
of the store (`Access.written_of_updateStatus` and its companions).
-/

namespace AddressRegistry

/-! ## Indexes -/

namespace ScopeIndexes

variable {indexes indexes' indexes'' : ScopeIndexes} {key : ObjectKey} {index index' : RouteIndex}

/-- The same scopes have an index. -/
def SameScopes (indexes indexes' : ScopeIndexes) : Prop :=
  ∀ key, indexes'.contains key = indexes.contains key

/-- Indexes that are left alone have the scopes that they had. -/
theorem SameScopes.refl (indexes : ScopeIndexes) : indexes.SameScopes indexes := fun _ => rfl

/-- Operations that add no index and drop none may follow one another. -/
theorem SameScopes.trans (h : indexes.SameScopes indexes') (h' : indexes'.SameScopes indexes'') :
    indexes.SameScopes indexes'' :=
  fun key => (h' key).trans (h key)

/-- Putting a changed index back in its place neither adds an index nor drops one. -/
theorem sameScopes_insert (h : indexes.get? key = some index) (index' : RouteIndex) :
    indexes.SameScopes (indexes.insert key index') := by
  intro key'
  unfold SortedMap.contains
  by_cases hkey : key' = key
  · subst hkey
    rw [SortedMap.get?_insert_self, h]
    rfl
  · rw [SortedMap.get?_insert_of_ne _ hkey]

section

variable {access : Access} {r : Registration} {n : Network} {pool : Pool} {raw : String}

/-- A registration changes the index of its scope at most; the scope had one. -/
theorem sameScopes_of_register (h : indexes.register access r = .ok (n, indexes')) :
    indexes.SameScopes indexes' := by
  obtain ⟨_, _, _, -, hindex, -, rfl⟩ := register_eq_ok_iff.1 h
  exact sameScopes_insert hindex _

/-- Releasing a registration changes the index of its scope, and drops it not even when it is empty. -/
theorem sameScopes_of_deregister (h : indexes.deregister access r = .ok indexes') :
    indexes.SameScopes indexes' := by
  obtain ⟨-, ⟨-, rfl⟩ | ⟨_, _, _, -, hindex, -, rfl⟩⟩ := deregister_eq_ok_iff.1 h
  · exact .refl _
  · exact sameScopes_insert hindex _

/-- Declaring a pool changes the index of its scope at most. -/
theorem sameScopes_of_declare (h : (indexes.declare key pool).2 = .ok (n, indexes')) :
    indexes.SameScopes indexes' := by
  obtain ⟨-, _, _, hindex, -, rfl⟩ := declare_eq_ok_iff.1 h
  exact sameScopes_insert hindex _

/-- Taking a declaration back changes the index of its scope at most. -/
theorem sameScopes_of_retract (h : indexes.retract key raw = .ok indexes') :
    indexes.SameScopes indexes' := by
  obtain ⟨_, -, ⟨-, rfl⟩ | ⟨_, _, hindex, -, rfl⟩⟩ := retract_eq_ok_iff.1 h
  · exact .refl _
  · exact sameScopes_insert hindex _

end

/-- Admitting a scope gives it an index, unless it has one, and concerns no other scope. -/
theorem contains_ensure_iff {key key' : ObjectKey} :
    (indexes.ensure key).contains key' = true ↔ key' = key ∨ indexes.contains key' = true := by
  unfold ensure
  split
  · rename_i hcontains
    refine (or_iff_right_of_imp ?_).symm
    rintro rfl
    exact hcontains
  · exact SortedMap.contains_insert_iff

end ScopeIndexes

/-! ## Calls of the store -/

namespace Access

variable {a a' : Access} {id : ObjectId} {o : Object} {f : String}

/-- A guarded call that succeeds is the call: no rule has made it fail. -/
theorem guarded_eq_ok {α : Type} {x : α} {method : Method} {kind : Kind}
    {call : Except RegistryError α} (h : a.guarded method kind call = .ok x) : call = .ok x := by
  unfold guarded at h
  split at h
  · cases h
  · cases h
  · exact Failure.lift_eq_ok_iff.1 h
  · exact Failure.lift_eq_ok_iff.1 h

/-- A fetch answers with objects of the kind that it was asked for; one that stands at the key under another
kind is an error, not an answer. -/
theorem kind_of_fetch {kind : Kind} {key : ObjectKey} (h : a.fetch kind key = .ok (some o)) :
    o.kind = kind := by
  unfold fetch at h
  split at h
  · cases h
  · cases h
  · split at h
    · cases h
      assumption
    · cases h

/-- Saving a status is one write of the store, and touches neither the rules nor the number of the calls
made. -/
theorem written_of_updateStatus (h : a.updateStatus o = .ok a') :
    a.store.Written (.note o) a'.store ∧ a' = { a with store := a'.store } := by
  obtain ⟨store, hcall, h⟩ := Except.bind_eq_ok_iff.1 h
  cases h
  exact ⟨Store.written_of_updateStatus (guarded_eq_ok hcall), rfl⟩

/-- Putting a finalizer on is one write of the store. -/
theorem written_of_addFinalizer (h : a.addFinalizer id f = .ok a') :
    a.store.Written (.mark id f) a'.store ∧ a' = { a with store := a'.store } := by
  obtain ⟨store, hcall, h⟩ := Except.bind_eq_ok_iff.1 h
  cases h
  exact ⟨Store.written_of_addFinalizer (guarded_eq_ok hcall), rfl⟩

/-- Taking a finalizer off is one write of the store. -/
theorem written_of_removeFinalizer (h : a.removeFinalizer id f = .ok a') :
    a.store.Written (.unmark id f) a'.store ∧ a' = { a with store := a'.store } := by
  obtain ⟨store, hcall, h⟩ := Except.bind_eq_ok_iff.1 h
  cases h
  exact ⟨Store.written_of_removeFinalizer (guarded_eq_ok hcall), rfl⟩

end Access

/-! ## Effects of pools and claims -/

namespace Pool

variable {pool pool' : Pool} {indexes indexes' : ScopeIndexes} {key : ObjectKey}

/-- Taking an outdated declaration back concerns the status of the pool and the index of its scope. -/
theorem retractStale_frame (h : pool.retractStale indexes key = .ok (pool', indexes')) :
    (Object.pool pool).SameBody (.pool pool') ∧ indexes.SameScopes indexes' := by
  rcases retractStale_eq_ok_iff.1 h with
    ⟨-, rfl, rfl⟩ | ⟨_, _, _, -, -, -, ⟨-, rfl, rfl⟩ | ⟨-, hretract, rfl⟩⟩
  · exact ⟨.refl _, .refl _⟩
  · exact ⟨.refl _, .refl _⟩
  · exact ⟨.pool _, ScopeIndexes.sameScopes_of_retract hretract⟩

/-- A declaration is recorded in the status of the pool, whether or not it succeeds. -/
theorem declare_frame (pool : Pool) (indexes : ScopeIndexes) (key : ObjectKey) :
    (Object.pool pool).SameBody (.pool (indexes.declare key pool).1) := by
  unfold ScopeIndexes.declare
  split
  · exact .refl _
  · exact .pool _

/-- Applying a pool concerns its status and the index of its scope, also when it fails half-way. -/
theorem apply_frame {result : Except RegistryError Unit}
    (h : pool.apply indexes = (result, pool', indexes')) :
    (Object.pool pool).SameBody (.pool pool') ∧ indexes.SameScopes indexes' := by
  unfold apply at h
  split at h
  · cases h
    exact ⟨.refl _, .refl _⟩
  · rename_i key hkey
    split at h
    · cases h
      exact ⟨.refl _, .refl _⟩
    · rename_i pool₁ indexes₁ hstale
      obtain ⟨hbody, hscopes⟩ := retractStale_frame hstale
      have hdeclared := declare_frame pool₁ indexes₁ key
      split at h
      · rename_i pool₂ e hdeclare
        cases h
        rw [hdeclare] at hdeclared
        exact ⟨hbody.trans hdeclared, hscopes⟩
      · rename_i pool₂ n indexes₂ hdeclare
        rw [hdeclare] at hdeclared
        have hscopes := hscopes.trans
          (ScopeIndexes.sameScopes_of_declare (congrArg Prod.snd hdeclare))
        have hbody := (hbody.trans hdeclared).trans (Object.SameBody.pool
          (r := pool₂) { pool₂.status with declared := some n.text })
        dsimp only at h
        split at h
        · cases h
          exact ⟨hbody, hscopes⟩
        · cases h
          exact ⟨hbody.trans (.pool _), hscopes⟩

end Pool

namespace Claim

variable {claim claim' : Claim} {indexes indexes' : ScopeIndexes} {access : Access} {r : Registration}

/-- Releasing a network that a claim no longer names concerns its status and the index of its scope. -/
theorem releaseMoved_frame (h : claim.releaseMoved r indexes access = .ok (claim', indexes')) :
    (Object.claim claim).SameBody (.claim claim') ∧ indexes.SameScopes indexes' := by
  obtain ⟨-, ⟨-, rfl, rfl⟩ | ⟨-, hderegister, rfl⟩⟩ := releaseMoved_eq_ok_iff.1 h
  · exact ⟨.refl _, .refl _⟩
  · exact ⟨.claim _, ScopeIndexes.sameScopes_of_deregister hderegister⟩

/-- Applying a claim concerns its status and the index of its scope, also when it fails half-way. -/
theorem apply_frame {result : Except Failure Unit}
    (h : claim.apply indexes access = (result, claim', indexes')) :
    (Object.claim claim).SameBody (.claim claim') ∧ indexes.SameScopes indexes' := by
  unfold apply at h
  split at h
  · cases h
    exact ⟨.refl _, .refl _⟩
  · split at h
    · cases h
      exact ⟨.refl _, .refl _⟩
    · rename_i claim₁ indexes₁ hrelease
      obtain ⟨hbody, hscopes⟩ := releaseMoved_frame hrelease
      split at h
      · cases h
        exact ⟨hbody, hscopes⟩
      · rename_i n indexes₂ hregister
        cases h
        exact ⟨hbody.trans (.claim _), hscopes.trans (ScopeIndexes.sameScopes_of_register hregister)⟩

end Claim

/-! ## Effects of all kinds -/

namespace Controller

variable {c c' : Controller} {o o' : Object} {id : ObjectId}

/-- Applying an effect touches indexes and retry counters, and of the object the status. Only a scope gets
an index that was not there. -/
theorem apply_frame {result : Except Failure Unit} (h : c.apply o = (result, o', c')) :
    o.SameBody o' ∧ c'.access = c.access ∧ c'.queues = c.queues ∧
      (c.indexes.SameScopes c'.indexes ∨
        o.kind = .scope ∧ c'.indexes = c.indexes.ensure o.key) := by
  cases o with
  | tenant t =>
    cases h
    exact ⟨.refl _, rfl, rfl, Or.inl (.refl _)⟩
  | scope s =>
    unfold apply at h
    dsimp only at h
    split at h
    · cases h
      exact ⟨.refl _, rfl, rfl, Or.inr ⟨rfl, rfl⟩⟩
    · cases h
      exact ⟨.refl _, rfl, rfl, Or.inl (.refl _)⟩
  | pool p =>
    obtain ⟨hbody, hscopes⟩ := p.apply_frame (rfl : p.apply c.indexes = _)
    cases h
    exact ⟨hbody, rfl, rfl, Or.inl hscopes⟩
  | claim r =>
    obtain ⟨hbody, hscopes⟩ := r.apply_frame (rfl : r.apply c.indexes c.access = _)
    cases h
    exact ⟨hbody, rfl, rfl, Or.inl hscopes⟩

/-- Undoing an effect touches indexes and retry counters. Only a scope loses its index. -/
theorem undo_frame (h : c.undo o = .ok c') :
    c'.access = c.access ∧ c'.queues = c.queues ∧
      (o.kind ≠ .scope ∧ c.indexes.SameScopes c'.indexes ∨
        o.kind = .scope ∧ c'.indexes = c.indexes.erase o.key) := by
  cases o with
  | tenant _ =>
    cases h
    exact ⟨rfl, rfl, Or.inl ⟨nofun, .refl _⟩⟩
  | scope _ =>
    cases h
    exact ⟨rfl, rfl, Or.inr ⟨rfl, rfl⟩⟩
  | pool p =>
    obtain ⟨indexes', hundo, rfl⟩ := Except.map_eq_ok_iff.1 h
    obtain ⟨key, -, hretract⟩ := Except.bind_eq_ok_iff.1 (Failure.lift_eq_ok_iff.1 hundo)
    exact ⟨rfl, rfl, Or.inl ⟨nofun, ScopeIndexes.sameScopes_of_retract hretract⟩⟩
  | claim r =>
    obtain ⟨indexes', hundo, rfl⟩ := Except.map_eq_ok_iff.1 h
    refine ⟨rfl, rfl, Or.inl ⟨nofun, ?_⟩⟩
    obtain ⟨registration, -, hundo⟩ := Except.bind_eq_ok_iff.1 hundo
    split at hundo
    · split at hundo
      · cases hundo
        exact .refl _
      · cases hundo
    · exact ScopeIndexes.sameScopes_of_deregister hundo

/-! ## Writing back -/

/-- A verdict that is recorded in an object may read the clock, and does nothing else to the controller. -/
theorem recordVerdict_frame (c : Controller) (o : Object) (v : Verdict) :
    ∃ readings, (c.recordVerdict o v).2 = { c with readings } := by
  unfold recordVerdict
  dsimp only
  split
  · exact ⟨_, rfl⟩
  · exact ⟨c.readings, rfl⟩

/-- The delay after a verdict is a matter of the retry counters. -/
theorem delayAfter_frame (c : Controller) (retryName : String) (v : Verdict) :
    ∃ ladder, (c.delayAfter retryName v).2 = { c with ladder } := by
  unfold delayAfter
  split
  · exact ⟨c.ladder, rfl⟩
  · split
    · exact ⟨c.ladder, rfl⟩
    · exact ⟨_, rfl⟩

/-- Saving a status is one write of the store, and leaves the rest of the controller alone. -/
theorem saveStatus_frame (h : c.saveStatus o = .ok c') :
    ∃ store, c.access.store.Written (.note o) store ∧ c' = { c with access := { c.access with store } } := by
  obtain ⟨access, hcall, rfl⟩ := Except.map_eq_ok_iff.1 h
  obtain ⟨hwritten, heq⟩ := Access.written_of_updateStatus hcall
  exact ⟨access.store, hwritten, by rw [← heq]⟩

/-- The registry's finalizer is on the object that is stored then. -/
theorem ensureFinalizer_frame (h : c.ensureFinalizer id o = .ok (o', c')) :
    o.info.hasFinalizer finalizerName = true ∧ o' = o ∧ c' = c ∨
      o' = Store.marked o finalizerName ∧
        ∃ store, c.access.store.Written (.mark id finalizerName) store ∧
          c' = { c with access := { c.access with store } } := by
  unfold ensureFinalizer at h
  split at h
  · rename_i hcarried
    cases h
    exact Or.inl ⟨hcarried, rfl, rfl⟩
  · obtain ⟨access, hcall, h⟩ := Except.bind_eq_ok_iff.1 h
    cases h
    obtain ⟨hwritten, heq⟩ := Access.written_of_addFinalizer hcall
    exact Or.inr ⟨rfl, access.store, hwritten, by rw [← heq]⟩

end Controller

end AddressRegistry
