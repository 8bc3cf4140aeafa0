import AddressRegistry.Proofs.InPlace
import AddressRegistry.Proofs.Store.Writes

/-!
# Writes step by step

`Store.Written` says of a write what everybody relies on. `Store.Step` says all of it: which object is put in
which one's place, what is logged, and under which condition each way is taken (`step_of_perform`). What a run
of writes keeps is proved by cases on it (`run_induction`).

A store changes its objects where they stand, and tells of a change when that is done. The six writes as
programs that do so (`Store.performInPlace`) come to what `Store.perform` says (`performInPlace_comesTo`): one
that fails has changed nothing and told nobody, although the removal of a finalizer takes it off before it
knows whether the object goes. `Store.run` is a run of such programs, refused ones among them.
-/

namespace AddressRegistry

namespace Store

variable {s s' : Store} {w : Write} {id : ObjectId} {o : Object} {f : String}

/-- The object whose specification was replaced: its generation grows. -/
def raised (o : Object) : Object := o.mapInfo fun m => { m with generation := m.generation + 1 }

@[simp] theorem info_created (o : Object) :
    (created o).info = { o.info with generation := 1, deletionRequested := false } :=
  Object.info_mapInfo o _

@[simp] theorem info_raised (o : Object) :
    (raised o).info = { o.info with generation := o.info.generation + 1 } :=
  Object.info_mapInfo o _

/-- What leaves nothing when it is taken off is all that there was. -/
theorem eq_of_mem_of_unmarked (h : (unmarked o f).info.finalizers = []) {f' : String}
    (hf' : f' ∈ o.info.finalizers) : f' = f := by
  rw [info_unmarked, List.filter_eq_nil_iff] at h
  simpa using h f' hf'

/-- Every way in which a write succeeds. -/
inductive Step (s : Store) : Write → Store → Prop
  | created {o : Object} (hnew : s.get? o.id = none) :
    Step s (.create o) (s.write o.id (created o) .created)
  /-- The specification is the one that is stored. -/
  | unchanged {o stored : Object} (hget : s.get? o.id = some stored)
    (hsame : stored.specDiffers o = false) : Step s (.update o) s
  | updated {o stored copied : Object} (hget : s.get? o.id = some stored)
    (hdiffers : stored.specDiffers o = true) (hcopy : stored.copySpec? o = some copied) :
    Step s (.update o) (s.write o.id (raised copied) .specUpdated)
  | noted {o stored noted : Object} (hget : s.get? o.id = some stored)
    (hcopy : stored.copyStatus? o = some noted) :
    Step s (.note o) (s.write o.id noted .statusUpdated)
  /-- Deletion was requested before. -/
  | awaited {id : ObjectId} {stored : Object} (hget : s.get? id = some stored)
    (hheld : stored.info.finalizers ≠ []) (hrequested : stored.info.deletionRequested = true) :
    Step s (.delete id) s
  | condemned {id : ObjectId} {stored : Object} (hget : s.get? id = some stored)
    (hheld : stored.info.finalizers ≠ []) (hnew : stored.info.deletionRequested = false) :
    Step s (.delete id) (s.write id (condemned stored) .deletionRequested)
  | deleted {id : ObjectId} {stored : Object} (hget : s.get? id = some stored)
    (hfree : stored.info.finalizers = []) : Step s (.delete id) (s.remove id)
  /-- The finalizer is there. -/
  | carried {id : ObjectId} {f : String} {stored : Object} (hget : s.get? id = some stored)
    (hcarries : stored.info.hasFinalizer f = true) : Step s (.mark id f) s
  | marked {id : ObjectId} {f : String} {stored : Object} (hget : s.get? id = some stored)
    (hlacks : stored.info.hasFinalizer f = false) :
    Step s (.mark id f) { s with objects := s.objects.insert id (marked stored f) }
  | unmarked {id : ObjectId} {f : String} {stored : Object} (hget : s.get? id = some stored)
    (hstays : stored.info.deletionRequested = true → (unmarked stored f).info.finalizers ≠ []) :
    Step s (.unmark id f) { s with objects := s.objects.insert id (unmarked stored f) }
  /-- The finalizer was the last one of an object that is to be deleted. -/
  | released {id : ObjectId} {f : String} {stored : Object} (hget : s.get? id = some stored)
    (hrequested : stored.info.deletionRequested = true)
    (hlast : (unmarked stored f).info.finalizers = []) : Step s (.unmark id f) (s.remove id)

/-- Storing a new object is one step. -/
theorem step_of_create {answer : Object} (h : s.create o = .ok (answer, s')) : s.Step (.create o) s' := by
  obtain ⟨hnew, rfl, rfl⟩ := create_eq_ok_iff.1 h
  exact .created hnew

/-- An update is one of two steps: the specification is stored already, or it is copied and the generation
grows. -/
theorem step_of_update {answer : Object} (h : s.update o = .ok (answer, s')) : s.Step (.update o) s' := by
  obtain ⟨stored, hfind, h⟩ := Except.bind_eq_ok_iff.1 h
  have hget := find_eq_ok_iff.1 hfind
  split at h
  · rename_i hdiffers
    split at h
    · rename_i copied hcopy
      cases h
      exact .updated hget hdiffers hcopy
    · cases h
  · rename_i hsame
    cases h
    exact .unchanged hget (eq_false_of_ne_true hsame)

/-- A deletion is one of three steps: the object goes, waits already, or begins to wait. -/
theorem step_of_delete (h : s.delete id = .ok s') : s.Step (.delete id) s' := by
  obtain ⟨stored, hfind, h⟩ := Except.bind_eq_ok_iff.1 h
  have hget := find_eq_ok_iff.1 hfind
  split at h
  · rename_i hempty
    cases h
    exact .deleted hget (List.isEmpty_iff.1 hempty)
  · rename_i hempty
    have hheld : stored.info.finalizers ≠ [] := fun h => hempty (List.isEmpty_iff.2 h)
    split at h
    · rename_i hrequested
      cases h
      exact .awaited hget hheld hrequested
    · rename_i hnew
      cases h
      exact .condemned hget hheld (eq_false_of_ne_true hnew)

/-- Replacing a status is one step. -/
theorem step_of_updateStatus (h : s.updateStatus o = .ok s') : s.Step (.note o) s' := by
  obtain ⟨stored, hfind, h⟩ := Except.bind_eq_ok_iff.1 h
  split at h
  · rename_i noted hcopy
    cases h
    exact .noted (find_eq_ok_iff.1 hfind) hcopy
  · cases h

/-- Putting a finalizer on is one of two steps: it is there already or is put there. -/
theorem step_of_addFinalizer (h : s.addFinalizer id f = .ok s') : s.Step (.mark id f) s' := by
  obtain ⟨stored, hfind, h⟩ := Except.bind_eq_ok_iff.1 h
  have hget := find_eq_ok_iff.1 hfind
  split at h
  · rename_i hcarries
    cases h
    exact .carried hget hcarries
  · rename_i hlacks
    cases h
    exact .marked hget (eq_false_of_ne_true hlacks)

/-- Taking a finalizer off is one of two steps: the object stays, or goes with its last finalizer. -/
theorem step_of_removeFinalizer (h : s.removeFinalizer id f = .ok s') : s.Step (.unmark id f) s' := by
  obtain ⟨stored, hfind, h⟩ := Except.bind_eq_ok_iff.1 h
  have hget := find_eq_ok_iff.1 hfind
  dsimp only at h
  split at h
  · rename_i hgoes
    cases h
    obtain ⟨hrequested, hlast⟩ := Bool.and_eq_true_iff.1 hgoes
    exact .released hget hrequested (by rw [info_unmarked]; exact List.isEmpty_iff.1 hlast)
  · rename_i hstays
    cases h
    refine .unmarked hget fun hrequested hlast => hstays ?_
    rw [info_unmarked] at hlast
    rw [hrequested, Bool.true_and]
    exact List.isEmpty_iff.2 hlast

/-- A write that succeeds does so in one of these ways. -/
theorem step_of_perform (h : s.perform w = .ok s') : s.Step w s' := by
  cases w with
  | create o =>
    obtain ⟨answer, hcreate, rfl⟩ := Except.map_eq_ok_iff.1 h
    exact step_of_create (show s.create o = .ok (answer.1, answer.2) from hcreate)
  | update o =>
    obtain ⟨answer, hupdate, rfl⟩ := Except.map_eq_ok_iff.1 h
    exact step_of_update (show s.update o = .ok (answer.1, answer.2) from hupdate)
  | delete id => exact step_of_delete h
  | note o => exact step_of_updateStatus h
  | mark id f => exact step_of_addFinalizer h
  | unmark id f => exact step_of_removeFinalizer h

/-- What is true of every write is true of its steps. -/
theorem Step.written (h : s.Step w s') : s.Written w s' := by
  cases h with
  | created hnew => exact .created hnew
  | unchanged hget _ => exact .kept hget nofun nofun
  | updated hget _ hcopy =>
    have hinfo := Object.info_copySpec? hcopy
    refine .updated hget ?_ ?_ ((Object.id_mapInfo _ _ rfl rfl).trans (Object.id_copySpec? hcopy))
    · rw [info_raised, hinfo]
    · rw [info_raised, hinfo]
  | noted hget hcopy =>
    have hbody := Object.sameBody_of_copyStatus? hcopy
    exact .noted hget hbody.info_eq hbody.id_eq
  | awaited hget _ _ => exact .kept hget nofun nofun
  | condemned hget _ _ => exact .condemned hget
  | @deleted id stored hget hfree =>
    refine .removed (w := .delete id) hget (Or.inl rfl) fun f hf => ?_
    rw [hfree] at hf
    cases hf
  | carried hget hcarries =>
    refine .kept hget (fun f hf => ?_) nofun
    cases hf
    exact hcarries
  | marked hget hlacks => exact .marked hget hlacks
  | unmarked hget _ => exact .unmarked hget
  | @released id f stored hget _ hlast =>
    refine .removed (w := .unmark id f) hget (Or.inr ⟨f, rfl⟩) fun f' hf' => ?_
    rw [eq_of_mem_of_unmarked hlast hf']
    rfl

/-! ## Writes in place -/

/-- Put an object in its place. -/
def putInPlace (id : ObjectId) (o : Object) : EStateM RegistryError Store Unit :=
  modify fun s => { s with objects := s.objects.insert id o }

/-- Remove an object. -/
def dropInPlace (id : ObjectId) : EStateM RegistryError Store Unit :=
  modify fun s => { s with objects := s.objects.erase id }

/-- Tell of a change. -/
def tell (id : ObjectId) (change : Change) : EStateM RegistryError Store Unit :=
  modify fun s => { s with log := ⟨id, change⟩ :: s.log }

/-- Store a new object. -/
def createInPlace (o : Object) : EStateM RegistryError Store Object := do
  let s ← get
  if s.objects.contains o.id then
    throw (.conflict (.object o.id))
  putInPlace o.id (created o)
  tell o.id .created
  return created o

/-- Replace the specification, then let the generation grow. -/
def updateInPlace (o : Object) : EStateM RegistryError Store Object := do
  let stored ← asking fun s => s.find o.id
  if stored.specDiffers o then
    match stored.copySpec? o with
    | some copied => do
      putInPlace o.id copied
      putInPlace o.id (raised copied)
      tell o.id .specUpdated
      return raised copied
    | none => throw (.store (.wrongKind o.id))
  else
    return stored

/-- Request deletion. -/
def deleteInPlace (id : ObjectId) : EStateM RegistryError Store Unit := do
  let stored ← asking fun s => s.find id
  if stored.info.finalizers.isEmpty then
    dropInPlace id
    tell id .deleted
  else if stored.info.deletionRequested then
    return ()
  else
    putInPlace id (condemned stored)
    tell id .deletionRequested

/-- Replace the status. -/
def updateStatusInPlace (o : Object) : EStateM RegistryError Store Unit := do
  let stored ← asking fun s => s.find o.id
  match stored.copyStatus? o with
  | some noted => do
    putInPlace o.id noted
    tell o.id .statusUpdated
  | none => throw (.store (.wrongKind o.id))

/-- Put a finalizer on an object. -/
def addFinalizerInPlace (id : ObjectId) (f : String) : EStateM RegistryError Store Unit := do
  let stored ← asking fun s => s.find id
  if stored.info.hasFinalizer f then
    return ()
  else
    putInPlace id (marked stored f)

/-- Take a finalizer off an object, and then see whether it goes. -/
def removeFinalizerInPlace (id : ObjectId) (f : String) : EStateM RegistryError Store Unit := do
  let stored ← asking fun s => s.find id
  putInPlace id (unmarked stored f)
  if (unmarked stored f).info.deletionRequested && (unmarked stored f).info.finalizers.isEmpty then
    dropInPlace id
    tell id .deleted

/-- Make a write in place. -/
def performInPlace : Write → EStateM RegistryError Store Unit
  | .create o => do
    let _ ← createInPlace o
  | .update o => do
    let _ ← updateInPlace o
  | .delete id => deleteInPlace id
  | .note o => updateStatusInPlace o
  | .mark id f => addFinalizerInPlace id f
  | .unmark id f => removeFinalizerInPlace id f

/-- The creation looks for a stored object first, so it fails before it has changed anything. -/
theorem createInPlace_comesTo (s : Store) (o : Object) : ComesTo (createInPlace o) s (s.create o) := by
  unfold createInPlace create
  exact ComesTo.ite (fun _ => rfl) fun _ => rfl

/-- The update in place raises the generation after the copy, and an update that fails does so before
either. -/
theorem updateInPlace_comesTo (s : Store) (o : Object) : ComesTo (updateInPlace o) s (s.update o) := by
  refine ComesTo.asking_bind fun stored _ => ComesTo.ite (fun _ => ?_) fun _ => rfl
  cases stored.copySpec? o with
  | none => rfl
  | some copied =>
    unfold ComesTo
    show EStateM.Result.ok (raised copied) (⟨(s.objects.insert o.id copied).insert o.id (raised copied),
      ⟨o.id, .specUpdated⟩ :: s.log⟩ : Store) = _
    rw [SortedMap.insert_insert]
    rfl

/-- The deletion in place tells of what it did, and of nothing if the object waited for it already. -/
theorem deleteInPlace_comesTo (s : Store) (id : ObjectId) :
    ComesTo (deleteInPlace id) s ((s.delete id).map fun s' => ((), s')) := by
  unfold delete
  rw [Except.map_bind]
  refine ComesTo.asking_bind fun stored _ => ?_
  cases stored.info.finalizers.isEmpty <;> cases stored.info.deletionRequested <;> rfl

/-- A status that does not fit the stored object is refused before anything is put in its place. -/
theorem updateStatusInPlace_comesTo (s : Store) (o : Object) :
    ComesTo (updateStatusInPlace o) s ((s.updateStatus o).map fun s' => ((), s')) := by
  unfold updateStatus
  rw [Except.map_bind]
  refine ComesTo.asking_bind fun stored _ => ?_
  cases stored.copyStatus? o <;> rfl

/-- A finalizer that is there is not put on again. -/
theorem addFinalizerInPlace_comesTo (s : Store) (id : ObjectId) (f : String) :
    ComesTo (addFinalizerInPlace id f) s ((s.addFinalizer id f).map fun s' => ((), s')) := by
  unfold addFinalizer
  rw [Except.map_bind]
  refine ComesTo.asking_bind fun stored _ => ?_
  cases stored.info.hasFinalizer f <;> rfl

/-- The finalizer comes off first, and the removal overwrites that. Nothing can fail between the two. -/
theorem removeFinalizerInPlace_comesTo (s : Store) (id : ObjectId) (f : String) :
    ComesTo (removeFinalizerInPlace id f) s ((s.removeFinalizer id f).map fun s' => ((), s')) := by
  unfold removeFinalizer
  rw [Except.map_bind]
  refine ComesTo.asking_bind fun stored _ => ?_
  rw [info_unmarked]
  dsimp only
  cases stored.info.deletionRequested && (stored.info.finalizers.filter (· != f)).isEmpty with
  | false => rfl
  | true =>
    unfold ComesTo
    show EStateM.Result.ok () (⟨(s.objects.insert id (unmarked stored f)).erase id,
      ⟨id, .deleted⟩ :: s.log⟩ : Store) = _
    rw [SortedMap.erase_insert]
    rfl

/-- A write in place comes to what the write says: one that fails has changed nothing. -/
theorem performInPlace_comesTo (s : Store) (w : Write) :
    ComesTo (performInPlace w) s ((s.perform w).map fun s' => ((), s')) := by
  cases w with
  | create o => exact (createInPlace_comesTo s o).silent
  | update o => exact (updateInPlace_comesTo s o).silent
  | delete id => exact deleteInPlace_comesTo s id
  | note o => exact updateStatusInPlace_comesTo s o
  | mark id f => exact addFinalizerInPlace_comesTo s id f
  | unmark id f => exact removeFinalizerInPlace_comesTo s id f

/-- Whatever a write in place answers, the store that it leaves is known: the one of the write, or the old
one. -/
theorem performInPlace_eq (s : Store) (w : Write) :
    performInPlace w s = match s.perform w with
      | .ok s' => .ok () s'
      | .error e => .error e s := by
  have h := performInPlace_comesTo s w
  unfold ComesTo at h
  rw [h]
  cases s.perform w <;> rfl

/-- A write in place that fails leaves the store as it was, log included. -/
theorem eq_of_performInPlace_error {e : RegistryError} (h : performInPlace w s = .error e s') : s' = s := by
  rw [performInPlace_eq] at h
  split at h <;> cases h
  rfl

/-- A write in place that succeeds has taken one of the steps. -/
theorem step_of_performInPlace (h : performInPlace w s = .ok () s') : s.Step w s' := by
  rw [performInPlace_eq] at h
  split at h
  · rename_i hperform
    cases h
    exact step_of_perform hperform
  · cases h

/-! ## Runs -/

/-- What a write in place leaves, whatever it ends in. -/
def obey (s : Store) (w : Write) : Store :=
  match performInPlace w s with
  | .ok _ s' => s'
  | .error _ s' => s'

/-- One write after the other. -/
def run (s : Store) (writes : List Write) : Store := writes.foldl obey s

/-- Runs of writes in place are runs of the writes. -/
theorem obey_eq_accept (s : Store) (w : Write) : s.obey w = s.accept w := by
  unfold obey accept
  rw [performInPlace_eq]
  cases s.perform w <;> rfl

/-- A write changes nothing or takes one of the steps. -/
theorem obey_cases (s : Store) (w : Write) : s.obey w = s ∨ s.Step w (s.obey w) := by
  rw [obey_eq_accept]
  unfold accept
  cases h : s.perform w with
  | error e => exact Or.inl rfl
  | ok s' => exact Or.inr (step_of_perform h)

@[simp] theorem run_nil (s : Store) : s.run [] = s := rfl

@[simp] theorem run_cons (s : Store) (w : Write) (writes : List Write) :
    s.run (w :: writes) = (s.obey w).run writes := rfl

/-- What a store has at its start and every step keeps, it has after every run. -/
theorem run_induction {P : Store → Prop} (h : P s) (hstep : ∀ s w s', P s → s.Step w s' → P s')
    (writes : List Write) : P (s.run writes) := by
  induction writes generalizing s with
  | nil => exact h
  | cons w writes ih =>
    refine ih ?_
    rcases s.obey_cases w with hsame | htaken
    · rwa [hsame]
    · exact hstep s w _ h htaken

end Store

end AddressRegistry
