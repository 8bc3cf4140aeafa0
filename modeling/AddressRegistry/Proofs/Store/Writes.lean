import AddressRegistry.Proofs.Store.Contents

/-!
# Writes of a store

Clients and the registry write through the same six calls (`Write`, `Store.perform`). `Store.Written` says
what a call that succeeds does, with one constructor for each way; whatever is said about all writes is
proved by cases on it. A write concerns one object (`Store.Written.get?_of_ne`) and logs changes of this
object only (`Store.Written.log`).
-/

namespace AddressRegistry

/-- A call that writes to a store. -/
inductive Write where
  | create (o : Object)
  /-- Replace the specification of an object. -/
  | update (o : Object)
  /-- Request the deletion of an object. -/
  | delete (id : ObjectId)
  /-- Replace the status of an object. -/
  | note (o : Object)
  /-- Put a finalizer on an object. -/
  | mark (id : ObjectId) (finalizer : String)
  /-- Take a finalizer off an object. -/
  | unmark (id : ObjectId) (finalizer : String)
deriving DecidableEq

/-- The kind and key of the object that a write concerns. -/
def Write.id : Write → ObjectId
  | .create o | .update o | .note o => o.id
  | .delete id | .mark id _ | .unmark id _ => id

namespace Store

/-- Make a write. -/
def perform (s : Store) : Write → Except RegistryError Store
  | .create o => (s.create o).map (·.2)
  | .update o => (s.update o).map (·.2)
  | .delete id => s.delete id
  | .note o => s.updateStatus o
  | .mark id finalizer => s.addFinalizer id finalizer
  | .unmark id finalizer => s.removeFinalizer id finalizer

/-- The store after a write; one that is refused changes nothing. -/
def accept (s : Store) (w : Write) : Store := (s.perform w).toOption.getD s

/-- The object whose deletion is requested. -/
def condemned (o : Object) : Object := o.mapInfo fun m => { m with deletionRequested := true }

/-- The object without a finalizer. -/
def unmarked (o : Object) (finalizer : String) : Object :=
  o.mapInfo fun m => { m with finalizers := o.info.finalizers.filter (· != finalizer) }

/-- Requesting the deletion of an object does not rename it. -/
theorem id_condemned (o : Object) : (condemned o).id = o.id := by
  cases o <;> rfl

/-- Taking a finalizer off does not rename an object. -/
theorem id_unmarked (o : Object) (finalizer : String) : (unmarked o finalizer).id = o.id := by
  cases o <;> rfl

@[simp] theorem info_marked (o : Object) (finalizer : String) :
    (marked o finalizer).info = { o.info with finalizers := o.info.finalizers ++ [finalizer] } :=
  Object.info_mapInfo o _

@[simp] theorem info_condemned (o : Object) :
    (condemned o).info = { o.info with deletionRequested := true } :=
  Object.info_mapInfo o _

@[simp] theorem info_unmarked (o : Object) (finalizer : String) :
    (unmarked o finalizer).info
      = { o.info with finalizers := o.info.finalizers.filter (· != finalizer) } :=
  Object.info_mapInfo o _

/-- What a write that succeeds does. -/
inductive Written (s : Store) : Write → Store → Prop
  /-- There is nothing to change; a finalizer that was to be put on is there. -/
  | kept {w : Write} {stored : Object} (hget : s.get? w.id = some stored)
    (hcarried : ∀ f, w = .mark w.id f → stored.info.hasFinalizer f = true)
    (hw : ∀ f, w ≠ .unmark w.id f) : Written s w s
  | created {o : Object} (hnew : s.get? o.id = none) :
    Written s (.create o) (s.write o.id (created o) .created)
  | updated {o o' stored : Object} (hget : s.get? o.id = some stored)
    (hfinalizers : o'.info.finalizers = stored.info.finalizers)
    (hdeletion : o'.info.deletionRequested = stored.info.deletionRequested) (hid : o'.id = stored.id) :
    Written s (.update o) (s.write o.id o' .specUpdated)
  | condemned {id : ObjectId} {stored : Object} (hget : s.get? id = some stored) :
    Written s (.delete id) (s.write id (condemned stored) .deletionRequested)
  | noted {o o' stored : Object} (hget : s.get? o.id = some stored) (hinfo : o'.info = stored.info)
    (hid : o'.id = stored.id) : Written s (.note o) (s.write o.id o' .statusUpdated)
  | marked {id : ObjectId} {f : String} {stored : Object} (hget : s.get? id = some stored)
    (hlacks : stored.info.hasFinalizer f = false) :
    Written s (.mark id f) { s with objects := s.objects.insert id (marked stored f) }
  | unmarked {id : ObjectId} {f : String} {stored : Object} (hget : s.get? id = some stored) :
    Written s (.unmark id f) { s with objects := s.objects.insert id (unmarked stored f) }
  /-- The object goes when nothing holds it but, at most, the finalizer that is taken off. -/
  | removed {w : Write} {stored : Object} (hget : s.get? w.id = some stored)
    (hw : w = .delete w.id ∨ ∃ f, w = .unmark w.id f)
    (hfree : ∀ f ∈ stored.info.finalizers, w = .unmark w.id f) : Written s w (s.remove w.id)

variable {s s' : Store} {w : Write} {id : ObjectId} {o : Object} {f : String}

/-- A successful update does what `Written` says. -/
theorem written_of_update {answer : Object} (h : s.update o = .ok (answer, s')) :
    s.Written (.update o) s' := by
  obtain ⟨stored, hfind, h⟩ := Except.bind_eq_ok_iff.1 h
  have hget := find_eq_ok_iff.1 hfind
  split at h
  · split at h
    · rename_i copied hcopy
      cases h
      have hinfo : copied.info = stored.info := Object.info_copySpec? hcopy
      refine .updated hget ?_ ?_ ?_
      · rw [Object.info_mapInfo, hinfo]
      · rw [Object.info_mapInfo, hinfo]
      · exact (Object.id_mapInfo _ _ rfl rfl).trans (Object.id_copySpec? hcopy)
    · cases h
  · cases h
    exact .kept hget nofun nofun

/-- A successful deletion does what `Written` says: the object goes or its deletion is requested. -/
theorem written_of_delete (h : s.delete id = .ok s') : s.Written (.delete id) s' := by
  obtain ⟨stored, hfind, h⟩ := Except.bind_eq_ok_iff.1 h
  have hget := find_eq_ok_iff.1 hfind
  split at h
  · rename_i hempty
    cases h
    refine .removed (w := .delete id) hget (Or.inl rfl) fun f hf => ?_
    rw [List.isEmpty_iff.1 hempty] at hf
    cases hf
  · split at h
    · cases h
      exact .kept hget nofun nofun
    · cases h
      exact .condemned hget

/-- A successful status write does what `Written` says. -/
theorem written_of_updateStatus (h : s.updateStatus o = .ok s') : s.Written (.note o) s' := by
  obtain ⟨stored, hfind, h⟩ := Except.bind_eq_ok_iff.1 h
  split at h
  · rename_i noted hcopy
    cases h
    have hbody := Object.sameBody_of_copyStatus? hcopy
    exact .noted (find_eq_ok_iff.1 hfind) hbody.info_eq hbody.id_eq
  · cases h

/-- A finalizer is put on, or was there. -/
theorem written_of_addFinalizer (h : s.addFinalizer id f = .ok s') : s.Written (.mark id f) s' := by
  obtain ⟨stored, hfind, -⟩ := Except.bind_eq_ok_iff.1 h
  have hget := find_eq_ok_iff.1 hfind
  cases hcarried : stored.info.hasFinalizer f with
  | true =>
    have hsame : s.addFinalizer id f = .ok s := by
      unfold addFinalizer
      rw [hfind]
      exact if_pos hcarried
    cases h.symm.trans hsame
    refine .kept hget (fun f' hf' => ?_) nofun
    cases hf'
    exact hcarried
  | false =>
    cases h.symm.trans (addFinalizer_of_get? hget hcarried)
    exact .marked hget hcarried

/-- A finalizer comes off, and with the last one an object that waits for it goes. -/
theorem written_of_removeFinalizer (h : s.removeFinalizer id f = .ok s') :
    s.Written (.unmark id f) s' := by
  obtain ⟨stored, hfind, -⟩ := Except.bind_eq_ok_iff.1 h
  have hget := find_eq_ok_iff.1 hfind
  rw [removeFinalizer_of_get? f hget] at h
  split at h
  · rename_i hfree
    cases h
    refine .removed (w := .unmark id f) hget (Or.inr ⟨f, rfl⟩) fun f' hf' => ?_
    have hleft := List.isEmpty_iff.1 (Bool.and_eq_true_iff.1 hfree).2
    rw [List.filter_eq_nil_iff] at hleft
    have heq : f' = f := by simpa using hleft f' hf'
    rw [heq]
    rfl
  · cases h
    exact .unmarked hget

/-- Each of the six calls, when it succeeds, does what `Written` says. -/
theorem written_of_perform (h : s.perform w = .ok s') : s.Written w s' := by
  cases w with
  | create o =>
    obtain ⟨answer, hcreate, rfl⟩ := Except.map_eq_ok_iff.1 h
    obtain ⟨hnew, hanswer, hs'⟩ := create_eq_ok_iff.1 (show s.create o = .ok (answer.1, answer.2) from hcreate)
    rw [hs', hanswer]
    exact .created hnew
  | update o =>
    obtain ⟨answer, hupdate, rfl⟩ := Except.map_eq_ok_iff.1 h
    exact written_of_update (show s.update o = .ok (answer.1, answer.2) from hupdate)
  | delete id => exact written_of_delete h
  | note o => exact written_of_updateStatus h
  | mark id f => exact written_of_addFinalizer h
  | unmark id f => exact written_of_removeFinalizer h

/-- A write changes nothing or does what it says. -/
theorem accept_cases (s : Store) (w : Write) : s.accept w = s ∨ s.Written w (s.accept w) := by
  unfold accept
  cases h : s.perform w with
  | error e => exact Or.inl rfl
  | ok s' => exact Or.inr (written_of_perform h)

/-! ## What every write keeps -/

/-- A write with an event puts its object in its place. -/
theorem get?_write_self (s : Store) (id : ObjectId) (o : Object) (change : Change) :
    (s.write id o change).get? id = some o :=
  SortedMap.get?_insert_self _ _ _

/-- A write with an event leaves the other places alone. -/
theorem get?_write_of_ne (s : Store) (o : Object) (change : Change) {id id' : ObjectId} (h : id' ≠ id) :
    (s.write id o change).get? id' = s.get? id' :=
  SortedMap.get?_insert_of_ne _ h

/-- A removal leaves its place empty. -/
theorem get?_remove_self (s : Store) (id : ObjectId) : (s.remove id).get? id = none :=
  SortedMap.get?_erase_self _ _

/-- Other objects are left alone. -/
theorem Written.get?_of_ne (h : s.Written w s') (hne : id ≠ w.id) : s'.get? id = s.get? id := by
  cases h with
  | kept _ _ _ => rfl
  | created _ => exact get?_write_of_ne s _ _ hne
  | updated _ _ _ _ => exact get?_write_of_ne s _ _ hne
  | condemned _ => exact get?_write_of_ne s _ _ hne
  | noted _ _ _ => exact get?_write_of_ne s _ _ hne
  | marked _ _ => exact SortedMap.get?_insert_of_ne _ hne
  | unmarked _ => exact SortedMap.get?_insert_of_ne _ hne
  | removed _ _ _ => exact SortedMap.get?_erase_of_ne hne

/-- Only changes of the object are logged. -/
theorem Written.log (h : s.Written w s') :
    ∃ events : List Event, s'.log = events ++ s.log ∧ ∀ event ∈ events, event.id = w.id := by
  have hone : ∀ change, ∀ event ∈ [(⟨w.id, change⟩ : Event)], event.id = w.id := by
    intro change event hevent
    rw [List.mem_singleton.1 hevent]
  cases h with
  | kept _ _ _ => exact ⟨[], rfl, nofun⟩
  | created _ => exact ⟨_, rfl, hone .created⟩
  | updated _ _ _ _ => exact ⟨_, rfl, hone .specUpdated⟩
  | condemned _ => exact ⟨_, rfl, hone .deletionRequested⟩
  | noted _ _ _ => exact ⟨_, rfl, hone .statusUpdated⟩
  | marked _ _ => exact ⟨[], rfl, nofun⟩
  | unmarked _ => exact ⟨[], rfl, nofun⟩
  | removed _ _ _ => exact ⟨_, rfl, hone .deleted⟩

/-- Every object still stands under its own kind and key. -/
theorem Written.keyed (h : s.Written w s') (hkeyed : s.Keyed) : s'.Keyed := by
  intro id o hget
  by_cases hid : id = w.id
  · subst hid
    cases h with
    | kept _ _ _ => exact hkeyed _ _ hget
    | created _ =>
      cases hget.symm.trans (get?_write_self _ _ _ _)
      exact id_created _
    | updated hstored _ _ hid =>
      cases hget.symm.trans (get?_write_self _ _ _ _)
      exact hid.trans (hkeyed _ _ hstored)
    | condemned hstored =>
      cases hget.symm.trans (get?_write_self _ _ _ _)
      exact (id_condemned _).trans (hkeyed _ _ hstored)
    | noted hstored _ hid =>
      cases hget.symm.trans (get?_write_self _ _ _ _)
      exact hid.trans (hkeyed _ _ hstored)
    | marked hstored _ =>
      cases hget.symm.trans (SortedMap.get?_insert_self _ _ _)
      exact (id_marked _ _).trans (hkeyed _ _ hstored)
    | unmarked hstored =>
      cases hget.symm.trans (SortedMap.get?_insert_self _ _ _)
      exact (id_unmarked _ _).trans (hkeyed _ _ hstored)
    | removed _ _ _ => cases hget.symm.trans (get?_remove_self _ _)
  · exact hkeyed id o ((h.get?_of_ne hid).symm.trans hget)

/-- Every write of a client keeps the objects under their own kinds and keys, a refused one trivially. -/
theorem Keyed.accept (h : s.Keyed) (w : Write) : (s.accept w).Keyed := by
  rcases s.accept_cases w with h' | h'
  · rwa [h']
  · exact h'.keyed h

end Store

end AddressRegistry
