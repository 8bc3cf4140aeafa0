import AddressRegistry.Proofs.Outcome
import AddressRegistry.Store.Access

/-!
# What a store holds

The view of a store is the partial function `Store.get?`. For each operation a lemma says when it succeeds
in that view, and which object it writes or removes. A store is `Store.Keyed` when every object stands
under its own kind and key.

Writing a status back succeeds when the object is stored with the same metadata and specification
(`updateStatus_of_sameBody`), and that is all that a pass over an object ever changes (`SameBody`).
-/

namespace AddressRegistry

/-! ## Parts of an object -/

namespace Object

variable {o o' o'' : Object}

/-- Editing the metadata keeps the kind. -/
@[simp] theorem kind_mapInfo (o : Object) (f : Metadata → Metadata) : (o.mapInfo f).kind = o.kind := by
  cases o <;> rfl

/-- Editing the metadata edits the metadata. -/
@[simp] theorem info_mapInfo (o : Object) (f : Metadata → Metadata) :
    (o.mapInfo f).info = f o.info := by
  cases o <;> rfl

/-- An object is renamed only by changing its namespace or name. -/
theorem id_mapInfo (o : Object) (f : Metadata → Metadata) (hspace : (f o.info).space = o.info.space)
    (hname : (f o.info).name = o.info.name) : (o.mapInfo f).id = o.id := by
  unfold id key Metadata.key
  rw [kind_mapInfo, info_mapInfo, hspace, hname]

/-- Two objects differ in their status at most. -/
inductive SameBody : Object → Object → Prop
  | tenant {r : Tenant} (status : Status) : SameBody (tenant r) (tenant { r with status })
  | scope {r : Scope} (status : Status) : SameBody (scope r) (scope { r with status })
  | pool {r : Pool} (status : PoolStatus) : SameBody (pool r) (pool { r with status })
  | claim {r : Claim} (status : ClaimStatus) : SameBody (claim r) (claim { r with status })

/-- An object has its own metadata and specification. -/
theorem SameBody.refl (o : Object) : o.SameBody o := by
  cases o with
  | tenant r => exact .tenant r.status
  | scope r => exact .scope r.status
  | pool r => exact .pool r.status
  | claim r => exact .claim r.status

/-- Changing the common status leaves metadata and specification alone. -/
theorem SameBody.mapStatus (h : o.SameBody o') (f : Status → Status) : o.SameBody (o'.mapStatus f) := by
  cases h with
  | tenant _ => exact .tenant _
  | scope _ => exact .scope _
  | pool _ => exact .pool _
  | claim _ => exact .claim _

/-- Differing in the status at most is transitive. -/
theorem SameBody.trans (h : o.SameBody o') (h' : o'.SameBody o'') : o.SameBody o'' := by
  cases h <;> cases h' <;> constructor

/-- A status does not decide the kind. -/
theorem SameBody.kind_eq (h : o.SameBody o') : o'.kind = o.kind := by
  cases h <;> rfl

/-- A status is no part of the metadata. -/
theorem SameBody.info_eq (h : o.SameBody o') : o'.info = o.info := by
  cases h <;> rfl

/-- When a status is copied between objects that differ in it at most, the second of them comes out. -/
theorem SameBody.copyStatus? (h : o.SameBody o') : o.copyStatus? o' = some o' := by
  cases h <;> rfl

/-- A status does not name the object. -/
theorem SameBody.id_eq (h : o.SameBody o') : o'.id = o.id := by
  unfold id key
  rw [h.kind_eq, h.info_eq]

/-- Copying a specification does not touch the name. -/
theorem id_copySpec? (h : o.copySpec? o' = some o'') : o''.id = o.id := by
  cases o <;> cases o' <;> cases h <;> rfl

/-- Copying a specification does not touch the metadata. -/
theorem info_copySpec? (h : o.copySpec? o' = some o'') : o''.info = o.info := by
  cases o <;> cases o' <;> cases h <;> rfl

/-- Copying a status changes the status at most. -/
theorem sameBody_of_copyStatus? (h : o.copyStatus? o' = some o'') : o.SameBody o'' := by
  cases o <;> cases o' <;> cases h <;> constructor

end Object

/-! ## Operations -/

namespace Store

variable {s s' : Store} {id : ObjectId} {o o' : Object} {finalizer : String}

/-- Every object stands under its own kind and key. -/
def Keyed (s : Store) : Prop := ∀ id o, s.get? id = some o → o.id = id

/-- An object can be found when it is stored, and the answer is the stored one. -/
theorem find_eq_ok_iff : s.find id = .ok o ↔ s.get? id = some o := by
  unfold find
  cases s.get? id <;> simp

/-- The object that a creation stores: it starts with generation 1 and without a deletion request. -/
def created (o : Object) : Object :=
  o.mapInfo fun m => { m with generation := 1, deletionRequested := false }

/-- Creation does not rename an object. -/
theorem id_created (o : Object) : (created o).id = o.id := by
  cases o <;> rfl

/-- A creation succeeds exactly where no object is stored, and puts the new one there. -/
theorem create_eq_ok_iff :
    s.create o = .ok (o', s') ↔
      s.get? o.id = none ∧ o' = created o ∧ s' = s.write o.id o' .created := by
  unfold create SortedMap.contains
  change (if (s.get? o.id).isSome then _ else _) = _ ↔ _
  cases s.get? o.id with
  | some _ => exact iff_of_false nofun (fun h => nomatch h.1)
  | none =>
    show Except.ok (created o, s.write o.id (created o) .created) = _ ↔ _
    rw [Except.ok.injEq, Prod.mk.injEq]
    constructor
    · rintro ⟨rfl, rfl⟩
      exact ⟨rfl, rfl, rfl⟩
    · rintro ⟨-, rfl, rfl⟩
      exact ⟨rfl, rfl⟩

/-- An update leaves the store as it was or replaces the specification of the stored object. -/
theorem update_eq_ok (h : s.update o = .ok (o', s')) :
    s' = s ∨ ∃ stored copied, s.get? o.id = some stored ∧ stored.copySpec? o = some copied ∧
      o' = copied.mapInfo (fun m => { m with generation := m.generation + 1 }) ∧
        s' = s.write o.id o' .specUpdated := by
  obtain ⟨stored, hfind, h⟩ := Except.bind_eq_ok_iff.1 h
  split at h
  · split at h
    · rename_i copied hcopy
      cases h
      exact Or.inr ⟨stored, copied, find_eq_ok_iff.1 hfind, hcopy, rfl, rfl⟩
    · cases h
  · cases h
    exact Or.inl rfl

/-- A deletion removes an object without finalizers and marks any other. -/
theorem delete_eq_ok (h : s.delete id = .ok s') :
    s' = s ∨ s' = s.remove id ∨ ∃ stored, s.get? id = some stored ∧
      s' = s.write id (stored.mapInfo fun m => { m with deletionRequested := true })
        .deletionRequested := by
  obtain ⟨stored, hfind, h⟩ := Except.bind_eq_ok_iff.1 h
  split at h
  · cases h
    exact Or.inr (Or.inl rfl)
  · split at h
    · cases h
      exact Or.inl rfl
    · cases h
      exact Or.inr (Or.inr ⟨stored, find_eq_ok_iff.1 hfind, rfl⟩)

/-- The status of an object that is stored with the same body can be written. -/
theorem updateStatus_of_sameBody {stored : Object} (hget : s.get? o.id = some stored)
    (hbody : stored.SameBody o) : s.updateStatus o = .ok (s.write o.id o .statusUpdated) := by
  unfold updateStatus
  rw [find_eq_ok_iff.2 hget]
  dsimp only [bind, Except.bind]
  rw [hbody.copyStatus?]
  rfl

/-- The object with one more finalizer. -/
def marked (o : Object) (finalizer : String) : Object :=
  o.mapInfo fun m => { m with finalizers := m.finalizers ++ [finalizer] }

/-- Putting a finalizer on does not rename an object. -/
theorem id_marked (o : Object) (finalizer : String) : (marked o finalizer).id = o.id := by
  cases o <;> rfl

/-- A finalizer that an object lacks can be put on, and no event says so. -/
theorem addFinalizer_of_get? (hget : s.get? id = some o)
    (hfinalizer : o.info.hasFinalizer finalizer = false) :
    s.addFinalizer id finalizer
      = .ok { s with objects := s.objects.insert id (marked o finalizer) } := by
  unfold addFinalizer
  rw [find_eq_ok_iff.2 hget]
  show (if o.info.hasFinalizer finalizer then _ else _) = _
  rw [hfinalizer]
  rfl

/-- Taking a finalizer off removes an object that is to be deleted and has no other one. -/
theorem removeFinalizer_of_get? (finalizer : String) (hget : s.get? id = some o) :
    s.removeFinalizer id finalizer =
      .ok (if o.info.deletionRequested && (o.info.finalizers.filter (· != finalizer)).isEmpty then
          s.remove id
        else
          { s with objects := s.objects.insert id (o.mapInfo fun m =>
            { m with finalizers := o.info.finalizers.filter (· != finalizer) }) }) := by
  unfold removeFinalizer
  rw [find_eq_ok_iff.2 hget]
  show (if o.info.deletionRequested && _ then _ else _) = _
  split <;> rfl

end Store

end AddressRegistry
