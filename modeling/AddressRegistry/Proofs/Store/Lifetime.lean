import AddressRegistry.Proofs.Store.Steps

/-!
# Lifetimes of stored objects

Each write has one place, the kind and key of the object that it concerns. `Write.Turns` says what it may make
of what stands there, and every step of the store keeps to it (`Store.Step.turns`); the rest of the store is
left alone. What an object cannot lose while it is stored is read off from there: the request for its deletion
and its generation (`Store.Stays.precedes`), and, while it has finalizers, its place
(`Write.Turns.released_of_held`).

Objects that wait for their deletion are held by a finalizer (`Store.Held`), because the last one to be taken
off takes the object with it.
-/

namespace AddressRegistry

/-! ## Objects with another specification -/

namespace Object

/-- Two objects differ in their specification and generation at most. -/
inductive SameButSpec : Object → Object → Prop
  | tenant {r : Tenant} (generation : Nat) (spec : TenantSpec) :
    SameButSpec (tenant r) (tenant { r with info := { r.info with generation }, spec })
  | scope {r : Scope} (generation : Nat) (spec : ScopeSpec) :
    SameButSpec (scope r) (scope { r with info := { r.info with generation }, spec })
  | pool {r : Pool} (generation : Nat) (spec : PoolSpec) :
    SameButSpec (pool r) (pool { r with info := { r.info with generation }, spec })
  | claim {r : Claim} (generation : Nat) (spec : ClaimSpec) :
    SameButSpec (claim r) (claim { r with info := { r.info with generation }, spec })

/-- An update may change the specification, and with it the generation, which goes up; the rest stays as
stored. -/
theorem sameButSpec_of_copySpec? {o o' o'' : Object} (h : o.copySpec? o' = some o'') :
    o.SameButSpec (Store.raised o'') := by
  cases o <;> cases o' <;> cases h <;> constructor

/-- What an object keeps while it is stored: nothing stops a deletion that was requested, and no generation
comes back. -/
structure Precedes (o o' : Object) : Prop where
  requested : o.info.deletionRequested = true → o'.info.deletionRequested = true
  generation_le : o.info.generation ≤ o'.info.generation

/-- An object precedes itself. -/
theorem Precedes.refl (o : Object) : o.Precedes o := ⟨fun h => h, Nat.le_refl _⟩

/-- What is true of two successive changes is true of both together. -/
theorem Precedes.trans {o o' o'' : Object} (h : o.Precedes o') (h' : o'.Precedes o'') : o.Precedes o'' :=
  ⟨fun hrequested => h'.requested (h.requested hrequested), Nat.le_trans h.generation_le h'.generation_le⟩

/-- The object with other finalizers. -/
def withFinalizers (o : Object) (finalizers : List String) : Object :=
  o.mapInfo fun m => { m with finalizers }

/-- The description of an object with other finalizers differs in the finalizers only. -/
@[simp] theorem info_withFinalizers (o : Object) (finalizers : List String) :
    (o.withFinalizers finalizers).info = { o.info with finalizers } :=
  info_mapInfo o _

end Object

/-- Putting a finalizer on is a change of the finalizers, at their end. -/
theorem Store.marked_eq_withFinalizers (o : Object) (f : String) :
    marked o f = o.withFinalizers (o.info.finalizers ++ [f]) := by
  cases o <;> rfl

/-! ## What a write may do -/

/-- What a write may make of what stands in its place. -/
inductive Write.Turns : Write → Option Object → Option Object → Prop
  /-- The write is refused, or there is nothing to change. -/
  | same (w : Write) (place : Option Object) : Turns w place place
  | created (o : Object) : Turns (.create o) none (some (Store.created o))
  | updated (o : Object) {stored raised : Object} (hspec : stored.SameButSpec raised)
    (hraised : raised.info.generation = stored.info.generation + 1) :
    Turns (.update o) (some stored) (some raised)
  | noted (o : Object) {stored noted : Object} (hbody : stored.SameBody noted) :
    Turns (.note o) (some stored) (some noted)
  | condemned (id : ObjectId) {stored : Object} (hheld : stored.info.finalizers ≠ []) :
    Turns (.delete id) (some stored) (some (Store.condemned stored))
  | deleted (id : ObjectId) {stored : Object} (hfree : stored.info.finalizers = []) :
    Turns (.delete id) (some stored) none
  | marked (id : ObjectId) (f : String) (stored : Object) :
    Turns (.mark id f) (some stored) (some (stored.withFinalizers (stored.info.finalizers ++ [f])))
  | unmarked (id : ObjectId) (f : String) (stored : Object) :
    Turns (.unmark id f) (some stored)
      (some (stored.withFinalizers (stored.info.finalizers.filter (· != f))))
  | released (id : ObjectId) {f : String} {stored : Object}
    (hrequested : stored.info.deletionRequested = true)
    (hlast : ∀ f' ∈ stored.info.finalizers, f' = f) : Turns (.unmark id f) (some stored) none

namespace Write.Turns

variable {w : Write} {o o' : Object} {place : Option Object}

/-- An object with finalizers goes with the last of them, when that was asked for. -/
theorem released_of_held (h : w.Turns (some o) none) (hheld : o.info.finalizers ≠ []) :
    o.info.deletionRequested = true ∧
      ∃ f, w = .unmark w.id f ∧ ∀ f' ∈ o.info.finalizers, f' = f := by
  cases h with
  | deleted _ hfree => exact absurd hfree hheld
  | released _ hrequested hlast => exact ⟨hrequested, _, rfl, hlast⟩

/-- While an object keeps its place, a write neither takes the request for its deletion back nor lowers its
generation. -/
theorem precedes (h : w.Turns (some o) (some o')) : o.Precedes o' := by
  cases h with
  | same => exact .refl o
  | updated _ hspec hraised =>
    refine ⟨fun hrequested => ?_, by omega⟩
    cases hspec <;> exact hrequested
  | noted _ hbody => exact ⟨fun h => hbody.info_eq ▸ h, Nat.le_of_eq (by rw [hbody.info_eq])⟩
  | condemned _ _ => exact ⟨fun _ => by simp, Nat.le_of_eq (by simp)⟩
  | marked _ _ _ => exact ⟨fun h => by simpa using h, Nat.le_of_eq (by simp)⟩
  | unmarked _ _ _ => exact ⟨fun h => by simpa using h, Nat.le_of_eq (by simp)⟩

end Write.Turns

namespace Store

variable {s s' : Store} {w : Write} {id : ObjectId} {o o' : Object}

/-- A write with an event behaves as its place says, since the event goes to the log. -/
theorem turns_write {place : Option Object} (hget : s.get? w.id = place) (h : w.Turns place (some o))
    (change : Change) : w.Turns (s.get? w.id) ((s.write w.id o change).get? w.id) := by
  rw [hget, get?_write_self]
  exact h

/-- Finalizers are changed without an event. -/
theorem turns_put {place : Option Object} (hget : s.get? w.id = place) (h : w.Turns place (some o)) :
    w.Turns (s.get? w.id) ((s.objects.insert w.id o).get? w.id) := by
  rw [hget, SortedMap.get?_insert_self]
  exact h

/-- A removal clears its place. -/
theorem turns_remove {place : Option Object} (hget : s.get? w.id = place) (h : w.Turns place none) :
    w.Turns (s.get? w.id) ((s.remove w.id).get? w.id) := by
  rw [hget, get?_remove_self]
  exact h

/-- Each step of the store makes of its place what the write may make of it. One case for each way in which
a write can be accepted or refused. -/
theorem Step.turns (h : s.Step w s') : w.Turns (s.get? w.id) (s'.get? w.id) := by
  cases h with
  | unchanged _ _ => exact .same _ _
  | awaited _ _ _ => exact .same _ _
  | carried _ _ => exact .same _ _
  | @created o hnew => exact turns_write (w := .create o) hnew (.created o) .created
  | @updated o stored copied hget _ hcopy =>
    have hraised : (raised copied).info.generation = stored.info.generation + 1 := by
      rw [info_raised, Object.info_copySpec? hcopy]
    exact turns_write (w := .update o) hget (.updated o (Object.sameButSpec_of_copySpec? hcopy) hraised)
      .specUpdated
  | @noted o stored noted hget hcopy =>
    exact turns_write (w := .note o) hget (.noted o (Object.sameBody_of_copyStatus? hcopy)) .statusUpdated
  | @condemned id stored hget hheld _ =>
    exact turns_write (w := .delete id) hget (.condemned id hheld) .deletionRequested
  | @deleted id stored hget hfree => exact turns_remove (w := .delete id) hget (.deleted id hfree)
  | @marked id f stored hget _ =>
    rw [marked_eq_withFinalizers]
    exact turns_put (w := .mark id f) hget (.marked id f stored)
  | @unmarked id f stored hget _ => exact turns_put (w := .unmark id f) hget (.unmarked id f stored)
  | @released id f stored hget hrequested hlast =>
    exact turns_remove (w := .unmark id f) hget
      (.released id hrequested fun f' => eq_of_mem_of_unmarked hlast)

/-- A write keeps to what it may do, refused or not. -/
theorem turns_obey (s : Store) (w : Write) : w.Turns (s.get? w.id) ((s.obey w).get? w.id) := by
  rcases s.obey_cases w with h | h
  · rw [h]
    exact .same _ _
  · exact h.turns

/-- A write leaves all places but its own alone. -/
theorem get?_obey_of_ne (s : Store) (h : id ≠ w.id) : (s.obey w).get? id = s.get? id := by
  rcases s.obey_cases w with hsame | hstep
  · rw [hsame]
  · exact hstep.written.get?_of_ne h

/-! ## Objects that wait for their deletion -/

/-- Every object that is to be deleted has a finalizer. -/
def Held (s : Store) : Prop :=
  ∀ id o, s.get? id = some o → o.info.deletionRequested = true → o.info.finalizers ≠ []

/-- No object waits for its deletion in an empty store. -/
theorem held_empty : empty.Held := fun _ _ => nofun

/-- An object that is put in is held, if it waits for its deletion, by one of its own finalizers. -/
theorem Held.insert {objects : SortedMap ObjectId Object} {log : List Event} (h : s.Held)
    (hobjects : objects = s.objects.insert id o)
    (hheld : o.info.deletionRequested = true → o.info.finalizers ≠ []) : Held ⟨objects, log⟩ := by
  subst hobjects
  intro id' o' hget
  by_cases hid : id' = id
  · subst hid
    cases (SortedMap.get?_insert_self s.objects id' o).symm.trans hget
    exact hheld
  · exact h id' o' ((SortedMap.get?_insert_of_ne _ hid).symm.trans hget)

/-- Removing an object leaves the others held. -/
theorem Held.remove (h : s.Held) (id : ObjectId) : (s.remove id).Held := by
  intro id' o' hget
  by_cases hid : id' = id
  · subst hid
    cases (get?_remove_self s id').symm.trans hget
  · exact h id' o' ((SortedMap.get?_erase_of_ne hid).symm.trans hget)

/-- Every step keeps held what waits for its deletion: a deletion is only requested of an object that has
finalizers, and taking the last one off removes the object. -/
theorem Held.step (h : s.Held) (hstep : s.Step w s') : s'.Held := by
  cases hstep with
  | unchanged _ _ => exact h
  | awaited _ _ _ => exact h
  | carried _ _ => exact h
  | created _ => exact h.insert rfl (by simp)
  | updated hget _ hcopy =>
    refine h.insert rfl ?_
    rw [info_raised, Object.info_copySpec? hcopy]
    exact h _ _ hget
  | noted hget hcopy =>
    refine h.insert rfl ?_
    rw [(Object.sameBody_of_copyStatus? hcopy).info_eq]
    exact h _ _ hget
  | condemned _ hheld _ => exact h.insert rfl (by simpa using hheld)
  | marked _ _ => exact h.insert rfl (by simp)
  | unmarked _ hstays =>
    refine h.insert rfl ?_
    rw [info_unmarked] at hstays ⊢
    exact hstays
  | deleted _ _ => exact h.remove _
  | released _ _ _ => exact h.remove _

/-! ## Lifetimes -/

/-- An object is stored all through a run. -/
def Stays (s : Store) (id : ObjectId) (writes : List Write) : Prop :=
  ∀ before, before <+: writes → ∃ o, (s.run before).get? id = some o

/-- An object that stays during a run stays during what follows its first write. -/
theorem Stays.tail {writes : List Write} (h : s.Stays id (w :: writes)) : (s.obey w).Stays id writes :=
  fun before hbefore => h (w :: before) ((List.prefix_cons_inj w).2 hbefore)

/-- While an object stays in the store, the request for its deletion stays and its generation does not fall,
by induction on the run from its first write on. -/
theorem Stays.precedes {writes : List Write} (h : s.Stays id writes) (hget : s.get? id = some o)
    (hget' : (s.run writes).get? id = some o') : o.Precedes o' := by
  induction writes generalizing s o with
  | nil =>
    cases hget.symm.trans hget'
    exact .refl _
  | cons w writes ih =>
    obtain ⟨next, hnext⟩ := h.tail [] List.nil_prefix
    rw [run_nil] at hnext
    have hstep : o.Precedes next := by
      by_cases hid : id = w.id
      · subst hid
        have hturns := s.turns_obey w
        rw [hget, hnext] at hturns
        exact hturns.precedes
      · rw [s.get?_obey_of_ne hid, hget] at hnext
        cases hnext
        exact .refl _
    exact hstep.trans (ih h.tail hnext hget')

/-- **Finalizers defer deletion, and nothing else is lost.** In the store that any run of writes leads to,
every object stands under its own kind and key, and one whose deletion was requested has a finalizer. From
there, an object with finalizers goes only when its last finalizer is taken off after such a request; as long
as an object stays stored, the request stays with it, and its generation does not decrease; and a write turns
the object in its place as `Write.Turns` says, an update its specification and generation, a status write its
status and a finalizer write its finalizers, and leaves every other place as it was. -/
theorem finalizers_defer_deletion (writes : List Write) :
    let s := empty.run writes
    (∀ id o, s.get? id = some o →
      o.id = id ∧ (o.info.deletionRequested = true → o.info.finalizers ≠ [])) ∧
      (∀ w id o, s.get? id = some o → o.info.finalizers ≠ [] → (s.obey w).get? id = none →
        o.info.deletionRequested = true ∧ ∃ f, w = .unmark id f ∧ ∀ f' ∈ o.info.finalizers, f' = f) ∧
        (∀ more id o o', s.Stays id more → s.get? id = some o → (s.run more).get? id = some o' →
          (o.info.deletionRequested = true → o'.info.deletionRequested = true) ∧
            o.info.generation ≤ o'.info.generation) ∧
          ∀ w, w.Turns (s.get? w.id) ((s.obey w).get? w.id) ∧
            ∀ id, id ≠ w.id → (s.obey w).get? id = s.get? id := by
  intro s
  have hkeyed : s.Keyed :=
    run_induction (fun _ _ => nofun) (fun _ _ _ h hstep => hstep.written.keyed h) writes
  have hheld : s.Held := run_induction held_empty (fun _ _ _ h hstep => h.step hstep) writes
  refine ⟨fun id o hget => ⟨hkeyed id o hget, hheld id o hget⟩, fun w id o hget hfinalizers hgone => ?_,
    fun more id o o' hstays hget hget' => ?_,
    fun w => ⟨s.turns_obey w, fun id hid => s.get?_obey_of_ne hid⟩⟩
  · have hid : id = w.id := Decidable.byContradiction fun hid => by
      rw [s.get?_obey_of_ne hid, hget] at hgone
      cases hgone
    subst hid
    have hturns := s.turns_obey w
    rw [hget, hgone] at hturns
    exact hturns.released_of_held hfinalizers
  · have hprecedes := hstays.precedes hget hget'
    exact ⟨hprecedes.requested, hprecedes.generation_le⟩

/-! A tenant is held until its last finalizer is taken off. -/

namespace Farewell

def tenant : Object := .newTenant "default" "acme" .fresh

def place : ObjectId := tenant.id

def writes : List Write := [.create tenant, .mark place "audit", .delete place]

/-- The tenant that waits for its deletion. -/
def waiting : Object := .tenant ⟨⟨"default", "acme", 1, ["audit"], true⟩, .fresh, .fresh⟩

/-- After the writes of the sample the object waits for its deletion. -/
theorem get?_run : (empty.run writes).get? place = some waiting := by decide +kernel

/-- The next write takes the last finalizer off, and the object with it. -/
theorem get?_obey : ((empty.run writes).obey (.unmark place "audit")).get? place = none := by
  decide +kernel

end Farewell

theorem finalizers_defer_deletion_farewell :
    Farewell.waiting.info.deletionRequested = true ∧
      ∃ f, Write.unmark Farewell.place "audit" = .unmark Farewell.place f ∧
        ∀ f' ∈ Farewell.waiting.info.finalizers, f' = f :=
  (finalizers_defer_deletion Farewell.writes).2.1 (.unmark Farewell.place "audit") Farewell.place
    Farewell.waiting Farewell.get?_run (by decide) Farewell.get?_obey

end Store

end AddressRegistry
