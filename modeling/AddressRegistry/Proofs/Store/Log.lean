import AddressRegistry.Proofs.Store.Steps

/-!
# What the log tells

Whoever hears of every change of a store knows which objects it holds, how often their specifications were
written and whether they are to be deleted (`Outline`), without looking at the store: folding the changes in
the order in which they were told gives the outlines of the stored objects (`Replica.ofLog`). Said without the
fold, an object is stored when it was created last and not deleted since, and what was told since then says
the rest (`Outline.afterAll_eq`). `Store.log_tells_contents` says so for every run of writes, and that a write
about which nothing is told changed nothing, finalizers apart.

Folding is a matter of one object at a time (`Replica.get?_ofLog`), so the invariant `Store.Told` compares
outlines object by object, and each step of the store needs the one object that it concerns.
-/

namespace AddressRegistry

/-! ## Changes of one object -/

namespace Event

/-- The changes of an object, the newest first. -/
def changesOf (log : List Event) (id : ObjectId) : List Change :=
  (log.filter (·.id = id)).map (·.change)

/-- The changes of an object since it was created last. -/
def sinceCreation (log : List Event) (id : ObjectId) : List Change :=
  (changesOf log id).takeWhile (· ≠ .created)

/-- The object was created, and was not deleted since. -/
def CreatedLast (log : List Event) (id : ObjectId) : Prop :=
  .created ∈ changesOf log id ∧ .deleted ∉ sinceCreation log id

/-- What was told last of an object is the latest of its changes. -/
theorem changesOf_cons_self (log : List Event) (id : ObjectId) (change : Change) :
    changesOf (⟨id, change⟩ :: log) id = change :: changesOf log id := by
  simp [changesOf]

/-- What was told of another object is none of its changes. -/
theorem changesOf_cons_of_ne (log : List Event) (change : Change) {id id' : ObjectId} (h : id' ≠ id) :
    changesOf (⟨id, change⟩ :: log) id' = changesOf log id' := by
  simp [changesOf, h.symm]

end Event

/-! ## Outlines -/

/-- What the log tells about a stored object. -/
structure Outline where
  generation : Nat
  deletionRequested : Bool
deriving DecidableEq

/-- The outline of an object. -/
def Object.outline (o : Object) : Outline := ⟨o.info.generation, o.info.deletionRequested⟩

namespace Outline

/-- The outline after a change, if the object is stored then. -/
def after : Option Outline → Change → Option Outline
  | _, .created => some ⟨1, false⟩
  | o, .specUpdated => o.map fun o => { o with generation := o.generation + 1 }
  | o, .statusUpdated => o
  | o, .deletionRequested => o.map fun o => { o with deletionRequested := true }
  | _, .deleted => none

/-- The outline after changes, the newest first, of an object that was not stored. -/
def afterAll (changes : List Change) : Option Outline := changes.foldr (fun c o => after o c) none

/-- Only what happened since the last creation counts. -/
theorem afterAll_eq (changes : List Change) :
    afterAll changes =
      if .created ∈ changes ∧ .deleted ∉ changes.takeWhile (· ≠ .created) then
        some ⟨1 + (changes.takeWhile (· ≠ .created)).count .specUpdated,
          decide (.deletionRequested ∈ changes.takeWhile (· ≠ .created))⟩
      else
        none := by
  induction changes with
  | nil => rfl
  | cons change changes ih =>
    show after (afterAll changes) change = _
    rw [ih]
    -- unless the change is a creation, it stands in front of what happened since the last one
    cases change with
    | created => simp [after]
    | specUpdated =>
      rw [List.takeWhile_cons_of_pos (by decide)]
      simp only [List.mem_cons, reduceCtorEq, false_or, List.count_cons_self]
      split <;> simp [after, Nat.add_assoc]
    | statusUpdated =>
      rw [List.takeWhile_cons_of_pos (by decide)]
      simp [after]
    | deletionRequested =>
      rw [List.takeWhile_cons_of_pos (by decide)]
      simp only [List.mem_cons, reduceCtorEq, false_or]
      split <;> simp [after]
    | deleted =>
      rw [List.takeWhile_cons_of_pos (by decide)]
      simp [after]

/-- Folding the changes of an object, without looking anywhere else, says that it is stored exactly when it
was created last. Its generation counts the changes of the specification since, and its deletion is
requested if that was told since. -/
theorem afterAll_changesOf_iff {log : List Event} {id : ObjectId} {outline : Outline} :
    afterAll (Event.changesOf log id) = some outline ↔
      Event.CreatedLast log id ∧ outline = ⟨1 + (Event.sinceCreation log id).count .specUpdated,
        decide (.deletionRequested ∈ Event.sinceCreation log id)⟩ := by
  unfold Event.CreatedLast Event.sinceCreation
  rw [afterAll_eq]
  split
  · rename_i hlast
    exact ⟨fun h => ⟨hlast, (Option.some.inj h).symm⟩, fun h => congrArg some h.2.symm⟩
  · rename_i hlast
    exact iff_of_false nofun fun h => hlast h.1

end Outline

/-! ## Replicas -/

/-- The outlines of objects by kind and key. -/
abbrev Replica := SortedMap ObjectId Outline

namespace Replica

/-- Take note of a change. -/
def note (r : Replica) (event : Event) : Replica :=
  match Outline.after (r.get? event.id) event.change with
  | some outline => r.insert event.id outline
  | none => r.erase event.id

/-- Take note of every change of a log, the oldest first. -/
def ofLog (log : List Event) : Replica := log.foldr (fun event r => r.note event) .empty

/-- Noting a change of an object goes on from its outline. -/
theorem get?_note_self (r : Replica) (id : ObjectId) (change : Change) :
    (r.note ⟨id, change⟩).get? id = Outline.after (r.get? id) change := by
  unfold note
  dsimp only
  cases h : Outline.after (r.get? id) change with
  | none => exact SortedMap.get?_erase_self r id
  | some outline => exact SortedMap.get?_insert_self r id outline

/-- Noting a change of an object leaves the outlines of the others. -/
theorem get?_note_of_ne (r : Replica) (change : Change) {id id' : ObjectId} (h : id' ≠ id) :
    (r.note ⟨id, change⟩).get? id' = r.get? id' := by
  unfold note
  split
  · exact SortedMap.get?_insert_of_ne _ h
  · exact SortedMap.get?_erase_of_ne h

/-- What is known of an object follows from its own changes. -/
theorem get?_ofLog (log : List Event) (id : ObjectId) :
    (ofLog log).get? id = Outline.afterAll (Event.changesOf log id) := by
  induction log with
  | nil => rfl
  | cons event log ih =>
    obtain ⟨id', change⟩ := event
    show ((ofLog log).note ⟨id', change⟩).get? id = _
    by_cases h : id = id'
    · subst h
      rw [get?_note_self, Event.changesOf_cons_self, ih]
      rfl
    · rw [get?_note_of_ne _ _ h, Event.changesOf_cons_of_ne _ _ h, ih]

end Replica

/-! ## The log of a store -/

namespace Store

variable {s s' : Store} {w : Write} {id : ObjectId} {o : Object}

/-- The log tells the outline of every stored object, and of no other. -/
def Told (s : Store) : Prop :=
  ∀ id, Outline.afterAll (Event.changesOf s.log id) = (s.get? id).map Object.outline

/-- Where only one object and its changes differ, only its outline has to be compared. -/
theorem Told.of_eq_elsewhere (h : s.Told) (hget : ∀ id' ≠ id, s'.get? id' = s.get? id')
    (hlog : ∀ id' ≠ id, Event.changesOf s'.log id' = Event.changesOf s.log id')
    (hself : Outline.afterAll (Event.changesOf s'.log id) = (s'.get? id).map Object.outline) : s'.Told := by
  intro id'
  by_cases hid : id' = id
  · rw [hid]
    exact hself
  · rw [hget id' hid, hlog id' hid]
    exact h id'

/-- An object takes another one's place, and this is told. -/
theorem Told.write (h : s.Told) {change : Change}
    (houtline : Outline.after ((s.get? id).map Object.outline) change = some o.outline) :
    (s.write id o change).Told := by
  refine h.of_eq_elsewhere (fun _ => get?_write_of_ne s o change)
    (fun _ => Event.changesOf_cons_of_ne s.log change) ?_
  rw [get?_write_self]
  show Outline.afterAll (Event.changesOf (⟨id, change⟩ :: s.log) id) = some o.outline
  rw [Event.changesOf_cons_self, ← houtline, ← h id]
  rfl

/-- An object takes the place of one with the same outline, and nobody is told. -/
theorem Told.put (h : s.Told) {stored : Object} (hget : s.get? id = some stored)
    (hsame : o.outline = stored.outline) : ({ s with objects := s.objects.insert id o } : Store).Told := by
  refine h.of_eq_elsewhere (fun _ => SortedMap.get?_insert_of_ne o) (fun _ _ => rfl) ?_
  show Outline.afterAll (Event.changesOf s.log id) = ((s.objects.insert id o).get? id).map Object.outline
  rw [SortedMap.get?_insert_self, h id, hget]
  exact congrArg some hsame.symm

/-- A removal is told, so the outline goes with the object. -/
theorem Told.remove (h : s.Told) (id : ObjectId) : (s.remove id).Told := by
  refine h.of_eq_elsewhere (fun _ => SortedMap.get?_erase_of_ne)
    (fun _ => Event.changesOf_cons_of_ne s.log .deleted) ?_
  rw [get?_remove_self]
  show Outline.afterAll (Event.changesOf (⟨id, .deleted⟩ :: s.log) id) = none
  rw [Event.changesOf_cons_self]
  rfl

/-- Nothing was told of an empty store, and it holds nothing. -/
theorem told_empty : empty.Told := fun _ => rfl

/-- Every step of the store tells what it does to the outline of its object, and nothing when it does
nothing to it. -/
theorem Told.step (h : s.Told) (hstep : s.Step w s') : s'.Told := by
  cases hstep with
  | created hnew => exact h.write (by simp [Outline.after, Object.outline])
  | updated hget _ hcopy =>
    refine h.write ?_
    simp [hget, Outline.after, Object.outline, Object.info_copySpec? hcopy]
  | noted hget hcopy =>
    refine h.write ?_
    simp [hget, Outline.after, Object.outline, (Object.sameBody_of_copyStatus? hcopy).info_eq]
  | condemned hget _ _ => exact h.write (by simp [hget, Outline.after, Object.outline])
  | marked hget _ => exact h.put hget (by simp [Object.outline])
  | unmarked hget _ => exact h.put hget (by simp [Object.outline])
  | deleted _ _ => exact h.remove _
  | released _ _ _ => exact h.remove _
  | unchanged _ _ => exact h
  | awaited _ _ _ => exact h
  | carried _ _ => exact h

/-- What was created and not deleted since is stored. -/
theorem Told.exists_get? (h : s.Told) (hlast : Event.CreatedLast s.log id) : ∃ o, s.get? id = some o := by
  have htold := h id
  rw [Outline.afterAll_changesOf_iff.2 ⟨hlast, rfl⟩] at htold
  exact (Option.map_eq_some_iff.1 htold.symm).imp fun _ hget => hget.1

/-- A write about which nothing is told changed nothing, unless it was about a finalizer. -/
theorem Step.eq_of_log (h : s.Step w s') (hlog : s'.log = s.log) :
    s' = s ∨ (∃ f, w = .mark w.id f ∨ w = .unmark w.id f) ∧ ∃ o, s'.get? w.id = some o := by
  have hmore : ∀ event : Event, event :: s.log ≠ s.log := fun event heq => by
    simpa using congrArg List.length heq
  cases h with
  | created _ => exact absurd hlog (hmore _)
  | updated _ _ _ => exact absurd hlog (hmore _)
  | noted _ _ => exact absurd hlog (hmore _)
  | condemned _ _ _ => exact absurd hlog (hmore _)
  | deleted _ _ => exact absurd hlog (hmore _)
  | released _ _ _ => exact absurd hlog (hmore _)
  | unchanged _ _ => exact Or.inl rfl
  | awaited _ _ _ => exact Or.inl rfl
  | carried _ _ => exact Or.inl rfl
  | marked _ _ => exact Or.inr ⟨⟨_, Or.inl rfl⟩, _, SortedMap.get?_insert_self _ _ _⟩
  | unmarked _ _ => exact Or.inr ⟨⟨_, Or.inr rfl⟩, _, SortedMap.get?_insert_self _ _ _⟩

/-- **The log tells what a store holds.** After any run of writes, refused ones among them, the changes told
so far give the outlines of the stored objects back when they are folded; stored is what was created and not
deleted since; the generation of a stored object is one more than the number of times that its specification
was written since it was created last, and its deletion is requested when that was told since then. A write
that fails has changed nothing, and so has a write about which nothing is told, unless it puts a finalizer on
an object or takes one off and leaves it stored. -/
theorem log_tells_contents (writes : List Write) :
    let s := empty.run writes
    (∀ id, (Replica.ofLog s.log).get? id = (s.get? id).map Object.outline) ∧
      (∀ id, (∃ o, s.get? id = some o) ↔ Event.CreatedLast s.log id) ∧
        (∀ id o, s.get? id = some o →
          o.info.generation = 1 + (Event.sinceCreation s.log id).count .specUpdated ∧
            (o.info.deletionRequested = true ↔ .deletionRequested ∈ Event.sinceCreation s.log id)) ∧
          ∀ w s', (∀ e, performInPlace w s = .error e s' → s' = s) ∧
            (performInPlace w s = .ok () s' → s'.log = s.log →
              s' = s ∨ (∃ f, w = .mark w.id f ∨ w = .unmark w.id f) ∧ ∃ o, s'.get? w.id = some o) := by
  intro s
  have htold : s.Told := run_induction told_empty (fun _ _ _ h hstep => h.step hstep) writes
  have hstored : ∀ id o, s.get? id = some o → _ := fun id o hget =>
    Outline.afterAll_changesOf_iff.1 ((htold id).trans (congrArg (Option.map Object.outline) hget))
  refine ⟨fun id => (Replica.get?_ofLog s.log id).trans (htold id), fun id => ⟨?_, htold.exists_get?⟩,
    fun id o hget => ?_, fun w s' => ⟨fun e h => eq_of_performInPlace_error h, fun h hlog => ?_⟩⟩
  · rintro ⟨o, hget⟩
    exact (hstored id o hget).1
  · have houtline := (hstored id o hget).2
    refine ⟨congrArg Outline.generation houtline, ?_⟩
    rw [show o.info.deletionRequested = _ from congrArg Outline.deletionRequested houtline, decide_eq_true_iff]
  · exact (step_of_performInPlace h).eq_of_log hlog

/-! A tenant goes and comes back: what was told of the first one does not count any more. -/

namespace Reborn

def tenant : Object := .newTenant "default" "acme" .fresh

/-- The tenant with another specification. -/
def disabled : Object := .newTenant "default" "acme" ⟨.disable, none⟩

def place : ObjectId := tenant.id

def writes : List Write :=
  [.create tenant, .mark place "audit", .update disabled, .update tenant, .delete place, .unmark place "audit",
    .create tenant, .mark place "audit", .update disabled, .update disabled, .delete place, .delete place,
    .create tenant]

/-- The tenant that stands there in the end. -/
def last : Object := .tenant ⟨⟨"default", "acme", 2, ["audit"], true⟩, ⟨.disable, none⟩, .fresh⟩

/-- What the writes of the sample come to. -/
theorem get?_run : (empty.run writes).get? place = some last := by decide +kernel

end Reborn

/-- An object that was deleted and created again has the generation that was told since then. -/
theorem log_tells_contents_reborn :
    let s := empty.run Reborn.writes
    s.get? Reborn.place = some Reborn.last ∧
      Reborn.last.info.generation = 1 + (Event.sinceCreation s.log Reborn.place).count .specUpdated ∧
        (Reborn.last.info.deletionRequested = true ↔
          .deletionRequested ∈ Event.sinceCreation s.log Reborn.place) :=
  ⟨Reborn.get?_run, (log_tells_contents Reborn.writes).2.2.1 Reborn.place Reborn.last Reborn.get?_run⟩

end Store

end AddressRegistry
