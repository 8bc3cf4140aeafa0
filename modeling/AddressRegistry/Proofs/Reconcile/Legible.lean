import AddressRegistry.Proofs.Reconcile.Course
import AddressRegistry.Proofs.Reconcile.Entitlement

/-!
# What pools remember

A pool remembers which network it declared, and a pass over it takes that network back before it declares
another one. A pass would get stuck on a text that it cannot read. None does: while clients leave statuses to
the registry, whatever a stored pool remembers can be read (`Workshop.Leaves.legible`).

This holds in whatever a registry at work leaves behind (`Workshop.Leaves`). Passes are under way at the same
time as clients write, calls of the store fail, passes come down at any stage, and the registry is started
anew over the store that it left. A pass may then write the status of an object that was read long before, so
the invariant is also about what passes under way hold in their hands (`Stage.Reads`).
-/

namespace AddressRegistry

/-! ## What pools remember -/

/-- Taking a declaration back clears the memory of the pool. A pool that has nothing to take back keeps what
it has. -/
theorem Pool.declaredReads_of_retractStale {pool pool' : Pool} {indexes indexes' : ScopeIndexes}
    {key : ObjectKey} (hreads : (Object.pool pool).DeclaredReads)
    (h : pool.retractStale indexes key = .ok (pool', indexes')) : (Object.pool pool').DeclaredReads := by
  rcases retractStale_eq_ok_iff.1 h with
    ⟨-, rfl, -⟩ | ⟨_, _, _, -, -, -, ⟨-, rfl, -⟩ | ⟨-, -, rfl⟩⟩
  · exact hreads
  · exact hreads
  · exact nofun

/-- Whatever applying a pool comes to, what it recorded as declared can be read. -/
theorem Pool.declaredReads_of_apply {pool pool' : Pool} {indexes indexes' : ScopeIndexes}
    {result : Except RegistryError Unit} (hreads : (Object.pool pool).DeclaredReads)
    (h : pool.apply indexes = (result, pool', indexes')) : (Object.pool pool').DeclaredReads := by
  unfold apply at h
  split at h
  · cases h
    exact hreads
  · rename_i key _
    split at h
    · cases h
      exact hreads
    · rename_i pool₁ indexes₁ hstale
      have hreads₁ := declaredReads_of_retractStale hreads hstale
      have hreads₂ : (Object.pool (indexes₁.declare key pool₁).1).DeclaredReads := by
        unfold ScopeIndexes.declare
        split <;> exact hreads₁
      split at h
      · rename_i pool₂ e hdeclare
        cases h
        rwa [hdeclare] at hreads₂
      · rename_i pool₂ n indexes₂ hdeclare
        have hparse := (ScopeIndexes.declare_eq_ok_iff.1 (congrArg Prod.snd hdeclare)).1
        have htext := Network.parse_text (Network.parse_isCanonical hparse)
        have hdeclared : ∀ raw, some n.text = some raw → ∃ m, Network.parse raw = .ok m := by
          rintro _ ⟨⟩
          exact ⟨n, htext⟩
        dsimp only at h
        split at h <;> cases h <;> exact hdeclared

namespace Object

variable {o o' : Object}

/-- The common status says nothing of what a pool remembers. -/
theorem declaredReads_mapStatus {f : Status → Status} :
    (o.mapStatus f).DeclaredReads ↔ o.DeclaredReads := by
  cases o <;> exact Iff.rfl

/-- Objects of one status remember the same. -/
theorem SameStatus.declaredReads_iff (h : o.SameStatus o') : o'.DeclaredReads ↔ o.DeclaredReads := by
  cases h <;> exact Iff.rfl

/-- A new pool remembers nothing, so there is nothing to read. -/
theorem IsNew.declaredReads (h : o.IsNew) : o.DeclaredReads := by
  cases o with
  | pool p =>
    intro raw hraw
    rw [show p.status = .fresh from h] at hraw
    cases hraw
  | tenant _ => trivial
  | scope _ => trivial
  | claim _ => trivial

/-- Only pools remember declarations. -/
theorem declaredReads_of_kind_ne (h : o.kind ≠ .pool) : o.DeclaredReads := by
  cases o with
  | pool _ => exact absurd rfl h
  | tenant _ => trivial
  | scope _ => trivial
  | claim _ => trivial

/-- An evaluation leaves a pool with a memory that can be read: it is placed, and after its checks it is
applied. -/
theorem declaredReads_of_evaluate {c c' : Controller} {v : Option Verdict} (hreads : o.DeclaredReads)
    (h : c.evaluate o = (v, o', c')) : o'.DeclaredReads := by
  have hkind := (Controller.evaluate_frame h).1.kind_eq
  cases o with
  | pool p =>
    unfold Controller.evaluate at h
    split at h
    · cases h
      exact hreads
    · rename_i name _
      obtain ⟨placed, hplaced, hreads⟩ : ∃ placed, (Object.pool p).mapStatus (fun s =>
          { s with placement := name.placement }) = .pool placed ∧ (Object.pool placed).DeclaredReads :=
        ⟨_, rfl, hreads⟩
      rw [hplaced] at h
      dsimp only at h
      split at h
      · cases h
        exact hreads
      · have happlied := Pool.declaredReads_of_apply hreads (rfl : placed.apply c.indexes = _)
        cases h
        exact happlied
  | tenant _ | scope _ | claim _ =>
    refine declaredReads_of_kind_ne ?_
    rw [hkind]
    exact nofun

/-- However an object develops, what is recorded as declared can be read. -/
theorem DeclaredReads.develops (h : o.DeclaredReads) (hdevelops : o.Develops o') : o'.DeclaredReads := by
  cases hdevelops with
  | edited _ hstatus _ => exact hstatus.declaredReads_iff.2 h
  | judged _ hbefore _ hevaluate =>
    rw [Controller.reported_eq]
    refine declaredReads_mapStatus.2 (declaredReads_of_evaluate ?_ hevaluate)
    rcases hbefore with rfl | rfl
    · exact h
    · exact ((SameStatus.refl o).mapInfo _).declaredReads_iff.2 h
  | blocked c e _ =>
    obtain ⟨f, _, hverdict, -⟩ := c.recordVerdict_eq o (.stuck .terminating e)
    rw [hverdict]
    exact declaredReads_mapStatus.2 h

/-- Applying an object leaves a memory that can be read. A pool takes back what it remembers and then
remembers the text of a network that was parsed, and claims have no such memory. -/
theorem declaredReads_of_apply {c c' : Controller} {result : Except Failure Unit}
    (hreads : o.DeclaredReads) (h : c.apply o = (result, o', c')) : o'.DeclaredReads := by
  cases o with
  | pool p =>
    have happlied := Pool.declaredReads_of_apply hreads (rfl : p.apply c.indexes = _)
    cases h
    exact happlied
  | tenant _ | scope _ | claim _ =>
    refine declaredReads_of_kind_ne ?_
    rw [(Controller.apply_frame h).1.kind_eq]
    exact nofun

end Object

/-! ## Stores that can be read -/

/-- Every object stands under its own kind and key, and what pools recorded as declared can be read. -/
structure Store.Legible (s : Store) : Prop where
  keyed : s.Keyed
  reads : ∀ id o, s.get? id = some o → o.DeclaredReads

namespace Store

variable {s s' : Store} {o : Object} {w : Write}

/-- In an empty store there is nothing to read. -/
theorem legible_empty : Store.empty.Legible := ⟨fun _ _ => nofun, fun _ _ => nofun⟩

/-- Objects that have developed from legible ones are legible: editing leaves the memory of a pool, and a pass
leaves one that it can read. -/
theorem Grows.legible (h : s.Grows s') (hlegible : s.Legible) : s'.Legible := by
  refine ⟨h.keyed hlegible.keyed, fun id o' hget => ?_⟩
  obtain ⟨o, hstored, hdevelops⟩ := h id o' hget
  exact (hlegible.reads id o hstored).develops hdevelops

/-- A client that spares the statuses leaves a legible store legible, whether or not its write is accepted.
-/
theorem Legible.accept (h : s.Legible) (hspares : w.SparesStatus) : (s.accept w).Legible := by
  rcases s.grows_of_accept hspares with hgrows | ⟨o, hnew, -, hobjects⟩
  · exact hgrows.legible h
  · exact ⟨h.keyed.accept w,
      forall_get?_insert hobjects (fun id o _ => h.reads id o) (hnew.mapInfo _).declaredReads⟩

/-- Saving the status of an object keeps a store legible if what the object remembers can be read. -/
theorem Legible.updateStatus (h : s.Legible) (hreads : o.DeclaredReads)
    (hupdate : s.updateStatus o = .ok s') : s'.Legible := by
  refine ⟨(written_of_updateStatus hupdate).keyed h.keyed, ?_⟩
  obtain ⟨stored, -, hupdate⟩ := Except.bind_eq_ok_iff.1 hupdate
  cases hcopy : stored.copyStatus? o with
  | none =>
    rw [hcopy] at hupdate
    cases hupdate
  | some changed =>
    rw [hcopy] at hupdate
    cases hupdate
    refine forall_get?_insert rfl (fun id o _ => h.reads id o) ?_
    cases stored <;> cases o <;> cases hcopy <;> exact hreads

end Store

/-! ## Passes under way -/

/-- What the pools in the hands of a pass recorded as declared can be read. What the pass no longer writes
does not matter. -/
def Stage.Reads : Stage → Prop
  | .found o | .blocked o _ => o.DeclaredReads
  | .marked before => before.DeclaredReads
  | .admitted _ placed => placed.DeclaredReads
  | .judged _ after _ => after.DeclaredReads
  | .begun | .cleared _ _ _ | .saved _ _ _ | .undone _ | .freed _ | .ended _ => True

/-- An evaluation that came to a result holds the object that it came to. -/
theorem Stage.reads_ofResult {before after : Object} {phase : Phase} {result : Except Failure Unit}
    (hreads : after.DeclaredReads) : (Stage.ofResult before after phase result).Reads := by
  unfold ofResult
  split
  · exact hreads
  · trivial

namespace Controller

variable {c c' : Controller} {id : ObjectId} {o : Object} {stage : Stage}

/-- No call of the store lies, and what pools recorded as declared can be read. -/
structure Legible (c : Controller) : Prop where
  rules : Access.Honest c.access.rules
  store : c.access.store.Legible

/-- Legibility is about the store only. -/
theorem Legible.of_access (h : c.Legible) (haccess : c'.access = c.access) : c'.Legible :=
  ⟨by rw [haccess]; exact h.rules, by rw [haccess]; exact h.store⟩

/-- Saving what a pass holds keeps the store legible: of the object in the store it replaces the status,
with the memory of the one at hand. -/
theorem Legible.saveStatus (h : c.Legible) (hreads : o.DeclaredReads) (hsave : c.saveStatus o = .ok c') :
    c'.Legible := by
  obtain ⟨access, hcall, rfl⟩ := Except.map_eq_ok_iff.1 hsave
  obtain ⟨store, hstore, hcall⟩ := Except.bind_eq_ok_iff.1 hcall
  cases hcall
  exact ⟨h.rules, h.store.updateStatus hreads (Access.guarded_eq_ok hstore)⟩

/-- Recording a verdict touches no stored object. -/
theorem Legible.recordVerdict (h : c.Legible) (o : Object) (v : Verdict) :
    (c.recordVerdict o v).2.Legible := by
  obtain ⟨readings, hframe⟩ := c.recordVerdict_frame o v
  rw [hframe]
  exact h.of_access rfl

/-- A verdict goes into the common status, beside what a pool remembers. -/
theorem declaredReads_recordVerdict (c : Controller) (hreads : o.DeclaredReads) (v : Verdict) :
    (c.recordVerdict o v).1.DeclaredReads := by
  obtain ⟨f, _, hverdict, -⟩ := c.recordVerdict_eq o v
  rw [hverdict]
  exact Object.declaredReads_mapStatus.2 hreads

/-- The store can be read, and so can what the pass has in its hands. -/
def Legibly (pass : Stage × Controller) : Prop := pass.2.Legible ∧ pass.1.Reads

/-- The object that a pass finds comes from the store, so what it remembers can be read. -/
theorem Legible.begun (h : c.Legible) : Legibly (c.advance id .begun) := by
  unfold Controller.advance
  dsimp only
  split
  · exact ⟨h, trivial⟩
  · exact ⟨h.of_access rfl, trivial⟩
  · rename_i o hfetch
    exact ⟨h, h.store.reads _ o (Access.get?_of_fetch h.rules hfetch)⟩

/-- An object that was found gets the finalizer, or the undoing of its effect begins. -/
theorem Legible.found (h : c.Legible) (hreads : o.DeclaredReads) : Legibly (c.advance id (.found o)) := by
  unfold Controller.advance
  dsimp only
  split
  · split
    · rename_i c' hundo
      exact ⟨h.of_access (undo_frame hundo).1, trivial⟩
    · exact ⟨h, hreads⟩
    · exact ⟨h, trivial⟩
  · split
    · exact ⟨h, trivial⟩
    · rename_i before c' hensure
      rcases ensureFinalizer_frame hensure with ⟨-, rfl, rfl⟩ | ⟨rfl, store, hwritten, rfl⟩
      · exact ⟨h, hreads⟩
      · exact ⟨⟨h.rules, (Store.grows_of_mark hwritten).legible h.store⟩,
          ((Object.SameStatus.refl o).mapInfo _).declaredReads_iff.2 hreads⟩

/-- The checks of name and parent place an object, and leave what it remembers. -/
theorem Legible.marked (h : c.Legible) (hreads : o.DeclaredReads) :
    Legibly (c.advance id (.marked o)) := by
  unfold Controller.advance
  dsimp only
  split
  · exact ⟨h, hreads⟩
  · rename_i name _
    have hplaced : (o.placed name).DeclaredReads := Object.declaredReads_mapStatus.2 hreads
    split
    · exact ⟨h, Stage.reads_ofResult hplaced⟩
    · exact ⟨h, hplaced⟩

/-- Applying an object writes nothing to the store; the verdict is on an object whose memory can be read. -/
theorem Legible.admitted (h : c.Legible) {before placed : Object} (hreads : placed.DeclaredReads) :
    Legibly (c.advance id (.admitted before placed)) := by
  have happly : (c.apply placed).2.2.Legible ∧ (c.apply placed).2.1.DeclaredReads :=
    ⟨h.of_access (apply_frame (rfl : c.apply placed = _)).2.1,
      Object.declaredReads_of_apply hreads (rfl : c.apply placed = _)⟩
  unfold Controller.advance applyFirst
  dsimp only
  split
  · split
    · exact ⟨h, trivial⟩
    · split
      · exact ⟨h, Stage.reads_ofResult trivial⟩
      · exact ⟨h.of_access rfl, trivial⟩
  · exact ⟨happly.1, Stage.reads_ofResult happly.2⟩

/-- The second half of applying a claim has no memory to keep. -/
theorem Legible.cleared (h : c.Legible) {before : Object} {claim : Claim} {r : Registration} :
    Legibly (c.advance id (.cleared before claim r)) := by
  unfold Controller.advance
  dsimp only
  split
  · exact ⟨h, Stage.reads_ofResult trivial⟩
  · exact ⟨h.of_access rfl, trivial⟩

/-- A verdict is saved with the object that it is on. -/
theorem Legible.judged (h : c.Legible) {before after : Object} {v : Verdict}
    (hreads : after.DeclaredReads) : Legibly (c.advance id (.judged before after v)) := by
  unfold Controller.advance
  dsimp only
  have hobserved : (after.mapStatus fun s =>
      { s with observedGeneration := after.info.generation }).DeclaredReads :=
    Object.declaredReads_mapStatus.2 hreads
  generalize after.mapStatus (fun s => { s with observedGeneration := after.info.generation })
    = observed at *
  have hrecorded := h.recordVerdict observed v
  split
  · exact ⟨hrecorded, trivial⟩
  · rename_i c' hsave
    split at hsave
    · cases hsave
      exact ⟨hrecorded, trivial⟩
    · exact ⟨hrecorded.saveStatus (c.declaredReads_recordVerdict hobserved v) hsave, trivial⟩

/-- The finalizer of an object whose effect is undone comes off, which leaves every status alone. -/
theorem Legible.undone (h : c.Legible) : Legibly (c.advance id (.undone o)) := by
  unfold Controller.advance
  dsimp only
  split
  · exact ⟨h, trivial⟩
  · rename_i access hremove
    obtain ⟨hwritten, haccess⟩ := Access.written_of_removeFinalizer hremove
    have hrules : Access.Honest access.rules := by
      rw [haccess]
      exact h.rules
    exact ⟨⟨hrules, (Store.grows_of_unmark hwritten).legible h.store⟩, trivial⟩

/-- The failure to undo an effect is saved as the status of the object, with what it remembers. -/
theorem Legible.blocked (h : c.Legible) {e : RegistryError} (hreads : o.DeclaredReads) :
    Legibly (c.advance id (.blocked o e)) := by
  have hrecorded := h.recordVerdict o (.stuck .terminating e)
  refine ⟨?_, trivial⟩
  show (c.postpone id o e).2.Legible
  unfold postpone
  dsimp only
  split
  · exact hrecorded
  · rename_i c' hsave
    exact (hrecorded.saveStatus (c.declaredReads_recordVerdict hreads _) hsave).of_access rfl

/-- One step of a pass. -/
theorem Legible.advance (h : c.Legible) (id : ObjectId) (hstage : stage.Reads) :
    Legibly (c.advance id stage) := by
  cases stage with
  | begun => exact h.begun
  | found o => exact h.found hstage
  | marked before => exact h.marked hstage
  | admitted before placed => exact h.admitted hstage
  | cleared before claim r => exact h.cleared
  | judged before after v => exact h.judged hstage
  | saved before object v => exact ⟨h.of_access (c.access_tell id before object v), trivial⟩
  | undone o => exact h.undone
  | blocked o e => exact h.blocked hstage
  | freed o => exact ⟨h.of_access (c.access_tellGone o), trivial⟩
  | ended result => exact ⟨h, trivial⟩

end Controller

/-! ## What a registry leaves behind -/

namespace Workshop

variable {w : Workshop} {m : Move} {moves : List Move}

/-- Clients write no status, and no call of the store lies. -/
def Move.Proper : Move → Prop
  | .write w => w.SparesStatus
  | .faults rules => Access.Honest rules
  | .launch _ | .proceed _ | .abort _ | .operate _ => True

instance : DecidablePred Move.Proper
  | .write w => inferInstanceAs (Decidable w.SparesStatus)
  | .faults rules => inferInstanceAs (Decidable (Access.Honest rules))
  | .launch _ | .proceed _ | .abort _ | .operate _ => isTrue trivial

/-- The stores that registries leave behind: one starts over the empty store or over what an earlier one has
left, and stops after some moves. -/
inductive Leaves : Store → Prop
  | nothing : Leaves .empty
  | worked {store : Store} (policy : RetryPolicy) (moves : List Move) (h : Leaves store)
    (hproper : ∀ m ∈ moves, m.Proper) : Leaves ((start store policy).run moves).store

/-- Neither the store nor any pass under way has a pool that remembers what cannot be read. -/
structure Legible (w : Workshop) : Prop where
  controller : w.controller.Legible
  passes : ∀ id stage, w.passes.get? id = some stage → stage.Reads

/-- Every move of a workshop keeps what is stored and what passes hold legible. A pass that is dropped, or a
start over the same store, leaves fewer passes under way. -/
theorem Legible.act (h : w.Legible) (hproper : m.Proper) : (w.act m).Legible := by
  cases m with
  | write write => exact ⟨⟨h.controller.rules, h.controller.store.accept hproper⟩, h.passes⟩
  | faults rules => exact ⟨⟨hproper, h.controller.store⟩, h.passes⟩
  | launch id =>
    refine ⟨h.controller, fun id' stage hstage => ?_⟩
    rcases Passes.get?_launch hstage with hstage | rfl
    · exact h.passes id' stage hstage
    · trivial
  | proceed id =>
    unfold Workshop.act Controller.proceed
    dsimp only
    cases hstage : w.passes.get? id with
    | none => exact h
    | some stage =>
      obtain ⟨hcontroller, hnext⟩ := h.controller.advance id (h.passes id stage hstage)
      refine ⟨hcontroller, fun id' stage' hstage' => ?_⟩
      rcases SortedMap.get?_insert_eq_some_iff.1 hstage' with ⟨rfl, rfl⟩ | ⟨-, hstage'⟩
      · exact hnext
      · exact h.passes id' stage' hstage'
  | abort id =>
    refine ⟨h.controller, fun id' stage hstage => ?_⟩
    rcases Passes.get?_abort hstage with hstage | rfl
    · exact h.passes id' stage hstage
    · trivial
  | operate op =>
    have hyields := w.controller.operate_yields op
    refine ⟨⟨?_, ?_⟩, h.passes⟩
    · rw [show (w.act (.operate op)).controller.access.rules = _ from hyields.rules]
      exact h.controller.rules
    · rw [show (w.act (.operate op)).controller.access.store = _ from hyields.store]
      exact h.controller.store

/-- A workshop stays legible in every run. -/
theorem Legible.run (h : w.Legible) (hproper : ∀ m ∈ moves, m.Proper) : (w.run moves).Legible := by
  induction moves generalizing w with
  | nil => exact h
  | cons m rest ih =>
    obtain ⟨hm, hrest⟩ := List.forall_mem_cons.1 hproper
    exact ih (h.act hm) hrest

/-- A registry that starts over a legible store is at work with no pass under way. -/
theorem legible_start {store : Store} (policy : RetryPolicy) (h : store.Legible) :
    (start store policy).Legible :=
  ⟨⟨fun _ hrule => (nomatch hrule), h⟩,
    fun id _ hstage => nomatch (SortedMap.get?_empty id).symm.trans hstage⟩

/-- Registries leave pools behind that remember nothing but what can be read. -/
theorem Leaves.legible {store : Store} (h : Leaves store) : store.Legible := by
  induction h with
  | nothing => exact Store.legible_empty
  | worked policy moves _ hproper ih => exact ((legible_start policy ih).run hproper).controller.store

end Workshop

end AddressRegistry
