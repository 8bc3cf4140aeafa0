import AddressRegistry.Proofs.Reconcile.Repeat

/-!
# Passes that a failing store interrupts

A store may refuse calls (`Access.Refuses`). A pass that this ends has applied or undone an effect at most,
and noted nothing of it; but what was evaluated is evaluated again without a change
(`Controller.evaluate_twice`), and what was undone is undone again without a change
(`Controller.undo_again`). So the pass can simply be made again
(`Controller.resumes_of_reconcile_eq_refused`). Only the clock has gone on meanwhile, and a pass at another
time does the same but for the time that it notes on its object (`Controller.Alike`,
`Controller.alike_reconcile`). A refused call, such as the writing of a status, therefore does no harm
(`Controller.reconcile_after_refused`).
-/

namespace AddressRegistry

/-! ## A store that refuses calls -/

namespace Failure

variable {α β : Type} {x : Except RegistryError α} {y : Except Failure α} {k : α → Except Failure β}

/-- Steps of which the first is refused are refused. -/
theorem refused_bind_of_left (h : ∃ e, y = .error (.refused e)) :
    ∃ e, (y >>= k) = .error (.refused e) := by
  obtain ⟨e, rfl⟩ := h
  exact ⟨e, rfl⟩

/-- Steps are refused if what follows the first is refused whatever that comes to. -/
theorem refused_bind_of_right (h : ∀ a, ∃ e, k a = .error (.refused e)) :
    ∃ e, (lift x >>= k) = .error (.refused e) := by
  cases x with
  | error e => exact ⟨e, rfl⟩
  | ok a => exact h a

end Failure

namespace Access

variable {a : Access} {rules : List FaultRule} {store : Store} {method : Method} {kind : Kind}

/-- The rules make calls fail; none makes a read lie or brings a pass down. -/
def Refuses (rules : List FaultRule) : Prop := ∀ rule ∈ rules, ∃ e, rule.effect = .fail e

/-- A rule of a store that refuses calls makes its call fail, if there is one. -/
theorem effect?_of_refuses (h : Refuses a.rules) (method : Method) (kind : Kind) :
    a.effect? method kind = none ∨ ∃ e, a.effect? method kind = some (.fail e) := by
  unfold effect?
  cases hfind : a.rules.find? fun r => r.method == method && r.kind.all (· == kind) with
  | none => exact Or.inl rfl
  | some rule =>
    obtain ⟨e, he⟩ := h rule (List.mem_of_find?_eq_some hfind)
    exact Or.inr ⟨e, by simp [he]⟩

/-- A call is made, or it is refused. -/
theorem guarded_of_refuses {α : Type} (h : Refuses a.rules) (call : Except RegistryError α) :
    a.guarded method kind call = Failure.lift call ∨
      ∃ e, a.guarded method kind call = .error (.refused e) := by
  unfold guarded
  rcases effect?_of_refuses h method kind with heffect | ⟨e, heffect⟩
  · exact Or.inl (by rw [heffect])
  · exact Or.inr ⟨e, by rw [heffect]⟩

/-- Reads of one kind are all refused, or they all answer what the store holds. -/
theorem fetch_of_refuses (h : Refuses rules) (store : Store) (kind : Kind) :
    (∃ e, ∀ key, (⟨store, rules⟩ : Access).fetch kind key = .error (.refused e)) ∨
      ∀ key, (⟨store, rules⟩ : Access).fetch kind key = (⟨store, []⟩ : Access).fetch kind key := by
  rcases effect?_of_refuses (a := ⟨store, rules⟩) h .get kind with heffect | ⟨e, heffect⟩
  · refine Or.inr fun key => ?_
    unfold fetch get guarded
    rw [heffect]
    rfl
  · refine Or.inl ⟨e, fun key => ?_⟩
    unfold fetch get guarded
    rw [heffect]

/-- Either no scope can be read, or all are read as they are stored. -/
theorem fetchScope_of_refuses (h : Refuses rules) (store : Store) :
    (∃ e, ∀ key, (⟨store, rules⟩ : Access).fetchScope key = .error (.refused e)) ∨
      ∀ key, (⟨store, rules⟩ : Access).fetchScope key = (⟨store, []⟩ : Access).fetchScope key := by
  unfold fetchScope
  rcases fetch_of_refuses h store .scope with ⟨e, hfetch⟩ | hfetch
  · exact Or.inl ⟨e, fun key => by rw [hfetch]; rfl⟩
  · exact Or.inr fun key => by rw [hfetch]

/-- Either no tenant can be read, or all are read as they are stored. -/
theorem fetchTenant_of_refuses (h : Refuses rules) (store : Store) :
    (∃ e, ∀ key, (⟨store, rules⟩ : Access).fetchTenant key = .error (.refused e)) ∨
      ∀ key, (⟨store, rules⟩ : Access).fetchTenant key = (⟨store, []⟩ : Access).fetchTenant key := by
  unfold fetchTenant
  rcases fetch_of_refuses h store .tenant with ⟨e, hfetch⟩ | hfetch
  · exact Or.inl ⟨e, fun key => by rw [hfetch]; rfl⟩
  · exact Or.inr fun key => by rw [hfetch]

end Access

/-- Where no scope can be read, none is ready. -/
theorem ScopeIndexes.readyScope_of_refused {access : Access} {e : RegistryError}
    (h : ∀ key, access.fetchScope key = .error (.refused e)) (indexes : ScopeIndexes) (key : ObjectKey) :
    ∃ e, indexes.readyScope access key = .error (.refused e) := by
  unfold readyScope
  rw [h]
  cases ResourceName.parse .scope key.name with
  | error e' => exact ⟨e', rfl⟩
  | ok name => exact ⟨e, rfl⟩

namespace Object

/-- The object without the time of the last change of its readiness. -/
def untimed (o : Object) : Object :=
  o.mapStatus fun s => { s with condition := { s.condition with since := none } }

end Object

/-- A list of objects of one kind depends on the objects of that kind only. -/
theorem Store.list_congr {s s' : Store} {kind : Kind} {space : Option String}
    (h : ∀ id, id.kind = kind → s'.get? id = s.get? id) : s'.list kind space = s.list kind space := by
  unfold list
  congr 1
  apply SortedMap.ext_get?
  intro id
  rw [SortedMap.get?_filter, SortedMap.get?_filter]
  by_cases hkind : id.kind = kind
  · have hget := h id hkind
    unfold get? at hget
    rw [hget]
  · have hno : (id.kind == kind) = false := by simpa using hkind
    simp only [hno, Bool.false_and]
    cases s'.objects.get? id <;> cases s.objects.get? id <;> rfl

/-! ## Undoing again -/

namespace Claim

variable {claim : Claim} {indexes indexes' : ScopeIndexes} {access access' : Access}

/-- Undoing the effect of a claim looks up scopes only. -/
theorem undo_congr (hfetch : ∀ key, access'.fetchScope key = access.fetchScope key) :
    claim.undo indexes access' = claim.undo indexes access := by
  unfold undo ScopeIndexes.deregister ScopeIndexes.readyScope
  simp only [hfetch]

/-- When no scope can be read, nothing is undone. -/
theorem undo_of_refused {e : RegistryError} (hfetch : ∀ key, access.fetchScope key = .error (.refused e))
    (claim : Claim) (indexes : ScopeIndexes) :
    (∃ e, claim.undo indexes access = .error (.refused e)) ∨
      claim.undo indexes access = .ok indexes := by
  unfold undo
  cases claim.registration with
  | error e' => exact Or.inl ⟨e', rfl⟩
  | ok r =>
    obtain ⟨e', hready⟩ := ScopeIndexes.readyScope_of_refused hfetch indexes r.scopeKey
    have hderegister : indexes.deregister access r = .error (.refused e') := by
      unfold ScopeIndexes.deregister
      rw [hready]
      rfl
    simp only [Failure.lift, bind, Except.bind, hderegister]
    split
    · exact Or.inr rfl
    · exact Or.inl ⟨e', rfl⟩

/-- What a claim gave up is gone, so giving it up again changes nothing. -/
theorem undo_again (h : claim.undo indexes access = .ok indexes') :
    claim.undo indexes' access = .ok indexes' := by
  obtain ⟨r, hregistration, h'⟩ := Except.bind_eq_ok_iff.1 h
  cases hderegister : indexes.deregister access r with
  | error f =>
    -- the scope has no index, so nothing changed
    rw [hderegister] at h'
    have hsame : indexes' = indexes := by
      cases f with
      | refused e =>
        dsimp only at h'
        split at h'
        · cases h'
          rfl
        · cases h'
      | crashed => cases h'
    rw [hsame] at h ⊢
    exact h
  | ok changed =>
    rw [hderegister] at h'
    cases h'
    refine Except.bind_eq_ok_iff.2 ⟨r, hregistration, ?_⟩
    rw [ScopeIndexes.deregister_again hderegister]

end Claim

namespace Pool

variable {pool : Pool} {indexes indexes' : ScopeIndexes}

/-- What a pool gave up is gone, so giving it up again changes nothing. -/
theorem undo_again (h : pool.undo indexes = .ok indexes') : pool.undo indexes' = .ok indexes' := by
  obtain ⟨key, hkey, hretract⟩ := Except.bind_eq_ok_iff.1 h
  exact Except.bind_eq_ok_iff.2 ⟨key, hkey, ScopeIndexes.retract_again hretract⟩

end Pool

namespace Controller

variable {c c' : Controller} {rules : List FaultRule} {o o' : Object} {id : ObjectId} {f : Failure}

/-- The controller with other fault rules. -/
def withRules (c : Controller) (rules : List FaultRule) : Controller :=
  { c with access := { c.access with rules } }

/-- The check of the parent is refused, or it is as without faults. -/
theorem checkParent_of_refuses (hrules : c.access.rules = []) (h : Access.Refuses rules) (o : Object) :
    (∃ e, (c.withRules rules).checkParent o = .error (.refused e)) ∨
      (c.withRules rules).checkParent o = c.checkParent o ∧
        (o.kind = .claim → ∀ key,
          (c.withRules rules).access.fetchScope key = c.access.fetchScope key) := by
  obtain ⟨⟨store, _⟩, indexes, ladder, queues, readings⟩ := c
  cases hrules
  cases o with
  | tenant t => exact Or.inr ⟨rfl, nofun⟩
  | scope s =>
    rcases Access.fetchTenant_of_refuses h store with ⟨e, hfetch⟩ | hfetch
    · exact Or.inl (Failure.refused_bind_of_right fun key =>
        Failure.refused_bind_of_left ⟨e, hfetch key⟩)
    · refine Or.inr ⟨?_, nofun⟩
      show s.checkTenant ⟨store, rules⟩ = s.checkTenant ⟨store, []⟩
      unfold Scope.checkTenant
      simp only [hfetch]
  | pool p =>
    rcases Access.fetchScope_of_refuses h store with ⟨e, hfetch⟩ | hfetch
    · exact Or.inl (Failure.refused_bind_of_right fun key =>
        Failure.refused_bind_of_left (ScopeIndexes.readyScope_of_refused hfetch indexes key))
    · refine Or.inr ⟨?_, nofun⟩
      show p.checkScope ⟨store, rules⟩ indexes = p.checkScope ⟨store, []⟩ indexes
      unfold Pool.checkScope ScopeIndexes.readyScope
      simp only [hfetch]
  | claim r =>
    rcases Access.fetchScope_of_refuses h store with ⟨e, hfetch⟩ | hfetch
    · exact Or.inl (Failure.refused_bind_of_right fun registration =>
        Failure.refused_bind_of_left
          (ScopeIndexes.readyScope_of_refused hfetch indexes registration.scopeKey))
    · refine Or.inr ⟨?_, fun _ => hfetch⟩
      show r.checkScope ⟨store, rules⟩ indexes = r.checkScope ⟨store, []⟩ indexes
      unfold Claim.checkScope ScopeIndexes.readyScope
      simp only [hfetch]

/-- Applying an effect reads scopes for claims only, and writes nothing to the store. -/
theorem apply_withRules
    (hfetch : o.kind = .claim → ∀ key,
      (c.withRules rules).access.fetchScope key = c.access.fetchScope key) :
    (c.withRules rules).apply o
      = ((c.apply o).1, (c.apply o).2.1, (c.apply o).2.2.withRules rules) := by
  cases o with
  | tenant t => rfl
  | scope s =>
    unfold apply
    dsimp only
    cases s.checkSpec <;> rfl
  | pool p => rfl
  | claim r =>
    show ((r.apply c.indexes (c.withRules rules).access).1,
      Object.claim (r.apply c.indexes (c.withRules rules).access).2.1,
      { c.withRules rules with indexes := (r.apply c.indexes (c.withRules rules).access).2.2 }) = _
    rw [Claim.apply_congr (hfetch rfl)]
    rfl

/-- The evaluation of an object changes nothing, or ends as it would without faults. -/
theorem evaluate_of_refuses (hrules : c.access.rules = []) (h : Access.Refuses rules) (o : Object) :
    (∃ v o', (c.withRules rules).evaluate o = (some v, o', c.withRules rules)) ∨
      ∃ v o' c', c.evaluate o = (some v, o', c') ∧
        (c.withRules rules).evaluate o = (some v, o', c'.withRules rules) := by
  cases hname : ResourceName.parse o.kind o.info.name with
  | error e => exact Or.inl ⟨_, _, evaluate_of_parse_error hname⟩
  | ok name =>
    rcases checkParent_of_refuses hrules h (o.placed name) with ⟨e, hparent⟩ | ⟨hparent, hfetch⟩
    · exact Or.inl ⟨_, _, evaluate_of_checkParent_error hname hparent⟩
    · obtain ⟨v, o', c', hevaluate, -⟩ := evaluate_outcome hrules o
      refine Or.inr ⟨v, o', c', hevaluate, ?_⟩
      cases hplaced : c.checkParent (o.placed name) with
      | error f =>
        rw [evaluate_of_checkParent_error hname hplaced] at hevaluate
        rw [evaluate_of_checkParent_error hname (hparent.trans hplaced)]
        exact congrArg (fun answer => (answer.1, answer.2.1, answer.2.2.withRules rules)) hevaluate
      | ok _ =>
        rw [evaluate_of_checkParent hname hplaced] at hevaluate
        rw [evaluate_of_checkParent hname (hparent.trans hplaced), apply_withRules hfetch]
        exact congrArg (fun answer => (answer.1, answer.2.1, answer.2.2.withRules rules)) hevaluate

/-! ## Undoing -/

/-- Undoing an effect is refused, or changes nothing, or ends as it would without faults. -/
theorem undo_of_refuses (hrules : c.access.rules = []) (h : Access.Refuses rules) (o : Object) :
    (∃ e, (c.withRules rules).undo o = .error (.refused e)) ∨
      (c.withRules rules).undo o = .ok (c.withRules rules) ∨
        (c.withRules rules).undo o = (c.undo o).map (·.withRules rules) := by
  obtain ⟨⟨store, _⟩, indexes, ladder, queues, readings⟩ := c
  cases hrules
  cases o with
  | tenant t => exact Or.inr (Or.inr rfl)
  | scope s => exact Or.inr (Or.inr rfl)
  | pool p =>
    refine Or.inr (Or.inr ?_)
    show (Failure.lift (p.undo indexes)).map _ = ((Failure.lift (p.undo indexes)).map _).map _
    cases p.undo indexes <;> rfl
  | claim r =>
    rcases Access.fetchScope_of_refuses h store with ⟨e, hfetch⟩ | hfetch
    · rcases Claim.undo_of_refused hfetch r indexes with ⟨e', hundo⟩ | hundo
      · refine Or.inl ⟨e', ?_⟩
        show (r.undo indexes ⟨store, rules⟩).map _ = _
        rw [hundo]
        rfl
      · refine Or.inr (Or.inl ?_)
        show (r.undo indexes ⟨store, rules⟩).map _ = _
        rw [hundo]
        rfl
    · refine Or.inr (Or.inr ?_)
      show (r.undo indexes ⟨store, rules⟩).map _ = ((r.undo indexes ⟨store, []⟩).map _).map _
      rw [Claim.undo_congr hfetch]
      cases r.undo indexes ⟨store, []⟩ <;> rfl

/-- An effect that was undone is undone again without a change. -/
theorem undo_again (h : c.undo o = .ok c') : c'.undo o = .ok c' := by
  cases o with
  | tenant t => rfl
  | scope s =>
    cases h
    show Except.ok (dropScope (c.dropScope s.info.key) s.info.key) = _
    unfold dropScope Ladder.forget
    simp only [SortedMap.erase_erase]
  | pool p =>
    obtain ⟨indexes, hundo, rfl⟩ := Except.map_eq_ok_iff.1 h
    have hagain := Pool.undo_again (Failure.lift_eq_ok_iff.1 hundo)
    exact Except.map_eq_ok_iff.2 ⟨indexes, Failure.lift_eq_ok_iff.2 hagain, rfl⟩
  | claim r =>
    obtain ⟨indexes, hundo, rfl⟩ := Except.map_eq_ok_iff.1 h
    exact Except.map_eq_ok_iff.2 ⟨indexes, Claim.undo_again hundo, rfl⟩

/-! ## Controllers that differ in times -/

/-- The controller with another number of readings of the clock. -/
def withReadings (c : Controller) (readings : Nat) : Controller := { c with readings }

/-- Two controllers are the same but for readings of the clock and the time that one object notes. -/
structure Alike (id : ObjectId) (c c' : Controller) : Prop where
  rules : c'.access.rules = c.access.rules
  log : c'.access.store.log = c.access.store.log
  object : (c'.access.store.get? id).map Object.untimed = (c.access.store.get? id).map Object.untimed
  others : ∀ id', id' ≠ id → c'.access.store.get? id' = c.access.store.get? id'
  indexes : c'.indexes = c.indexes
  ladder : c'.ladder = c.ladder
  queues : c'.queues = c.queues

/-- Controllers that differ in readings of the clock are alike. -/
theorem alike_withReadings (id : ObjectId) (c : Controller) (readings : Nat) :
    Alike id c (c.withReadings readings) :=
  ⟨rfl, rfl, rfl, fun _ _ => rfl, rfl, rfl, rfl⟩

/-- Waking keeps controllers alike. -/
theorem Alike.wake (h : Alike id c c') (id' : ObjectId) : Alike id (c.wake id') (c'.wake id') where
  rules := h.rules
  log := h.log
  object := h.object
  others := h.others
  indexes := h.indexes
  ladder := congrArg (Ladder.reset · _) h.ladder
  queues := congrArg (Queues.modify · id'.kind (·.add id'.key)) h.queues

/-- Alike controllers list the same objects of every kind but that of the object. -/
theorem Alike.list {kind : Kind} (h : Alike id c c') (hkind : kind ≠ id.kind) (space : Option String) :
    c'.access.list kind space = c.access.list kind space := by
  unfold Access.list Access.guarded Access.effect?
  rw [h.rules, Store.list_congr]
  intro id' hid'
  refine h.others id' ?_
  rintro rfl
  exact hkind hid'.symm

/-- Waking listed objects keeps controllers alike. -/
theorem Alike.wakeAll (h : Alike id c c') (kind : Kind) (objects : List Object) :
    Alike id (objects.foldl (fun c o => c.wake ⟨kind, o.key⟩) c)
      (objects.foldl (fun c o => c.wake ⟨kind, o.key⟩) c') := by
  induction objects generalizing c c' with
  | nil => exact h
  | cons o rest ih => exact ih (h.wake _)

/-- A fan-out keeps controllers alike when the kind of the object is not among those that it wakes. -/
theorem Alike.fanOutOver {kinds : List Kind} (h : Alike id c c')
    (hkinds : ∀ dependent ∈ kinds, dependent ≠ id.kind) (kind : Kind) (space : String)
    (source : Placement) :
    (c'.fanOutOver kind space source kinds).1 = (c.fanOutOver kind space source kinds).1 ∧
      Alike id (c.fanOutOver kind space source kinds).2 (c'.fanOutOver kind space source kinds).2 := by
  induction kinds generalizing c c' with
  | nil => exact ⟨rfl, h⟩
  | cons dependent rest ih =>
    obtain ⟨hne, hrest⟩ := List.forall_mem_cons.1 hkinds
    unfold Controller.fanOutOver fanOutTo
    rw [h.list hne]
    cases c.access.list dependent (some space) with
    | error f => exact ⟨rfl, h⟩
    | ok objects =>
      have hwoken := h.wakeAll dependent (objects.filter (concerns kind source dependent))
      obtain ⟨hanswer, halike⟩ := ih hwoken hrest
      dsimp only [bind, Except.bind, pure, Except.pure]
      generalize Controller.fanOutOver _ kind space source rest = answer at hanswer halike ⊢
      generalize Controller.fanOutOver _ kind space source rest = answer' at hanswer halike ⊢
      obtain ⟨result, c₂⟩ := answer
      obtain ⟨_, c₂'⟩ := answer'
      cases hanswer
      cases result <;> exact ⟨rfl, halike⟩

/-- A fan-out of the object finds the same dependents, since no object depends on its own kind. -/
theorem Alike.tryFanOut (h : Alike id c c') : Alike id (c.tryFanOut id).2 (c'.tryFanOut id).2 := by
  unfold Controller.tryFanOut Controller.fanOut fanOutFrom
  cases ResourceName.parse id.kind id.key.name with
  | error e => exact h
  | ok name =>
    obtain ⟨hanswer, halike⟩ := h.fanOutOver (fun dependent => Kind.ne_of_mem_dependents) id.kind
      id.key.space name.placement
    dsimp only
    generalize Controller.fanOutOver _ id.kind id.key.space name.placement id.kind.dependents = answer
      at hanswer halike ⊢
    generalize Controller.fanOutOver _ id.kind id.key.space name.placement id.kind.dependents = answer'
      at hanswer halike ⊢
    obtain ⟨result, c₁⟩ := answer
    obtain ⟨_, c₁'⟩ := answer'
    cases hanswer
    rcases result with (_ | _) | _ <;> exact halike

/-! ## Reporting at another time -/

variable {before after : Object} {v : Verdict} {c₁ c₁' : Controller}

/-- Writing the object back, with another time, keeps controllers alike. -/
theorem Alike.saved (h : Alike id c c') (hid : o.id = id) (hid' : o'.id = id)
    (huntimed : o'.untimed = o.untimed) : Alike id (c.saved o) (c'.saved o') where
  rules := h.rules
  log := by
    show ⟨o'.id, _⟩ :: c'.access.store.log = ⟨o.id, _⟩ :: c.access.store.log
    rw [hid, hid', h.log]
  object := by
    show ((c'.access.store.objects.insert o'.id o').get? id).map _
      = ((c.access.store.objects.insert o.id o).get? id).map _
    rw [hid, hid', SortedMap.get?_insert_self, SortedMap.get?_insert_self, Option.map_some, huntimed]
    rfl
  others id' hne := by
    show (c'.access.store.objects.insert o'.id o').get? id' = (c.access.store.objects.insert o.id o).get? id'
    rw [hid, hid', SortedMap.get?_insert_of_ne _ hne, SortedMap.get?_insert_of_ne _ hne]
    exact h.others id' hne
  indexes := h.indexes
  ladder := h.ladder
  queues := h.queues

/-- How long to wait does not depend on the clock. -/
theorem Alike.delayAfter (h : Alike id c c') (retryName : String) (v : Verdict) :
    (c'.delayAfter retryName v).1 = (c.delayAfter retryName v).1 ∧
      Alike id (c.delayAfter retryName v).2 (c'.delayAfter retryName v).2 := by
  unfold Controller.delayAfter
  rw [h.ladder]
  split
  · exact ⟨rfl, h⟩
  · split
    · exact ⟨rfl, h⟩
    · exact ⟨rfl, { h with ladder := rfl }⟩

/-- Noting a verdict at another time. -/
theorem alike_recordVerdict (id : ObjectId) (c : Controller) (readings : Nat) (o : Object) (v : Verdict) :
    Alike id (c.recordVerdict o v).2 ((c.withReadings readings).recordVerdict o v).2 := by
  unfold recordVerdict
  dsimp only
  split <;> exact ⟨rfl, rfl, rfl, fun _ _ => rfl, rfl, rfl, rfl⟩

/-- A verdict on an object at another time. -/
theorem untimed_recordVerdict (c : Controller) (readings : Nat) (o : Object) (v : Verdict) :
    ((c.withReadings readings).recordVerdict o v).1.untimed = (c.recordVerdict o v).1.untimed := by
  unfold recordVerdict Object.untimed
  rw [Object.mapStatus_mapStatus, Object.mapStatus_mapStatus]
  rfl

/-- A condition that is set to what it was did not change its readiness. -/
theorem Condition.changes_of_set_eq {condition : Condition} {now : Timestamp} {ready : Bool}
    {reason message : String} (h : condition.set now ready reason message = condition) :
    condition.changes ready = false := by
  by_contra hchanges
  rw [Bool.not_eq_false] at hchanges
  have hready := congrArg Condition.ready h
  have hsince := congrArg Condition.since h
  unfold Condition.set at hready hsince
  rw [hchanges] at hsince
  unfold Condition.changes at hchanges
  simp_all

/-- While its readiness stays, a condition keeps its time. -/
theorem Condition.set_of_changes_eq_false {condition : Condition} {ready : Bool}
    (h : condition.changes ready = false) (now now' : Timestamp) (reason message : String) :
    condition.set now ready reason message = condition.set now' ready reason message := by
  unfold Condition.set
  rw [h]
  rfl

/-- What a report writes depends on the clock only if the readiness changes. -/
theorem reported_withReadings (h : after.status.condition.changes v.isReady = false)
    (readings : Nat) : (c.withReadings readings).reported after v = c.reported after v := by
  rw [reported_eq, reported_eq]
  apply Object.mapStatus_congr
  rw [Condition.set_of_changes_eq_false h]

/-- A report that would write nothing would write nothing at another time. -/
theorem reported_eq_of_eq (hcondition : after.status.condition = before.status.condition)
    (h : c.reported after v = before) (readings : Nat) :
    (c.withReadings readings).reported after v = before := by
  rw [reported_withReadings, h]
  have hshown := congrArg (fun o : Object => o.status.condition) h
  rw [reported_eq, Object.status_mapStatus, ← hcondition] at hshown
  exact Condition.changes_of_set_eq hshown

/-- Dependents do not see a time. -/
theorem differsForDependents_untimed (before after : Object) :
    differsForDependents before after.untimed = differsForDependents before after := by
  cases before <;> cases after <;> rfl

/-- Noting a verdict and waking the dependents at another time. -/
theorem alike_told (hid : before.id = id) (hbody : before.SameBody after)
    (hcondition : after.status.condition = before.status.condition) (readings : Nat) :
    Alike id (c.told id before after v) ((c.withReadings readings).told id before after v) := by
  have hnoted := alike_recordVerdict id c readings
    (after.mapStatus fun s => { s with observedGeneration := after.info.generation }) v
  have huntimed : ((c.withReadings readings).reported after v).untimed = (c.reported after v).untimed :=
    untimed_recordVerdict c readings _ v
  have hsame : (c.withReadings readings).reported after v = before ↔ c.reported after v = before := by
    refine ⟨fun h => ?_, fun h => reported_eq_of_eq hcondition h readings⟩
    exact reported_eq_of_eq hcondition h c.readings
  have hdiffers : differsForDependents before ((c.withReadings readings).reported after v)
      = differsForDependents before (c.reported after v) := by
    rw [← differsForDependents_untimed, huntimed, differsForDependents_untimed]
  have hid₁ : (c.reported after v).id = id := by
    rw [reported_eq, (hbody.mapStatus _).id_eq, hid]
  have hid₁' : ((c.withReadings readings).reported after v).id = id := by
    rw [reported_eq, (hbody.mapStatus _).id_eq, hid]
  unfold told
  dsimp only
  rw [hdiffers]
  generalize (c.recordVerdict _ v).2 = noted at hnoted ⊢
  generalize ((c.withReadings readings).recordVerdict _ v).2 = noted' at hnoted ⊢
  have hstored : Alike id
      (if c.reported after v = before then noted else noted.saved (c.reported after v))
      (if (c.withReadings readings).reported after v = before then noted'
        else noted'.saved ((c.withReadings readings).reported after v)) := by
    by_cases h : c.reported after v = before
    · rw [if_pos h, if_pos (hsame.2 h)]
      exact hnoted
    · rw [if_neg h, if_neg (mt hsame.1 h)]
      exact hnoted.saved hid₁ hid₁' huntimed
  split
  · exact hstored.tryFanOut
  · exact hstored

/-- A report at another time. -/
theorem alike_report (hrules : c.access.rules = []) (hget : c.access.store.get? id = some before)
    (hid : before.id = id) (hbody : before.SameBody after)
    (hcondition : after.status.condition = before.status.condition) (readings : Nat) (v : Verdict) :
    ∃ outcome c₁ c₁', c.report id before after v = (.ok outcome, c₁) ∧
      (c.withReadings readings).report id before after v = (.ok outcome, c₁') ∧ Alike id c₁ c₁' := by
  obtain ⟨hdelay, halike⟩ :=
    (alike_told (v := v) (c := c) hid hbody hcondition readings).delayAfter (id.kind.retryName id.key) v
  have hreport := report_eq hrules hget hid hbody v
  have hreport' := report_eq (c := c.withReadings readings) hrules hget hid hbody v
  dsimp only at hreport hreport'
  rw [hdelay] at hreport'
  exact ⟨_, _, _, hreport, hreport', halike⟩

/-! ## Passes at another time -/

/-- Applying an effect does not read the clock. -/
theorem apply_withReadings (c : Controller) (readings : Nat) (o : Object) :
    (c.withReadings readings).apply o
      = ((c.apply o).1, (c.apply o).2.1, (c.apply o).2.2.withReadings readings) := by
  cases o with
  | scope s =>
    unfold apply
    dsimp only
    cases s.checkSpec <;> rfl
  | tenant _ | pool _ | claim _ => rfl

/-- An evaluation does not read the clock. -/
theorem evaluate_withReadings (c : Controller) (readings : Nat) (o : Object) :
    (c.withReadings readings).evaluate o
      = ((c.evaluate o).1, (c.evaluate o).2.1, (c.evaluate o).2.2.withReadings readings) := by
  have hparent : ∀ o, (c.withReadings readings).checkParent o = c.checkParent o := by
    intro o
    cases o <;> rfl
  cases hname : ResourceName.parse o.kind o.info.name with
  | error e => rw [evaluate_of_parse_error hname, evaluate_of_parse_error hname]
  | ok name =>
    cases hplaced : c.checkParent (o.placed name) with
    | error f =>
      rw [evaluate_of_checkParent_error hname hplaced,
        evaluate_of_checkParent_error hname ((hparent _).trans hplaced)]
    | ok _ =>
      rw [evaluate_of_checkParent hname hplaced,
        evaluate_of_checkParent hname ((hparent _).trans hplaced), apply_withReadings]

/-- Undoing an effect does not read the clock. -/
theorem undo_withReadings (c : Controller) (readings : Nat) (o : Object) :
    (c.withReadings readings).undo o = (c.undo o).map (·.withReadings readings) := by
  cases o with
  | tenant _ | scope _ => rfl
  | pool p =>
    show (Failure.lift (p.undo c.indexes)).map _ = ((Failure.lift (p.undo c.indexes)).map _).map _
    cases p.undo c.indexes <;> rfl
  | claim r =>
    show (r.undo c.indexes c.access).map _ = ((r.undo c.indexes c.access).map _).map _
    cases r.undo c.indexes c.access <;> rfl

/-- Putting the finalizer on does not read the clock. -/
theorem ensureFinalizer_withReadings (h : c.ensureFinalizer id o = .ok (before, c')) (readings : Nat) :
    (c.withReadings readings).ensureFinalizer id o = .ok (before, c'.withReadings readings) := by
  unfold ensureFinalizer at h ⊢
  split at h
  · rename_i hfinalizer
    cases h
    rw [if_pos hfinalizer]
    rfl
  · rename_i hfinalizer
    obtain ⟨access, hadd, h⟩ := Except.bind_eq_ok_iff.1 h
    cases h
    rw [if_neg hfinalizer]
    exact Except.bind_eq_ok_iff.2 ⟨access, hadd, rfl⟩

/-- An evaluation does not touch the condition. -/
theorem condition_of_evaluate (hrules : c.access.rules = []) (h : c.evaluate o = (some v, o', c')) :
    o'.status.condition = o.status.condition := by
  have hplaced : ∀ name, (o.placed name).status.condition = o.status.condition := by
    intro name
    rw [Object.placed, Object.status_mapStatus]
  cases hname : ResourceName.parse o.kind o.info.name with
  | error e =>
    cases h.symm.trans (evaluate_of_parse_error hname)
    rfl
  | ok name =>
    cases hparent : c.checkParent (o.placed name) with
    | error f =>
      rw [evaluate_of_checkParent_error hname hparent] at h
      rw [← (Prod.mk.inj (Prod.mk.inj h).2).1, hplaced name]
    | ok _ =>
      rw [evaluate_of_checkParent hname hparent] at h
      rcases apply_outcome hrules hparent with ⟨e, happly⟩ | ⟨o₁, c₁, happly, -⟩
      · rw [happly] at h
        rw [← (Prod.mk.inj (Prod.mk.inj h).2).1, hplaced name]
      · rw [happly] at h
        rw [← (Prod.mk.inj (Prod.mk.inj h).2).1, status_of_apply happly, hplaced name]

/-- A pass that maintains its object, at another time. -/
theorem alike_maintain (hrules : c.access.rules = []) (hget : c.access.store.get? id = some o)
    (hid : o.id = id) (readings : Nat) :
    ∃ outcome c₁ c₁', c.maintain id o = (.ok outcome, c₁) ∧
      (c.withReadings readings).maintain id o = (.ok outcome, c₁') ∧ Alike id c₁ c₁' := by
  obtain ⟨before, cm, hensure, hbefore, hstores⟩ := ensureFinalizer_ok hrules hget
  obtain ⟨v, after, ce, hevaluate, houtcome⟩ := evaluate_outcome hstores.rules before
  have hid₁ : before.id = id := (kept_of_ensureFinalizer hbefore).1.trans hid
  obtain ⟨outcome, c₁, c₁', hreport, hreport', halike⟩ :=
    alike_report (by rw [houtcome.access, hstores.rules])
      (by rw [houtcome.access, hstores.get?_self]) hid₁ houtcome.sameBody
      (condition_of_evaluate hstores.rules hevaluate) readings v
  refine ⟨outcome, c₁, c₁', ?_, ?_, halike⟩
  · unfold maintain
    simp only [hensure, hevaluate, hreport]
  · unfold maintain
    simp only [ensureFinalizer_withReadings hensure, evaluate_withReadings, hevaluate, hreport']

/-- Putting an object off at another time. -/
theorem alike_postponed (hid : o.id = id) (e : RegistryError) (readings : Nat) :
    Alike id (c.postponed id o e) ((c.withReadings readings).postponed id o e) := by
  have hid₁ : ∀ c : Controller, (c.recordVerdict o (.stuck .terminating e)).1.id = id := by
    intro c
    obtain ⟨f, noted, hverdict, -⟩ := c.recordVerdict_eq o (.stuck .terminating e)
    rw [hverdict, ((Object.SameBody.refl o).mapStatus f).id_eq, hid]
  have hsaved := (alike_recordVerdict id c readings o (.stuck .terminating e)).saved (hid₁ _) (hid₁ _)
    (untimed_recordVerdict c readings o (.stuck .terminating e))
  exact { hsaved with ladder := rfl }

/-- Taking the finalizer off at another time. -/
theorem alike_finish (hrules : c.access.rules = []) (hget : c.access.store.get? id = some o)
    (hid : o.id = id) (readings : Nat) :
    ∃ outcome c₁ c₁', c.finish id o = (.ok outcome, c₁) ∧
      (c.withReadings readings).finish id o = (.ok outcome, c₁') ∧ Alike id c₁ c₁' := by
  obtain rfl := hid
  obtain ⟨store, hremove⟩ : ∃ store, c.access.removeFinalizer o.id finalizerName = .ok ⟨store, []⟩ :=
    ⟨_, removeFinalizer_of_rules hrules (Store.removeFinalizer_of_get? finalizerName hget)⟩
  have halike := alike_withReadings o.id { c with
    access := ⟨store, []⟩, ladder := c.ladder.forget (o.id.kind.retryName o.id.key) } readings
  obtain ⟨c₁, hfan, -⟩ := tryFanOut_ok (c := { c with
    access := ⟨store, []⟩, ladder := c.ladder.forget (o.id.kind.retryName o.id.key) }) rfl o.id
  obtain ⟨c₁', hfan', -⟩ := tryFanOut_ok (c := { c.withReadings readings with
    access := ⟨store, []⟩, ladder := c.ladder.forget (o.id.kind.retryName o.id.key) }) rfl o.id
  refine ⟨.removed, c₁, c₁', finish_of_tryFanOut hremove hfan, finish_of_tryFanOut hremove hfan', ?_⟩
  have hwoken : _ = c₁ := congrArg Prod.snd hfan
  have hwoken' : _ = c₁' := congrArg Prod.snd hfan'
  rw [← hwoken, ← hwoken']
  exact halike.tryFanOut

/-- A pass that finalizes its object, at another time. -/
theorem alike_finalize (hrules : c.access.rules = []) (hget : c.access.store.get? id = some o)
    (hid : o.id = id) (readings : Nat) :
    ∃ outcome c₁ c₁', c.finalize id o = (.ok outcome, c₁) ∧
      (c.withReadings readings).finalize id o = (.ok outcome, c₁') ∧ Alike id c₁ c₁' := by
  unfold finalize
  rw [undo_withReadings]
  cases hundo : c.undo o with
  | error f =>
    obtain ⟨e, rfl⟩ := undo_eq_error hrules hundo
    exact ⟨_, _, _, postpone_eq hrules hget hid e,
      postpone_eq (c := c.withReadings readings) hrules hget hid e, alike_postponed hid e readings⟩
  | ok c₁ =>
    obtain ⟨haccess, -⟩ := undo_outcome hrules hundo
    exact alike_finish (by rw [haccess, hrules]) (by rw [haccess, hget]) hid readings

/-- A pass at another time does the same but for the time that it notes. -/
theorem alike_reconcile (h : c.Sound) (id : ObjectId) (readings : Nat) :
    ∃ outcome c₁ c₁', c.reconcile id = (.ok outcome, c₁) ∧
      (c.withReadings readings).reconcile id = (.ok outcome, c₁') ∧ Alike id c₁ c₁' := by
  have h' : (c.withReadings readings).Sound := ⟨h.rules, h.keyed⟩
  cases hget : c.access.store.get? id with
  | none =>
    exact ⟨_, _, _, h.reconcile_of_absent hget, h'.reconcile_of_absent hget,
      alike_withReadings id _ readings⟩
  | some o =>
    have hid := h.keyed id o hget
    cases hdeletion : o.info.deletionRequested with
    | true =>
      rw [h.reconcile_of_deleted hget hdeletion, h'.reconcile_of_deleted hget hdeletion]
      exact alike_finalize h.rules hget hid readings
    | false =>
      rw [h.reconcile_of_live hget hdeletion, h'.reconcile_of_live hget hdeletion]
      exact alike_maintain h.rules hget hid readings

/-! ## Where a pass can fail -/

/-- Noting a verdict reads the clock at most. -/
theorem recordVerdict_snd (c : Controller) (o : Object) (v : Verdict) :
    ∃ readings, (c.recordVerdict o v).2 = c.withReadings readings := by
  unfold recordVerdict
  dsimp only
  split
  · exact ⟨c.readings + 1, rfl⟩
  · exact ⟨c.readings, rfl⟩

/-- A pass that cannot take the finalizer off leaves the controller as it is then. -/
theorem finish_eq_refused {e : RegistryError} (h : c.finish id o = (.error (.refused e), c')) :
    c' = c := by
  unfold finish at h
  split at h
  · cases h
    rfl
  · dsimp only at h
    split at h
    · rename_i hfan
      unfold tryFanOut at hfan
      split at hfan <;> cases hfan
      cases h
    · cases h

/-- A pass that cannot write that it was blocked has read the clock at most. -/
theorem postpone_eq_refused {e e' : RegistryError}
    (h : c.postpone id o e = (.error (.refused e'), c')) : ∃ readings, c' = c.withReadings readings := by
  obtain ⟨readings, hnoted⟩ := c.recordVerdict_snd o (.stuck .terminating e)
  unfold postpone at h
  dsimp only at h
  split at h
  · cases h
    exact ⟨readings, hnoted⟩
  · cases h

/-- A pass that cannot write the status leaves the controller as it is then. -/
theorem report_eq_refused {e : RegistryError}
    (h : c.report id before after v = (.error (.refused e), c')) :
    ∃ readings, c' = c.withReadings readings := by
  obtain ⟨readings, hnoted⟩ := c.recordVerdict_snd
    (after.mapStatus fun s => { s with observedGeneration := after.info.generation }) v
  unfold report at h
  dsimp only at h
  split at h
  · cases h
    exact ⟨readings, hnoted⟩
  · split at h
    · rename_i hfan
      split at hfan
      · unfold tryFanOut at hfan
        split at hfan <;> cases hfan
        cases h
      · cases hfan
    · cases h

/-! ## Passes that go on where another one failed -/

/-- A pass over an object that carries the finalizer reports what its evaluation comes to. -/
theorem reconcile_eq_report (h : c.Sound) (hget : c.access.store.get? id = some before)
    (hdeletion : before.info.deletionRequested = false)
    (hfinalizer : before.info.hasFinalizer finalizerName = true)
    (hevaluate : c.evaluate before = (some v, after, c')) :
    c.reconcile id = c'.report id before after v := by
  have hensure : c.ensureFinalizer id before = .ok (before, c) := by
    unfold ensureFinalizer
    rw [if_pos hfinalizer]
    rfl
  rw [h.reconcile_of_live hget hdeletion]
  unfold maintain
  simp only [hensure, hevaluate]

/-- What was evaluated is evaluated again without a change. -/
theorem evaluate_twice (hrules : c.access.rules = []) (h : c.evaluate o = (some v, o', c')) :
    c'.evaluate o = (some v, o', c') := by
  cases v with
  | ready => exact (evaluate_again hrules h (.refl _ _)).1
  | stuck phase e =>
    obtain ⟨v', o'', c'', h', houtcome⟩ := evaluate_outcome hrules o
    cases h.symm.trans h'
    cases houtcome
    exact h

/-- Up to the clock, `c'` is a state from which a pass over the object does what it does from `c`. -/
def Resumes (id : ObjectId) (c c' : Controller) : Prop :=
  ∃ c₁ : Controller, ∃ readings, c' = c₁.withReadings readings ∧ c₁.Sound ∧
    c₁.reconcile id = c.reconcile id

/-- Fault rules that are set and taken away again leave no trace. -/
theorem withRules_withRules (hrules : c.access.rules = []) (rules : List FaultRule) :
    (c.withRules rules).withRules [] = c := by
  obtain ⟨⟨store, _⟩, indexes, ladder, queues, readings⟩ := c
  cases hrules
  rfl

/-- A state from which a pass does what it would have done is one to resume from, whatever faults there were
and however often the clock was read. -/
theorem resumes_of_reconcile {c₁ : Controller} (h : c₁.Sound)
    (hreconcile : c₁.reconcile id = c.reconcile id) (rules : List FaultRule) (readings : Nat) :
    Resumes id c (((c₁.withRules rules).withReadings readings).withRules []) :=
  ⟨c₁, readings, congrArg (·.withReadings readings) (withRules_withRules h.rules rules), h, hreconcile⟩

/-- Where a pass that finalizes its object was refused a call, it can be resumed: the undoing was refused or
can be done again, or the status or the finalizer was not written. -/
theorem resumes_of_finalize (h : c.Sound) (hrules : Access.Refuses rules) {e : RegistryError}
    (hget : c.access.store.get? id = some o) (hdeletion : o.info.deletionRequested = true)
    (hfail : (c.withRules rules).finalize id o = (.error (.refused e), c')) :
    Resumes id c (c'.withRules []) := by
  have hpostponed : ∀ {e'}, (c.withRules rules).postpone id o e' = (.error (.refused e), c') →
      Resumes id c (c'.withRules []) := by
    intro e' hfail
    obtain ⟨readings, rfl⟩ := postpone_eq_refused hfail
    exact resumes_of_reconcile h rfl rules readings
  unfold finalize at hfail
  rcases undo_of_refuses h.rules hrules o with ⟨e', hundo⟩ | hundo | hundo
  · rw [hundo] at hfail
    exact hpostponed hfail
  · rw [hundo] at hfail
    obtain rfl := finish_eq_refused hfail
    exact resumes_of_reconcile h rfl rules c.readings
  · rw [hundo] at hfail
    cases hundone : c.undo o with
    | error f =>
      obtain ⟨e', rfl⟩ := undo_eq_error h.rules hundone
      rw [hundone] at hfail
      exact hpostponed hfail
    | ok c₁ =>
      rw [hundone] at hfail
      obtain rfl := finish_eq_refused hfail
      -- the effect is undone, and undoing it again changes nothing
      obtain ⟨haccess, -⟩ := undo_outcome h.rules hundone
      have hsound : c₁.Sound := ⟨by rw [haccess, h.rules], by rw [haccess]; exact h.keyed⟩
      refine resumes_of_reconcile hsound ?_ rules c₁.readings
      rw [h.reconcile_of_deleted hget hdeletion,
        hsound.reconcile_of_deleted (by rw [haccess, hget]) hdeletion]
      unfold finalize
      rw [undo_again hundone, hundone]

/-- Putting the finalizer on an object is refused, or goes as without faults. -/
theorem ensureFinalizer_of_refuses (hrules : c.access.rules = []) (h : Access.Refuses rules)
    (hensure : (c.withRules rules).ensureFinalizer id o = .ok (before, c')) :
    ∃ c₁, c.ensureFinalizer id o = .ok (before, c₁) ∧ c' = c₁.withRules rules := by
  obtain ⟨⟨store, _⟩, indexes, ladder, queues, readings⟩ := c
  cases hrules
  unfold ensureFinalizer at hensure ⊢
  split at hensure
  · rename_i hfinalizer
    cases hensure
    rw [if_pos hfinalizer]
    exact ⟨_, rfl, rfl⟩
  · rename_i hfinalizer
    rw [if_neg hfinalizer]
    obtain ⟨access, hadd, hensure⟩ := Except.bind_eq_ok_iff.1 hensure
    obtain ⟨store', hguarded, hstore⟩ := Except.bind_eq_ok_iff.1 hadd
    cases hensure
    cases hstore
    rcases Access.guarded_of_refuses (a := ⟨store, rules⟩) h (store.addFinalizer id finalizerName)
      with hcall | ⟨e, hcall⟩
    · have hadd' : (⟨store, []⟩ : Access).addFinalizer id finalizerName = .ok ⟨store', []⟩ :=
        Except.bind_eq_ok_iff.2 ⟨store', hcall.symm.trans hguarded, rfl⟩
      exact ⟨_, Except.bind_eq_ok_iff.2 ⟨_, hadd', rfl⟩, rfl⟩
    · cases hcall.symm.trans hguarded

/-- Where a pass that maintains its object was refused a call, it can be resumed: the finalizer was not put
on, or the evaluation comes to the same again before the status is written. -/
theorem resumes_of_maintain (h : c.Sound) (hrules : Access.Refuses rules) {e : RegistryError}
    (hget : c.access.store.get? id = some o) (hdeletion : o.info.deletionRequested = false)
    (hfail : (c.withRules rules).maintain id o = (.error (.refused e), c')) :
    Resumes id c (c'.withRules []) := by
  unfold maintain at hfail
  split at hfail
  · cases hfail
    exact resumes_of_reconcile h rfl rules c.readings
  · rename_i before cm hmarked
    obtain ⟨c₁, hensure, rfl⟩ := ensureFinalizer_of_refuses h.rules hrules hmarked
    obtain ⟨_, _, hensure', hbefore, hstores⟩ := ensureFinalizer_ok h.rules hget
    cases hensure.symm.trans hensure'
    obtain ⟨hid, hdeletion'⟩ := kept_of_ensureFinalizer hbefore
    have hid : before.id = id := hid.trans (h.keyed id o hget)
    have hsound : c₁.Sound :=
      ⟨hstores.rules, Store.forall_get?_insert hstores.objects (fun id o _ => h.keyed id o) hid⟩
    have hfinalizer := hasFinalizer_of_ensureFinalizer hensure
    obtain ⟨v, after, c₂, hevaluate, houtcome⟩ := evaluate_outcome hsound.rules before
    -- what passes from the three states come to
    have hreport : c.reconcile id = c₂.report id before after v := by
      rw [h.reconcile_of_live hget hdeletion]
      unfold maintain
      simp only [hensure, hevaluate]
    have hreport₁ : c₁.reconcile id = c₂.report id before after v :=
      reconcile_eq_report hsound hstores.get?_self (hdeletion'.trans hdeletion) hfinalizer hevaluate
    have hsound₂ : c₂.Sound :=
      ⟨by rw [houtcome.access, hsound.rules], by rw [houtcome.access]; exact hsound.keyed⟩
    have hreport₂ : c₂.reconcile id = c₂.report id before after v :=
      reconcile_eq_report hsound₂ (by rw [houtcome.access, hstores.get?_self])
        (hdeletion'.trans hdeletion) hfinalizer (evaluate_twice hsound.rules hevaluate)
    rcases evaluate_of_refuses hsound.rules hrules before with
      ⟨v', after', hstuck⟩ | ⟨_, _, _, hevaluate', heffect⟩
    · rw [hstuck] at hfail
      obtain ⟨readings, rfl⟩ := report_eq_refused hfail
      exact resumes_of_reconcile hsound (hreport₁.trans hreport.symm) rules readings
    · cases hevaluate.symm.trans hevaluate'
      rw [heffect] at hfail
      obtain ⟨readings, rfl⟩ := report_eq_refused hfail
      exact resumes_of_reconcile hsound₂ (hreport₂.trans hreport.symm) rules readings

/-- A pass that ended with a refused call leaves a state from which a pass does what it would have done. -/
theorem resumes_of_reconcile_eq_refused (h : c.Sound) (hrules : Access.Refuses rules) {e : RegistryError}
    (hfail : (c.withRules rules).reconcile id = (.error (.refused e), c')) :
    Resumes id c (c'.withRules []) := by
  unfold reconcile at hfail
  rcases Access.fetch_of_refuses hrules c.access.store id.kind with ⟨e', hfetch⟩ | hfetch
  · have hfetch : (c.withRules rules).access.fetch id.kind id.key = .error (.refused e') := hfetch id.key
    rw [hfetch] at hfail
    cases hfail
    exact resumes_of_reconcile h rfl rules c.readings
  · have hfetch : (c.withRules rules).access.fetch id.kind id.key = .ok (c.access.store.get? id) := by
      refine (hfetch id.key).trans ?_
      exact Access.fetch_of_keyed (a := ⟨c.access.store, []⟩) rfl h.keyed id
    rw [hfetch] at hfail
    cases hget : c.access.store.get? id with
    | none =>
      rw [hget] at hfail
      cases hfail
    | some o =>
      rw [hget] at hfail
      dsimp only at hfail
      split at hfail
      · rename_i hdeletion
        exact resumes_of_finalize h hrules hget hdeletion hfail
      · rename_i hlive
        exact resumes_of_maintain h hrules hget (Bool.eq_false_of_not_eq_true hlive) hfail

/-- A pass that the store ended by refusing a call, such as the writing of a status or the removal of a
finalizer, does no harm: the next pass without faults ends with the outcome that a pass without faults
from the state before would have ended with, and leaves the same indexes, retry counters and queues and
the same store, up to the time of the last change that the object notes. -/
theorem reconcile_after_refused (h : c.Sound) (hrules : Access.Refuses rules) {e : RegistryError}
    (hfail : (c.withRules rules).reconcile id = (.error (.refused e), c')) :
    ∃ outcome c₁ c₁', c.reconcile id = (.ok outcome, c₁) ∧
      (c'.withRules []).reconcile id = (.ok outcome, c₁') ∧ Alike id c₁ c₁' := by
  obtain ⟨c₂, readings, hresumed, hsound, hreconcile⟩ := resumes_of_reconcile_eq_refused h hrules hfail
  obtain ⟨outcome, c₁, c₁', hpass, hpass', halike⟩ := alike_reconcile hsound id readings
  rw [hresumed]
  exact ⟨outcome, c₁, c₁', hreconcile.symm.trans hpass, hpass', halike⟩

end Controller

/-- No status can be written. -/
def Lab.outage : List FaultRule := [⟨.updateStatus, none, .fail (.store (.reported "unavailable"))⟩]

namespace Controller

/-- A dynamic claim of the sample registry obtains its address although its status could not be written at
first. -/
theorem reconcile_after_refused_sample :
    ∃ e c', ((Lab.after Lab.allocating).withRules Lab.outage).reconcile Lab.edgeId
        = (.error (.refused e), c') ∧
      ∃ outcome c₁ c₁', (Lab.after Lab.allocating).reconcile Lab.edgeId = (.ok outcome, c₁) ∧
        (c'.withRules []).reconcile Lab.edgeId = (.ok outcome, c₁') ∧ Alike Lab.edgeId c₁ c₁' := by
  have hrules : Access.Refuses Lab.outage := by
    intro rule hrule
    exact ⟨_, by rw [List.mem_singleton.1 hrule]⟩
  have hfail : (((Lab.after Lab.allocating).withRules Lab.outage).reconcile Lab.edgeId).1
      = .error (.refused (.store (.reported "unavailable"))) := by
    decide +kernel
  have hpass : ((Lab.after Lab.allocating).withRules Lab.outage).reconcile Lab.edgeId
      = (.error (.refused (.store (.reported "unavailable"))), _) := Prod.ext hfail rfl
  exact ⟨_, _, hpass, reconcile_after_refused (Lab.after_reachable _).sound hrules hpass⟩

end Controller

end AddressRegistry
