import AddressRegistry.Proofs.Reconcile.FanOut
import AddressRegistry.Proofs.Reconcile.Removal

/-!
# What a retry counter counts

A pass that fails has the counter of its object climb one rung, unless only an operator can mend the failure
(`Outcome.climbs`), and so has a worker whose pass came to no outcome. A fan-out puts the counters of the
dependents back to the bottom, a change that is heard of also the counter of the changed object, and an object
that goes loses its counter (`Episode.cleared`). A fan-out never wakes an object of the kind that it starts
from, and counters of different kinds have different names, so a pass does not put back the counter that it
climbs with (`Controller.retryName_notMem_dependentsOf`).

So a counter stands at the number of its climbs since it was last put back (`Controller.rung_outlive`), and a
failing pass ends with the delay for that number (`Controller.delay_counts_climbs`). These need not be failures
in a row: a pass that ends ready leaves the counter where it is (`relapsed_tenant_waits`).
-/

namespace AddressRegistry

/-! ## Names of counters -/

/-- The name under which the retries of an object are counted. -/
def ObjectId.retryName (id : ObjectId) : String := id.kind.retryName id.key

/-- The name of a counter begins as its kind does. -/
theorem Kind.head?_retryName (kind : Kind) (key : ObjectKey) :
    (kind.retryName key).toList.head? = kind.label.toList.head? := by
  have hlabel : kind.label.toList ≠ [] := by cases kind <;> decide
  rw [retryName, String.append_assoc, String.toList_append, List.head?_append_of_ne_nil _ hlabel]

/-- The names of counters of different kinds begin with different letters. -/
theorem Kind.retryName_ne {kind kind' : Kind} (h : kind ≠ kind') (key key' : ObjectKey) :
    kind.retryName key ≠ kind'.retryName key' := by
  intro heq
  have hhead : (kind.retryName key).toList.head? = (kind'.retryName key').toList.head? := by rw [heq]
  rw [head?_retryName, head?_retryName] at hhead
  revert hhead h
  cases kind <;> cases kind' <;> decide

/-! ## Ladders on which everybody stands alike -/

namespace Ladder

variable {l l' l'' : Ladder} {names : List String} {name : String}

/-- Every name has the same rung on both ladders. -/
structure StandsAs (l l' : Ladder) : Prop where
  policy_eq : l.policy = l'.policy
  rung_eq : ∀ name, l.rung name = l'.rung name

/-- Everybody stands on a ladder where they stand. -/
theorem StandsAs.refl (l : Ladder) : l.StandsAs l := ⟨rfl, fun _ => rfl⟩

/-- Standing alike is transitive. -/
theorem StandsAs.trans (h : l.StandsAs l') (h' : l'.StandsAs l'') : l.StandsAs l'' :=
  ⟨h.policy_eq.trans h'.policy_eq, fun name => (h.rung_eq name).trans (h'.rung_eq name)⟩

/-- Beginning to track a name puts it at the bottom, where who is not tracked stands anyway. -/
theorem standsAs_track (l : Ladder) (name : String) : (l.track name).StandsAs l :=
  ⟨policy_track l name, rung_track l name⟩

/-- Who is forgotten starts at the bottom. -/
theorem standsAs_forget (l : Ladder) (name : String) : (l.forget name).StandsAs (l.reset name) :=
  ⟨rfl, fun name' => by rw [rung_forget, rung_reset]⟩

/-- Putting the same name back to the bottom keeps ladders alike. -/
theorem StandsAs.reset (h : l.StandsAs l') (name : String) : (l.reset name).StandsAs (l'.reset name) :=
  ⟨h.policy_eq, fun name' => by rw [rung_reset, rung_reset, h.rung_eq]⟩

/-- Putting the same names back to the bottom keeps ladders alike. -/
theorem StandsAs.foldl_reset (h : l.StandsAs l') (names : List String) :
    (names.foldl Ladder.reset l).StandsAs (names.foldl Ladder.reset l') := by
  induction names generalizing l l' with
  | nil => exact h
  | cons name rest ih => exact ih (h.reset name)

/-- Who is put back stands at the bottom, and nobody else is moved. -/
theorem rung_foldl_reset (l : Ladder) (names : List String) (name : String) :
    (names.foldl Ladder.reset l).rung name = if name ∈ names then 0 else l.rung name := by
  rw [rung, counter?_foldl_reset]
  split <;> rfl

/-- Where nobody else was put back, putting back one name again makes no difference. -/
theorem StandsAs.reset_of (h : l'.StandsAs (names.foldl Ladder.reset l)) (hnames : ∀ n ∈ names, n = name) :
    (l'.reset name).StandsAs (l.reset name) where
  policy_eq := h.policy_eq.trans (policy_foldl_reset l names)
  rung_eq name' := by
    rw [rung_reset, rung_reset, h.rung_eq, rung_foldl_reset]
    split
    · rfl
    · rename_i hne
      exact if_neg fun hmem => hne (hnames name' hmem)

/-- A ladder after some names were put back to the bottom and one climbed, if any did. -/
structure Moved (l : Ladder) (cleared : List String) (climber? : Option String) (l' : Ladder) : Prop where
  policy_eq : l'.policy = l.policy
  rung_eq : ∀ name, l'.rung name =
    if name ∈ cleared then 0
    else if climber? = some name then climb l.policy.cap (l.rung name)
    else l.rung name

/-- A ladder on which everybody stands as if some names had been put back has moved so. -/
theorem StandsAs.moved (h : l'.StandsAs (names.foldl Ladder.reset l)) : l.Moved names none l' where
  policy_eq := h.policy_eq.trans (policy_foldl_reset l names)
  rung_eq name := by
    rw [h.rung_eq, rung_foldl_reset]
    simp

/-- A name climbs after some others were put back. It is none of them, so it climbs from where it stood. -/
theorem StandsAs.moved_next {own : String} (hown : own ∉ names)
    (h : l'.StandsAs ((names.foldl Ladder.reset l).next own).2) : l.Moved names (some own) l' where
  policy_eq := h.policy_eq.trans (policy_foldl_reset l names)
  rung_eq name := by
    rw [h.rung_eq, rung_next, rung_foldl_reset, rung_foldl_reset, policy_foldl_reset, if_neg hown]
    by_cases hname : name = own
    · simp [hname, hown]
    · simp [hname, Ne.symm hname]

/-- How a ladder moves depends on where everybody stands. -/
theorem StandsAs.moved_of (h : l.StandsAs l') {climber? : Option String} (hmoved : l.Moved names climber? l'') :
    l'.Moved names climber? l'' where
  policy_eq := hmoved.policy_eq.trans h.policy_eq
  rung_eq name := by rw [hmoved.rung_eq, h.policy_eq, h.rung_eq]

end Ladder

/-! ## Who is woken -/

namespace Controller

variable {c c' : Controller} {id : ObjectId} {o before after : Object} {v : Verdict}

/-- Nobody depends on an object of its own kind, so no fan-out resets the counter of its own object. -/
theorem retryName_notMem_dependentsOf (c : Controller) (id : ObjectId) :
    id.retryName ∉ (c.dependentsOf id).map ObjectId.retryName := by
  intro hmem
  obtain ⟨d, hd, hname⟩ := List.mem_map.1 hmem
  exact Kind.retryName_ne (Kind.ne_of_mem_dependents (mem_dependents_of_mem_dependentsOf hd)) d.key id.key hname

/-- Waking objects puts their counters back to the bottom. -/
theorem ladder_wakeAll_map (c : Controller) (ids : List ObjectId) :
    (c.wakeAll ids).ladder = (ids.map ObjectId.retryName).foldl Ladder.reset c.ladder :=
  c.ladder_wakeAll ids

/-- A fan-out puts the counters of the dependents back to the bottom. -/
theorem ladder_tryFanOut (c : Controller) (id : ObjectId) :
    (c.tryFanOut id).2.ladder = ((c.dependentsOf id).map ObjectId.retryName).foldl Ladder.reset c.ladder := by
  rw [tryFanOut_eq_dependentsOf, ladder_wakeAll_map]

end Controller

/-! ## Failures that climb -/

/-- The reasons of errors that only an operator can mend. -/
def operatorReasons : List String := ["AddressSpaceExhausted", "MissingConfiguration"]

/-- The reasons by which errors are reported tell which of them need an operator. -/
theorem RegistryError.reason_mem_operatorReasons (e : RegistryError) :
    e.reason ∈ operatorReasons ↔ e.needsOperator = true := by
  cases e <;> simp [operatorReasons, reason, needsOperator]

/-- A pass ended with a failure that its counter takes note of: an effect that could not be undone, or an
error that needs no operator. -/
def Outcome.climbs (o : Outcome) : Bool :=
  o.reason.any fun reason => o.phase == .terminating || decide (reason ∉ operatorReasons)

/-- A verdict that the counter takes note of. -/
def Verdict.climbs : Verdict → Bool
  | .ready => false
  | .stuck _ e => !e.needsOperator

/-- The pass came to an outcome that climbs. -/
def climbed (result : Except Failure Outcome) : Bool := result.toOption.any Outcome.climbs

namespace Controller

variable {c c' : Controller} {id : ObjectId} {o before after : Object} {v : Verdict}

/-- An outcome in a phase of the living climbs when its verdict does. -/
theorem climbs_of_isLive (h : v.phase.isLive = true) (delay : Option Nat) :
    (Outcome.mk v.phase v.isReady v.failure? delay).climbs = v.climbs := by
  cases v with
  | ready => rfl
  | stuck phase e =>
    have hphase : (phase == Phase.terminating) = false := by
      cases phase <;> simp_all [Verdict.phase, Phase.isLive]
    simp [Outcome.climbs, Verdict.climbs, Verdict.failure?, Verdict.phase, hphase,
      e.reason_mem_operatorReasons]

/-! ## What a pass does to the ladder -/

/-- Applying an effect moves nobody: a scope that is set up is tracked from then on. -/
theorem standsAs_apply (c : Controller) (o : Object) : (c.apply o).2.2.ladder.StandsAs c.ladder := by
  cases o with
  | tenant t => exact .refl _
  | scope s =>
    unfold apply
    dsimp only
    split
    · exact Ladder.standsAs_track _ _
    · exact .refl _
  | pool p => exact .refl _
  | claim r => exact .refl _

/-- An evaluation leaves everybody on their rungs. -/
theorem standsAs_evaluate (c : Controller) (o : Object) : (c.evaluate o).2.2.ladder.StandsAs c.ladder := by
  unfold evaluate
  cases ResourceName.parse o.kind o.info.name with
  | error e => exact .refl _
  | ok name =>
    dsimp only
    split
    · exact .refl _
    · exact c.standsAs_apply _

/-- Dropping the index of a scope forgets its counter. -/
theorem standsAs_undo (hid : o.id = id) (h : c.undo o = .ok c') :
    c'.ladder.StandsAs ((if id.kind = .scope then [id.retryName] else []).foldl Ladder.reset c.ladder) := by
  subst hid
  cases o with
  | tenant t =>
    cases h
    exact .refl _
  | scope s =>
    cases h
    exact Ladder.standsAs_forget _ _
  | pool p =>
    obtain ⟨indexes, -, rfl⟩ := Except.map_eq_ok_iff.1 h
    exact .refl _
  | claim r =>
    obtain ⟨indexes, -, rfl⟩ := Except.map_eq_ok_iff.1 h
    exact .refl _

/-- A verdict that climbs waits as long as the rung says, and any other one for the poll interval. -/
theorem delayAfter_fst (c : Controller) (name : String) (v : Verdict) :
    (c.delayAfter name v).1 =
      if v.climbs then c.ladder.policy.delayFor (c.ladder.rung name) else c.ladder.policy.poll := by
  cases v with
  | ready => rfl
  | stuck phase e =>
    show (if e.needsOperator then _ else _ : Nat × Controller).1 = if !e.needsOperator then _ else _
    cases e.needsOperator <;> rfl

/-- A verdict that climbs takes one rung, and no other one moves the ladder. -/
theorem ladder_delayAfter (c : Controller) (name : String) (v : Verdict) :
    (c.delayAfter name v).2.ladder = if v.climbs then (c.ladder.next name).2 else c.ladder := by
  cases v with
  | ready => rfl
  | stuck phase e =>
    show (if e.needsOperator then _ else _ : Nat × Controller).2.ladder = if !e.needsOperator then _ else _
    cases e.needsOperator <;> rfl

/-- Nobody sees a difference where there is none. -/
theorem differsForDependents_self (o : Object) : differsForDependents o o = false := by
  cases o <;> simp [differsForDependents]

/-- The ladder after some objects were woken. -/
def ladderAfter (c : Controller) (woken : List ObjectId) : Ladder :=
  (woken.map ObjectId.retryName).foldl Ladder.reset c.ladder

/-- How a pass ends with a verdict after some objects were woken: the counter of its object may climb, unless
the pass was cut short. -/
def Concludes (c : Controller) (id : ObjectId) (v : Verdict) (woken : List ObjectId)
    (ended : Except Failure Outcome × Controller) : Prop :=
  let l := c.ladderAfter woken
  (∃ f, ended.1 = .error f) ∧ ended.2.ladder = l ∨
    ended.1 = .ok ⟨v.phase, v.isReady, v.failure?,
      some (if v.climbs then l.policy.delayFor (l.rung id.retryName) else l.policy.poll)⟩ ∧
    ended.2.ladder = if v.climbs then (l.next id.retryName).2 else l

/-- How a pass concludes depends on the ladder that it starts with. -/
theorem Concludes.of_ladder {woken : List ObjectId} {ended : Except Failure Outcome × Controller}
    (h : c'.Concludes id v woken ended) (hladder : c'.ladder = c.ladder) : c.Concludes id v woken ended := by
  unfold Concludes ladderAfter at h ⊢
  rwa [hladder] at h

/-- Telling of a verdict wakes who can see a difference. -/
theorem concludes_tell (c : Controller) (id : ObjectId) (before object : Object) (v : Verdict) :
    c.Concludes id v (if differsForDependents before object then c.dependentsOf id else [])
      (c.tell id before object v) := by
  have hladder : (if differsForDependents before object then c.tryFanOut id else (.ok (), c)).2.ladder
      = c.ladderAfter (if differsForDependents before object then c.dependentsOf id else []) := by
    split
    · exact c.ladder_tryFanOut id
    · rfl
  unfold Concludes
  rw [← hladder]
  dsimp only
  rw [← ladder_delayAfter, ← delayAfter_fst]
  unfold tell
  split
  · rename_i f c' hfan
    rw [hfan]
    exact Or.inl ⟨⟨f, rfl⟩, rfl⟩
  · rename_i c' hfan
    rw [hfan]
    exact Or.inr ⟨rfl, rfl⟩

/-- Whom a pass over an object wakes in whose status dependents could see a difference. -/
def wokenFor (c : Controller) (id : ObjectId) (before : Object) : List ObjectId :=
  if (c.access.store.get? id).any (differsForDependents before) then c.dependentsOf id else []

/-- A pass wakes objects of other kinds, so the counter of its own object is not among those that it puts
back. -/
theorem retryName_notMem_wokenFor (c : Controller) (id : ObjectId) (before : Object) :
    id.retryName ∉ (c.wokenFor id before).map ObjectId.retryName := by
  unfold wokenFor
  split
  · exact c.retryName_notMem_dependentsOf id
  · exact List.not_mem_nil

/-- A report saves the object and tells of the verdict, unless the store refuses; then nobody was woken. -/
theorem concludes_report (hget : c.access.store.get? id = some before) (hid : before.id = id)
    (hbody : before.SameBody after) (v : Verdict) :
    c.Concludes id v ((c.report id before after v).2.wokenFor id before) (c.report id before after v) := by
  -- the object is written back first, and dependents are woken by what is stored then
  unfold report
  have hobserved := hbody.mapStatus fun s => { s with observedGeneration := after.info.generation }
  generalize after.mapStatus (fun s => { s with observedGeneration := after.info.generation }) = observed at *
  obtain ⟨f, c₁, hverdict, hagrees⟩ := c.recordVerdict_eq observed v
  have hladder : c₁.ladder = c.ladder := by
    rw [← c.ladder_recordVerdict observed v, hverdict]
  have hobject := hobserved.mapStatus f
  dsimp only
  rw [hverdict]
  generalize observed.mapStatus f = object at *
  dsimp only
  rw [← hagrees.access] at hget
  cases hsave : (if object = before then .ok c₁ else c₁.saveStatus object) with
  | error f =>
    refine Or.inl ⟨⟨f, rfl⟩, ?_⟩
    unfold wokenFor
    dsimp only
    rw [hget, Option.any_some, differsForDependents_self]
    exact hladder
  | ok c₂ =>
    obtain ⟨-, hobjects⟩ := objects_of_save hget hid hobject hsave
    have hladder₂ : c₂.ladder = c.ladder := by
      rw [← hladder]
      split at hsave
      · cases hsave
        rfl
      · obtain ⟨store, -, rfl⟩ := saveStatus_frame hsave
        rfl
    have hstored : c₂.access.store.get? id = some object := by
      unfold Store.get?
      rw [hobjects, SortedMap.get?_insert_self]
    show c.Concludes id v ((c₂.tell id before object v).2.wokenFor id before) (c₂.tell id before object v)
    have haccess := c₂.access_tell id before object v
    unfold wokenFor
    rw [dependentsOf_congr haccess, haccess, hstored, Option.any_some]
    exact (c₂.concludes_tell id before object v).of_ladder hladder₂

end Controller

/-- A ladder counts a pass: it puts some names back to the bottom, and the object of the pass climbs if the pass
ended with a failure that climbs. The object then waits as long as its rung says. -/
structure Ladder.Counts (l : Ladder) (cleared : List String) (own : String)
    (ended : Except Failure Outcome × Controller) : Prop where
  moved : l.Moved cleared (if climbed ended.1 then some own else none) ended.2.ladder
  delay : ∀ outcome, ended.1 = .ok outcome → outcome.climbs = true →
    outcome.requeueAfter = some (l.policy.delayFor (l.rung own))

namespace Ladder

variable {l l' : Ladder} {names : List String} {own : String} {ended : Except Failure Outcome × Controller}

/-- A pass without a failure that climbs. -/
theorem StandsAs.counts (h : ended.2.ladder.StandsAs (names.foldl Ladder.reset l))
    (hclimbed : climbed ended.1 = false) : l.Counts names own ended where
  moved := by
    rw [hclimbed]
    exact h.moved
  delay outcome hok hclimbs := by
    rw [hok] at hclimbed
    cases hclimbs.symm.trans hclimbed

/-- How a pass is counted depends on where everybody stands. -/
theorem StandsAs.counts_of (h : l.StandsAs l') (hcounts : l.Counts names own ended) :
    l'.Counts names own ended where
  moved := h.moved_of hcounts.moved
  delay outcome hok hclimbs := by rw [hcounts.delay outcome hok hclimbs, h.policy_eq, h.rung_eq]

end Ladder

namespace Controller

variable {c c' : Controller} {id : ObjectId} {o before after : Object} {v : Verdict}

/-- A conclusion is counted: those who were woken are put back, and the own counter climbs if the verdict
does. -/
theorem Concludes.counts {woken : List ObjectId} {ended : Except Failure Outcome × Controller}
    (h : c.Concludes id v woken ended) (hlive : v.phase.isLive = true)
    (hown : id.retryName ∉ woken.map ObjectId.retryName) :
    c.ladder.Counts (woken.map ObjectId.retryName) id.retryName ended := by
  obtain ⟨result, c'⟩ := ended
  obtain ⟨⟨f, hfailed⟩, hladder⟩ | ⟨hended, hladder⟩ := h
  · obtain rfl : result = .error f := hfailed
    refine Ladder.StandsAs.counts ?_ rfl
    rw [hladder]
    exact .refl _
  · obtain rfl := hended
    have hlast : ∀ delay, climbed (.ok ⟨v.phase, v.isReady, v.failure?, delay⟩) = v.climbs :=
      fun delay => climbs_of_isLive hlive delay
    cases hclimbs : v.climbs with
    | false =>
      refine Ladder.StandsAs.counts ?_ ((hlast _).trans hclimbs)
      rw [hladder, hclimbs]
      exact .refl _
    | true =>
      refine ⟨?_, fun outcome hok _ => ?_⟩
      · rw [hlast, hladder, hclimbs]
        exact (Ladder.StandsAs.refl _).moved_next hown
      · cases hok
        dsimp only
        rw [if_pos rfl, ladderAfter, Ladder.policy_foldl_reset, Ladder.rung_foldl_reset, if_neg hown]

/-! ## Whole passes -/

/-- A finalizer makes no difference to dependents. -/
theorem differsForDependents_marked (o object : Object) (finalizer : String) :
    differsForDependents (Store.marked o finalizer) object = differsForDependents o object := by
  cases o <;> cases object <;> rfl

/-- A pass that maintains its object is counted. -/
theorem counts_maintain (hget : c.access.store.get? id = some o) (hid : o.id = id) :
    let ended := c.maintain id o
    c.ladder.Counts ((ended.2.wokenFor id o).map ObjectId.retryName) id.retryName ended := by
  have hnone : ∀ {ended : Except Failure Outcome × Controller} {f : Failure} {stored : Object},
      ended.1 = .error f → ended.2.ladder.StandsAs c.ladder →
      ended.2.access.store.get? id = some stored → differsForDependents o stored = false →
      c.ladder.Counts ((ended.2.wokenFor id o).map ObjectId.retryName) id.retryName ended := by
    intro ended f stored hfailed hladder hstored hsame
    unfold wokenFor
    rw [hstored, Option.any_some, hsame]
    refine Ladder.StandsAs.counts hladder ?_
    rw [hfailed]
    rfl
  unfold maintain
  cases hensure : c.ensureFinalizer id o with
  | error f => exact hnone rfl (.refl _) hget (differsForDependents_self o)
  | ok answer =>
    obtain ⟨before, c₁⟩ := answer
    obtain ⟨hbefore, -, hobjects⟩ := objects_of_ensureFinalizer hget hensure
    have hladder : c₁.ladder = c.ladder := by
      rcases ensureFinalizer_frame hensure with ⟨-, -, rfl⟩ | ⟨-, store, -, rfl⟩ <;> rfl
    -- the finalizer is no difference that dependents could see
    have hsees : differsForDependents before = differsForDependents o := by
      rcases hbefore with rfl | rfl
      · rfl
      · exact funext fun object => differsForDependents_marked o object _
    have hstands := c₁.standsAs_evaluate before
    dsimp only
    rcases hevaluate : c₁.evaluate before with ⟨_ | v, after, c₂⟩ <;> rw [hevaluate, hladder] at hstands <;>
      obtain ⟨hbody, haccess⟩ := evaluate_frame hevaluate
    all_goals
      have hget₂ : c₂.access.store.get? id = some before := by
        unfold Store.get?
        rw [haccess, hobjects, SortedMap.get?_insert_self]
    · exact hnone rfl hstands hget₂ (by rw [← hsees, differsForDependents_self])
    · have hconcludes := concludes_report hget₂ ((kept_of_ensureFinalizer hbefore).1.trans hid) hbody v
      have hwoken := retryName_notMem_wokenFor (c₂.report id before after v).2 id before
      have hcounts := hstands.counts_of (hconcludes.counts (isLive_of_evaluate hevaluate) hwoken)
      rwa [wokenFor, hsees] at hcounts

/-- A pass that puts its object off is counted: nobody is put back, and the own counter climbs. -/
theorem counts_postpone (c : Controller) (id : ObjectId) (o : Object) (e : RegistryError) :
    c.ladder.Counts [] id.retryName (c.postpone id o e) := by
  unfold postpone
  have hladder := c.ladder_recordVerdict o (.stuck .terminating e)
  rcases hverdict : c.recordVerdict o (.stuck .terminating e) with ⟨object, c₁⟩
  rw [hverdict] at hladder
  dsimp only at hladder ⊢
  rw [← hladder]
  cases hsave : c₁.saveStatus object with
  | error f =>
    dsimp only
    exact (Ladder.StandsAs.refl _).counts rfl
  | ok c₂ =>
    obtain ⟨store, -, rfl⟩ := saveStatus_frame hsave
    dsimp only
    refine ⟨(Ladder.StandsAs.refl _).moved_next List.not_mem_nil, fun outcome hok _ => ?_⟩
    cases hok
    rfl

/-- An object that goes is forgotten, and what depended on it is woken. -/
theorem counts_finish (hid : o.id = id)
    (hladder : c'.ladder.StandsAs
      ((if id.kind = .scope then [id.retryName] else []).foldl Ladder.reset c.ladder)) :
    let accepted := (c'.access.removeFinalizer o.id finalizerName).isOk
    c.ladder.Counts
      ((if accepted || id.kind == .scope then [id.retryName] else [])
        ++ (if accepted then (c'.finish id o).2.dependentsOf id else []).map ObjectId.retryName)
      id.retryName (c'.finish id o) := by
  intro accepted
  unfold finish
  cases hremove : c'.access.removeFinalizer o.id finalizerName with
  | error f =>
    have hrefused : accepted = false := congrArg Except.isOk hremove
    rw [hrefused]
    simpa using hladder.counts rfl
  | ok access =>
    have haccepted : accepted = true := congrArg Except.isOk hremove
    rw [haccepted]
    let forgotten : Controller := { c' with access, ladder := c'.ladder.forget id.retryName }
    show c.ladder.Counts ([id.retryName] ++ ((forgotten.tellGone o).2.dependentsOf id).map _) _
      (forgotten.tellGone o)
    rw [dependentsOf_congr (forgotten.access_tellGone o), ← hid]
    have htold : (forgotten.tellGone o).2 = (forgotten.tryFanOut o.id).2 ∧
        climbed (forgotten.tellGone o).1 = false := by
      unfold tellGone
      split <;> rename_i hfan <;> rw [hfan] <;> exact ⟨rfl, rfl⟩
    refine Ladder.StandsAs.counts ?_ htold.2
    rw [htold.1, ladder_tryFanOut, List.singleton_append, List.foldl_cons]
    refine Ladder.StandsAs.foldl_reset ?_ _
    rw [hid]
    refine (Ladder.standsAs_forget c'.ladder id.retryName).trans (hladder.reset_of fun n hn => ?_)
    split at hn
    · exact List.mem_singleton.1 hn
    · cases hn

/-- The pass ends the counter of its object: the object is gone, or is a scope whose index was dropped. -/
def forgets (c : Controller) (id : ObjectId) : Bool :=
  match c.access.fetch id.kind id.key with
  | .error _ => false
  | .ok none => true
  | .ok (some _) => (c.cleanup? id).any fun x => !x.refused || id.kind == .scope

/-- Whom a pass wakes: when an object goes, or when dependents could see a difference in its status. -/
def wokenBy (c : Controller) (id : ObjectId) : List ObjectId :=
  match c.access.fetch id.kind id.key with
  | .ok (some o) =>
    if o.info.deletionRequested then
      if (c.cleanup? id).any (!·.refused) then (c.reconcile id).2.dependentsOf id else []
    else
      (c.reconcile id).2.wokenFor id o
  | _ => []

/-- The names that a pass puts back to the bottom. -/
def clearedBy (c : Controller) (id : ObjectId) : List String :=
  (if c.forgets id then [id.retryName] else []) ++ (c.wokenBy id).map ObjectId.retryName

/-- A pass over an object that is to stay puts back those whom it wakes. -/
theorem clearedBy_of_live (hfetch : c.access.fetch id.kind id.key = .ok (some o))
    (hlive : o.info.deletionRequested = false) :
    c.clearedBy id = ((c.reconcile id).2.wokenFor id o).map ObjectId.retryName := by
  simp [clearedBy, forgets, wokenBy, cleanup?, hfetch, hlive]

/-- A pass that finalizes its object is counted: it puts the object off, or has it forgotten. -/
theorem counts_finalize (hid : o.id = id) (hfetch : c.access.fetch id.kind id.key = .ok (some o))
    (hdeletion : o.info.deletionRequested = true) :
    c.ladder.Counts (c.clearedBy id) id.retryName (c.finalize id o) := by
  have hpass := reconcile_of_deleted hfetch hdeletion
  cases hundo : c.undo o with
  | ok c' =>
    have hcounts := counts_finish hid (standsAs_undo hid hundo)
    have hfinish : c.finalize id o = c'.finish id o := by rw [finalize, hundo]
    simpa [clearedBy, forgets, wokenBy, hfetch, hdeletion, cleanup?_of_undo hfetch hdeletion hundo, hpass, hfinish]
      using hcounts
  | error f =>
    have hcleared : c.clearedBy id = [] := by
      simp [clearedBy, forgets, wokenBy, cleanup?, hfetch, hdeletion, hundo]
    rw [hcleared, finalize, hundo]
    cases f with
    | refused e => exact c.counts_postpone id o e
    | crashed => exact (Ladder.StandsAs.refl _).counts rfl

/-- The ladder counts every pass. -/
theorem Truthful.counts_reconcile (h : c.Truthful) (id : ObjectId) :
    c.ladder.Counts (c.clearedBy id) id.retryName (c.reconcile id) := by
  cases hfetch : c.access.fetch id.kind id.key with
  | error f =>
    have hcleared : c.clearedBy id = [] := by simp [clearedBy, forgets, wokenBy, hfetch]
    rw [hcleared, reconcile_of_error hfetch]
    exact (Ladder.StandsAs.refl _).counts rfl
  | ok found =>
    rcases found with _ | o
    · have hcleared : c.clearedBy id = [id.retryName] := by simp [clearedBy, forgets, wokenBy, hfetch]
      rw [hcleared, reconcile_of_none hfetch]
      exact (Ladder.standsAs_forget _ _).counts rfl
    · have hget := Access.get?_of_fetch h.rules hfetch
      have hid : o.id = id := h.keyed id o hget
      cases hdeletion : o.info.deletionRequested with
      | true =>
        rw [reconcile_of_deleted hfetch hdeletion]
        exact counts_finalize hid hfetch hdeletion
      | false =>
        rw [clearedBy_of_live hfetch hdeletion, reconcile_of_live hfetch hdeletion]
        exact counts_maintain hget hid

end Controller

/-! ## Incidents -/

namespace Controller

variable {c : Controller}

/-- Whom a gateway wakes after a successful call. -/
def servedBy (c : Controller) (g : Gateway) (q : ClaimRequest) : List ObjectId :=
  if g.fansOut then c.dependentsOf ⟨.claim, q.key⟩ else []

/-- Whom a call of allocator or gateway wakes. -/
def operatedBy (c : Controller) : ServiceCall → List ObjectId
  | .request g q network =>
    match g.request c.indexes c.access q network with
    | .ok (_, _, g') => c.servedBy g' q
    | .error _ => []
  | .release g q =>
    match g.release c.indexes c.access q with
    | .ok (_, g') => c.servedBy g' q
    | .error _ => []
  | .register _ | .deregister _ | .declare _ _ | .retract _ _ => []

/-- A gateway puts back those whom it wakes. -/
theorem ladder_served (c : Controller) (indexes : ScopeIndexes) (g : Gateway) (q : ClaimRequest) :
    ({ c with indexes }.served g q).2.ladder
      = ((c.servedBy g q).map ObjectId.retryName).foldl Ladder.reset c.ladder := by
  unfold served servedBy
  split
  · have hsame : { c with indexes }.dependentsOf ⟨.claim, q.key⟩ = c.dependentsOf ⟨.claim, q.key⟩ :=
      dependentsOf_congr rfl _
    rw [ladder_tryFanOut, hsame]
  · rfl

/-- A call of allocator or gateway puts back those whom it wakes. -/
theorem ladder_operate (c : Controller) (op : ServiceCall) :
    (c.operate op).ladder = ((c.operatedBy op).map ObjectId.retryName).foldl Ladder.reset c.ladder := by
  cases op with
  | register r => rfl
  | deregister r => rfl
  | declare scope pool => rfl
  | retract scope raw => rfl
  | request g q network =>
    dsimp only [operate, operatedBy]
    unfold request
    rcases g.request c.indexes c.access q network with (e | _) | ⟨granted, indexes, g'⟩
    · rfl
    · rfl
    · have hserved := c.ladder_served indexes g' q
      dsimp only
      split <;> rename_i hanswer <;> rw [hanswer] at hserved <;> exact hserved
  | release g q =>
    dsimp only [operate, operatedBy]
    unfold release
    rcases g.release c.indexes c.access q with (e | _) | ⟨indexes, g'⟩
    · rfl
    · rfl
    · have hserved := c.ladder_served indexes g' q
      dsimp only
      split <;> rename_i hanswer <;> rw [hanswer] at hserved <;> exact hserved

/-- Hearing of a change of a specification puts back the object that changed, and those who depend on it. -/
theorem ladder_observe (c : Controller) (event : Event) :
    (c.observe event).2.ladder =
      ((if event.change.concernsDependents then event.id :: c.dependentsOf event.id else []).map
        ObjectId.retryName).foldl Ladder.reset c.ladder := by
  unfold observe
  split
  · have hsame : (c.wake event.id).dependentsOf event.id = c.dependentsOf event.id :=
      dependentsOf_congr (show (c.wake event.id).access = c.access from rfl) _
    rw [ladder_tryFanOut, hsame]
    rfl
  · rfl

end Controller

namespace Episode

variable {e : Episode} {name : String}

/-- The names that an incident puts back to the bottom. -/
def cleared (e : Episode) : List String :=
  match e.incident with
  | .happen (.reconcile id) => e.before.clearedBy id
  | .happen (.operate op) => (e.before.operatedBy op).map ObjectId.retryName
  | .fanOut id => (e.before.dependentsOf id).map ObjectId.retryName
  | .fanOutFrom kind space source =>
    (e.before.concernedOver kind space source kind.dependents).map ObjectId.retryName
  | .observe event =>
    (if event.change.concernsDependents then event.id :: e.before.dependentsOf event.id else []).map
      ObjectId.retryName
  | .happen (.write _) | .happen (.faults _) | .happen (.restart _) | .backOff _ => []

/-- Who climbs: an object whose pass ended with a failure that climbs, or came to no outcome. -/
def climber? (e : Episode) : Option String :=
  match e.incident with
  | .happen (.reconcile id) => if climbed (e.before.reconcile id).1 then some id.retryName else none
  | .backOff id => some id.retryName
  | _ => none

/-- The registry is started anew. -/
def restarts (e : Episode) : Bool :=
  match e.incident with
  | .happen (.restart _) => true
  | _ => false

/-- An incident puts a name back to the bottom. -/
def clears (e : Episode) (name : String) : Bool := e.restarts || decide (name ∈ e.cleared)

/-- An incident has a name climb. -/
def climbs (e : Episode) (name : String) : Bool := e.climber? == some name

/-- What an incident does to the ladder, unless the ladder is a new one. -/
theorem moved (h : e.before.Truthful) (hrestarts : e.restarts = false) :
    e.before.ladder.Moved e.cleared e.climber? e.after.ladder := by
  obtain ⟨c, incident⟩ := e
  have hwoken : ∀ (names : List String) {c' : Controller},
      c'.ladder = names.foldl Ladder.reset c.ladder → c.ladder.Moved names none c'.ladder := by
    intro names c' hladder
    rw [hladder]
    exact (Ladder.StandsAs.refl _).moved
  rcases incident with happening | id | ⟨kind, space, source⟩ | event | id
  · cases happening with
    | write w => exact hwoken [] rfl
    | faults rules => exact hwoken [] rfl
    | operate op => exact hwoken _ (c.ladder_operate op)
    | reconcile id => exact (h.counts_reconcile id).moved
    | restart policy => cases hrestarts
  · refine hwoken _ ?_
    rw [Episode.after, Controller.meet, Controller.fanOut_eq_dependentsOf, Controller.ladder_wakeAll_map]
    rfl
  · refine hwoken _ ?_
    rw [Episode.after, Controller.meet, Controller.fanOutFrom, Controller.fanOutOver_eq_concernedOver,
      Controller.ladder_wakeAll_map]
    rfl
  · exact hwoken _ (c.ladder_observe event)
  · exact (Ladder.StandsAs.refl _).moved_next List.not_mem_nil

/-- Where an incident leaves a name. -/
theorem rung_after (h : e.before.Truthful) (name : String) :
    e.clears name = true ∧ e.after.ladder.rung name = 0 ∨
      e.clears name = false ∧ e.after.ladder.policy = e.before.ladder.policy ∧
        e.after.ladder.rung name =
          if e.climbs name then Ladder.climb e.before.ladder.policy.cap (e.before.ladder.rung name)
          else e.before.ladder.rung name := by
  cases hrestarts : e.restarts with
  | true =>
    refine Or.inl ⟨by rw [clears, hrestarts]; rfl, ?_⟩
    obtain ⟨c, incident⟩ := e
    unfold restarts at hrestarts
    split at hrestarts
    · rename_i policy hincident
      dsimp only at hincident
      subst hincident
      rfl
    · cases hrestarts
  | false =>
    have hmoved := moved h hrestarts
    rw [clears, hrestarts, Bool.false_or, hmoved.rung_eq]
    by_cases hcleared : name ∈ e.cleared
    · exact Or.inl ⟨decide_eq_true hcleared, if_pos hcleared⟩
    · refine Or.inr ⟨decide_eq_false hcleared, hmoved.policy_eq, ?_⟩
      rw [if_neg hcleared]
      simp [climbs]

end Episode

/-! ## Histories -/

/-- How often a name climbed since it was last put back to the bottom. -/
def climbsSince (name : String) (t : List Episode) : Nat :=
  (t.rtakeWhile fun e => !e.clears name).countP fun e => e.climbs name

/-- The climbs of a name after one more episode: where it is put back, the count begins anew. -/
theorem climbsSince_concat (name : String) (t : List Episode) (e : Episode) :
    climbsSince name (t ++ [e]) =
      if e.clears name then 0 else climbsSince name t + if e.climbs name then 1 else 0 := by
  unfold climbsSince
  rw [List.rtakeWhile_concat]
  by_cases hclears : e.clears name = true
  · simp [hclears]
  · simp [hclears, List.countP_append, List.countP_singleton]

/-- A name that stands as high as it climbed, up to the cap, does so after the next incident. -/
theorem Episode.rung_concat {e : Episode} {name : String} {t : List Episode} (h : e.before.Truthful)
    (hbefore : e.before.ladder.rung name = min (climbsSince name t) e.before.ladder.policy.cap) :
    e.after.ladder.rung name = min (climbsSince name (t ++ [e])) e.after.ladder.policy.cap := by
  rw [climbsSince_concat]
  obtain ⟨hclears, hrung⟩ | ⟨hclears, hpolicy, hrung⟩ := rung_after h name
  · rw [hrung, hclears, if_pos rfl, Nat.zero_min]
  · rw [hrung, hpolicy, hclears, if_neg Bool.false_ne_true, hbefore]
    split
    · exact Ladder.climb_min _ _
    · rfl

namespace Controller

/-- Everybody stands as high as they climbed since they were last put back, up to the cap. -/
theorem rung_outlive (policy : RetryPolicy) {incidents : List Incident}
    (hhonest : ∀ incident ∈ incidents, incident.Honest) (name : String) :
    let c := (fresh policy).outlive incidents
    c.ladder.rung name = min (climbsSince name ((fresh policy).chronicle incidents)) c.ladder.policy.cap := by
  induction incidents using List.reverseRecOn with
  | nil => exact (Nat.zero_min _).symm
  | append_singleton incidents incident ih =>
    have hearlier : ∀ i ∈ incidents, i.Honest := fun i hi => hhonest i (List.mem_append_left _ hi)
    have htruthful := (sound_fresh policy).truthful.outlive hearlier
    rw [outlive_concat, chronicle_concat]
    exact Episode.rung_concat (show (Episode.mk _ incident).before.Truthful from htruthful) (ih hearlier)

/-- A pass that ends ready neither climbs nor puts its object back. -/
theorem keeps_of_ready {c : Controller} {id : ObjectId} {outcome : Outcome}
    (hok : (c.reconcile id).1 = .ok outcome) (hready : outcome.ready = true) :
    climbed (c.reconcile id).1 = false ∧ id.retryName ∉ c.clearedBy id := by
  rw [hok]
  cases hfetch : c.access.fetch id.kind id.key with
  | error f =>
    rw [reconcile_of_error hfetch] at hok
    cases hok
  | ok found =>
    rcases found with _ | o
    · rw [reconcile_of_none hfetch] at hok
      cases hok
      cases hready
    · cases hdeletion : o.info.deletionRequested with
      | true =>
        rw [reconcile_of_deleted hfetch hdeletion] at hok
        rw [ready_of_finalize (Prod.ext hok rfl)] at hready
        cases hready
      | false =>
        rw [clearedBy_of_live hfetch hdeletion]
        rw [reconcile_of_live hfetch hdeletion] at hok
        obtain ⟨v, delay, -, rfl⟩ := maintain_eq_ok hok
        cases v with
        | stuck phase e => cases hready
        | ready => exact ⟨rfl, retryName_notMem_wokenFor _ id o⟩

/-- **What a retry counter counts.** A failing object waits as long as the rung says that counts how often it
failed since its counter was last put back to the bottom. A pass that ends ready does not put it back, and
neither does a write to the store, be it the creation of the object. -/
theorem delay_counts_climbs (policy : RetryPolicy) (incidents : List Incident)
    (hhonest : ∀ incident ∈ incidents, incident.Honest) (id : ObjectId) :
    let c := (fresh policy).outlive incidents
    let failures (incidents : List Incident) := climbsSince id.retryName ((fresh policy).chronicle incidents)
    (∀ outcome, (c.reconcile id).1 = .ok outcome → outcome.climbs = true →
        outcome.requeueAfter
          = some (c.ladder.policy.delayFor (min (failures incidents) c.ladder.policy.cap))) ∧
      (∀ outcome, (c.reconcile id).1 = .ok outcome → outcome.ready = true →
        failures (incidents ++ [.happen (.reconcile id)]) = failures incidents) ∧
      ∀ w : Write, failures (incidents ++ [.happen (.write w)]) = failures incidents := by
  intro c failures
  have htruthful : c.Truthful := (sound_fresh policy).truthful.outlive hhonest
  have hkept : ∀ incident, (Episode.mk c incident).clears id.retryName = false →
      (Episode.mk c incident).climbs id.retryName = false →
      failures (incidents ++ [incident]) = failures incidents := by
    intro incident hclears hclimbs
    show climbsSince _ ((fresh policy).chronicle (incidents ++ [incident])) = _
    rw [chronicle_concat, climbsSince_concat, show (Episode.mk _ incident).clears _ = _ from hclears,
      show (Episode.mk _ incident).climbs _ = _ from hclimbs]
    rfl
  refine ⟨fun outcome hok hclimbs => ?_, fun outcome hok hready => ?_, fun w => ?_⟩
  · rw [(htruthful.counts_reconcile id).delay outcome hok hclimbs, rung_outlive policy hhonest]
  · obtain ⟨hclimbed, hcleared⟩ := keeps_of_ready hok hready
    refine hkept _ (decide_eq_false hcleared) ?_
    show ((if climbed (c.reconcile id).1 then some id.retryName else none) == some id.retryName) = false
    rw [hclimbed]
    rfl
  · exact hkept _ rfl rfl

end Controller

/-! A pass fails, the next one ends ready, and the one after it fails again: the failures are counted together. -/

namespace Relapse

/-- Tenants cannot be read. -/
def outage : List FaultRule := [⟨.get, some .tenant, .fail (.store (.reported "unavailable"))⟩]

/-- The first pass over a scope fails in an outage, the second one ends ready, and the next outage begins. -/
def outages : List Incident :=
  [.happen (.write (.create (.newTenant "default" "acme" .fresh))),
    .happen (.write (.create (.newScope Sample.key.space Sample.key.name Sample.spec))),
    .happen (.reconcile Lab.tenantId), .happen (.faults outage), .happen (.reconcile Lab.scopeId),
    .happen (.faults []), .happen (.reconcile Lab.scopeId), .happen (.faults outage)]

def tenant (state : AdminState) : Object := .newTenant "default" "acme" ⟨state, none⟩

/-- The first pass over a tenant finds it disabled and the second one enabled, and it is disabled again. -/
def incidents : List Incident :=
  [.happen (.write (.create (tenant .disable))), .happen (.reconcile Lab.tenantId),
    .happen (.write (.update (tenant .enable))), .happen (.reconcile Lab.tenantId),
    .happen (.write (.update (tenant .disable)))]

end Relapse

/-- A scope fails again in a second outage after it was ready: it waits as after two failures in a row. -/
theorem Controller.delay_counts_climbs_outages :
    let c := (fresh Lab.policy).outlive Relapse.outages
    let failures := climbsSince Lab.scopeId.retryName ((fresh Lab.policy).chronicle Relapse.outages)
    let outcome : Outcome := ⟨.pending, false, some "StoreError", some 1000⟩
    (∀ incident ∈ Relapse.outages, incident.Honest) ∧ (c.reconcile Lab.scopeId).1 = .ok outcome ∧
      outcome.climbs = true ∧ failures = 1 ∧
        outcome.requeueAfter = some (c.ladder.policy.delayFor (min failures c.ladder.policy.cap)) := by
  intro c failures outcome
  have hhonest : ∀ incident ∈ Relapse.outages, incident.Honest := by decide
  have hpass : (c.reconcile Lab.scopeId).1 = .ok outcome := by decide +kernel
  have hclimbs : outcome.climbs = true := by decide +kernel
  have hcount : failures = 1 := by decide +kernel
  have hdelay := (delay_counts_climbs Lab.policy Relapse.outages hhonest Lab.scopeId).1 outcome hpass hclimbs
  exact ⟨hhonest, hpass, hclimbs, hcount, hdelay⟩

/-- A pass over an object ended ready. -/
def Episode.readies (e : Episode) (id : ObjectId) : Bool :=
  match e.incident with
  | .happen (.reconcile id') => id' == id && (e.before.reconcile id).1.toOption.any Outcome.ready
  | _ => false

/-- How often an object failed since it was last ready, put back to the bottom or created. -/
def failuresInARow (id : ObjectId) (t : List Episode) : Nat :=
  (t.rtakeWhile fun e => !(e.readies id || e.clears id.retryName || e.creates id)).countP fun e =>
    e.climbs id.retryName

/-- The tenant has not failed since it was ready, and has to wait as if it had. -/
theorem relapsed_tenant_waits :
    failuresInARow Lab.tenantId ((Controller.fresh Lab.policy).chronicle Relapse.incidents) = 0 ∧
      (((Controller.fresh Lab.policy).outlive Relapse.incidents).reconcile Lab.tenantId).1
        = .ok ⟨.initializing, false, some "NotReady", some Lab.policy.short⟩ ∧
      Lab.policy.delayFor 0 = Lab.policy.veryShort ∧ Lab.policy.veryShort < Lab.policy.short := by
  decide +kernel

end AddressRegistry
