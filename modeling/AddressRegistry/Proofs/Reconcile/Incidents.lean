import AddressRegistry.Proofs.Reconcile.Course
import AddressRegistry.Proofs.Store.Lifetime
import AddressRegistry.Service.Engine
import Mathlib.Data.List.DropRight

/-!
# What happens, one incident after the other

Besides what happens to a registry and its store (`Happening`), what depends on a change is woken when
somebody asks for it and when a change in the store is heard of, and a worker whose pass came to no outcome
puts its object off (`Incident`). Clients may write anything, and calls of the store may fail or crash; only
answers that are not true are left out (`Incident.Honest`).

A run is kept as a chronicle, each incident with the state that it met (`Controller.chronicle`): what happened
to an object can be read off the part since it last began anew. Only a creation puts an object where none was
(`Episode.exists_before`).
-/

namespace AddressRegistry

/-- Where nothing is found, nothing is stored. -/
theorem Access.get?_of_fetch_none {a : Access} {id : ObjectId} (h : Honest a.rules)
    (hfetch : a.fetch id.kind id.key = .ok none) : a.store.get? id = none := by
  unfold fetch at hfetch
  split at hfetch
  · cases hfetch
  · rename_i hget
    unfold get at hget
    split at hget
    · rename_i heffect
      exact absurd heffect (effect?_ne_answer h .get id.kind _)
    · exact Except.ok.inj (guarded_eq_ok hget)
  · split at hfetch <;> cases hfetch

/-! ## Incidents -/

/-- What happens to a registry, its store and its retry counters. -/
inductive Incident where
  | happen (happening : Happening)
  /-- What depends on an object is woken. -/
  | fanOut (id : ObjectId)
  /-- What depends on an object of a kind at a place is woken. -/
  | fanOutFrom (kind : Kind) (space : String) (source : Placement)
  /-- A change in the store is heard of. -/
  | observe (event : Event)
  /-- A worker's pass over an object came to no outcome. -/
  | backOff (id : ObjectId)

/-- No call of the store lies. -/
def Incident.Honest : Incident → Prop
  | .happen (.faults rules) => Access.Honest rules
  | .happen (.write _) | .happen (.operate _) | .happen (.reconcile _) | .happen (.restart _) => True
  | .fanOut _ | .fanOutFrom _ _ _ | .observe _ | .backOff _ => True

instance : DecidablePred Incident.Honest
  | .happen (.faults rules) => inferInstanceAs (Decidable (Access.Honest rules))
  | .happen (.write _) | .happen (.operate _) | .happen (.reconcile _) | .happen (.restart _) =>
    isTrue trivial
  | .fanOut _ | .fanOutFrom _ _ _ | .observe _ | .backOff _ => isTrue trivial

namespace Controller

/-- Let an incident happen. -/
def meet (c : Controller) : Incident → Controller
  | .happen happening => c.undergo happening
  | .fanOut id => (c.fanOut id).2
  | .fanOutFrom kind space source => (c.fanOutFrom kind space source).2
  | .observe event => (c.observe event).2
  | .backOff id => (Engine.backoff c id).2

/-- One incident after the other. -/
def outlive (c : Controller) (incidents : List Incident) : Controller := incidents.foldl meet c

end Controller

/-- An incident and the state that it met. -/
structure Episode where
  before : Controller
  incident : Incident

/-- The state that an incident left. -/
def Episode.after (e : Episode) : Controller := e.before.meet e.incident

namespace Controller

/-- The incidents of a run, each with the state that it met. -/
def chronicle (c : Controller) : List Incident → List Episode
  | [] => []
  | incident :: incidents => ⟨c, incident⟩ :: (c.meet incident).chronicle incidents

/-- A run with one more incident. -/
theorem outlive_concat (c : Controller) (incidents : List Incident) (incident : Incident) :
    c.outlive (incidents ++ [incident]) = (c.outlive incidents).meet incident := by
  unfold outlive
  rw [List.foldl_append]
  rfl

/-- The chronicle of a run with one more incident ends with the state that this one met. -/
theorem chronicle_concat (c : Controller) (incidents : List Incident) (incident : Incident) :
    c.chronicle (incidents ++ [incident]) = c.chronicle incidents ++ [⟨c.outlive incidents, incident⟩] := by
  induction incidents generalizing c with
  | nil => rfl
  | cons first incidents ih => exact congrArg (List.cons _) (ih (c.meet first))

/-! ## Who writes -/

/-- A fan-out from a place writes nothing to the store. -/
theorem access_fanOutFrom (c : Controller) (kind : Kind) (space : String) (source : Placement) :
    (c.fanOutFrom kind space source).2.access = c.access := by
  obtain ⟨ids, -, hfan⟩ := c.fanOutOver_eq_wakeAll kind space source kind.dependents
  rw [fanOutFrom, hfan, access_wakeAll]

/-- A fan-out of an object writes nothing to the store. -/
theorem access_fanOut (c : Controller) (id : ObjectId) : (c.fanOut id).2.access = c.access := by
  unfold fanOut
  split
  · rfl
  · exact c.access_fanOutFrom _ _ _

/-- Whoever hears of a change writes nothing to the store. -/
theorem access_observe (c : Controller) (event : Event) : (c.observe event).2.access = c.access := by
  unfold observe
  split
  · exact (c.wake event.id).access_tryFanOut event.id
  · rfl

/-- Nothing that happens makes calls of the store lie or puts an object under another one's key. -/
theorem Truthful.meet {c : Controller} {incident : Incident} (h : c.Truthful) (hhonest : incident.Honest) :
    (c.meet incident).Truthful := by
  have hsame : ∀ c' : Controller, c'.access = c.access → c'.Truthful := fun c' haccess =>
    ⟨by rw [haccess]; exact h.rules, by rw [haccess]; exact h.keyed⟩
  rcases incident with happening | id | ⟨kind, space, source⟩ | event | id
  · cases happening with
    | write w => exact ⟨h.rules, h.keyed.accept w⟩
    | faults rules => exact ⟨hhonest, h.keyed⟩
    | operate op => exact h.undergo (show Happening.Proper (.operate op) from trivial)
    | reconcile id => exact h.undergo (show Happening.Proper (.reconcile id) from trivial)
    | restart policy => exact hsame _ rfl
  · exact hsame _ (c.access_fanOut id)
  · exact hsame _ (c.access_fanOutFrom kind space source)
  · exact hsame _ (c.access_observe event)
  · exact hsame _ rfl

/-- A truthful controller stays so in every run of honest incidents. -/
theorem Truthful.outlive {c : Controller} {incidents : List Incident} (h : c.Truthful)
    (hhonest : ∀ incident ∈ incidents, incident.Honest) : (c.outlive incidents).Truthful := by
  induction incidents generalizing c with
  | nil => exact h
  | cons first incidents ih =>
    obtain ⟨hfirst, hrest⟩ := List.forall_mem_cons.1 hhonest
    exact ih (h.meet hfirst) hrest

end Controller

/-! ## Lifetimes -/

/-- Only a creation puts an object where none was. -/
theorem Write.Turns.exists_create {w : Write} {o' : Object} (h : w.Turns none (some o')) :
    ∃ o, w = .create o := by
  cases h with
  | created o => exact ⟨o, rfl⟩

namespace Episode

variable {e : Episode} {id : ObjectId} {o' : Object}

/-- A client creates the object. -/
def creates (e : Episode) (id : ObjectId) : Bool :=
  match e.incident with
  | .happen (.write (.create o)) => o.id == id && (e.before.access.store.get? id).isNone
  | _ => false

/-- An object that is stored afterwards and was not created was stored before. -/
theorem exists_before (h : e.before.Truthful) (hcreates : e.creates id = false)
    (hget : e.after.access.store.get? id = some o') : ∃ o, e.before.access.store.get? id = some o := by
  obtain ⟨c, incident⟩ := e
  have hsame : ∀ c' : Controller, c'.access.store = c.access.store →
      c'.access.store.get? id = some o' → ∃ o, c.access.store.get? id = some o := by
    intro c' hstore hget'
    exact ⟨o', by rwa [← hstore]⟩
  rcases incident with happening | id' | ⟨kind, space, source⟩ | event | id'
  · cases happening with
    | write w =>
      have hget' : (c.access.store.obey w).get? id = some o' := by
        rw [Store.obey_eq_accept]
        exact hget
      by_cases hid : id = w.id
      · subst hid
        have hturns := c.access.store.turns_obey w
        rw [hget'] at hturns
        cases hbefore : c.access.store.get? w.id with
        | some o => exact ⟨o, rfl⟩
        | none =>
          rw [hbefore] at hturns
          obtain ⟨o, rfl⟩ := hturns.exists_create
          have hnew : c.access.store.get? o.id = none := hbefore
          simp [creates, hnew, Write.id] at hcreates
      · rw [Store.get?_obey_of_ne _ hid] at hget'
        exact ⟨o', hget'⟩
    | faults rules => exact hsame _ rfl hget
    | operate op => exact hsame _ (c.operate_yields op).store hget
    | reconcile id' =>
      obtain ⟨o, hbefore, -⟩ := (Controller.reconcile_grows h.rules h.keyed id').store id o' hget
      exact ⟨o, hbefore⟩
    | restart policy => exact hsame _ rfl hget
  · exact hsame _ (congrArg Access.store (c.access_fanOut id')) hget
  · exact hsame _ (congrArg Access.store (c.access_fanOutFrom kind space source)) hget
  · exact hsame _ (congrArg Access.store (c.access_observe event)) hget
  · exact hsame _ rfl hget

end Episode

end AddressRegistry
