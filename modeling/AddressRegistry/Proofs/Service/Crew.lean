import AddressRegistry.Proofs.Queue.Sound
import AddressRegistry.Proofs.Reconcile.Stage
import AddressRegistry.Service.Engine

/-!
# An engine with many workers

The steps of an engine take a key, make a whole pass over it and are done with it, all at once. With several
workers this takes time: a `Crew` is an engine together with the passes under way, and other steps come
between taking a key, each stage of its pass, and the end of it (`Crew.Move`). Clients write at any time, and
a timer may end at any time.

A pass that nothing comes between is the one step of the engine (`Crew.engine_run_of_work`).
-/

namespace AddressRegistry

/-! ## What the steps of an engine do -/

namespace Store

variable {s s' : Store} {event : Event} {events : List Event} {count : Nat}

/-- What is logged comes behind the changes that are to be delivered. -/
theorem mem_eventsAfter_append (hlog : s'.log = events ++ s.log) (hcount : count ≤ s.log.length) :
    event ∈ s'.eventsAfter count ↔ event ∈ events ∨ event ∈ s.eventsAfter count := by
  unfold eventsAfter
  have htaken : events.length ≤ (events ++ s.log).length - count := by
    rw [List.length_append]
    omega
  rw [List.mem_reverse, List.mem_reverse, hlog, List.take_append, List.take_of_length_le htaken, List.mem_append]
  have hleft : (events ++ s.log).length - count - events.length = s.log.length - count := by
    rw [List.length_append]
    omega
  rw [hleft]

/-- The oldest change that is to be delivered comes first. -/
theorem eventsAfter_eq_cons (hevent : s.log[s.log.length - count - 1]? = some event)
    (hcount : count < s.log.length) : s.eventsAfter count = event :: s.eventsAfter (count + 1) := by
  obtain ⟨n, hn⟩ := Nat.exists_eq_add_of_lt hcount
  have hleft : s.log.length - count = n + 1 := by omega
  have hleft' : s.log.length - (count + 1) = n := by omega
  rw [hleft, Nat.add_sub_cancel] at hevent
  unfold eventsAfter
  rw [hleft, hleft', List.take_add_one, hevent, List.reverse_append]
  rfl

end Store

/-- Noting a change wakes its object, if it is more than a status. -/
theorem Controller.observe_eq (c : Controller) (event : Event) :
    ∃ ids, (c.observe event).2.access = c.access ∧ (c.observe event).2.queues = c.queues.addAll ids ∧
      (event.change.concernsDependents = true → event.id ∈ ids) := by
  unfold observe
  split
  · obtain ⟨ids, -, hfan⟩ := (c.wake event.id).tryFanOut_eq_wakeAll event.id
    rw [hfan]
    exact ⟨event.id :: ids, access_wakeAll _ _, queues_wakeAll _ _, fun _ => List.mem_cons_self⟩
  · rename_i hstatus
    exact ⟨[], rfl, rfl, fun h => absurd h hstatus⟩

namespace Engine

variable {e : Engine} {id : ObjectId}

/-- An engine that notes the answer of its controller goes on with what that left. -/
@[simp] theorem controller_noted (e : Engine) (answer : Except Failure Unit × Controller) :
    (e.noted answer).controller = answer.2 := by
  unfold noted
  split <;> rfl

/-- Noting an answer delivers nothing. -/
@[simp] theorem delivered_noted (e : Engine) (answer : Except Failure Unit × Controller) :
    (e.noted answer).delivered = e.delivered := by
  unfold noted
  split <;> rfl

/-- A delivery takes the oldest change, and the controller observes it. -/
theorem deliver_eq (hbacklog : 0 < e.backlog) :
    ∃ event, e.store.log[e.backlog - 1]? = some event ∧
      e.deliver = { e with delivered := e.delivered + 1 }.noted (e.controller.observe event) := by
  have hlength : e.backlog ≤ e.store.log.length := Nat.sub_le _ _
  have hevent := List.getElem?_eq_getElem (l := e.store.log) (i := e.backlog - 1) (by omega)
  refine ⟨_, hevent, ?_⟩
  unfold deliver
  rw [hevent]

/-- The watch goes on: the oldest change is delivered, or everything is queued when changes were lost. -/
def hear (e : Engine) : Engine :=
  if retained < e.backlog then e.catchUp else if 0 < e.backlog then e.deliver else e

/-- What a worker does at the end of a pass: the key is done, and added again later if the pass failed or its
outcome asks for that. -/
def dismiss (e : Engine) (id : ObjectId) : Except Failure Outcome → Engine
  | .ok outcome => { e with controller := conclude e.controller e.now id outcome.requeueAfter }
  | .error _ =>
    let (delay, c) := backoff e.controller id
    { e with controller := conclude c e.now id (some delay) }

/-- A pass of the engine is the pass of its controller, after which the worker is done. -/
theorem pass_eq_dismiss (e : Engine) (id : ObjectId) :
    e.pass id = { e with controller := (e.controller.reconcile id).2 }.dismiss id
      (e.controller.reconcile id).1 := by
  unfold pass dismiss
  obtain ⟨result, c⟩ := e.controller.reconcile id
  cases result <;> rfl

/-- At the end of a pass the key is done; it is not added again only if the outcome asks for nothing. -/
theorem dismiss_eq (e : Engine) (id : ObjectId) (result : Except Failure Outcome) :
    ∃ ladder delay, (e.dismiss id result) = { e with
        controller := { e.controller with ladder }.withQueue id.kind (·.dismissed e.now id.key delay) } ∧
      (delay = none → ∃ outcome, result = .ok outcome ∧ outcome.requeueAfter = none) := by
  have hconclude : ∀ c delay, conclude c e.now id delay
      = c.withQueue id.kind (·.dismissed e.now id.key delay) := by
    intro c delay
    cases delay <;> rfl
  unfold dismiss
  cases result with
  | ok outcome =>
    refine ⟨e.controller.ladder, outcome.requeueAfter, ?_, fun h => ⟨outcome, rfl, h⟩⟩
    rw [← hconclude]
  | error f =>
    refine ⟨(backoff e.controller id).2.ladder, some (backoff e.controller id).1, ?_, nofun⟩
    rw [← hconclude]
    rfl

end Engine

/-! ## The crew -/

/-- An engine and the passes that its workers are making. -/
structure Crew where
  engine : Engine
  passes : Passes

namespace Crew

/-- What happens around an engine. -/
inductive Move where
  /-- A client writes to the store. -/
  | write (w : Write)
  /-- The watch goes on. -/
  | hear
  /-- A worker takes the next key of a kind. -/
  | take (kind : Kind)
  /-- The pass over an object goes on by one step. -/
  | proceed (id : ObjectId)
  /-- The pass over an object comes down. -/
  | abort (id : ObjectId)
  /-- A worker is done with a pass that has ended. -/
  | conclude (id : ObjectId)
  /-- A timer of a kind ends. -/
  | fire (kind : Kind) (t : Timer)
  | wait (duration : Nat)
deriving DecidableEq

variable {crew : Crew}

/-- The object store. -/
def store (crew : Crew) : Store := crew.engine.store

/-- The queue of a kind. -/
def queue (crew : Crew) (kind : Kind) : WorkQueue := crew.engine.controller.queues.get kind

/-- One move. -/
def act (crew : Crew) : Move → Crew
  | .write w => { crew with engine := crew.engine.withStore (crew.store.accept w) }
  | .hear => { crew with engine := crew.engine.hear }
  | .take kind =>
    match crew.engine.controller.takeKey kind with
    | some (key, controller) =>
      ⟨{ crew.engine with controller }, crew.passes.insert ⟨kind, key⟩ .begun⟩
    | none => crew
  | .proceed id =>
    let (controller, passes) := crew.engine.controller.proceed crew.passes id
    ⟨{ crew.engine with controller }, passes⟩
  | .abort id => { crew with passes := crew.passes.abort id }
  | .conclude id =>
    match crew.passes.get? id with
    | some (.ended result) => ⟨crew.engine.dismiss id result, crew.passes.erase id⟩
    | _ => crew
  | .fire kind t =>
    let controller := crew.engine.controller.withQueue kind (·.fire t)
    { crew with engine := { crew.engine with controller } }
  | .wait duration => { crew with engine := { crew.engine with now := crew.engine.now + duration } }

/-- One move after the other. -/
def run (crew : Crew) (moves : List Move) : Crew := moves.foldl act crew

/-- An engine that begins its run, over a store with anything in it. -/
def start (store : Store) (policy : RetryPolicy) : Crew :=
  ⟨(Engine.initial (.start ⟨store, []⟩ policy)).commence, .empty⟩

/-- A worker takes a key, makes a pass and is done with it; nothing comes between. -/
def work (id : ObjectId) : List Move :=
  .take id.kind :: (List.replicate 7 (.proceed id) ++ [.conclude id])

/-- A run goes on from where its first move leads. -/
theorem run_cons (crew : Crew) (m : Move) (moves : List Move) :
    crew.run (m :: moves) = (crew.act m).run moves := rfl

/-- A run with one more move. -/
theorem run_concat (crew : Crew) (m : Move) (moves : List Move) :
    crew.run (moves ++ [m]) = (crew.run moves).act m :=
  List.foldl_append

/-- A run in two parts is the second one from where the first one leads. -/
theorem run_append (crew : Crew) (moves later : List Move) :
    crew.run (moves ++ later) = (crew.run moves).run later :=
  List.foldl_append

/-- Going on with one pass, and nothing else, is iterating its steps. -/
theorem run_proceed (crew : Crew) (id : ObjectId) (n : Nat) :
    crew.run (List.replicate n (.proceed id)) =
      let s := (fun s : Controller × Passes => s.1.proceed s.2 id)^[n] (crew.engine.controller, crew.passes)
      ⟨{ crew.engine with controller := s.1 }, s.2⟩ := by
  induction n generalizing crew with
  | zero => rfl
  | succ n ih => exact ih (crew.act (.proceed id))

/-- The stages of a pass, one after the other, are the step of the engine that makes it. -/
theorem engine_run_of_work {kind : Kind} {key : ObjectKey} {c : Controller}
    (htake : crew.engine.controller.takeKey kind = some (key, c)) :
    crew.engine.work? kind = some (crew.run (work ⟨kind, key⟩)).engine := by
  let id : ObjectId := ⟨kind, key⟩
  let taken : Crew := ⟨{ crew.engine with controller := c }, crew.passes.insert id .begun⟩
  have htaken : crew.act (.take kind) = taken := by
    dsimp only [act]
    rw [htake]
  obtain ⟨hcontroller, hstage⟩ := Controller.iterate_proceed
    (SortedMap.get?_insert_self crew.passes id .begun) c 7
  rw [c.iterate_advance id] at hcontroller hstage
  have hproceeded := taken.run_proceed id 7
  dsimp only [taken] at hproceeded
  rw [hcontroller] at hproceeded
  have hwork : crew.engine.work? kind = some (taken.engine.pass id) := by
    unfold Engine.work?
    rw [htake]
    rfl
  rw [hwork, Engine.pass_eq_dismiss, work, run_cons, htaken, run_concat, hproceeded]
  dsimp only [act]
  rw [hstage]

end Crew

end AddressRegistry
