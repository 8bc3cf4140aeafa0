import AddressRegistry.Proofs.Queue.Sound
import AddressRegistry.Queue.Waiting

/-!
# Steps of a waiting room

A step of a waiting room is what one user does, after which the due timers end and the woken workers look
(`WaitingRoom.after`). The three parts differ in what they may change: the workers leave the clock, the
schedule and the timers alone (`WaitingRoom.lookEach_frame`), and so does every user but the one that asks for
a delay or lets time pass (`WaitingRoom.clockwork_perform`).

The woken workers are followed one by one, with the answer that each of them takes away
(`WaitingRoom.lookEach`).
-/

namespace AddressRegistry

namespace WorkQueue

/-- What only a delayed addition, a timer or a shutdown changes. -/
def clockwork (q : WorkQueue) : Bool × Nat × SortedMap ObjectKey Nat × List Timer :=
  (q.shutDown, q.tokens, q.scheduled, q.timers)

section

variable {q q' : WorkQueue}

/-- The tokens are part of the clockwork. -/
theorem tokens_eq_of_clockwork (h : q'.clockwork = q.clockwork) : q'.tokens = q.tokens :=
  congrArg (fun c => c.2.1) h

/-- The schedule is part of the clockwork. -/
theorem scheduled_eq_of_clockwork (h : q'.clockwork = q.clockwork) : q'.scheduled = q.scheduled :=
  congrArg (fun c => c.2.2.1) h

/-- The timers are part of the clockwork. -/
theorem timers_eq_of_clockwork (h : q'.clockwork = q.clockwork) : q'.timers = q.timers :=
  congrArg (fun c => c.2.2.2) h

end

/-- Adding a key touches neither timers nor schedule. -/
@[simp] theorem clockwork_add (q : WorkQueue) (key : ObjectKey) :
    (q.add key).clockwork = q.clockwork := by
  unfold add
  split
  · rfl
  · split <;> rfl

/-- Being done with a key touches neither timers nor schedule. -/
@[simp] theorem clockwork_done (q : WorkQueue) (key : ObjectKey) :
    (q.done key).clockwork = q.clockwork := rfl

/-- Handing a key out touches neither timers nor schedule. -/
@[simp] theorem clockwork_handed (q : WorkQueue) (key : ObjectKey) :
    (q.handed key).clockwork = q.clockwork := rfl

/-- Taking a key, or none, touches neither timers nor schedule. -/
@[simp] theorem clockwork_take (q : WorkQueue) : q.take.2.clockwork = q.clockwork := by
  unfold take
  split <;> rfl

/-- A timer that ends does not close the queue, nor open it again. -/
theorem shutDown_expire (q : WorkQueue) (t : Timer) : (q.expire t).shutDown = q.shutDown := by
  unfold expire
  split
  · rw [shutDown_add]
  · rfl

/-- Ending the timers that are due does not close the queue, nor open it again. -/
theorem shutDown_expireDue (q : WorkQueue) (now : Nat) : (q.expireDue now).shutDown = q.shutDown := by
  have hfold : ∀ (due : List Timer) (q : WorkQueue), (due.foldl expire q).shutDown = q.shutDown := by
    intro due
    induction due with
    | nil => exact fun q => rfl
    | cons t rest ih => exact fun q => (ih (q.expire t)).trans (q.shutDown_expire t)
  exact hfold _ _

end WorkQueue

namespace WaitingRoom

open WorkQueue

variable {r : WaitingRoom}

/-- What one user of a waiting room does. -/
inductive Step where
  | add (key : ObjectKey)
  | addAfter (key : ObjectKey) (delay : Nat)
  /-- A worker asks once. -/
  | poll (worker : Nat)
  /-- A worker asks and waits for the answer. -/
  | arrive (worker : Nat)
  | done (key : ObjectKey)
  | advance (duration : Nat)
  | shutdown
deriving DecidableEq

/-- The user's part of a step. -/
def perform (r : WaitingRoom) : Step → WaitingRoom
  | .add key => r.add key
  | .addAfter key delay => r.addAfter key delay
  | .poll _ => r.poll.2
  | .arrive worker => r.arrive worker
  | .done key => r.done key
  | .advance duration => r.advance duration
  | .shutdown => r.shutdown

/-- The room after a step. -/
def after (r : WaitingRoom) (step : Step) : WaitingRoom := (r.perform step).settle.2

/-- The room after some steps. -/
def run (r : WaitingRoom) (steps : List Step) : WaitingRoom := steps.foldl after r

@[simp] theorem run_nil (r : WaitingRoom) : r.run [] = r := rfl

/-- A run goes on from where its first step leads. -/
@[simp] theorem run_cons (r : WaitingRoom) (step : Step) (steps : List Step) :
    r.run (step :: steps) = (r.after step).run steps := rfl

/-- A run in two parts is the second one from where the first one leads. -/
@[simp] theorem run_append (r : WaitingRoom) (steps later : List Step) :
    r.run (steps ++ later) = (r.run steps).run later :=
  List.foldl_append

/-! ## The user's part -/

/-- A signal is for the workers, not for the queue. -/
@[simp] theorem queue_signalOne (r : WaitingRoom) : r.signalOne.queue = r.queue := by
  unfold signalOne
  split <;> rfl

/-- A signal takes no time. -/
@[simp] theorem now_signalOne (r : WaitingRoom) : r.signalOne.now = r.now := by
  unfold signalOne
  split <;> rfl

/-- Adding to the waiting room adds to its queue; what else happens is a signal. -/
theorem queue_add (r : WaitingRoom) (key : ObjectKey) : (r.add key).queue = r.queue.add key := by
  unfold WaitingRoom.add
  split <;> simp

/-- Being done in the waiting room is being done in its queue; what else happens is a signal. -/
theorem queue_done (r : WaitingRoom) (key : ObjectKey) : (r.done key).queue = r.queue.done key := by
  unfold WaitingRoom.done
  split <;> simp

/-- Asking for a key takes one from the queue, if there is one; a worker that finds none falls asleep beside
the queue. -/
theorem queue_poll (r : WaitingRoom) : r.poll.2.queue = r.queue.take.2 := by
  unfold poll
  split <;> simp_all

/-- Asking for a key takes no time. -/
theorem now_poll (r : WaitingRoom) : r.poll.2.now = r.now := by
  unfold poll
  split <;> rfl

/-- The time that passes in a step. -/
def Step.duration : Step → Nat
  | .advance duration => duration
  | _ => 0

/-- Time passes only where a step says so. -/
theorem now_perform (r : WaitingRoom) (step : Step) :
    (r.perform step).now = r.now + step.duration := by
  cases step with
  | add key =>
    simp only [perform, WaitingRoom.add]
    split <;> simp [Step.duration]
  | done key =>
    simp only [perform, WaitingRoom.done]
    split <;> simp [Step.duration]
  | poll worker => exact r.now_poll
  | addAfter | arrive | advance | shutdown => rfl

/-- Only a delayed addition starts a timer, and only a shutdown closes the queue. -/
theorem clockwork_perform {step : Step} (hdelay : ∀ key delay, step ≠ .addAfter key delay)
    (hclose : step ≠ .shutdown) : (r.perform step).queue.clockwork = r.queue.clockwork := by
  cases step with
  | add key => simp [perform, queue_add]
  | addAfter key delay => exact absurd rfl (hdelay key delay)
  | poll worker => simp [perform, queue_poll]
  | arrive worker => rfl
  | done key => simp [perform, queue_done]
  | advance duration => rfl
  | shutdown => exact absurd rfl hclose

/-- Only a shutdown closes the queue. -/
theorem shutDown_perform {step : Step} (hclose : step ≠ .shutdown) :
    (r.perform step).queue.shutDown = r.queue.shutDown := by
  cases step with
  | addAfter key delay =>
    simp only [perform, WaitingRoom.addAfter, WorkQueue.addAfter]
    split <;> rfl
  | shutdown => exact absurd rfl hclose
  | _ => exact congrArg Prod.fst (clockwork_perform (by simp) (by simp))

/-! ## The timers' part -/

/-- A timer that ends in the waiting room ends in its queue. -/
theorem queue_expire (r : WaitingRoom) (t : Timer) : (r.expire t).queue = r.queue.expire t := by
  unfold WaitingRoom.expire
  split <;> simp

/-- The end of a timer takes no time. -/
theorem now_expire (r : WaitingRoom) (t : Timer) : (r.expire t).now = r.now := by
  unfold WaitingRoom.expire
  split <;> simp

/-- The timers that are due end in the waiting room as in its queue, all at one moment. -/
theorem queue_now_expireDue (r : WaitingRoom) :
    r.expireDue.queue = r.queue.expireDue r.now ∧ r.expireDue.now = r.now := by
  have hfold : ∀ (due : List Timer) (r : WaitingRoom),
      (due.foldl expire r).queue = due.foldl WorkQueue.expire r.queue ∧
        (due.foldl expire r).now = r.now := by
    intro due
    induction due with
    | nil => exact fun r => ⟨rfl, rfl⟩
    | cons t rest ih =>
      intro r
      simp only [List.foldl_cons, ih, queue_expire, now_expire, and_self]
  exact hfold _ _

/-! ## The workers' part -/

/-- The workers of the list look one after the other; who leaves, and with which answer. -/
def lookEach : List Nat → WaitingRoom → List (Nat × Option ObjectKey) × WaitingRoom
  | [], r => ([], r)
  | worker :: rest, r =>
    match r.look worker with
    | (some answer, r) => ((worker, answer) :: (lookEach rest r).1, (lookEach rest r).2)
    | (none, r) => lookEach rest r

/-- A worker that has taken a key, or learned that the queue is closed, goes away with the answer, and the
others look at what it left. -/
theorem lookEach_cons_of_some {worker : Nat} {rest : List Nat} {answer : Option ObjectKey}
    {r' : WaitingRoom} (h : r.look worker = (some answer, r')) :
    lookEach (worker :: rest) r = ((worker, answer) :: (lookEach rest r').1, (lookEach rest r').2) := by
  rw [lookEach, h]

/-- A worker that finds nothing falls asleep again without an answer. -/
theorem lookEach_cons_of_none {worker : Nat} {rest : List Nat} {r' : WaitingRoom}
    (h : r.look worker = (none, r')) : lookEach (worker :: rest) r = lookEach rest r' := by
  rw [lookEach, h]

/-- All woken workers look, in the order in which they were woken, each at what the one before it left. -/
theorem lookAll_eq_lookEach (r : WaitingRoom) :
    r.lookAll = ((lookEach r.awake { r with awake := [] }).1.map Prod.snd,
      (lookEach r.awake { r with awake := [] }).2) := by
  have hfold : ∀ f : List (Option ObjectKey) × WaitingRoom → Nat → List (Option ObjectKey) × WaitingRoom,
      (∀ answers r worker answer r', r.look worker = (some answer, r') →
        f (answers, r) worker = (answers ++ [answer], r')) →
      (∀ answers r worker r', r.look worker = (none, r') → f (answers, r) worker = (answers, r')) →
      ∀ workers answers r, workers.foldl f (answers, r)
        = (answers ++ (lookEach workers r).1.map Prod.snd, (lookEach workers r).2) := by
    intro f hsome hnone workers
    induction workers with
    | nil => simp [lookEach]
    | cons worker rest ih =>
      intro answers r
      rcases hlook : r.look worker with ⟨_ | answer, r'⟩
      · rw [List.foldl_cons, hnone _ _ _ _ hlook, ih, lookEach_cons_of_none hlook]
      · rw [List.foldl_cons, hsome _ _ _ _ _ hlook, ih, lookEach_cons_of_some hlook]
        simp
  refine hfold _ (fun answers r worker answer r' h => ?_) (fun answers r worker r' h => ?_) r.awake []
    { r with awake := [] }
  · simp [h]
  · simp [h]

/-- A worker that looks takes the first key, leaves a closed queue or falls asleep. -/
theorem look_cases (r : WaitingRoom) (worker : Nat) :
    (∃ key rest, r.queue.waiting = key :: rest ∧
      r.look worker = (some (some key), { r with queue := r.queue.handed key })) ∨
    (r.queue.waiting = [] ∧ r.queue.shutDown = true ∧ r.look worker = (some none, r)) ∨
    (r.queue.waiting = [] ∧ r.queue.shutDown = false ∧
      r.look worker = (none, { r with permit := false, asleep := r.asleep ++ [worker] })) := by
  unfold look poll
  rcases hwaiting : r.queue.waiting with _ | ⟨key, rest⟩
  · rw [take_of_nil hwaiting]
    rcases hopen : r.queue.shutDown
    · exact Or.inr (Or.inr ⟨rfl, rfl, rfl⟩)
    · exact Or.inr (Or.inl ⟨rfl, rfl, rfl⟩)
  · rw [take_of_cons hwaiting]
    exact Or.inl ⟨key, rest, rfl, rfl⟩

/-- While the workers look no time passes, nobody is woken, and neither timers nor schedule change. -/
theorem lookEach_frame (workers : List Nat) (r : WaitingRoom) :
    (lookEach workers r).2.now = r.now ∧ (lookEach workers r).2.awake = r.awake ∧
      (lookEach workers r).2.queue.clockwork = r.queue.clockwork := by
  induction workers generalizing r with
  | nil => exact ⟨rfl, rfl, rfl⟩
  | cons worker rest ih =>
    obtain ⟨key, keys, -, heq⟩ | ⟨-, -, heq⟩ | ⟨-, -, heq⟩ := r.look_cases worker
    · exact lookEach_cons_of_some heq ▸ ih { r with queue := r.queue.handed key }
    · exact lookEach_cons_of_some heq ▸ ih r
    · exact lookEach_cons_of_none heq ▸ ih { r with permit := false, asleep := r.asleep ++ [worker] }

/-! ## The whole step -/

/-- A step lasts as long as it says; the end of timers and the looking around take no time. -/
theorem now_after (r : WaitingRoom) (step : Step) :
    (r.after step).now = r.now + step.duration := by
  simp only [after, settle, lookAll_eq_lookEach, lookEach_frame, queue_now_expireDue, now_perform]

/-- What the timers leave is what the step leaves. -/
theorem clockwork_after (r : WaitingRoom) (step : Step) :
    (r.after step).queue.clockwork =
      ((r.perform step).queue.expireDue (r.now + step.duration)).clockwork := by
  simp only [after, settle, lookAll_eq_lookEach, lookEach_frame, queue_now_expireDue, now_perform]

/-- Only a shutdown closes the queue. -/
theorem shutDown_after {step : Step} (hclose : step ≠ .shutdown) :
    (r.after step).queue.shutDown = r.queue.shutDown :=
  calc (r.after step).queue.shutDown
      = ((r.perform step).queue.expireDue (r.now + step.duration)).shutDown :=
        congrArg Prod.fst (r.clockwork_after step)
    _ = r.queue.shutDown := (shutDown_expireDue _ _).trans (shutDown_perform hclose)

/-- A run without a shutdown leaves the queue as open as it was. -/
theorem shutDown_run {steps : List Step} (hclose : .shutdown ∉ steps) :
    (r.run steps).queue.shutDown = r.queue.shutDown := by
  induction steps generalizing r with
  | nil => rfl
  | cons step rest ih =>
    rw [List.mem_cons, not_or] at hclose
    exact (ih hclose.2).trans (shutDown_after (Ne.symm hclose.1))

end WaitingRoom

end AddressRegistry
