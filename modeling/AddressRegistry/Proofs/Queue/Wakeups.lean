import AddressRegistry.Proofs.Queue.Rooms
import AddressRegistry.Proofs.Queue.Runs

/-!
# No worker sleeps beside a key

A signal may be kept for a worker that finds nothing, a key may be taken by a worker that never slept, and
several keys may come in at once. Still, when the woken workers have looked, a worker sleeps only if no key
waits and the queue is open, each key that left has gone to one worker, and a shutdown has sent the sleeping
ones away (`WaitingRoom.round_serves_waiters`).

The woken workers may look in any order (`WaitingRoom.Round`); a step of the waiting room is the round in
which they look as they were woken (`WaitingRoom.after_eq_afterRound`).

Between rounds nobody is awake, and nobody sleeps beside a key or a kept signal (`WaitingRoom.Quiet`). During
a round no more keys wait than workers are awake, if one sleeps (`WaitingRoom.Attended`): every key that comes
in wakes a worker (`WaitingRoom.Signalled`), and every worker that looks takes a key unless there is none.
-/

namespace AddressRegistry.WaitingRoom

open WorkQueue

variable {r r' : WaitingRoom} {new : List ObjectKey} {step : Step} {order : List Nat}

/-! ## Workers and their answers -/

/-- A worker is done with a key that it holds, and does not ask while it waits. -/
def permits (r : WaitingRoom) : Step → Bool
  | .done key => r.queue.processing.contains key
  | .poll worker | .arrive worker => !r.asleep.contains worker
  | _ => true

/-- The room in a step when the due timers have ended and the woken workers are to look. -/
def signalled (r : WaitingRoom) (step : Step) : WaitingRoom := (r.perform step).expireDue

/-- A step, and the order in which the workers woken in it look. -/
structure Round where
  step : Step
  order : List Nat
deriving DecidableEq

/-- The step is permitted, and every woken worker looks once. -/
def permitsRound (r : WaitingRoom) (round : Round) : Bool :=
  r.permits round.step && decide (round.order.Perm (r.signalled round.step).awake)

/-- The woken workers look. -/
def looked (r : WaitingRoom) (round : Round) : List (Nat × Option ObjectKey) × WaitingRoom :=
  lookEach round.order { r.signalled round.step with awake := [] }

/-- The room after a round. -/
def afterRound (r : WaitingRoom) (round : Round) : WaitingRoom := (r.looked round).2

/-- The answer to a worker that asks once. -/
def polled (r : WaitingRoom) : Step → List (Nat × Option ObjectKey)
  | .poll worker =>
    match r.poll.1 with
    | .key key => [(worker, some key)]
    | .closed => [(worker, none)]
    | .pending => []
  | _ => []

/-- The workers that are answered in a round, and their answers. -/
def answers (r : WaitingRoom) (round : Round) : List (Nat × Option ObjectKey) :=
  r.polled round.step ++ (r.looked round).1

/-- The keys that come to wait in a step, let in by the user or by a timer. -/
def entered (r : WaitingRoom) (step : Step) : List ObjectKey :=
  r.queue.newcomers (r.perform step).queue ++ (r.perform step).queue.newcomers (r.signalled step).queue

/-- A step is the round in which the workers look as they were woken; what they are answered is what the
step returns. -/
theorem settle_perform (r : WaitingRoom) (step : Step) :
    (r.perform step).settle = ((r.looked ⟨step, (r.signalled step).awake⟩).1.map Prod.snd,
      r.afterRound ⟨step, (r.signalled step).awake⟩) :=
  (r.perform step).expireDue.lookAll_eq_lookEach

/-- A step of the waiting room is the round in which the woken workers look in the order in which they were
woken. -/
theorem after_eq_afterRound (r : WaitingRoom) (step : Step) :
    r.after step = r.afterRound ⟨step, (r.signalled step).awake⟩ :=
  congrArg Prod.snd (r.settle_perform step)

/-- A round is permitted when its step is and every woken worker looks once, in any order. -/
theorem permitsRound_iff :
    r.permitsRound ⟨step, order⟩ = true ↔
      r.permits step = true ∧ order.Perm (r.signalled step).awake := by
  rw [permitsRound, Bool.and_eq_true, decide_eq_true_eq]

/-! ## Signals -/

/-- Keys came in and as many signals were given. -/
structure Signalled (r r' : WaitingRoom) (new : List ObjectKey) : Prop where
  waiting : r'.queue.waiting = r.queue.waiting ++ new
  shutDown : r'.queue.shutDown = r.queue.shutDown
  /-- The workers woken are those that slept longest. -/
  workers : r'.awake ++ r'.asleep = r.awake ++ r.asleep
  /-- While a worker sleeps, every signal has woken one. -/
  woken : r'.asleep ≠ [] → r'.awake.length = r.awake.length + new.length ∧ r'.permit = r.permit
  refused : r.queue.shutDown = true → new = []

/-- When nothing comes in, nobody is signalled. -/
theorem Signalled.refl (r : WaitingRoom) : r.Signalled r [] where
  waiting := (List.append_nil _).symm
  shutDown := rfl
  workers := rfl
  woken _ := ⟨rfl, rfl⟩
  refused _ := rfl

/-- Who sleeps after some signals slept before. -/
theorem Signalled.asleep_ne_nil (h : r.Signalled r' new) (hasleep : r'.asleep ≠ []) : r.asleep ≠ [] := by
  intro hnil
  have hlength := congrArg List.length h.workers
  have hwoken := (h.woken hasleep).1
  have hpos := List.length_pos_iff.2 hasleep
  simp only [List.length_append, hnil, List.length_nil] at hlength
  omega

/-- Keys may come in one after the other, with a signal each. -/
theorem Signalled.trans {r'' : WaitingRoom} {new' : List ObjectKey} (h : r.Signalled r' new)
    (h' : r'.Signalled r'' new') : r.Signalled r'' (new ++ new') where
  waiting := by rw [h'.waiting, h.waiting, List.append_assoc]
  shutDown := h'.shutDown.trans h.shutDown
  workers := h'.workers.trans h.workers
  woken hasleep := by
    obtain ⟨hawake', hpermit'⟩ := h'.woken hasleep
    obtain ⟨hawake, hpermit⟩ := h.woken (h'.asleep_ne_nil hasleep)
    refine ⟨?_, hpermit'.trans hpermit⟩
    rw [hawake', hawake, List.length_append, Nat.add_assoc]
  refused hclosed := by rw [h.refused hclosed, h'.refused (h.shutDown.trans hclosed), List.append_nil]

/-- One key may come in, with a signal, unless the queue is shut down. -/
theorem signalled_signalOne {q : WorkQueue} {b : Bool} {key : ObjectKey}
    (hwaiting : q.waiting = r.queue.waiting ++ if b then [key] else [])
    (hclosed : q.shutDown = r.queue.shutDown) (hb : r.queue.shutDown = true → b = false) :
    r.Signalled (if b then { r with queue := q }.signalOne else { r with queue := q })
      (if b then [key] else []) := by
  rcases b
  · exact ⟨hwaiting, hclosed, rfl, fun _ => ⟨rfl, rfl⟩, fun _ => rfl⟩
  · have hrefused : r.queue.shutDown = true → [key] = [] := fun h => nomatch hb h
    rw [if_pos rfl, signalOne]
    rcases hasleep : r.asleep with _ | ⟨worker, rest⟩
    · exact ⟨hwaiting, hclosed, by simp [hasleep], fun h => absurd rfl h, hrefused⟩
    · exact ⟨hwaiting, hclosed, by simp [hasleep], fun _ => by simp, hrefused⟩

/-- Adding a key brings it in with a signal, or brings in nothing. -/
theorem signalled_add (r : WaitingRoom) (key : ObjectKey) : ∃ new, r.Signalled (r.add key) new :=
  ⟨_, signalled_signalOne (r.queue.waiting_add key) (r.queue.shutDown_add key) fun h => by
    simp [admits, h]⟩

/-- Being done with a key that was marked again brings it in with a signal. -/
theorem signalled_done (r : WaitingRoom) (key : ObjectKey) : ∃ new, r.Signalled (r.done key) new :=
  ⟨_, signalled_signalOne (r.queue.waiting_done key) rfl fun h => by simp [returns, h]⟩

/-- Asking for a delay brings in nothing yet. -/
theorem signalled_addAfter (r : WaitingRoom) (key : ObjectKey) (delay : Nat) :
    r.Signalled (r.addAfter key delay) [] := by
  unfold WaitingRoom.addAfter WorkQueue.addAfter
  split
  · exact .refl r
  · exact ⟨(List.append_nil _).symm, rfl, rfl, fun _ => ⟨rfl, rfl⟩, fun _ => rfl⟩

/-- The end of a timer brings its key in if the timer is current and the queue takes the key. -/
theorem waiting_expire (q : WorkQueue) (t : Timer) :
    (q.expire t).waiting =
      q.waiting ++ if q.isCurrent t && q.admits t.key then [t.key] else [] := by
  unfold WorkQueue.expire
  by_cases hcurrent : q.isCurrent t = true
  · rw [if_pos hcurrent, waiting_add, hcurrent, Bool.true_and]
    rfl
  · simp [hcurrent]

/-- The end of a timer brings its key in with a signal, or brings in nothing. -/
theorem signalled_expire (r : WaitingRoom) (t : Timer) : ∃ new, r.Signalled (r.expire t) new :=
  ⟨_, signalled_signalOne (waiting_expire r.queue t) (r.queue.shutDown_expire t) fun h => by
    simp [admits, h]⟩

/-- All timers that are due bring their keys in with a signal each. -/
theorem signalled_expireDue (r : WaitingRoom) : ∃ new, r.Signalled r.expireDue new := by
  have hfold : ∀ (due : List Timer) (r : WaitingRoom), ∃ new, r.Signalled (due.foldl expire r) new := by
    intro due
    induction due with
    | nil => exact fun r => ⟨[], .refl r⟩
    | cons t rest ih =>
      intro r
      obtain ⟨new, hnew⟩ := r.signalled_expire t
      obtain ⟨new', hnew'⟩ := ih (r.expire t)
      exact ⟨_, hnew.trans hnew'⟩
  -- Putting the due timers aside concerns neither the keys nor the workers.
  obtain ⟨new, hwaiting, hclosed, hworkers, hwoken, hrefused⟩ := hfold
    (r.queue.timers.takeWhile fun t => t.deadline ≤ r.now)
    { r with queue := { r.queue with timers := r.queue.timers.dropWhile fun t => t.deadline ≤ r.now } }
  exact ⟨new, hwaiting, hclosed, hworkers, hwoken, hrefused⟩

/-- In the user's part of a step keys come in with signals, or a worker asks once, or one arrives, or all
are woken. -/
theorem perform_cases (r : WaitingRoom) (step : Step) :
    ((∃ new, r.Signalled (r.perform step) new) ∧ r.polled step = [] ∧ ∀ worker, step ≠ .arrive worker) ∨
      (∃ worker, step = .poll worker) ∨ (∃ worker, step = .arrive worker) ∨ step = .shutdown := by
  cases step with
  | add key => exact Or.inl ⟨r.signalled_add key, rfl, nofun⟩
  | addAfter key delay => exact Or.inl ⟨⟨[], r.signalled_addAfter key delay⟩, rfl, nofun⟩
  | poll worker => exact Or.inr (Or.inl ⟨worker, rfl⟩)
  | arrive worker => exact Or.inr (Or.inr (Or.inl ⟨worker, rfl⟩))
  | done key => exact Or.inl ⟨r.signalled_done key, rfl, nofun⟩
  | advance duration =>
    exact Or.inl ⟨⟨[], (List.append_nil _).symm, rfl, rfl, fun _ => ⟨rfl, rfl⟩, fun _ => rfl⟩, rfl, nofun⟩
  | shutdown => exact Or.inr (Or.inr (Or.inr rfl))

/-- What one user does keeps the queue sound, if the user may do it. -/
theorem sound_perform (h : r.queue.Sound) (hpermitted : r.permits step = true) :
    (r.perform step).queue.Sound := by
  cases step with
  | add key => exact r.queue_add key ▸ h.add key
  | addAfter key delay => exact h.addAfter r.now key delay
  | poll worker => exact r.queue_poll ▸ h.act (m := .take) rfl
  | done key => exact r.queue_done key ▸ h.done hpermitted
  | shutdown => exact h.shutdown
  | arrive | advance => exact h

/-! ## During a step -/

/-- While a worker sleeps, no more keys wait than workers are awake, and no signal is kept. -/
structure Attended (r : WaitingRoom) : Prop where
  sound : r.queue.Sound
  nodup : (r.awake ++ r.asleep).Nodup
  attended : r.asleep ≠ [] →
    r.queue.waiting.length ≤ r.awake.length ∧ r.permit = false ∧ r.queue.shutDown = false

/-- Between steps nobody is awake. -/
structure Quiet (r : WaitingRoom) : Prop extends Attended r where
  awake : r.awake = []

/-- Nobody is in an empty room, and no key. -/
theorem quiet_empty : empty.Quiet where
  sound := sound_empty
  nodup := .nil
  attended h := absurd rfl h
  awake := rfl

/-- Nobody sleeps beside a key. -/
theorem Quiet.waiting_eq_nil (h : r.Quiet) (hasleep : r.asleep ≠ []) : r.queue.waiting = [] := by
  have hle := (h.attended hasleep).1
  rw [h.awake] at hle
  exact List.length_eq_zero_iff.1 (Nat.le_zero.1 hle)

/-- Keys that come in with a signal each keep the waiting keys attended: as long as somebody sleeps, each
signal wakes one more. -/
theorem Attended.signalled (h : r.Attended) (hnew : r.Signalled r' new) (hsound : r'.queue.Sound) :
    r'.Attended where
  sound := hsound
  nodup := hnew.workers ▸ h.nodup
  attended hasleep := by
    obtain ⟨hle, hpermit, hopen⟩ := h.attended (hnew.asleep_ne_nil hasleep)
    obtain ⟨hawake, hpermit'⟩ := hnew.woken hasleep
    refine ⟨?_, hpermit'.trans hpermit, hnew.shutDown.trans hopen⟩
    rw [hnew.waiting, List.length_append, hawake]
    exact Nat.add_le_add_right hle _

/-- Timers that end keep the waiting keys attended. -/
theorem Attended.expireDue (h : r.Attended) : r.expireDue.Attended := by
  obtain ⟨new, hnew⟩ := r.signalled_expireDue
  refine h.signalled hnew ?_
  rw [r.queue_now_expireDue.1, expireDue_eq_foldl_fire]
  exact List.foldlRecOn _ _ h.sound fun q hq t _ => hq.fire t

/-- Asking once finds nothing and leaves the room alone, if a worker sleeps. -/
theorem Quiet.poll_cases (h : r.Quiet) :
    r.asleep = [] ∨ r.poll = (.pending, r) := by
  by_cases hasleep : r.asleep = []
  · exact Or.inl hasleep
  · obtain ⟨-, hpermit, hopen⟩ := h.attended hasleep
    refine Or.inr ?_
    rw [poll, take_of_nil (h.waiting_eq_nil hasleep), hopen]
    show (Turn.pending, { r with permit := false }) = (Turn.pending, r)
    rw [← hpermit]

/-- A worker that asks for a key itself wakes nobody and sends nobody to sleep. -/
theorem asleep_poll (r : WaitingRoom) : r.poll.2.asleep = r.asleep ∧ r.poll.2.awake = r.awake := by
  unfold poll
  split <;> exact ⟨rfl, rfl⟩

/-- What one user does in a quiet room leaves the waiting keys attended. -/
theorem Quiet.perform (h : r.Quiet) (hpermitted : r.permits step = true) :
    (r.perform step).Attended := by
  have hsound := sound_perform h.sound hpermitted
  obtain ⟨⟨new, hnew⟩, -⟩ | ⟨worker, rfl⟩ | ⟨worker, rfl⟩ | rfl := r.perform_cases step
  · exact h.toAttended.signalled hnew hsound
  · show r.poll.2.Attended
    rcases h.poll_cases with hasleep | hpoll
    · refine ⟨hsound, ?_, fun hne => absurd (r.asleep_poll.1.trans hasleep) hne⟩
      rw [r.asleep_poll.1, r.asleep_poll.2]
      exact h.nodup
    · rw [hpoll]
      exact h.toAttended
  · refine ⟨hsound, ?_, fun hasleep => ?_⟩
    · have hnew : worker ∉ r.asleep := by simpa [permits] using hpermitted
      have hnodup := h.nodup
      simp only [h.awake, List.nil_append] at hnodup
      simpa [WaitingRoom.perform, arrive, h.awake] using ⟨hnew, hnodup⟩
    · obtain ⟨hle, hrest⟩ := h.attended hasleep
      exact ⟨Nat.le_trans hle (by simp [WaitingRoom.perform, arrive]), hrest⟩
  · refine ⟨hsound, ?_, fun hasleep => absurd rfl hasleep⟩
    simpa [WaitingRoom.perform, WaitingRoom.shutdown, signalAll] using h.nodup

/-- After the signals of a step in a quiet room there are no more waiting keys than woken workers, if
anybody sleeps. -/
theorem Quiet.signalled (h : r.Quiet) (hpermitted : r.permits step = true) : (r.signalled step).Attended :=
  (h.perform hpermitted).expireDue

/-! ## The workers that look -/

/-- Workers looked: each was answered or sleeps, and the keys that left are in the answers. -/
structure Served (looking : List Nat) (r : WaitingRoom) (answers : List (Nat × Option ObjectKey))
    (r' : WaitingRoom) : Prop where
  sound : r.queue.Sound → r'.queue.Sound
  workers : (answers.map Prod.fst ++ r'.asleep).Perm (r.asleep ++ looking)
  keys : r.queue.waiting = answers.filterMap Prod.snd ++ r'.queue.waiting
  attended :
    (r.asleep ≠ [] →
      r.queue.waiting.length ≤ looking.length ∧ r.permit = false ∧ r.queue.shutDown = false) →
    r'.asleep ≠ [] → r'.queue.waiting = [] ∧ r'.permit = false ∧ r'.queue.shutDown = false

/-- By induction on the workers that look: each takes the first key, or is sent away from a closed queue, or
falls asleep again when there is no key. -/
theorem served_lookEach (looking : List Nat) (r : WaitingRoom) :
    Served looking r (lookEach looking r).1 (lookEach looking r).2 := by
  induction looking generalizing r with
  | nil =>
    refine ⟨fun h => h, by simp [lookEach], by simp [lookEach], fun h hasleep => ?_⟩
    obtain ⟨hle, hrest⟩ := h hasleep
    exact ⟨List.length_eq_zero_iff.1 (Nat.le_zero.1 hle), hrest⟩
  | cons worker rest ih =>
    obtain ⟨key, keys, hwaiting, heq⟩ | ⟨hwaiting, hclosed, heq⟩ | ⟨hwaiting, hopen, heq⟩ :=
      r.look_cases worker
    · rw [lookEach_cons_of_some heq]
      have hserved := ih { r with queue := r.queue.handed key }
      refine ⟨fun h => hserved.sound (h.handed hwaiting), ?_, ?_, fun h => hserved.attended ?_⟩
      · exact (hserved.workers.cons worker).trans List.perm_middle.symm
      · calc r.queue.waiting = key :: (r.queue.handed key).waiting := by simp [handed, hwaiting]
          _ = _ := congrArg (key :: ·) hserved.keys
      · intro hasleep
        obtain ⟨hle, hrest⟩ := h hasleep
        refine ⟨?_, hrest⟩
        simpa [handed, hwaiting] using hle
    · rw [lookEach_cons_of_some heq]
      have hserved := ih r
      refine ⟨hserved.sound, ?_, hserved.keys, fun h => hserved.attended fun hasleep => ?_⟩
      · exact (hserved.workers.cons worker).trans List.perm_middle.symm
      · exact absurd (hclosed.symm.trans (h hasleep).2.2) (by simp)
    · -- The worker falls asleep beside no key, whatever held before.
      rw [lookEach_cons_of_none heq]
      have hserved := ih { r with permit := false, asleep := r.asleep ++ [worker] }
      refine ⟨hserved.sound, ?_, hserved.keys, fun _ => hserved.attended fun _ => ?_⟩
      · simpa using hserved.workers
      · exact ⟨by simp [hwaiting], rfl, hopen⟩

/-- Whoever looks during a round, and in whichever order, is served as `Served` says. -/
theorem served_afterRound (horder : order.Perm (r.signalled step).awake) :
    Served (r.signalled step).awake (r.signalled step) (r.looked ⟨step, order⟩).1
      (r.afterRound ⟨step, order⟩) := by
  obtain ⟨hsound, hworkers, hkeys, hattended⟩ :=
    served_lookEach order { r.signalled step with awake := [] }
  exact ⟨hsound, hworkers.trans (horder.append_left _), hkeys, horder.length_eq ▸ hattended⟩

/-! ## Between rounds -/

/-- After the woken workers of a round have looked, the room is quiet again. -/
theorem Quiet.afterRound (h : r.Quiet) (hround : r.permitsRound ⟨step, order⟩ = true) :
    (r.afterRound ⟨step, order⟩).Quiet := by
  obtain ⟨hpermitted, horder⟩ := permitsRound_iff.1 hround
  have hsignalled := h.signalled hpermitted
  have hserved := served_afterRound horder
  have hawake : (r.afterRound ⟨step, order⟩).awake = [] := (lookEach_frame order _).2.1
  have hnodup := hserved.workers.nodup_iff.2 (List.perm_append_comm.nodup_iff.1 hsignalled.nodup)
  refine ⟨⟨hserved.sound hsignalled.sound, ?_, fun hasleep => ?_⟩, hawake⟩
  · rw [hawake]
    exact (List.nodup_append.1 hnodup).2.1
  · obtain ⟨hnil, hrest⟩ := hserved.attended hsignalled.attended hasleep
    exact ⟨by simp [hnil], hrest⟩

/-- A room stays quiet from round to round. -/
theorem Quiet.rounds (h : r.Quiet) {rounds : List Round}
    (hproper : Permitted permitsRound WaitingRoom.afterRound r rounds) :
    (rounds.foldl WaitingRoom.afterRound r).Quiet :=
  hproper.invariant (fun _ _ hr hround => hr.afterRound hround) h

/-! ## What a round answers -/

/-- The user's part wakes workers and lets one arrive. -/
theorem Quiet.workers_perform (h : r.Quiet) (worker : Nat) :
    worker ∈ (r.perform step).awake ++ (r.perform step).asleep ↔
      worker ∈ r.asleep ∨ step = .arrive worker := by
  obtain ⟨⟨new, hnew⟩, -, hstep⟩ | ⟨other, rfl⟩ | ⟨other, rfl⟩ | rfl := r.perform_cases step
  · simp [hnew.workers, h.awake, hstep]
  · simp [WaitingRoom.perform, r.asleep_poll, h.awake]
  · simp [WaitingRoom.perform, arrive, h.awake, or_comm, eq_comm]
  · simp [WaitingRoom.perform, WaitingRoom.shutdown, signalAll, h.awake]

/-- The workers that slept and the one that arrives leave with an answer or sleep on. -/
theorem Quiet.mem_looked_or_asleep_iff (h : r.Quiet) (horder : order.Perm (r.signalled step).awake)
    (worker : Nat) :
    worker ∈ (r.looked ⟨step, order⟩).1.map Prod.fst ++ (r.afterRound ⟨step, order⟩).asleep ↔
      worker ∈ r.asleep ∨ step = .arrive worker := by
  obtain ⟨new, hnew⟩ := (r.perform step).signalled_expireDue
  rw [(served_afterRound horder).workers.mem_iff, List.mem_append, or_comm, ← List.mem_append,
    ← h.workers_perform, ← hnew.workers]
  rfl

/-- If a worker that asks once is answered, nobody slept, and nobody is woken. -/
theorem Quiet.polled_or_looked_eq_nil (h : r.Quiet) (horder : order.Perm (r.signalled step).awake) :
    r.polled step = [] ∨ r.asleep = [] ∧ (r.looked ⟨step, order⟩).1 = [] ∧ ∃ answer worker,
      step = .poll worker ∧ r.polled step = [(worker, answer)] := by
  obtain ⟨-, hpolled, -⟩ | ⟨worker, rfl⟩ | ⟨worker, rfl⟩ | rfl := r.perform_cases step
  · exact Or.inl hpolled
  · rcases h.poll_cases with hasleep | hpoll
    · have hworkers : ∀ other, other ∉ (r.looked ⟨.poll worker, order⟩).1.map Prod.fst :=
        fun other hother => by
          have := (h.mem_looked_or_asleep_iff horder other).1 (List.mem_append_left _ hother)
          simp [hasleep] at this
      have hlooked : (r.looked ⟨.poll worker, order⟩).1 = [] :=
        List.map_eq_nil_iff.1 (List.eq_nil_iff_forall_not_mem.2 hworkers)
      rcases hturn : r.poll.1 with key | _ | _
      · exact Or.inr ⟨hasleep, hlooked, some key, worker, rfl, by simp [polled, hturn]⟩
      · exact Or.inr ⟨hasleep, hlooked, none, worker, rfl, by simp [polled, hturn]⟩
      · exact Or.inl (by simp [polled, hturn])
    · exact Or.inl (by simp [polled, hpoll])
  · exact Or.inl rfl
  · exact Or.inl rfl

/-- What the user's part removes is the key that a worker gets for asking once. -/
theorem Quiet.waiting_perform (h : r.Quiet) (hpermitted : r.permits step = true) :
    r.queue.waiting ++ r.queue.newcomers (r.perform step).queue =
      (r.polled step).filterMap Prod.snd ++ (r.perform step).queue.waiting := by
  have hnodup := (h.perform hpermitted).sound.nodup
  have hgrown : ∀ new, (r.perform step).queue.waiting = r.queue.waiting ++ new → r.polled step = [] →
      r.queue.waiting ++ r.queue.newcomers (r.perform step).queue =
        (r.polled step).filterMap Prod.snd ++ (r.perform step).queue.waiting := by
    intro new hnew hpolled
    rw [newcomers_of_append hnew hnodup, hnew, hpolled]
    rfl
  obtain ⟨⟨new, hnew⟩, hpolled, -⟩ | ⟨worker, rfl⟩ | ⟨worker, rfl⟩ | rfl := r.perform_cases step
  · exact hgrown new hnew.waiting hpolled
  · show r.queue.waiting ++ r.queue.newcomers r.poll.2.queue = _ ++ r.poll.2.queue.waiting
    rw [queue_poll, newcomers_take, List.append_nil, polled, poll]
    rcases hwaiting : r.queue.waiting with _ | ⟨key, rest⟩
    · rw [take_of_nil hwaiting]
      rcases r.queue.shutDown <;> simp [hwaiting]
    · rw [take_of_cons hwaiting]
      simp [handed, hwaiting]
  · exact hgrown [] (List.append_nil _).symm rfl
  · exact hgrown [] (List.append_nil _).symm rfl

/-- What leaves the queue is in the answers. -/
theorem Quiet.waiting_afterRound (h : r.Quiet) (hround : r.permitsRound ⟨step, order⟩ = true) :
    r.queue.waiting ++ r.entered step =
      (r.answers ⟨step, order⟩).filterMap Prod.snd ++ (r.afterRound ⟨step, order⟩).queue.waiting := by
  obtain ⟨hpermitted, horder⟩ := permitsRound_iff.1 hround
  obtain ⟨new, hnew⟩ := (r.perform step).signalled_expireDue
  have hnewcomers := newcomers_of_append hnew.waiting (h.signalled hpermitted).sound.nodup
  calc r.queue.waiting ++ r.entered step
      = (r.queue.waiting ++ r.queue.newcomers (r.perform step).queue) ++ new := by
        rw [entered, WaitingRoom.signalled, hnewcomers, List.append_assoc]
    _ = (r.polled step).filterMap Prod.snd ++ (r.signalled step).queue.waiting := by
        rw [h.waiting_perform hpermitted, List.append_assoc, WaitingRoom.signalled, hnew.waiting]
    _ = (r.answers ⟨step, order⟩).filterMap Prod.snd ++ (r.afterRound ⟨step, order⟩).queue.waiting := by
        rw [(served_afterRound horder).keys, answers, List.filterMap_append, List.append_assoc]

/-- In one round no key goes to two workers, and no worker has two answers. -/
theorem Quiet.nodup_answers (h : r.Quiet) (hround : r.permitsRound ⟨step, order⟩ = true) :
    ((r.answers ⟨step, order⟩).filterMap Prod.snd).Nodup ∧
      ((r.answers ⟨step, order⟩).map Prod.fst).Nodup := by
  obtain ⟨hpermitted, horder⟩ := permitsRound_iff.1 hround
  obtain hpolled | ⟨-, hlooked, answer, worker, -, hpolled⟩ := h.polled_or_looked_eq_nil horder
  · have hserved := served_afterRound horder
    have hsignalled := h.signalled hpermitted
    have hkeys := hsignalled.sound.nodup
    rw [hserved.keys] at hkeys
    have hworkers := hserved.workers.nodup_iff.2 (List.perm_append_comm.nodup_iff.1 hsignalled.nodup)
    rw [answers, hpolled]
    exact ⟨(List.nodup_append.1 hkeys).1, (List.nodup_append.1 hworkers).1⟩
  · rw [answers, hpolled, hlooked]
    rcases answer <;> simp

/-- Who asks for a key and does not leave with an answer sleeps. -/
theorem Quiet.mem_asleep_iff (h : r.Quiet) (hround : r.permitsRound ⟨step, order⟩ = true)
    (worker : Nat) :
    worker ∈ (r.afterRound ⟨step, order⟩).asleep ↔
      (worker ∈ r.asleep ∨ step = .arrive worker) ∧
        worker ∉ (r.answers ⟨step, order⟩).map Prod.fst := by
  obtain ⟨hpermitted, horder⟩ := permitsRound_iff.1 hround
  have hiff := h.mem_looked_or_asleep_iff horder worker
  obtain hpolled | ⟨hasleep, hlooked, answer, other, rfl, hpolled⟩ := h.polled_or_looked_eq_nil horder
  · have hnodup := (served_afterRound horder).workers.nodup_iff.2
      (List.perm_append_comm.nodup_iff.1 (h.signalled hpermitted).nodup)
    rw [← hiff, answers, hpolled, List.nil_append, List.mem_append]
    have hdisjoint := (List.nodup_append.1 hnodup).2.2
    constructor
    · exact fun hmem => ⟨Or.inr hmem, fun hmem' => hdisjoint worker hmem' worker hmem rfl⟩
    · rintro ⟨hmem | hmem, hnot⟩
      · exact absurd hmem hnot
      · exact hmem
  · simp only [hlooked, hasleep, List.map_nil, List.nil_append, List.not_mem_nil, false_or,
      reduceCtorEq, iff_false] at hiff
    simp [hiff, hasleep]

/-- Only who slept, arrives or asks once is answered. -/
theorem Quiet.asked_of_mem_answers (h : r.Quiet) (hround : r.permitsRound ⟨step, order⟩ = true)
    {worker : Nat} (hworker : worker ∈ (r.answers ⟨step, order⟩).map Prod.fst) :
    worker ∈ r.asleep ∨ step = .arrive worker ∨ step = .poll worker := by
  obtain ⟨-, horder⟩ := permitsRound_iff.1 hround
  obtain hpolled | ⟨-, hlooked, answer, other, rfl, hpolled⟩ := h.polled_or_looked_eq_nil horder
  · rw [answers, hpolled, List.nil_append] at hworker
    have hmem := (h.mem_looked_or_asleep_iff horder worker).1 (List.mem_append_left _ hworker)
    exact hmem.imp_right Or.inl
  · rw [answers, hpolled, hlooked, List.append_nil] at hworker
    exact Or.inr (Or.inr (by simpa [eq_comm] using hworker))

/-- A shutdown lets no key in. -/
theorem entered_shutdown (r : WaitingRoom) : r.entered .shutdown = [] := by
  obtain ⟨new, hnew⟩ := (r.perform .shutdown).signalled_expireDue
  have hwaiting := hnew.waiting
  rw [hnew.refused rfl, List.append_nil] at hwaiting
  rw [entered, WaitingRoom.signalled, newcomers, newcomers, hwaiting]
  simp +contextual [WaitingRoom.perform, WaitingRoom.shutdown, signalAll, WorkQueue.shutdown]

/-- Only a shutdown closes the queue. -/
theorem shutDown_afterRound (hclose : step ≠ .shutdown) :
    (r.afterRound ⟨step, order⟩).queue.shutDown = r.queue.shutDown := by
  obtain ⟨new, hnew⟩ := (r.perform step).signalled_expireDue
  calc (r.afterRound ⟨step, order⟩).queue.shutDown
      = (r.signalled step).queue.shutDown := congrArg Prod.fst (lookEach_frame order _).2.2
    _ = r.queue.shutDown := hnew.shutDown.trans (shutDown_perform hclose)

/-- A shutdown closes the queue; neither the timers that end then nor the workers open it again. -/
theorem shutDown_afterRound_shutdown : (r.afterRound ⟨.shutdown, order⟩).queue.shutDown = true := by
  obtain ⟨new, hnew⟩ := (r.perform .shutdown).signalled_expireDue
  calc (r.afterRound ⟨.shutdown, order⟩).queue.shutDown
      = (r.signalled .shutdown).queue.shutDown := congrArg Prod.fst (lookEach_frame order _).2.2
    _ = (r.perform .shutdown).queue.shutDown := hnew.shutDown
    _ = true := rfl

/-- Who sleeps when the queue is shut down leaves with no key. -/
theorem Quiet.none_mem_answers (h : r.Quiet) (hround : r.permitsRound ⟨step, order⟩ = true)
    (hclosed : (r.afterRound ⟨step, order⟩).queue.shutDown = true) {worker : Nat}
    (hworker : worker ∈ r.asleep) : (worker, none) ∈ r.answers ⟨step, order⟩ := by
  have hasleep : r.asleep ≠ [] := List.ne_nil_of_mem hworker
  have hshutdown : step = .shutdown := by
    by_contra hne
    rw [shutDown_afterRound hne, (h.attended hasleep).2.2] at hclosed
    cases hclosed
  subst hshutdown
  have hleaves : (r.afterRound ⟨.shutdown, order⟩).asleep = [] := by
    by_contra hne
    exact absurd (hclosed.symm.trans ((h.afterRound hround).attended hne).2.2) (by simp)
  have hanswered : worker ∈ (r.answers ⟨.shutdown, order⟩).map Prod.fst := by
    by_contra hnot
    have := (h.mem_asleep_iff hround worker).2 ⟨Or.inl hworker, hnot⟩
    simp [hleaves] at this
  obtain ⟨⟨_, answer⟩, hmem, rfl⟩ := List.mem_map.1 hanswered
  -- The queue was empty, and a shutdown lets nothing in, so there was no key to leave with.
  have hkeys := h.waiting_afterRound hround
  rw [h.waiting_eq_nil hasleep, entered_shutdown, List.nil_append, eq_comm, List.append_eq_nil_iff,
    List.filterMap_eq_nil_iff] at hkeys
  exact hkeys.1 _ hmem ▸ hmem

/-- **No wakeup is lost.** When the workers woken in a step have looked, in any order, nobody is awake, and if
a worker sleeps, no key waits and the queue is open. The keys that waited and that came in are, in this order,
those in the answers and those that wait. Each answer goes to one worker, no worker gets two, and who slept or
arrived is answered or sleeps. A shutdown closes the queue, and when the queue is closed after a round, whoever
slept was answered that no key is left. -/
theorem round_serves_waiters (rounds : List Round) (round : Round)
    (hproper : Permitted permitsRound afterRound empty (rounds ++ [round])) :
    let r := rounds.foldl afterRound empty
    let r' := r.afterRound round
    r'.awake = [] ∧
    (r'.asleep ≠ [] → r'.queue.waiting = [] ∧ r'.queue.shutDown = false) ∧
    r.queue.waiting ++ r.entered round.step =
      (r.answers round).filterMap Prod.snd ++ r'.queue.waiting ∧
    (((r.answers round).filterMap Prod.snd).Nodup ∧ ((r.answers round).map Prod.fst).Nodup) ∧
    (∀ worker, worker ∈ r'.asleep ↔
      (worker ∈ r.asleep ∨ round.step = .arrive worker) ∧
        worker ∉ (r.answers round).map Prod.fst) ∧
    (∀ worker ∈ (r.answers round).map Prod.fst,
      worker ∈ r.asleep ∨ round.step = .arrive worker ∨ round.step = .poll worker) ∧
    (round.step = .shutdown → r'.queue.shutDown = true) ∧
    (r'.queue.shutDown = true → ∀ worker ∈ r.asleep, (worker, none) ∈ r.answers round) := by
  intro r r'
  obtain ⟨hrounds, hround, -⟩ := permitted_append.1 hproper
  have h : r.Quiet := quiet_empty.rounds hrounds
  have h' : r'.Quiet := h.afterRound hround
  refine ⟨h'.awake, fun hasleep => ⟨h'.waiting_eq_nil hasleep, (h'.attended hasleep).2.2⟩,
    h.waiting_afterRound hround, h.nodup_answers hround, h.mem_asleep_iff hround, ?_, ?_, ?_⟩
  · exact fun worker hworker => h.asked_of_mem_answers hround hworker
  · intro hclose
    obtain ⟨step, order⟩ := round
    obtain rfl : step = .shutdown := hclose
    exact shutDown_afterRound_shutdown
  · exact fun hclosed worker hworker => h.none_mem_answers hround hclosed hworker

/-- Two workers wait, two keys come in at once, and the worker woken last looks first; another one asks once,
and one comes back. -/
def crewRounds : List Round :=
  let a : ObjectKey := ⟨"default", "a"⟩
  let b : ObjectKey := ⟨"default", "b"⟩
  [⟨.arrive 0, [0]⟩, ⟨.arrive 1, [1]⟩, ⟨.addAfter a 10, []⟩, ⟨.addAfter b 10, []⟩,
    ⟨.advance 10, [1, 0]⟩, ⟨.add b, []⟩, ⟨.done b, []⟩, ⟨.poll 2, []⟩, ⟨.arrive 0, [0]⟩]

/-- The worker that looked first got the first key; a shutdown sends the one that sleeps away. -/
theorem round_serves_waiters_crew :
    Permitted permitsRound afterRound empty (crewRounds ++ [⟨.shutdown, [0]⟩]) ∧
      (crewRounds.foldl afterRound empty).asleep = [0] ∧
        (0, none) ∈ (crewRounds.foldl afterRound empty).answers ⟨.shutdown, [0]⟩ := by
  have hproper : Permitted permitsRound afterRound empty (crewRounds ++ [⟨.shutdown, [0]⟩]) := by
    decide +kernel
  have hasleep : (crewRounds.foldl afterRound empty).asleep = [0] := by decide +kernel
  obtain ⟨-, -, -, -, -, -, hcloses, hclosed⟩ := round_serves_waiters crewRounds ⟨.shutdown, [0]⟩ hproper
  exact ⟨hproper, hasleep, hclosed (hcloses rfl) 0 (by simp [hasleep])⟩

end AddressRegistry.WaitingRoom
