import AddressRegistry.Proofs.Queue.Rooms
import Mathlib.Data.List.Nodup
import Mathlib.Data.List.TakeWhile

/-!
# Delayed additions

Each request for a delayed addition starts a timer of its own with a fresh token, and the timers of a key
that it replaces go on running. Which of them add their key when they end is read off the tokens
(`WorkQueue.firing`).

In every run a request leads to one addition when its deadline is reached, unless the same key was asked
for again before; then it leads to none. The number of scheduled keys is that of the keys with a request
that is still to lead to an addition (`WaitingRoom.latest_call_adds_once`). The proof relates the requests
made and the additions seen to the running timers (`WaitingRoom.Underway`, `WaitingRoom.Kept`). A request
is made only while no running timer is due; so a timer that ends without the latest token of its key was
replaced before its deadline, and one that ends with it was not.
-/

namespace AddressRegistry

namespace WorkQueue

/-- Of timers that end one after the other, those that add their keys. -/
def firing (q : WorkQueue) : List Timer → List Timer
  | [] => []
  | t :: rest =>
    if q.isCurrent t then t :: (q.expire t).firing rest else (q.expire t).firing rest

/-- Who fires is due. -/
theorem mem_of_mem_firing {q : WorkQueue} {t : Timer} {due : List Timer} (ht : t ∈ q.firing due) :
    t ∈ due := by
  induction due generalizing q with
  | nil => exact ht
  | cons u rest ih =>
    rw [firing] at ht
    split at ht
    · rcases List.mem_cons.1 ht with rfl | ht
      · exact List.mem_cons_self
      · exact List.mem_cons_of_mem _ (ih ht)
    · exact List.mem_cons_of_mem _ (ih ht)

/-- Add the key of a timer that ends and strike it off the schedule. -/
def addScheduled (q : WorkQueue) (t : Timer) : WorkQueue :=
  { q with scheduled := q.scheduled.erase t.key }.add t.key

/-- A timer with the latest token of its key adds the key when it ends. -/
theorem expire_of_current {q : WorkQueue} {t : Timer} (h : q.isCurrent t = true) :
    q.expire t = q.addScheduled t :=
  if_pos h

/-- A timer that was replaced does nothing when it ends. -/
theorem expire_of_stale {q : WorkQueue} {t : Timer} (h : ¬q.isCurrent t = true) : q.expire t = q :=
  if_neg h

/-- Timers that end one after the other add the keys of those that fire, in this order. -/
theorem foldl_expire_eq_foldl_addScheduled (q : WorkQueue) (due : List Timer) :
    due.foldl expire q = (q.firing due).foldl addScheduled q := by
  induction due generalizing q with
  | nil => rfl
  | cons t rest ih =>
    rw [List.foldl_cons, firing, ih]
    split
    · rename_i hcurrent
      rw [List.foldl_cons, expire_of_current hcurrent]
    · rename_i hstale
      rw [expire_of_stale hstale]

/-- The timers that are due. -/
def due (q : WorkQueue) (now : Nat) : List Timer := q.timers.takeWhile fun t => t.deadline ≤ now

/-- Ending the due timers adds the keys of those that fire, in their order, and does nothing else. -/
theorem expireDue_eq_foldl_addScheduled (q : WorkQueue) (now : Nat) :
    q.expireDue now = { (q.firing (q.due now)).foldl addScheduled q with
      timers := q.timers.dropWhile fun t => t.deadline ≤ now } := by
  rw [← foldl_expire_eq_foldl_addScheduled, ← foldl_expire_withTimers]
  rfl

/-- Adding a key does not look at the schedule, so the key may be struck off before or after. -/
theorem addScheduled_eq (q : WorkQueue) (scheduled : SortedMap ObjectKey Nat) (t : Timer) :
    addScheduled { q with scheduled } t = { q.add t.key with scheduled := scheduled.erase t.key } := by
  unfold addScheduled add
  dsimp only
  split
  · rfl
  · split <;> rfl

/-- Of timers that fire one after the other, each adds its key once, in their order. -/
theorem foldl_addScheduled (q : WorkQueue) (fired : List Timer) :
    fired.foldl addScheduled q = { (fired.map Timer.key).foldl add q with
      scheduled := (fired.map Timer.key).foldl SortedMap.erase q.scheduled } := by
  have hfold : ∀ (q : WorkQueue) (scheduled : SortedMap ObjectKey Nat),
      fired.foldl addScheduled { q with scheduled } = { (fired.map Timer.key).foldl add q with
        scheduled := (fired.map Timer.key).foldl SortedMap.erase scheduled } := by
    induction fired with
    | nil => exact fun _ _ => rfl
    | cons t rest ih =>
      intro q scheduled
      rw [List.foldl_cons, addScheduled_eq, ih]
      rfl
  exact hfold q q.scheduled

/-- A scheduled addition takes its key off the schedule. -/
theorem scheduled_addScheduled (q : WorkQueue) (t : Timer) :
    (q.addScheduled t).scheduled = q.scheduled.erase t.key :=
  scheduled_add _ _

/-- A scheduled addition takes no token. -/
theorem tokens_addScheduled (q : WorkQueue) (t : Timer) : (q.addScheduled t).tokens = q.tokens := by
  have htokens := tokens_eq_of_clockwork (clockwork_add { q with scheduled := q.scheduled.erase t.key } t.key)
  exact htokens

section

variable {t : Timer} {timers : List Timer} {now : Nat}

/-- A timer that is put in its place leaves the timers in the order of their deadlines. -/
theorem pairwise_placeTimer (h : timers.Pairwise fun t u => t.deadline ≤ u.deadline) :
    (placeTimer t timers).Pairwise fun t u => t.deadline ≤ u.deadline := by
  induction timers with
  | nil => exact List.pairwise_singleton _ t
  | cons first rest ih =>
    obtain ⟨hfirst, hrest⟩ := List.pairwise_cons.1 h
    unfold placeTimer
    split
    · rename_i hle
      refine List.pairwise_cons.2 ⟨fun u hu => ?_, ih hrest⟩
      rcases mem_placeTimer_iff.1 hu with rfl | hu
      · exact hle
      · exact hfirst u hu
    · rename_i hlt
      refine List.pairwise_cons.2 ⟨fun u hu => ?_, h⟩
      rcases List.mem_cons.1 hu with rfl | hu
      · omega
      · have := hfirst u hu
        omega

/-- A new timer that is put in its place is there once. -/
theorem nodup_placeTimer (h : timers.Nodup) (hnew : t ∉ timers) : (placeTimer t timers).Nodup := by
  induction timers with
  | nil => exact List.pairwise_singleton _ t
  | cons first rest ih =>
    obtain ⟨hfirst, hrest⟩ := List.nodup_cons.1 h
    unfold placeTimer
    split
    · refine List.nodup_cons.2 ⟨fun hmem => ?_, ih hrest fun hmem => hnew (List.mem_cons_of_mem _ hmem)⟩
      rcases mem_placeTimer_iff.1 hmem with rfl | hmem
      · exact hnew List.mem_cons_self
      · exact hfirst hmem
    · exact List.nodup_cons.2 ⟨hnew, h⟩

/-- Of timers in the order of their deadlines, those behind the due ones are not due. -/
theorem lt_deadline_of_mem_dropWhile (h : timers.Pairwise fun t u => t.deadline ≤ u.deadline)
    (ht : t ∈ timers.dropWhile fun t => t.deadline ≤ now) : now < t.deadline := by
  induction timers with
  | nil => cases ht
  | cons first rest ih =>
    obtain ⟨hfirst, hrest⟩ := List.pairwise_cons.1 h
    by_cases hdue : first.deadline ≤ now
    · rw [List.dropWhile_cons_of_pos (by simpa using hdue)] at ht
      exact ih hrest ht
    · rw [List.dropWhile_cons_of_neg (by simpa using hdue)] at ht
      rcases List.mem_cons.1 ht with rfl | ht
      · omega
      · have := hfirst t ht
        omega

end

end WorkQueue

namespace WaitingRoom

open WorkQueue

/-- A request for a delayed addition: when it was made, and its timer. -/
structure Call where
  madeAt : Nat
  timer : Timer
deriving DecidableEq

/-- None of the newer requests for the same key was made before the deadline. -/
def Call.Stands (c : Call) (newer : List Call) : Prop :=
  ∀ d ∈ newer, d.timer.key = c.timer.key → c.timer.deadline ≤ d.madeAt

instance (c : Call) (newer : List Call) : Decidable (c.Stands newer) :=
  inferInstanceAs (Decidable (∀ d ∈ newer, d.timer.key = c.timer.key → c.timer.deadline ≤ d.madeAt))

/-- A request at some time; its timer runs for the delay and has the next token. -/
def request (q : WorkQueue) (now : Nat) (key : ObjectKey) (delay : Nat) : Call :=
  ⟨now, now + delay, key, q.tokens + 1⟩

/-- The request of a step. -/
def call (r : WaitingRoom) : Step → List Call
  | .addAfter key delay => [request r.queue r.now key delay]
  | _ => []

/-- The requests of a run, in this order. -/
def calls (r : WaitingRoom) : List Step → List Call
  | [] => []
  | step :: rest => r.call step ++ (r.after step).calls rest

/-- The timers that add their keys in a step, in this order; the other due ones change nothing
(`WorkQueue.expireDue_eq_foldl_addScheduled`). -/
def fired (r : WaitingRoom) (step : Step) : List Timer :=
  (r.perform step).queue.firing ((r.perform step).queue.due (r.perform step).now)

/-- The timers that add their keys in a run, in this order. -/
def additions (r : WaitingRoom) : List Step → List Timer
  | [] => []
  | step :: rest => r.fired step ++ (r.after step).additions rest

/-- What a step adds on account of requests for delayed additions: the keys of the timers that fire, and no
other key. -/
structure AddsFired (r : WaitingRoom) (step : Step) : Prop where
  /-- A request adds nothing when it is made. -/
  asked : ∀ key delay, step = .addAfter key delay → (r.perform step).queue.waiting = r.queue.waiting ∧
    (r.perform step).queue.dirty = r.queue.dirty ∧ (r.perform step).queue.processing = r.queue.processing
  /-- When the due timers end, the key of each timer that fires is added once, in their order. It is struck
  off the schedule, the due timers are gone, and nothing else changes. -/
  ended : (r.perform step).expireDue.queue =
    { ((r.fired step).map Timer.key).foldl WorkQueue.add (r.perform step).queue with
      scheduled := ((r.fired step).map Timer.key).foldl SortedMap.erase (r.perform step).queue.scheduled
      timers := (r.perform step).queue.timers.dropWhile fun t => t.deadline ≤ (r.perform step).now }
  /-- Then the keys are marked. -/
  marked : ∀ t ∈ r.fired step, (r.perform step).expireDue.queue.dirty.contains t.key = true
  /-- The workers that look afterwards add no key. -/
  looked : ∀ key, (r.after step).queue.dirty.contains key = true →
    (r.perform step).expireDue.queue.dirty.contains key = true

/-! ## Requests and running timers -/

variable {calls : List Call} {additions running rest : List Timer} {now tokens delay : Nat}
  {q : WorkQueue} {t : Timer} {key : ObjectKey}

/-- Requests and the timers of theirs that still run, in the order of the deadlines. -/
structure Underway (calls : List Call) (now : Nat) (running : List Timer) (tokens : Nat) : Prop where
  ordered : calls.Pairwise fun c d => c.timer.token < d.timer.token
  counted : ∀ c ∈ calls, c.timer.token ≤ tokens
  started : ∀ t ∈ running, ∃ c ∈ calls, c.timer = t
  sorted : running.Pairwise fun t u => t.deadline ≤ u.deadline
  nodup : running.Nodup
  /-- What was asked for while a timer was running was asked for before its deadline. -/
  overtaken : ∀ t ∈ running, ∀ d ∈ calls, t.token < d.timer.token → d.madeAt < t.deadline
  ended : ∀ c ∈ calls, c.timer ∈ running ∨ c.timer.deadline ≤ now

/-- No two requests have one token. -/
theorem Underway.eq_of_token (h : Underway calls now running tokens) {c d : Call} (hc : c ∈ calls)
    (hd : d ∈ calls) (htoken : c.timer.token = d.timer.token) : c = d := by
  have hnodup : (calls.map fun c => c.timer.token).Nodup :=
    List.pairwise_map.2 (h.ordered.imp Nat.ne_of_lt)
  exact List.inj_on_of_nodup_map hnodup hc hd htoken

/-- Tokens of running timers were taken before. -/
theorem Underway.token_le (h : Underway calls now running tokens) (ht : t ∈ running) :
    t.token ≤ tokens := by
  obtain ⟨c, hc, rfl⟩ := h.started t ht
  exact h.counted c hc

/-- The timer of the next request does not run yet. -/
theorem Underway.request_notMem (h : Underway calls now running q.tokens) (now' : Nat) (key : ObjectKey)
    (delay : Nat) : (request q now' key delay).timer ∉ running :=
  fun hmem => Nat.not_succ_le_self _ (h.token_le hmem)

/-- When no running timer is due, another request may be made. -/
theorem Underway.request (h : Underway calls now running q.tokens)
    (hrest : ∀ t ∈ running, now < t.deadline) (key : ObjectKey) (delay : Nat) :
    Underway (calls ++ [request q now key delay]) now
      (placeTimer (request q now key delay).timer running) (q.tokens + 1) where
  ordered := by
    refine List.pairwise_append.2 ⟨h.ordered, List.pairwise_singleton _ _, fun c hc d hd => ?_⟩
    rw [List.mem_singleton.1 hd]
    exact Nat.lt_succ_of_le (h.counted c hc)
  counted := by
    intro c hc
    rcases List.mem_append.1 hc with hc | hc
    · exact Nat.le_succ_of_le (h.counted c hc)
    · exact List.mem_singleton.1 hc ▸ Nat.le_refl _
  started := by
    intro t ht
    rcases mem_placeTimer_iff.1 ht with rfl | ht
    · exact ⟨_, List.mem_append_right _ (List.mem_singleton_self _), rfl⟩
    · obtain ⟨c, hc, rfl⟩ := h.started t ht
      exact ⟨c, List.mem_append_left _ hc, rfl⟩
  sorted := pairwise_placeTimer h.sorted
  nodup := nodup_placeTimer h.nodup (h.request_notMem now key delay)
  overtaken := by
    intro t ht d hd hlt
    rcases mem_placeTimer_iff.1 ht with rfl | ht <;> rcases List.mem_append.1 hd with hd | hd
    · exact absurd hlt (Nat.not_lt.2 (Nat.le_succ_of_le (h.counted d hd)))
    · rw [List.mem_singleton.1 hd] at hlt
      exact absurd hlt (Nat.lt_irrefl _)
    · exact h.overtaken t ht d hd hlt
    · rw [List.mem_singleton.1 hd]
      exact hrest t ht
  ended := by
    intro c hc
    rcases List.mem_append.1 hc with hc | hc
    · exact (h.ended c hc).imp_left fun hmem => mem_placeTimer_iff.2 (Or.inr hmem)
    · rw [List.mem_singleton.1 hc]
      exact Or.inl (mem_placeTimer_iff.2 (Or.inl rfl))

/-- A due timer may end. -/
theorem Underway.tail (h : Underway calls now (t :: rest) tokens) (hdue : t.deadline ≤ now) :
    Underway calls now rest tokens where
  ordered := h.ordered
  counted := h.counted
  started u hu := h.started u (List.mem_cons_of_mem _ hu)
  sorted := (List.pairwise_cons.1 h.sorted).2
  nodup := (List.nodup_cons.1 h.nodup).2
  overtaken u hu := h.overtaken u (List.mem_cons_of_mem _ hu)
  ended c hc := by
    rcases h.ended c hc with hmem | hdue
    · rcases List.mem_cons.1 hmem with rfl | hmem
      · exact Or.inr hdue
      · exact Or.inl hmem
    · exact Or.inr hdue

/-! ## The schedule and the additions -/

/-- A timer has the latest token of its key. -/
def Latest (calls : List Call) (t : Timer) : Prop :=
  ∀ d ∈ calls, d.timer.key = t.key → d.timer.token ≤ t.token

/-- No request that replaced a timer was made before its deadline. -/
def Stood (calls : List Call) (t : Timer) : Prop :=
  ∀ d ∈ calls, d.timer.key = t.key → t.token < d.timer.token → t.deadline ≤ d.madeAt

/-- What the requests of a run say about its additions and about the schedule. -/
structure Kept (calls : List Call) (additions : List Timer) (now : Nat) (running : List Timer)
    (q : WorkQueue) : Prop where
  underway : Underway calls now running q.tokens
  scheduled_iff : ∀ key token, q.scheduled.get? key = some token ↔
    ∃ t ∈ running, t.key = key ∧ t.token = token ∧ Latest calls t
  added_iff : ∀ t, t ∈ additions ↔ (∃ c ∈ calls, c.timer = t) ∧ t ∉ running ∧ Stood calls t
  inOrder : additions.Pairwise fun t u => t.deadline ≤ u.deadline
  once : additions.Nodup
  earlier : ∀ t ∈ additions, ∀ u ∈ running, t.deadline ≤ u.deadline

/-- When nothing was requested there is nothing to account for. -/
theorem kept_empty : Kept [] [] 0 [] .empty where
  underway := ⟨.nil, nofun, nofun, .nil, .nil, nofun, nofun⟩
  scheduled_iff _ _ := iff_of_false nofun fun ⟨_, h, _⟩ => nomatch h
  added_iff _ := iff_of_false nofun fun ⟨⟨_, h, _⟩, _⟩ => nomatch h
  inOrder := .nil
  once := .nil
  earlier := nofun

/-- While nothing ends, time may pass. -/
theorem Kept.later {now' : Nat} (h : Kept calls additions now running q) (hle : now ≤ now') :
    Kept calls additions now' running q :=
  { h with
    underway := { h.underway with
      ended := fun c hc => (h.underway.ended c hc).imp_right fun hdue => Nat.le_trans hdue hle } }

/-- What is kept is about the tokens and the schedule of the queue. -/
theorem Kept.congr {q' : WorkQueue} (h : Kept calls additions now running q)
    (htokens : q'.tokens = q.tokens) (hscheduled : q'.scheduled = q.scheduled) :
    Kept calls additions now running q' :=
  { h with
    underway := htokens ▸ h.underway
    scheduled_iff := hscheduled ▸ h.scheduled_iff }

/-- Of the running timers the one that the queue takes for current is that of the latest request for its
key. -/
theorem Kept.isCurrent_iff (h : Kept calls additions now running q) (ht : t ∈ running) :
    q.isCurrent t = true ↔ Latest calls t := by
  rw [isCurrent, beq_iff_eq, h.scheduled_iff]
  constructor
  · rintro ⟨u, -, hkey, htoken, hlatest⟩
    exact fun d hd hd' => htoken ▸ hlatest d hd (hd'.trans hkey.symm)
  · exact fun hlatest => ⟨t, ht, rfl, rfl, hlatest⟩

/-- Additions are seen at their deadlines or later. -/
theorem Kept.deadline_le (h : Kept calls additions now running q) (ht : t ∈ additions) :
    t.deadline ≤ now := by
  obtain ⟨⟨c, hc, rfl⟩, hended, -⟩ := (h.added_iff t).1 ht
  exact (h.underway.ended c hc).resolve_left hended

/-! ### A request -/

/-- A request for one key does not replace those for others. -/
theorem latest_append_request_iff {now' : Nat} (hne : t.key ≠ key) :
    Latest (calls ++ [request q now' key delay]) t ↔ Latest calls t := by
  simp only [Latest, List.forall_mem_append, List.forall_mem_singleton]
  exact and_iff_left fun hkey => absurd hkey.symm hne

/-- The request is the latest of its key. -/
theorem Kept.scheduled_request (h : Kept calls additions now running q) (k : ObjectKey) (token : Nat) :
    (q.scheduled.insert key (q.tokens + 1)).get? k = some token ↔
      ∃ t ∈ placeTimer (request q now key delay).timer running, t.key = k ∧ t.token = token ∧
        Latest (calls ++ [request q now key delay]) t := by
  -- the key of the request has its new token, and any other key what it had
  by_cases hkey : k = key
  · subst hkey
    rw [SortedMap.get?_insert_self, Option.some.injEq]
    constructor
    · rintro rfl
      refine ⟨_, mem_placeTimer_iff.2 (Or.inl rfl), rfl, rfl, fun d hd _ => ?_⟩
      rcases List.mem_append.1 hd with hd | hd
      · exact Nat.le_succ_of_le (h.underway.counted d hd)
      · exact List.mem_singleton.1 hd ▸ Nat.le_refl _
    · rintro ⟨t, ht, hk, rfl, hlatest⟩
      rcases mem_placeTimer_iff.1 ht with rfl | ht
      · rfl
      · have hnew : q.tokens + 1 ≤ t.token :=
          hlatest _ (List.mem_append_right _ (List.mem_singleton_self _)) hk.symm
        exact absurd (h.underway.token_le ht) (Nat.not_le.2 hnew)
  · rw [SortedMap.get?_insert_of_ne _ hkey, h.scheduled_iff]
    constructor
    · rintro ⟨t, ht, rfl, htoken, hlatest⟩
      exact ⟨t, mem_placeTimer_iff.2 (Or.inr ht), rfl, htoken,
        (latest_append_request_iff hkey).2 hlatest⟩
    · rintro ⟨t, ht, rfl, htoken, hlatest⟩
      refine ⟨t, (mem_placeTimer_iff.1 ht).resolve_left ?_, rfl, htoken,
        (latest_append_request_iff hkey).1 hlatest⟩
      rintro rfl
      exact hkey rfl

/-- What was added before is no newer than the request. -/
theorem Kept.added_request (h : Kept calls additions now running q) (t : Timer) :
    t ∈ additions ↔ (∃ c ∈ calls ++ [request q now key delay], c.timer = t) ∧
      t ∉ placeTimer (request q now key delay).timer running ∧
        Stood (calls ++ [request q now key delay]) t := by
  rw [h.added_iff, mem_placeTimer_iff, not_or]
  constructor
  · rintro ⟨⟨c, hc, rfl⟩, hended, hstood⟩
    have hne : c.timer ≠ (request q now key delay).timer := fun heq =>
      Nat.not_succ_le_self _ (heq ▸ h.underway.counted c hc)
    refine ⟨⟨c, List.mem_append_left _ hc, rfl⟩, ⟨hne, hended⟩, fun d hd hkey hlt => ?_⟩
    rcases List.mem_append.1 hd with hd | hd
    · exact hstood d hd hkey hlt
    · rw [List.mem_singleton.1 hd]
      exact (h.underway.ended c hc).resolve_left hended
  · rintro ⟨⟨c, hc, rfl⟩, ⟨hne, hended⟩, hstood⟩
    refine ⟨⟨c, (List.mem_append.1 hc).resolve_right fun hc => ?_, rfl⟩, hended, fun d hd =>
      hstood d (List.mem_append_left _ hd)⟩
    exact hne (congrArg Call.timer (List.mem_singleton.1 hc))

/-- A request takes a fresh token, schedules its key and starts its timer, and replaces the earlier requests
for the key. No running timer is due by then, so none of those has reached its deadline. -/
theorem Kept.request (h : Kept calls additions now running q)
    (hrest : ∀ t ∈ running, now < t.deadline) (hopen : q.shutDown = false) (key : ObjectKey)
    (delay : Nat) :
    Kept (calls ++ [request q now key delay]) additions now
      (placeTimer (request q now key delay).timer running) (q.addAfter now key delay) := by
  rw [addAfter_of_open hopen]
  refine ⟨h.underway.request hrest key delay, h.scheduled_request, h.added_request, h.inOrder, h.once, ?_⟩
  intro t ht u hu
  rcases mem_placeTimer_iff.1 hu with rfl | hu
  · exact Nat.le_trans (h.deadline_le ht) (Nat.le_add_right now delay)
  · exact h.earlier t ht u hu

/-! ### The end of a timer -/

/-- Of a key, only one running timer has the latest token. -/
theorem Underway.eq_of_latest (h : Underway calls now running tokens) {u : Timer} (ht : t ∈ running)
    (hu : u ∈ running) (hkey : u.key = t.key) (htlatest : Latest calls t) (hulatest : Latest calls u) :
    u = t := by
  obtain ⟨c, hc, rfl⟩ := h.started t ht
  obtain ⟨d, hd, rfl⟩ := h.started u hu
  have htoken := Nat.le_antisymm (htlatest d hd hkey) (hulatest c hc hkey.symm)
  rw [h.eq_of_token hd hc htoken]

/-- When a timer with the latest token of its key is over, no other one makes the key scheduled, and the other
keys are scheduled as before. -/
theorem Kept.scheduled_fires (h : Kept calls additions now (t :: rest) q) (hlatest : Latest calls t)
    (key : ObjectKey) (token : Nat) :
    (q.scheduled.erase t.key).get? key = some token ↔
      ∃ u ∈ rest, u.key = key ∧ u.token = token ∧ Latest calls u := by
  by_cases hkey : key = t.key
  · subst hkey
    rw [SortedMap.get?_erase_self]
    refine iff_of_false nofun ?_
    rintro ⟨u, hu, hkey, -, hulatest⟩
    have heq := h.underway.eq_of_latest List.mem_cons_self (List.mem_cons_of_mem _ hu) hkey hlatest hulatest
    exact (List.nodup_cons.1 h.underway.nodup).1 (heq ▸ hu)
  · rw [SortedMap.get?_erase_of_ne hkey, h.scheduled_iff]
    refine ⟨?_, fun ⟨u, hu, hrest⟩ => ⟨u, List.mem_cons_of_mem _ hu, hrest⟩⟩
    rintro ⟨u, hu, rfl, hrest⟩
    refine ⟨u, (List.mem_cons.1 hu).resolve_left ?_, rfl, hrest⟩
    rintro rfl
    exact hkey rfl

/-- A timer with the latest token of its key joins the additions as one that was not replaced. -/
theorem Kept.added_fires (h : Kept calls additions now (t :: rest) q) (hlatest : Latest calls t) (u : Timer) :
    u ∈ additions ++ [t] ↔ (∃ c ∈ calls, c.timer = u) ∧ u ∉ rest ∧ Stood calls u := by
  have ht : t ∉ rest := (List.nodup_cons.1 h.underway.nodup).1
  rw [List.mem_append, h.added_iff, List.mem_singleton]
  constructor
  · rintro (⟨hcall, hended, hstood⟩ | rfl)
    · exact ⟨hcall, fun hu => hended (List.mem_cons_of_mem _ hu), hstood⟩
    · refine ⟨h.underway.started u List.mem_cons_self, ht, fun d hd hkey hlt => ?_⟩
      exact absurd hlt (Nat.not_lt.2 (hlatest d hd hkey))
  · rintro ⟨hcall, hended, hstood⟩
    by_cases heq : u = t
    · exact Or.inr heq
    · exact Or.inl ⟨hcall, fun hu => (List.mem_cons.1 hu).elim heq hended, hstood⟩

/-- A due timer with the latest token of its key ends. -/
theorem Kept.fires (h : Kept calls additions now (t :: rest) q) (hdue : t.deadline ≤ now)
    (hcurrent : q.isCurrent t = true) : Kept calls (additions ++ [t]) now rest (q.expire t) := by
  have hlatest : Latest calls t := (h.isCurrent_iff List.mem_cons_self).1 hcurrent
  rw [expire_of_current hcurrent]
  constructor
  case underway => exact (tokens_addScheduled q t).symm ▸ h.underway.tail hdue
  case scheduled_iff =>
    rw [scheduled_addScheduled]
    exact h.scheduled_fires hlatest
  case added_iff => exact h.added_fires hlatest
  case inOrder =>
    refine List.pairwise_append.2 ⟨h.inOrder, List.pairwise_singleton _ t, fun u hu v hv => ?_⟩
    rw [List.mem_singleton.1 hv]
    exact h.earlier u hu t List.mem_cons_self
  case once =>
    refine List.nodup_append.2 ⟨h.once, List.pairwise_singleton _ t, fun u hu v hv => ?_⟩
    rw [List.mem_singleton.1 hv]
    rintro rfl
    exact ((h.added_iff u).1 hu).2.1 List.mem_cons_self
  case earlier =>
    intro u hu v hv
    rcases List.mem_append.1 hu with hu | hu
    · exact h.earlier u hu v (List.mem_cons_of_mem _ hv)
    · rw [List.mem_singleton.1 hu]
      exact (List.pairwise_cons.1 h.underway.sorted).1 v hv

/-- A due timer ends that was replaced; this was before its deadline. -/
theorem Kept.lapses (h : Kept calls additions now (t :: rest) q) (hdue : t.deadline ≤ now)
    (hstale : ¬q.isCurrent t = true) : Kept calls additions now rest (q.expire t) := by
  have hlatest : ¬Latest calls t := fun hlatest => hstale ((h.isCurrent_iff List.mem_cons_self).2 hlatest)
  -- a newer request came while the timer ran, so before its deadline
  have hstood : ¬Stood calls t := by
    intro hstood
    refine hlatest fun d hd hkey => Nat.not_lt.1 fun hlt => ?_
    have hbefore := h.underway.overtaken t List.mem_cons_self d hd hlt
    exact absurd (hstood d hd hkey hlt) (Nat.not_le.2 hbefore)
  rw [expire_of_stale hstale]
  refine ⟨h.underway.tail hdue, fun key token => ?_, fun u => ?_, h.inOrder, h.once, fun u hu v hv =>
    h.earlier u hu v (List.mem_cons_of_mem _ hv)⟩
  · rw [h.scheduled_iff]
    refine ⟨?_, fun ⟨u, hu, hrest⟩ => ⟨u, List.mem_cons_of_mem _ hu, hrest⟩⟩
    rintro ⟨u, hu, hkey, htoken, hulatest⟩
    refine ⟨u, (List.mem_cons.1 hu).resolve_left ?_, hkey, htoken, hulatest⟩
    rintro rfl
    exact hlatest hulatest
  · rw [h.added_iff]
    refine ⟨fun ⟨hcall, hended, hstands⟩ =>
      ⟨hcall, fun hu => hended (List.mem_cons_of_mem _ hu), hstands⟩, ?_⟩
    rintro ⟨hcall, hended, hstands⟩
    refine ⟨hcall, fun hu => (List.mem_cons.1 hu).elim ?_ hended, hstands⟩
    rintro rfl
    exact hstood hstands

/-- Timers end one after the other. -/
theorem Kept.foldl_expire {due : List Timer} (h : Kept calls additions now (due ++ running) q)
    (hdue : ∀ t ∈ due, t.deadline ≤ now) :
    Kept calls (additions ++ q.firing due) now running (due.foldl WorkQueue.expire q) := by
  -- on the due timers: each one either fires and joins the additions or lapses
  induction due generalizing q additions with
  | nil => simpa [firing] using h
  | cons t rest ih =>
    obtain ⟨ht, hrest⟩ := List.forall_mem_cons.1 hdue
    by_cases hcurrent : q.isCurrent t = true
    · simpa [firing, hcurrent] using ih (h.fires ht hcurrent) hrest
    · simpa [firing, hcurrent] using ih (h.lapses ht hcurrent) hrest

/-- When the timers that are due have ended, the additions seen are those of the ones that fired. -/
theorem Kept.expireDue (h : Kept calls additions now q.timers q) :
    Kept calls (additions ++ q.firing (q.due now)) now (q.expireDue now).timers (q.expireDue now) := by
  have hdue : ∀ t ∈ q.due now, t.deadline ≤ now := fun t ht => by
    simpa using List.mem_takeWhile_imp ht
  rw [← List.takeWhile_append_dropWhile (p := fun t => t.deadline ≤ now) (l := q.timers)] at h
  rw [expireDue_eq_foldl_addScheduled, ← foldl_expire_eq_foldl_addScheduled]
  exact (h.foldl_expire hdue).congr rfl rfl

/-! ## Runs -/

variable {r : WaitingRoom} {step : Step} {steps : List Step}

/-- A step asks for a delay, closes the queue, or leaves the schedule and the timers alone. -/
theorem call_cases (r : WaitingRoom) (step : Step) :
    (∃ key delay, step = .addAfter key delay) ∨ step = .shutdown ∨
      r.call step = [] ∧ (r.perform step).queue.clockwork = r.queue.clockwork := by
  by_cases hdelay : ∀ key delay, step ≠ .addAfter key delay
  · by_cases hclose : step = .shutdown
    · exact Or.inr (Or.inl hclose)
    · refine Or.inr (Or.inr ⟨?_, clockwork_perform hdelay hclose⟩)
      cases step with
      | addAfter key delay => exact absurd rfl (hdelay key delay)
      | _ => rfl
  · simpa [not_forall] using Or.inl hdelay

/-- What one user does is accounted for: a request by the timer that it starts, and anything else trivially.
The timers that become due end afterwards. -/
theorem Kept.perform (h : Kept calls additions r.now r.queue.timers r.queue)
    (hrest : ∀ t ∈ r.queue.timers, r.now < t.deadline) (hopen : r.queue.shutDown = false)
    (hclose : step ≠ .shutdown) :
    Kept (calls ++ r.call step) additions (r.perform step).now (r.perform step).queue.timers
      (r.perform step).queue := by
  obtain ⟨key, delay, rfl⟩ | rfl | ⟨hcall, hclockwork⟩ := r.call_cases step
  · have htimers : (r.queue.addAfter r.now key delay).timers =
        placeTimer (WaitingRoom.request r.queue r.now key delay).timer r.queue.timers := by
      rw [addAfter_of_open hopen]
      rfl
    exact htimers ▸ h.request hrest hopen key delay
  · exact absurd rfl hclose
  · rw [hcall, List.append_nil, now_perform, timers_eq_of_clockwork hclockwork]
    exact (h.later (Nat.le_add_right _ _)).congr (tokens_eq_of_clockwork hclockwork)
      (scheduled_eq_of_clockwork hclockwork)

/-- After a step, the running timers are those that are not due. -/
theorem Kept.after (h : Kept calls additions r.now r.queue.timers r.queue)
    (hrest : ∀ t ∈ r.queue.timers, r.now < t.deadline) (hopen : r.queue.shutDown = false)
    (hclose : step ≠ .shutdown) :
    Kept (calls ++ r.call step) (additions ++ r.fired step) (r.after step).now
      (r.after step).queue.timers (r.after step).queue ∧
        ∀ t ∈ (r.after step).queue.timers, (r.after step).now < t.deadline := by
  have hperformed := h.perform hrest hopen hclose
  have hclockwork := r.clockwork_after step
  rw [← now_perform] at hclockwork
  rw [timers_eq_of_clockwork hclockwork, r.now_after, ← r.now_perform]
  constructor
  · exact hperformed.expireDue.congr (tokens_eq_of_clockwork hclockwork) (scheduled_eq_of_clockwork hclockwork)
  · intro t ht
    rw [expireDue_eq_foldl_addScheduled] at ht
    exact lt_deadline_of_mem_dropWhile hperformed.underway.sorted ht

/-- By induction on the steps: what is kept from the start of a run is kept at its end, and no timer that is
still running is due. -/
theorem Kept.run (h : Kept calls additions r.now r.queue.timers r.queue)
    (hrest : ∀ t ∈ r.queue.timers, r.now < t.deadline) (hopen : r.queue.shutDown = false)
    (hclose : .shutdown ∉ steps) :
    Kept (calls ++ r.calls steps) (additions ++ r.additions steps) (r.run steps).now
      (r.run steps).queue.timers (r.run steps).queue ∧
        ∀ t ∈ (r.run steps).queue.timers, (r.run steps).now < t.deadline := by
  induction steps generalizing r calls additions with
  | nil => simpa [WaitingRoom.calls, WaitingRoom.additions] using ⟨h, hrest⟩
  | cons step rest ih =>
    rw [List.mem_cons, not_or] at hclose
    obtain ⟨hkept, hrest⟩ := h.after hrest hopen (Ne.symm hclose.1)
    have hopen := (shutDown_after (Ne.symm hclose.1)).trans hopen
    simpa [WaitingRoom.calls, WaitingRoom.additions] using ih hkept hrest hopen hclose.2

/-- A step starts no timer but that of its request. -/
theorem mem_timers_perform (ht : t ∈ (r.perform step).queue.timers) :
    t ∈ r.queue.timers ∨ ∃ c ∈ r.call step, c.timer = t := by
  obtain ⟨key, delay, rfl⟩ | rfl | ⟨-, hclockwork⟩ := r.call_cases step
  · simp only [WaitingRoom.perform, addAfter, WorkQueue.addAfter] at ht
    split at ht
    · exact Or.inl ht
    · rcases mem_placeTimer_iff.1 ht with rfl | ht
      · exact Or.inr ⟨_, List.mem_singleton_self _, rfl⟩
      · exact Or.inl ht
  · exact Or.inl ht
  · exact Or.inl (timers_eq_of_clockwork hclockwork ▸ ht)

/-- A timer adds its key in the step in which the clock reaches its deadline. -/
theorem reaches_of_mem_fired (hrest : ∀ t ∈ r.queue.timers, r.now < t.deadline) (ht : t ∈ r.fired step) :
    (r.now < t.deadline ∨ ∃ c ∈ r.call step, c.timer = t) ∧ t.deadline ≤ (r.after step).now := by
  have hdue := mem_of_mem_firing ht
  refine ⟨(mem_timers_perform ((List.takeWhile_sublist _).mem hdue)).imp_left (hrest t), ?_⟩
  rw [now_after, ← now_perform]
  simpa using List.mem_takeWhile_imp hdue

/-- The newer requests are those with larger tokens. -/
theorem Underway.mem_newer_iff (h : Underway calls now running tokens) {older newer : List Call} {c : Call}
    (hsplit : calls = older ++ c :: newer) (d : Call) :
    d ∈ newer ↔ d ∈ calls ∧ c.timer.token < d.timer.token := by
  have hordered := h.ordered
  rw [hsplit, List.pairwise_append, List.pairwise_cons] at hordered
  obtain ⟨-, ⟨hnewer, -⟩, holder⟩ := hordered
  rw [hsplit, List.mem_append, List.mem_cons]
  constructor
  · exact fun hd => ⟨Or.inr (Or.inr hd), hnewer d hd⟩
  · rintro ⟨hd | rfl | hd, hlt⟩
    · exact absurd hlt (Nat.lt_asymm (holder d hd c List.mem_cons_self))
    · exact absurd hlt (Nat.lt_irrefl _)
    · exact hd

/-- A request stands when no later one for its key was made before its deadline. -/
theorem Underway.stands_iff (h : Underway calls now running tokens) {older newer : List Call} {c : Call}
    (hsplit : calls = older ++ c :: newer) : c.Stands newer ↔ Stood calls c.timer := by
  unfold Call.Stands Stood
  simp only [h.mem_newer_iff hsplit, and_imp]
  exact forall_congr' fun d => ⟨fun hd hmem hkey hlt => hd hmem hlt hkey, fun hd hmem hlt hkey =>
    hd hmem hkey hlt⟩

/-- A timer that is not due has the latest token if and only if no newer request replaced it. -/
theorem Underway.latest_iff (h : Underway calls now running tokens) {c : Call}
    (hrunning : c.timer ∈ running) : Latest calls c.timer ↔ Stood calls c.timer := by
  refine forall₂_congr fun d hd => forall_congr' fun hkey => ?_
  constructor
  · exact fun hle hlt => absurd hlt (Nat.not_lt.2 hle)
  · refine fun hstood => Nat.not_lt.1 fun hlt => ?_
    exact absurd (hstood hlt) (Nat.not_le.2 (h.overtaken _ hrunning d hd hlt))

/-- While no running timer is due, a timer runs exactly until its deadline. -/
theorem Underway.running_iff (h : Underway calls now running tokens) (hrest : ∀ t ∈ running, now < t.deadline)
    {c : Call} (hc : c ∈ calls) : c.timer ∈ running ↔ now < c.timer.deadline :=
  ⟨hrest _, fun hlt => (h.ended c hc).resolve_right (Nat.not_le.2 hlt)⟩

/-- A request led to one addition if its deadline is over and no newer one replaced it, and else to none. -/
theorem Kept.count_additions (h : Kept calls additions now running q)
    (hrest : ∀ t ∈ running, now < t.deadline) {older newer : List Call} {c : Call}
    (hsplit : calls = older ++ c :: newer) :
    additions.count c.timer = if c.timer.deadline ≤ now ∧ c.Stands newer then 1 else 0 := by
  have hc : c ∈ calls := by simp [hsplit]
  have hadded : c.timer ∈ additions ↔ c.timer.deadline ≤ now ∧ c.Stands newer := by
    rw [h.added_iff, h.underway.running_iff hrest hc, Nat.not_lt, h.underway.stands_iff hsplit]
    exact and_iff_right ⟨c, hc, rfl⟩
  split
  · rename_i hdue
    exact List.count_eq_one_of_mem h.once (hadded.2 hdue)
  · rename_i hnot
    exact List.count_eq_zero_of_not_mem fun hmem => hnot (hadded.1 hmem)

/-- A key is scheduled while the deadline of a request for it that no newer one replaced is to come. -/
theorem Kept.mem_keys_iff (h : Kept calls additions now running q) (hrest : ∀ t ∈ running, now < t.deadline)
    (key : ObjectKey) :
    key ∈ q.scheduled.keys ↔ ∃ older c newer, calls = older ++ c :: newer ∧ c.timer.key = key ∧
      now < c.timer.deadline ∧ c.Stands newer := by
  rw [SortedMap.mem_keys_iff]
  simp only [h.scheduled_iff]
  constructor
  · rintro ⟨-, t, ht, rfl, -, hlatest⟩
    obtain ⟨c, hc, rfl⟩ := h.underway.started t ht
    obtain ⟨older, newer, hsplit⟩ := List.append_of_mem hc
    refine ⟨older, c, newer, hsplit, rfl, hrest _ ht, (h.underway.stands_iff hsplit).2 ?_⟩
    exact (h.underway.latest_iff ht).1 hlatest
  · rintro ⟨older, c, newer, hsplit, rfl, hlt, hstands⟩
    have ht : c.timer ∈ running := (h.underway.running_iff hrest (by simp [hsplit])).2 hlt
    refine ⟨_, c.timer, ht, rfl, rfl, (h.underway.latest_iff ht).2 ?_⟩
    exact (h.underway.stands_iff hsplit).1 hstands

/-! ### What is added -/

/-- Whoever looks at a queue marks nothing. -/
theorem contains_dirty_lookEach (workers : List Nat) (r : WaitingRoom) {key : ObjectKey}
    (h : (lookEach workers r).2.queue.dirty.contains key = true) : r.queue.dirty.contains key = true := by
  induction workers generalizing r with
  | nil => exact h
  | cons worker rest ih =>
    obtain ⟨taken, keys, -, heq⟩ | ⟨-, -, heq⟩ | ⟨-, -, heq⟩ := r.look_cases worker
    · rw [lookEach_cons_of_some heq] at h
      exact (SortedMap.contains_erase_iff.1 (ih { r with queue := r.queue.handed taken } h)).2
    · rw [lookEach_cons_of_some heq] at h
      exact ih r h
    · rw [lookEach_cons_of_none heq] at h
      exact ih { r with permit := false, asleep := r.asleep ++ [worker] } h

/-- While the queue is open, a step adds the keys of the timers that fire, and no other key on account of a
request. -/
theorem addsFired (hopen : r.queue.shutDown = false) (hclose : step ≠ .shutdown) : r.AddsFired step := by
  have hended : (r.perform step).expireDue.queue =
      { ((r.fired step).map Timer.key).foldl WorkQueue.add (r.perform step).queue with
        scheduled := ((r.fired step).map Timer.key).foldl SortedMap.erase (r.perform step).queue.scheduled
        timers := (r.perform step).queue.timers.dropWhile fun t => t.deadline ≤ (r.perform step).now } := by
    rw [(queue_now_expireDue _).1, expireDue_eq_foldl_addScheduled, foldl_addScheduled]
    rfl
  constructor
  case asked =>
    rintro key delay rfl
    simp only [WaitingRoom.perform, addAfter, WorkQueue.addAfter]
    split <;> exact ⟨rfl, rfl, rfl⟩
  case ended => exact hended
  case marked =>
    intro t ht
    rw [hended]
    exact contains_dirty_foldl_add.2 (Or.inr ⟨(shutDown_perform hclose).trans hopen, List.mem_map_of_mem ht⟩)
  case looked =>
    intro key hkey
    rw [after, settle, lookAll_eq_lookEach] at hkey
    exact contains_dirty_lookEach _ { (r.perform step).expireDue with awake := [] } hkey

/-- **A request for a delayed addition leads to exactly one addition, once its deadline is reached, unless the
key was asked for again before; else it leads to none.** No two requests share a timer, and nothing else leads
to delayed additions. In every step each timer that fires adds its key once by `WorkQueue.add`, and the
requests add nothing else (`WaitingRoom.AddsFired`). A timer fires in the step in which the clock reaches its
deadline, in the order of the deadlines. The number of scheduled keys is the number of keys with a request
whose deadline is to come and which was not replaced. -/
theorem latest_call_adds_once (steps : List Step) (hclose : .shutdown ∉ steps) :
    let r := empty.run steps
    (∀ older c newer, empty.calls steps = older ++ c :: newer →
      (empty.additions steps).count c.timer =
        if c.timer.deadline ≤ r.now ∧ c.Stands newer then 1 else 0) ∧
    (∀ t ∈ empty.additions steps, ∃ c ∈ empty.calls steps, c.timer = t) ∧
    ((empty.calls steps).map Call.timer).Nodup ∧
    (∀ before step later, steps = before ++ step :: later → (empty.run before).AddsFired step) ∧
    (∀ before step later, steps = before ++ step :: later → ∀ t ∈ (empty.run before).fired step,
      ((empty.run before).now < t.deadline ∨ ∃ c ∈ (empty.run before).call step, c.timer = t) ∧
        t.deadline ≤ (empty.run (before ++ [step])).now) ∧
    ((empty.additions steps).Pairwise fun t u => t.deadline ≤ u.deadline) ∧
    ∃ keys : List ObjectKey, keys.Nodup ∧ r.queue.scheduled.size = keys.length ∧
      ∀ key, key ∈ keys ↔ ∃ older c newer, empty.calls steps = older ++ c :: newer ∧
        c.timer.key = key ∧ r.now < c.timer.deadline ∧ c.Stands newer := by
  intro r
  have hkept : ∀ {steps}, .shutdown ∉ steps → Kept (empty.calls steps) (empty.additions steps)
      (empty.run steps).now (empty.run steps).queue.timers (empty.run steps).queue ∧
        ∀ t ∈ (empty.run steps).queue.timers, (empty.run steps).now < t.deadline :=
    fun hclose => Kept.run (r := empty) kept_empty nofun rfl hclose
  have hbefore : ∀ {before step later}, steps = before ++ step :: later →
      .shutdown ∉ before ∧ step ≠ .shutdown := by
    rintro before step later rfl
    exact ⟨fun hmem => hclose (List.mem_append_left _ hmem), by rintro rfl; simp at hclose⟩
  obtain ⟨h, hrest⟩ := hkept hclose
  refine ⟨fun older c newer hsplit => h.count_additions hrest hsplit, fun t ht => ((h.added_iff t).1 ht).1,
    ?_, fun before step later hsplit => ?_, fun before step later hsplit t ht => ?_, h.inOrder,
    r.queue.scheduled.keys, SortedMap.nodup_keys _, by simp [SortedMap.keys, SortedMap.size],
    h.mem_keys_iff hrest⟩
  · refine List.pairwise_map.2 (h.underway.ordered.imp fun hlt heq => ?_)
    exact absurd (congrArg Timer.token heq) (Nat.ne_of_lt hlt)
  · obtain ⟨hearlier, hlast⟩ := hbefore hsplit
    exact addsFired (shutDown_run hearlier) hlast
  · rw [run_append, run_cons, run_nil]
    exact reaches_of_mem_fired (hkept (hbefore hsplit).1).2 ht

/-- A request for a key is replaced by one for an earlier time, and time passes. -/
def replacedSteps : List Step :=
  let a : ObjectKey := ⟨"default", "a"⟩
  [.addAfter a 60000, .addAfter a 1000, .advance 2000, .poll 0, .done a, .advance 120000]

/-- Only the second request leads to an addition, which marks the key. -/
theorem latest_call_adds_once_replaced :
    .shutdown ∉ replacedSteps ∧
      (empty.additions replacedSteps).count ⟨60000, ⟨"default", "a"⟩, 1⟩ = 0 ∧
        (empty.additions replacedSteps).count ⟨1000, ⟨"default", "a"⟩, 2⟩ = 1 ∧
          ((empty.run (replacedSteps.take 2)).perform (.advance 2000)).expireDue.queue.dirty.contains
            ⟨"default", "a"⟩ = true := by
  have hclose : .shutdown ∉ replacedSteps := by decide
  have hcalls : empty.calls replacedSteps =
      [⟨0, 60000, ⟨"default", "a"⟩, 1⟩, ⟨0, 1000, ⟨"default", "a"⟩, 2⟩] := by decide +kernel
  have hfired : ⟨1000, ⟨"default", "a"⟩, 2⟩ ∈ (empty.run (replacedSteps.take 2)).fired (.advance 2000) := by
    decide +kernel
  obtain ⟨hcount, -, -, hadds, -⟩ := latest_call_adds_once replacedSteps hclose
  refine ⟨hclose, (hcount [] _ [_] hcalls).trans (if_neg ?_), (hcount [_] _ [] hcalls).trans (if_pos ?_),
    (hadds _ _ (replacedSteps.drop 3) rfl).marked _ hfired⟩
  · decide +kernel
  · decide +kernel

end WaitingRoom

end AddressRegistry
