import AddressRegistry.Proofs.Queue.Sound
import Mathlib.Data.List.Induction

/-!
# Runs of a work queue

The users of a queue add keys, at once or after a delay, take them and are done with them, timers end and
the queue is shut down, in any order (`WorkQueue.run`). The only condition is that a worker is done with keys
that it holds (`WorkQueue.permits`).

Such a run keeps the keys apart and loses none (`WorkQueue.keys_kept_apart_in_order`). Every move keeps
`WorkQueue.Sound`; what enters at the back leaves at the front (`WorkQueue.waiting_run`), and a mark is
removed only where its key is handed out (`WorkQueue.mem_handedOut_or_marked`).
-/

namespace AddressRegistry

section

variable {σ μ : Type} {permits : σ → μ → Bool} {act : σ → μ → σ} {s : σ}

/-- Moves each of which is permitted where it is made. -/
def Permitted (permits : σ → μ → Bool) (act : σ → μ → σ) : σ → List μ → Prop
  | _, [] => True
  | s, m :: rest => permits s m = true ∧ Permitted permits act (act s m) rest

instance decidablePermitted (permits : σ → μ → Bool) (act : σ → μ → σ) :
    (s : σ) → (moves : List μ) → Decidable (Permitted permits act s moves)
  | _, [] => .isTrue trivial
  | s, m :: rest => @instDecidableAnd _ _ _ (decidablePermitted permits act (act s m) rest)

/-- A run in two parts is permitted if the first part is, and the second one where the first one leads. -/
theorem permitted_append {moves later : List μ} :
    Permitted permits act s (moves ++ later) ↔
      Permitted permits act s moves ∧ Permitted permits act (moves.foldl act s) later := by
  induction moves generalizing s with
  | nil => simp [Permitted]
  | cons m rest ih => simp [Permitted, ih, and_assoc]

/-- What every permitted move keeps, permitted moves keep. -/
theorem Permitted.invariant {Inv : σ → Prop} {moves : List μ} (h : Permitted permits act s moves)
    (hstep : ∀ s m, Inv s → permits s m = true → Inv (act s m)) (hs : Inv s) :
    Inv (moves.foldl act s) := by
  induction moves generalizing s with
  | nil => exact hs
  | cons m rest ih => exact ih h.2 (hstep s m hs h.1)

end

namespace WorkQueue

variable {q : WorkQueue} {key : ObjectKey}

/-- What the users of a queue and its timers do. -/
inductive Move where
  | add (key : ObjectKey)
  | addAfter (now : Nat) (key : ObjectKey) (delay : Nat)
  | take
  | done (key : ObjectKey)
  /-- A timer ends, early or late. -/
  | fire (t : Timer)
  | shutdown
deriving DecidableEq

/-- The queue after a move. -/
def act (q : WorkQueue) : Move → WorkQueue
  | .add key => q.add key
  | .addAfter now key delay => q.addAfter now key delay
  | .take => q.take.2
  | .done key => q.done key
  | .fire t => q.fire t
  | .shutdown => q.shutdown

/-- The queue after some moves. -/
def run (q : WorkQueue) (moves : List Move) : WorkQueue := moves.foldl act q

/-- Only a key that is processed is done. -/
def permits (q : WorkQueue) : Move → Bool
  | .done key => q.processing.contains key
  | _ => true

/-! ## What a run is seen to do -/

/-- The key that a move adds, at once or as the end of its latest delay. -/
def added (q : WorkQueue) : Move → Option ObjectKey
  | .add key => some key
  | .fire t => if t ∈ q.timers ∧ q.isCurrent t = true then some t.key else none
  | _ => none

/-- The key that a move hands out. -/
def hands (q : WorkQueue) : Move → List ObjectKey
  | .take =>
    match q.take.1 with
    | .key key => [key]
    | _ => []
  | _ => []

/-- The keys that wait in a later queue and not in an earlier one. -/
def newcomers (q later : WorkQueue) : List ObjectKey := later.waiting.filter fun key => key ∉ q.waiting

/-- The keys that a run hands out, in this order. -/
def handedOut (q : WorkQueue) : List Move → List ObjectKey
  | [] => []
  | m :: rest => q.hands m ++ (q.act m).handedOut rest

/-- The keys that come to wait during a run, in this order. -/
def entered (q : WorkQueue) : List Move → List ObjectKey
  | [] => []
  | m :: rest => q.newcomers (q.act m) ++ (q.act m).entered rest

/-- A key was added while it was processed, and its worker is not done since. -/
def AddedAgain (q : WorkQueue) (moves : List Move) (key : ObjectKey) : Prop :=
  ∃ before m later, moves = before ++ m :: later ∧
    (q.run before).processing.contains key = true ∧ (q.run before).added m = some key ∧
      .done key ∉ later

/-! ## One move -/

/-- A timer that ends adds its key, or nothing changes but the timers. -/
theorem fire_cases (q : WorkQueue) (t : Timer) :
    q.added (.fire t) = none ∧ (∃ timers, q.fire t = { q with timers }) ∨
      q.added (.fire t) = some t.key ∧
        q.fire t = { q with
          timers := q.timers.erase t, scheduled := q.scheduled.erase t.key }.add t.key := by
  unfold fire added
  by_cases htimer : t ∈ q.timers
  · by_cases hcurrent : q.isCurrent t = true
    · have hcurrent' : isCurrent { q with timers := q.timers.erase t } t = true := hcurrent
      exact Or.inr ⟨if_pos ⟨htimer, hcurrent⟩, by rw [if_pos htimer, expire, if_pos hcurrent']⟩
    · have hcurrent' : ¬isCurrent { q with timers := q.timers.erase t } t = true := hcurrent
      refine Or.inl ⟨if_neg fun h => hcurrent h.2, q.timers.erase t, ?_⟩
      rw [if_pos htimer, expire, if_neg hcurrent']
  · exact Or.inl ⟨if_neg fun h => htimer h.1, q.timers, if_neg htimer⟩

@[simp] theorem run_nil (q : WorkQueue) : q.run [] = q := rfl

/-- A run goes on from where its first move leads. -/
@[simp] theorem run_cons (q : WorkQueue) (m : Move) (moves : List Move) :
    q.run (m :: moves) = (q.act m).run moves := rfl

/-- A run in two parts is the second one from where the first one leads. -/
@[simp] theorem run_append (q : WorkQueue) (moves later : List Move) :
    q.run (moves ++ later) = (q.run moves).run later :=
  List.foldl_append

/-- Every permitted move keeps a queue sound. -/
theorem Sound.act (h : q.Sound) {m : Move} (hpermitted : q.permits m = true) : (q.act m).Sound := by
  cases m with
  | add key => exact h.add key
  | addAfter now key delay => exact h.addAfter now key delay
  | take =>
    show q.take.2.Sound
    rcases hwaiting : q.waiting with _ | ⟨key, rest⟩
    · rwa [take_of_nil hwaiting]
    · rw [take_of_cons hwaiting]
      exact h.handed hwaiting
  | done key => exact h.done hpermitted
  | fire t => exact h.fire t
  | shutdown => exact h.shutdown

/-- A queue stays sound in every permitted run. -/
theorem Sound.run (h : q.Sound) {moves : List Move}
    (hproper : Permitted permits WorkQueue.act q moves) : (q.run moves).Sound :=
  hproper.invariant (fun _ _ hq hpermitted => hq.act hpermitted) h

/-- A queue that was shut down stays so. -/
theorem open_of_act {m : Move} (hopen : (q.act m).shutDown = false) : q.shutDown = false := by
  cases m with
  | add key => simpa [act] using hopen
  | addAfter now key delay =>
    simp only [act, addAfter] at hopen
    split at hopen
    · exact hopen
    · exact hopen
  | take =>
    simp only [act, take] at hopen
    split at hopen
    · exact hopen
    · exact hopen
  | done key => exact hopen
  | fire t =>
    obtain ⟨-, timers, heq⟩ | ⟨-, heq⟩ := q.fire_cases t
    · simpa [act, heq] using hopen
    · simpa [act, heq] using hopen
  | shutdown => exact absurd hopen (by simp [act, WorkQueue.shutdown])

/-! ## First in, first out -/

/-- A key comes in at the back when it is added, if it is not marked and nobody holds it. -/
theorem waiting_add (q : WorkQueue) (key : ObjectKey) :
    (q.add key).waiting = q.waiting ++ if q.admits key then [key] else [] := by
  unfold add admits
  rcases q.shutDown <;> rcases q.dirty.contains key <;> rcases q.processing.contains key <;> simp

/-- A key comes in at the back when its worker is done, if it was marked meanwhile. -/
theorem waiting_done (q : WorkQueue) (key : ObjectKey) :
    (q.done key).waiting = q.waiting ++ if q.returns key then [key] else [] := by
  unfold done
  split <;> simp_all

/-- Only taking removes a key, and keys come in at the back. -/
theorem exists_waiting_act {m : Move} (hm : m ≠ .take) :
    ∃ new, (q.act m).waiting = q.waiting ++ new := by
  cases m with
  | add key => exact ⟨_, q.waiting_add key⟩
  | addAfter now key delay =>
    refine ⟨[], ?_⟩
    simp only [act, addAfter]
    split <;> simp
  | take => exact absurd rfl hm
  | done key => exact ⟨_, q.waiting_done key⟩
  | fire t =>
    obtain ⟨-, timers, heq⟩ | ⟨-, heq⟩ := q.fire_cases t
    · exact ⟨[], by simp [act, heq]⟩
    · exact ⟨_, (congrArg waiting heq).trans (waiting_add _ _)⟩
  | shutdown => exact ⟨[], by simp [act, WorkQueue.shutdown]⟩

/-- Keys are handed out by taking only. -/
theorem hands_of_ne_take {m : Move} (hm : m ≠ .take) : q.hands m = [] := by
  cases m <;> simp_all [hands]

/-- Where no key waits, none is handed out. -/
theorem hands_take_of_nil (hwaiting : q.waiting = []) : q.hands .take = [] := by
  simp only [hands, take_of_nil hwaiting]
  split
  · split at * <;> contradiction
  · rfl

/-- Where keys wait, the first one is handed out. -/
theorem hands_take_of_cons {rest : List ObjectKey} (hwaiting : q.waiting = key :: rest) :
    q.hands .take = [key] := by
  simp [hands, take_of_cons hwaiting]

/-- What is waiting now and was not before came in at the back. -/
theorem newcomers_of_append {later : WorkQueue} {new : List ObjectKey}
    (hnew : later.waiting = q.waiting ++ new) (hnodup : later.waiting.Nodup) : q.newcomers later = new := by
  rw [hnew] at hnodup
  have hdisjoint := (List.nodup_append.1 hnodup).2.2
  rw [newcomers, hnew, List.filter_append, List.filter_eq_nil_iff.2 (by simp), List.nil_append]
  refine List.filter_eq_self.2 fun key hkey => ?_
  simpa using fun hmem => hdisjoint key hmem key hkey rfl

/-- Taking a key brings none in. -/
theorem newcomers_take (q : WorkQueue) : q.newcomers q.take.2 = [] := by
  refine List.filter_eq_nil_iff.2 fun key hkey => ?_
  rcases hwaiting : q.waiting with _ | ⟨first, rest⟩
  · rw [take_of_nil hwaiting, hwaiting] at hkey
    cases hkey
  · rw [take_of_cons hwaiting, handed, hwaiting, List.tail_cons] at hkey
    simp [hkey]

/-- What waits and what a move lets in is what it hands out and what waits after it. -/
theorem waiting_act (h : q.Sound) {m : Move} (hpermitted : q.permits m = true) :
    q.waiting ++ q.newcomers (q.act m) = q.hands m ++ (q.act m).waiting := by
  by_cases hm : m = .take
  · subst hm
    rw [act, newcomers_take, List.append_nil]
    rcases hwaiting : q.waiting with _ | ⟨key, rest⟩
    · rw [hands_take_of_nil hwaiting, take_of_nil hwaiting, hwaiting, List.nil_append]
    · rw [hands_take_of_cons hwaiting, take_of_cons hwaiting, handed, hwaiting]
      rfl
  · obtain ⟨new, hnew⟩ := exists_waiting_act (q := q) hm
    rw [newcomers_of_append hnew (h.act hpermitted).nodup, hnew, hands_of_ne_take hm, List.nil_append]

/-- What waits and what comes to wait is handed out in this order, as far as it does not wait still. -/
theorem waiting_run (h : q.Sound) {moves : List Move} (hproper : Permitted permits act q moves) :
    q.waiting ++ q.entered moves = q.handedOut moves ++ (q.run moves).waiting := by
  induction moves generalizing q with
  | nil => simp [entered, handedOut]
  | cons m rest ih =>
    calc q.waiting ++ (q.newcomers (q.act m) ++ (q.act m).entered rest)
        = q.hands m ++ ((q.act m).waiting ++ (q.act m).entered rest) := by
          rw [← List.append_assoc, waiting_act h hproper.1, List.append_assoc]
      _ = q.hands m ++ ((q.act m).handedOut rest ++ ((q.act m).run rest).waiting) := by
          rw [ih (h.act hproper.1) hproper.2]
      _ = q.handedOut (m :: rest) ++ (q.run (m :: rest)).waiting := by
          rw [← List.append_assoc]
          rfl

/-! ## Marks -/

/-- The move that adds a key marks it. -/
theorem marked_of_added (hopen : q.shutDown = false) {m : Move} (hadded : q.added m = some key) :
    (q.act m).dirty.contains key = true := by
  cases m with
  | add k =>
    cases hadded
    exact contains_dirty_add.2 (Or.inr ⟨hopen, rfl⟩)
  | fire t =>
    obtain ⟨hnone, -⟩ | ⟨hsome, heq⟩ := q.fire_cases t
    · exact absurd (hnone.symm.trans hadded) (by simp)
    · obtain rfl := Option.some.inj (hsome.symm.trans hadded)
      rw [act, heq]
      exact contains_dirty_add.2 (Or.inr ⟨hopen, rfl⟩)
  | addAfter | take | done | shutdown => cases hadded

/-- A mark goes only with its key being handed out. -/
theorem mem_hands_or_marked (hmarked : q.dirty.contains key = true) (m : Move) :
    key ∈ q.hands m ∨ (q.act m).dirty.contains key = true := by
  cases m with
  | add k => exact Or.inr (contains_dirty_add.2 (Or.inl hmarked))
  | addAfter now k delay =>
    refine Or.inr ?_
    simp only [act, addAfter]
    split <;> exact hmarked
  | take =>
    rcases hwaiting : q.waiting with _ | ⟨first, rest⟩
    · exact Or.inr (by simpa [act, take_of_nil hwaiting] using hmarked)
    · by_cases hkey : key = first
      · exact Or.inl (by simp [hands_take_of_cons hwaiting, hkey])
      · refine Or.inr ?_
        simp only [act, take_of_cons hwaiting]
        exact SortedMap.contains_erase_iff.2 ⟨hkey, hmarked⟩
  | done k => exact Or.inr hmarked
  | fire t =>
    refine Or.inr ?_
    obtain ⟨-, timers, heq⟩ | ⟨-, heq⟩ := q.fire_cases t
    · simpa [act, heq] using hmarked
    · rw [act, heq]
      exact contains_dirty_add.2 (Or.inl hmarked)
  | shutdown => exact Or.inr hmarked

/-- A marked key is handed out or still marked. -/
theorem mem_handedOut_or_marked (hmarked : q.dirty.contains key = true) (moves : List Move) :
    key ∈ q.handedOut moves ∨ (q.run moves).dirty.contains key = true := by
  induction moves generalizing q with
  | nil => exact Or.inr hmarked
  | cons m rest ih =>
    rcases mem_hands_or_marked hmarked m with hkey | hmarked
    · exact Or.inl (List.mem_append_left _ hkey)
    · exact (ih hmarked).imp_left (List.mem_append_right _)

/-- A key that was added while it was processed is one that is marked and processed; it is so until its
worker is done. -/
theorem marked_processing_act_iff (h : q.Sound) {m : Move} (hopen : (q.act m).shutDown = false) :
    (q.act m).dirty.contains key = true ∧ (q.act m).processing.contains key = true ↔
      (q.dirty.contains key = true ∧ q.processing.contains key = true) ∧ m ≠ .done key ∨
        q.processing.contains key = true ∧ q.added m = some key := by
  have hopen' := open_of_act hopen
  cases m with
  | add k =>
    simp only [act, added, contains_dirty_add, processing_add, hopen', true_and, Option.some.injEq]
    grind
  | addAfter now k delay =>
    simp [act, added, addAfter_of_open hopen']
  | take =>
    rcases hwaiting : q.waiting with _ | ⟨first, rest⟩
    · simp [act, added, take_of_nil hwaiting]
    · -- What is handed out was not processed before, so it was no key of this kind, and its mark goes.
      have hidle : q.processing.contains first = false := h.idle first (by simp [hwaiting])
      simp only [act, added, take_of_cons hwaiting, handed, SortedMap.contains_erase_iff,
        SortedMap.contains_insert_iff]
      grind
  | done k =>
    simp only [act, added, done, SortedMap.contains_erase_iff]
    grind
  | fire t =>
    obtain ⟨hadded, timers, heq⟩ | ⟨hadded, heq⟩ := q.fire_cases t
    · simp [act, heq, hadded]
    · simp only [act, heq, hadded, contains_dirty_add, processing_add, hopen', true_and,
        Option.some.injEq]
      grind
  | shutdown => exact absurd hopen (by simp [act, WorkQueue.shutdown])

/-- A key was added again since it was taken if it was before and its worker is not done, or if it has just
been added. -/
theorem addedAgain_concat_iff {moves : List Move} {m : Move} :
    q.AddedAgain (moves ++ [m]) key ↔
      q.AddedAgain moves key ∧ m ≠ .done key ∨
        (q.run moves).processing.contains key = true ∧ (q.run moves).added m = some key := by
  constructor
  · rintro ⟨before, n, later, hsplit, hprocessing, hadded, hlater⟩
    rcases List.eq_nil_or_concat later with rfl | ⟨later, last, rfl⟩
    · obtain ⟨rfl, hm⟩ := List.append_inj' hsplit rfl
      obtain rfl : m = n := by simpa using hm
      exact Or.inr ⟨hprocessing, hadded⟩
    · rw [List.concat_eq_append] at hsplit hlater
      rw [← List.cons_append, ← List.append_assoc] at hsplit
      obtain ⟨rfl, hm⟩ := List.append_inj' hsplit rfl
      obtain rfl : m = last := by simpa using hm
      rw [List.mem_append, not_or] at hlater
      refine Or.inl ⟨⟨before, n, later, rfl, hprocessing, hadded, hlater.1⟩, ?_⟩
      rintro rfl
      exact hlater.2 (List.mem_singleton_self _)
  · rintro (⟨⟨before, n, later, rfl, hprocessing, hadded, hlater⟩, hm⟩ | ⟨hprocessing, hadded⟩)
    · refine ⟨before, n, later ++ [m], by simp, hprocessing, hadded, ?_⟩
      simpa [hlater] using Ne.symm hm
    · exact ⟨moves, m, [], rfl, hprocessing, hadded, List.not_mem_nil⟩

/-- Until the queue is shut down, a key is marked and processed exactly when it was added again. -/
theorem marked_processing_iff {moves : List Move} (hproper : Permitted permits act empty moves)
    (hopen : (empty.run moves).shutDown = false) :
    (empty.run moves).dirty.contains key = true ∧ (empty.run moves).processing.contains key = true ↔
      empty.AddedAgain moves key := by
  -- Whether a worker is done since is told by the last moves, so the induction is on the end of the run.
  induction moves using List.reverseRecOn with
  | nil =>
    refine iff_of_false (fun h => nomatch h.1) ?_
    rintro ⟨before, m, later, hsplit, -⟩
    simp at hsplit
  | append_singleton moves m ih =>
    obtain ⟨hproper, -⟩ := permitted_append.1 hproper
    rw [run_append, run_cons, run_nil] at hopen ⊢
    rw [marked_processing_act_iff (sound_empty.run hproper) hopen, addedAgain_concat_iff,
      ih hproper (open_of_act hopen)]

/-! ## Runs -/

/-- From the empty queue on, no key waits twice or while it is processed; a key is marked when it waits or
was added again while processed; what is handed out is what came to wait, in this order, and not
processed; and a key that is added is handed out later or still marked. -/
theorem keys_kept_apart_in_order (moves : List Move) (hproper : Permitted permits act empty moves) :
    let q := empty.run moves
    q.waiting.Nodup ∧
      (∀ key ∈ q.waiting, q.processing.contains key = false) ∧
      (q.shutDown = false → ∀ key,
        q.dirty.contains key = true ↔ key ∈ q.waiting ∨ empty.AddedAgain moves key) ∧
      (∀ key, q.take.1 = .key key → q.processing.contains key = false) ∧
      empty.entered moves = empty.handedOut moves ++ q.waiting ∧
      ∀ before m later key, moves = before ++ m :: later →
        (empty.run before).shutDown = false → (empty.run before).added m = some key →
          key ∈ ((empty.run before).act m).handedOut later ∨ q.dirty.contains key = true := by
  intro q
  have hsound : q.Sound := sound_empty.run hproper
  refine ⟨hsound.nodup, hsound.idle, fun hopen key => ?_, fun key htake => ?_, ?_, ?_⟩
  · rw [← marked_processing_iff hproper hopen]
    constructor
    · intro hmarked
      exact (hsound.coming hopen key hmarked).imp_right fun hprocessing => ⟨hmarked, hprocessing⟩
    · rintro (hwaits | ⟨hmarked, -⟩)
      · exact hsound.marked key hwaits
      · exact hmarked
  · rcases hwaiting : q.waiting with _ | ⟨first, rest⟩
    · rw [take_of_nil hwaiting] at htake
      split at htake <;> cases htake
    · rw [take_of_cons hwaiting] at htake
      cases htake
      exact hsound.idle key (by simp [hwaiting])
  · exact waiting_run sound_empty hproper
  · rintro before m later key rfl hopen hadded
    have hmarked := marked_of_added hopen hadded
    simpa [q] using mem_handedOut_or_marked hmarked later

/-- A key is added again while it is processed, and a timer adds another one. -/
def busyMoves : List Move :=
  let a : ObjectKey := ⟨"default", "a"⟩
  let b : ObjectKey := ⟨"default", "b"⟩
  [.add a, .take, .addAfter 0 b 5, .fire ⟨5, b, 1⟩, .take, .done a, .add a, .add b, .done b, .take,
    .add a]

/-- In the busy run the second key waits, and the first one was added again. -/
theorem keys_kept_apart_in_order_busy :
    Permitted permits act empty busyMoves ∧
      empty.entered busyMoves = empty.handedOut busyMoves ++ [⟨"default", "b"⟩] ∧
        empty.handedOut busyMoves = [⟨"default", "a"⟩, ⟨"default", "b"⟩, ⟨"default", "a"⟩] ∧
          empty.AddedAgain busyMoves ⟨"default", "a"⟩ := by
  have hproper : Permitted permits act empty busyMoves := by decide +kernel
  have hopen : (empty.run busyMoves).shutDown = false := by decide +kernel
  have hwaiting : (empty.run busyMoves).waiting = [⟨"default", "b"⟩] := by decide +kernel
  have hmarked : (empty.run busyMoves).dirty.contains ⟨"default", "a"⟩ = true := by decide +kernel
  obtain ⟨-, -, hdirty, -, hfifo, -⟩ := keys_kept_apart_in_order busyMoves hproper
  refine ⟨hproper, hwaiting ▸ hfifo, by decide +kernel, ?_⟩
  refine ((hdirty hopen _).1 hmarked).resolve_left fun hwaits => ?_
  rw [hwaiting] at hwaits
  exact absurd hwaits (by decide +kernel)

end WorkQueue

end AddressRegistry
