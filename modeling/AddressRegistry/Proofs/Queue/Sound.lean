import AddressRegistry.Queue.Basic

/-!
# What a work queue keeps

A work queue is sound (`WorkQueue.Sound`) when no key waits twice or waits while it is processed, every
waiting key is marked, every marked key waits or is processed unless the queue was shut down, and every
scheduled key has a running timer that will add it. Every operation keeps this; a worker is done only with
a key that it holds.

A timer may end at any time here (`WorkQueue.fire`). Ending the timers that are due is ending one after the
other (`WorkQueue.expireDue_eq_foldl_fire`). Waking objects lets a queue grow (`WorkQueue.Grown`), and a worker
leaves it `dismissed`, with its key done and perhaps scheduled again.
-/

namespace AddressRegistry.WorkQueue

variable {q : WorkQueue} {key key' : ObjectKey}

/-- The queue after its first key was handed out. -/
def handed (q : WorkQueue) (key : ObjectKey) : WorkQueue :=
  { q with
    waiting := q.waiting.tail
    dirty := q.dirty.erase key
    processing := q.processing.insert key () }

/-- Where a key waits, the first one is handed out. -/
theorem take_of_cons {rest : List ObjectKey} (h : q.waiting = key :: rest) :
    q.take = (.key key, q.handed key) := by
  unfold take handed
  rw [h]
  rfl

/-- Where no key waits, the caller goes to sleep, or away when the queue is closed. -/
theorem take_of_nil (h : q.waiting = []) :
    q.take = (if q.shutDown then .closed else .pending, q) := by
  unfold take
  rw [h]

/-! ## Marks -/

/-- Adding a key marks it in an open queue; a closed one takes nothing in. A key that is marked already
stays so. -/
theorem contains_dirty_add :
    (q.add key).dirty.contains key' = true ↔
      q.dirty.contains key' = true ∨ q.shutDown = false ∧ key' = key := by
  unfold add
  split
  · rename_i h
    rw [Bool.or_eq_true] at h
    refine (or_iff_left_of_imp ?_).symm
    rintro ⟨hopen, rfl⟩
    exact h.resolve_left fun hclosed => Bool.false_ne_true (hopen.symm.trans hclosed)
  · rename_i h
    rw [Bool.or_eq_true, not_or, Bool.not_eq_true] at h
    split <;> simp [SortedMap.contains_insert_iff, h.1, or_comm]

/-- Adding a key takes none away from the workers. -/
@[simp] theorem processing_add (q : WorkQueue) (key : ObjectKey) :
    (q.add key).processing = q.processing := by
  unfold add
  split
  · rfl
  · split <;> rfl

/-- Adding a key does not unschedule it: only the end of its timer does. -/
@[simp] theorem scheduled_add (q : WorkQueue) (key : ObjectKey) :
    (q.add key).scheduled = q.scheduled := by
  unfold add
  split
  · rfl
  · split <;> rfl

/-- Adding a key starts no timer. -/
@[simp] theorem timers_add (q : WorkQueue) (key : ObjectKey) : (q.add key).timers = q.timers := by
  unfold add
  split
  · rfl
  · split <;> rfl

/-- Adding a key does not close the queue. -/
@[simp] theorem shutDown_add (q : WorkQueue) (key : ObjectKey) :
    (q.add key).shutDown = q.shutDown := by
  unfold add
  split
  · rfl
  · split <;> rfl

/-- Adding keys one after the other marks them in an open queue, and no others. -/
theorem contains_dirty_foldl_add {q : WorkQueue} {key : ObjectKey} {keys : List ObjectKey} :
    (keys.foldl add q).dirty.contains key = true ↔
      q.dirty.contains key = true ∨ q.shutDown = false ∧ key ∈ keys := by
  induction keys generalizing q with
  | nil => simp
  | cons first rest ih =>
    rw [List.foldl_cons, ih, contains_dirty_add, shutDown_add, List.mem_cons, or_assoc, ← and_or_left]

/-! ## Timers -/

/-- A timer that is put in its place is there, with those that were. -/
theorem mem_placeTimer_iff {t u : Timer} {timers : List Timer} :
    u ∈ placeTimer t timers ↔ u = t ∨ u ∈ timers := by
  induction timers with
  | nil => exact List.mem_singleton.trans (or_iff_left (List.not_mem_nil)).symm
  | cons head rest ih =>
    unfold placeTimer
    split
    · rw [List.mem_cons, ih, List.mem_cons, or_left_comm]
    · exact List.mem_cons

/-- A running timer ends. -/
def fire (q : WorkQueue) (t : Timer) : WorkQueue :=
  if t ∈ q.timers then { q with timers := q.timers.erase t }.expire t else q

/-- What a timer does when it ends does not depend on the other timers. -/
theorem expire_withTimers (q : WorkQueue) (t : Timer) (timers : List Timer) :
    { q with timers }.expire t = { q.expire t with timers } := by
  unfold expire isCurrent add
  dsimp only
  split
  · split
    · rfl
    · split <;> rfl
  · rfl

/-- What timers do when they end does not depend on those that go on running. -/
theorem foldl_expire_withTimers (q : WorkQueue) (due timers : List Timer) :
    due.foldl expire { q with timers } = { due.foldl expire q with timers } := by
  induction due generalizing q with
  | nil => rfl
  | cons t rest ih =>
    rw [List.foldl_cons, expire_withTimers, ih, List.foldl_cons]

/-- The timers that are due end one after the other. -/
theorem expireDue_eq_foldl_fire (q : WorkQueue) (now : Nat) :
    q.expireDue now = (q.timers.takeWhile fun t => t.deadline ≤ now).foldl fire q := by
  have hfire : ∀ (due left : List Timer) (q : WorkQueue), q.timers = due ++ left →
      due.foldl fire q = { due.foldl expire q with timers := left } := by
    intro due left
    induction due with
    | nil =>
      intro q h
      rw [← show q.timers = left from h]
      rfl
    | cons t rest ih =>
      intro q h
      have hfired : q.fire t = { q.expire t with timers := rest ++ left } := by
        unfold fire
        rw [h, List.cons_append, if_pos List.mem_cons_self, List.erase_cons_head, expire_withTimers]
      rw [List.foldl_cons, hfired, ih _ rfl, foldl_expire_withTimers, List.foldl_cons]
  unfold expireDue
  rw [hfire _ _ q (List.takeWhile_append_dropWhile).symm]
  exact foldl_expire_withTimers q _ _

/-! ## Soundness -/

/-- The invariant of work queues. -/
structure Sound (q : WorkQueue) : Prop where
  nodup : q.waiting.Nodup
  marked : ∀ key ∈ q.waiting, q.dirty.contains key = true
  idle : ∀ key ∈ q.waiting, q.processing.contains key = false
  /-- Until the queue is shut down, a mark means that the key will be handed out. -/
  coming : q.shutDown = false → ∀ key, q.dirty.contains key = true →
    key ∈ q.waiting ∨ q.processing.contains key = true
  timed : ∀ key token, q.scheduled.get? key = some token →
    ∃ t ∈ q.timers, t.key = key ∧ t.token = token

/-- In an empty queue nothing can be out of place. -/
theorem sound_empty : empty.Sound where
  nodup := .nil
  marked _ h := nomatch h
  idle _ h := nomatch h
  coming _ _ h := nomatch h
  timed _ _ h := nomatch h

/-- A key that is added at the end of a list without repetition must not be on it. -/
theorem nodup_concat {keys : List ObjectKey} (h : keys.Nodup) (hnew : key ∉ keys) :
    (keys ++ [key]).Nodup := by
  refine List.nodup_append.2 ⟨h, List.pairwise_singleton _ key, fun k hk k' hk' => ?_⟩
  rw [List.mem_singleton.1 hk']
  rintro rfl
  exact hnew hk

/-- An added key waits once: it is not marked before, and does not wait while a worker holds it. -/
theorem Sound.add (h : q.Sound) (key : ObjectKey) : (q.add key).Sound := by
  unfold WorkQueue.add
  split
  · exact h
  · rename_i hadmitted
    rw [Bool.or_eq_true, not_or, Bool.not_eq_true, Bool.not_eq_true] at hadmitted
    have hmark : ∀ k ∈ q.waiting, SortedMap.contains (q.dirty.insert key ()) k = true := fun k hk =>
      SortedMap.contains_insert_iff.2 (Or.inr (h.marked k hk))
    split
    · rename_i hprocessing
      refine ⟨h.nodup, hmark, h.idle, fun hopen k hk => ?_, h.timed⟩
      rcases SortedMap.contains_insert_iff.1 hk with rfl | hk
      · exact Or.inr hprocessing
      · exact h.coming hopen k hk
    · rename_i hidle
      have hnew : key ∉ q.waiting := fun hmem => by simp [h.marked key hmem] at hadmitted
      refine ⟨?_, ?_, ?_, fun hopen k hk => ?_, h.timed⟩
      · exact nodup_concat h.nodup hnew
      · intro k hk
        rcases List.mem_append.1 hk with hk | hk
        · exact hmark k hk
        · exact SortedMap.contains_insert_iff.2 (Or.inl (List.mem_singleton.1 hk))
      · intro k hk
        rcases List.mem_append.1 hk with hk | hk
        · exact h.idle k hk
        · rw [List.mem_singleton.1 hk]
          exact Bool.eq_false_iff.2 hidle
      · rcases SortedMap.contains_insert_iff.1 hk with rfl | hk
        · exact Or.inl (List.mem_append_right _ (List.mem_singleton_self k))
        · exact (h.coming hopen k hk).imp_left (List.mem_append_left _)

/-- The key that is handed out waits no more and is marked no more, and a worker holds it. -/
theorem Sound.handed {rest : List ObjectKey} (h : q.Sound) (hwaiting : q.waiting = key :: rest) :
    (q.handed key).Sound := by
  have hnodup := h.nodup
  rw [hwaiting] at hnodup
  obtain ⟨hkey, hrest⟩ := List.nodup_cons.1 hnodup
  have hmem : ∀ k ∈ rest, k ∈ q.waiting := fun k hk => hwaiting ▸ List.mem_cons_of_mem _ hk
  have hne : ∀ k ∈ rest, k ≠ key := fun k hk => by
    rintro rfl
    exact hkey hk
  unfold WorkQueue.handed
  rw [hwaiting, List.tail_cons]
  refine ⟨hrest, ?_, ?_, fun hopen k hk => ?_, h.timed⟩
  · exact fun k hk => SortedMap.contains_erase_iff.2 ⟨hne k hk, h.marked k (hmem k hk)⟩
  · intro k hk
    rw [Bool.eq_false_iff]
    intro hprocessing
    rcases SortedMap.contains_insert_iff.1 hprocessing with heq | hprocessing
    · exact hne k hk heq
    · rw [h.idle k (hmem k hk)] at hprocessing
      cases hprocessing
  · obtain ⟨hne, hk⟩ := SortedMap.contains_erase_iff.1 hk
    rcases h.coming hopen k hk with hwaits | hprocessing
    · rw [hwaiting] at hwaits
      exact Or.inl ((List.mem_cons.1 hwaits).resolve_left hne)
    · exact Or.inr (SortedMap.contains_insert_iff.2 (Or.inr hprocessing))

/-- A worker is done with a key that it holds. -/
theorem Sound.done (h : q.Sound) (hprocessing : q.processing.contains key = true) :
    (q.done key).Sound := by
  have hnew : key ∉ q.waiting := fun hmem => by
    rw [h.idle key hmem] at hprocessing
    cases hprocessing
  have hidle : ∀ k ∈ q.waiting, SortedMap.contains (q.processing.erase key) k = false := fun k hk => by
    rw [Bool.eq_false_iff]
    intro hk'
    exact Bool.false_ne_true ((h.idle k hk).symm.trans (SortedMap.contains_erase_iff.1 hk').2)
  unfold WorkQueue.done
  split
  · rename_i hreturns
    obtain ⟨hmarked, -⟩ := Bool.and_eq_true_iff.1 hreturns
    refine ⟨?_, ?_, ?_, fun hopen k hk => ?_, h.timed⟩
    · exact nodup_concat h.nodup hnew
    · intro k hk
      rcases List.mem_append.1 hk with hk | hk
      · exact h.marked k hk
      · rwa [List.mem_singleton.1 hk]
    · intro k hk
      rcases List.mem_append.1 hk with hk | hk
      · exact hidle k hk
      · rw [List.mem_singleton.1 hk, SortedMap.contains_eq_false_iff]
        exact SortedMap.get?_erase_self _ _
    · by_cases hkey : k = key
      · exact Or.inl (List.mem_append_right _ (List.mem_singleton.2 hkey))
      · rcases h.coming hopen k hk with hwaits | hk
        · exact Or.inl (List.mem_append_left _ hwaits)
        · exact Or.inr (SortedMap.contains_erase_iff.2 ⟨hkey, hk⟩)
  · rename_i hreturns
    refine ⟨h.nodup, h.marked, hidle, fun hopen k hk => ?_, h.timed⟩
    have hkey : k ≠ key := by
      rintro rfl
      exact hreturns (Bool.and_eq_true_iff.2 ⟨hk, by rw [show q.shutDown = false from hopen]; rfl⟩)
    exact (h.coming hopen k hk).imp_right fun hk => SortedMap.contains_erase_iff.2 ⟨hkey, hk⟩

/-- A scheduled key has a running timer with its token, the new one. The tokens of the timers that are
running are older. -/
theorem Sound.addAfter (h : q.Sound) (now : Nat) (key : ObjectKey) (delay : Nat) :
    (q.addAfter now key delay).Sound := by
  unfold WorkQueue.addAfter
  split
  · exact h
  · refine ⟨h.nodup, h.marked, h.idle, h.coming, fun k token hk => ?_⟩
    dsimp only at hk ⊢
    by_cases hkey : k = key
    · subst hkey
      rw [SortedMap.get?_insert_self] at hk
      cases hk
      exact ⟨_, mem_placeTimer_iff.2 (Or.inl rfl), rfl, rfl⟩
    · rw [SortedMap.get?_insert_of_ne _ hkey] at hk
      obtain ⟨t, ht, hrest⟩ := h.timed k token hk
      exact ⟨t, mem_placeTimer_iff.2 (Or.inr ht), hrest⟩

/-- A timer that is not the latest one of its key may go; the latest one takes the schedule with it. -/
theorem Sound.fire (h : q.Sound) (t : Timer) : (q.fire t).Sound := by
  unfold WorkQueue.fire
  split
  · unfold expire
    split
    · refine Sound.add (q := { q with
        timers := q.timers.erase t, scheduled := q.scheduled.erase t.key })
        ⟨h.nodup, h.marked, h.idle, h.coming, fun k token hk => ?_⟩ t.key
      have hkey : k ≠ t.key := by
        rintro rfl
        cases hk.symm.trans (SortedMap.get?_erase_self _ _)
      obtain ⟨u, hu, hukey, hutoken⟩ := h.timed k token (SortedMap.get?_of_get?_erase hk)
      refine ⟨u, (List.mem_erase_of_ne ?_).2 hu, hukey, hutoken⟩
      rintro rfl
      exact hkey hukey.symm
    · rename_i hstale
      refine ⟨h.nodup, h.marked, h.idle, h.coming, fun k token hk => ?_⟩
      obtain ⟨u, hu, rfl, rfl⟩ := h.timed k token hk
      refine ⟨u, (List.mem_erase_of_ne ?_).2 hu, rfl, rfl⟩
      rintro rfl
      exact hstale (beq_iff_eq.2 hk)
  · exact h

/-- A queue that was closed has nothing to answer for that it had not before. -/
theorem Sound.shutdown (h : q.Sound) : q.shutdown.Sound :=
  ⟨h.nodup, h.marked, h.idle, nofun, h.timed⟩

/-- A scheduled key has a running timer that is the latest one of the key. -/
theorem Sound.exists_timer (h : q.Sound) (hscheduled : q.scheduled.contains key = true) :
    ∃ t ∈ q.timers, t.key = key ∧ q.isCurrent t = true := by
  obtain ⟨token, htoken⟩ := Option.isSome_iff_exists.1 hscheduled
  obtain ⟨t, ht, rfl, rfl⟩ := h.timed key token htoken
  exact ⟨t, ht, rfl, beq_iff_eq.2 htoken⟩

/-! ## The end of a pass -/

/-- A worker is done with a key, which is added again after a delay, if there is one. -/
def dismissed (q : WorkQueue) (now : Nat) (key : ObjectKey) : Option Nat → WorkQueue
  | some delay => (q.done key).addAfter now key delay
  | none => q.done key

section

variable {now : Nat} {delay : Option Nat}

/-- A worker that is done leaves a sound queue, whether or not the key is scheduled again. -/
theorem Sound.dismissed (h : q.Sound) (hprocessing : q.processing.contains key = true) :
    (q.dismissed now key delay).Sound := by
  cases delay with
  | none => exact h.done hprocessing
  | some delay => exact (h.done hprocessing).addAfter now key delay

/-- A delay in an open queue takes the next token and starts a timer with it. -/
theorem addAfter_of_open (hopen : q.shutDown = false) (now : Nat) (key : ObjectKey) (delay : Nat) :
    q.addAfter now key delay = { q with
      tokens := q.tokens + 1
      scheduled := q.scheduled.insert key (q.tokens + 1)
      timers := placeTimer ⟨now + delay, key, q.tokens + 1⟩ q.timers } := by
  unfold addAfter
  rw [hopen]
  rfl

/-- In an open queue a dismissed key is held no more. Its mark stays: with it the key waits again. -/
theorem dismissed_of_open (hopen : q.shutDown = false) :
    (q.dismissed now key delay).shutDown = false ∧
      (q.dismissed now key delay).processing = q.processing.erase key ∧
        (q.dismissed now key delay).dirty = q.dirty := by
  cases delay with
  | none => exact ⟨hopen, rfl, rfl⟩
  | some delay =>
    dsimp only [dismissed]
    rw [addAfter_of_open (q := q.done key) hopen]
    exact ⟨hopen, rfl, rfl⟩

/-- In an open queue the dismissed key is scheduled if there is a delay, and the others are as they were. -/
theorem contains_scheduled_dismissed (hopen : q.shutDown = false) :
    (q.dismissed now key delay).scheduled.contains key' = true ↔
      delay ≠ none ∧ key' = key ∨ q.scheduled.contains key' = true := by
  cases delay with
  | none => exact (or_iff_right fun h => h.1 rfl).symm
  | some delay =>
    dsimp only [dismissed]
    rw [addAfter_of_open (q := q.done key) hopen, SortedMap.contains_insert_iff,
      and_iff_right (Option.some_ne_none delay)]
    rfl

end

/-! ## The end of a timer -/

/-- A timer that ends takes no key away but from the schedule, and then it marks the key. -/
theorem fire_of_open (hopen : q.shutDown = false) (t : Timer) (key : ObjectKey) :
    (q.fire t).shutDown = false ∧ (q.fire t).processing = q.processing ∧
      (q.dirty.contains key = true → (q.fire t).dirty.contains key = true) ∧
        (q.scheduled.contains key = true →
          (q.fire t).scheduled.contains key = true ∨ (q.fire t).dirty.contains key = true) := by
  unfold fire
  split
  · unfold expire
    split
    · refine ⟨(shutDown_add _ _).trans hopen, processing_add _ _, fun h => ?_, fun h => ?_⟩
      · exact contains_dirty_add.2 (Or.inl h)
      · rw [scheduled_add]
        by_cases hkey : key = t.key
        · exact Or.inr (contains_dirty_add.2 (Or.inr ⟨hopen, hkey⟩))
        · exact Or.inl (SortedMap.contains_erase_iff.2 ⟨hkey, h⟩)
    · exact ⟨hopen, rfl, fun h => h, Or.inl⟩
  · exact ⟨hopen, rfl, fun h => h, Or.inl⟩

/-! ## Queues that only take keys in -/

/-- A queue to which keys were added, and nothing else happened. -/
structure Grown (q q' : WorkQueue) : Prop where
  sound : q.Sound → q'.Sound
  shutDown : q'.shutDown = q.shutDown
  processing : q'.processing = q.processing
  scheduled : q'.scheduled = q.scheduled
  dirty : ∀ key, q.dirty.contains key = true → q'.dirty.contains key = true

/-- A queue to which nothing was added has not grown. -/
theorem Grown.refl (q : WorkQueue) : q.Grown q := ⟨fun h => h, rfl, rfl, rfl, fun _ h => h⟩

/-- Adding one more key is still growing. -/
theorem Grown.add {q' : WorkQueue} (h : q.Grown q') (key : ObjectKey) : q.Grown (q'.add key) where
  sound hsound := (h.sound hsound).add key
  shutDown := (q'.shutDown_add key).trans h.shutDown
  processing := (q'.processing_add key).trans h.processing
  scheduled := (q'.scheduled_add key).trans h.scheduled
  dirty key' hmarked := contains_dirty_add.2 (Or.inl (h.dirty key' hmarked))

end AddressRegistry.WorkQueue
