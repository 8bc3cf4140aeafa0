import AddressRegistry.Proofs.Route.Contents

/-!
# Free blocks

A block inside a parent is clear when it overlaps no route but the parent's own and the ones around the
parent (`RouteIndex.isClear`). The search and the restore check never look at all routes: they look at
the blockers, the routes strictly inside the parent. Since networks are nested or apart this makes no
difference (`blockers_avoid_iff`), and the restore check is the definition (`isFreeWithin_iff`).
-/

namespace AddressRegistry

/-! ## Sorting intervals -/

namespace Interval

variable {a b : Interval} {l : List Interval}

/-- An interval has no address among the `size` ones from `first` on. -/
def Avoids (b : Interval) (first size : Nat) : Prop :=
  b.last < first ∨ first + (size - 1) < b.first

/-- An interval that sorts before another does not start behind it. -/
theorem first_le_of_before (h : a.before b = true) : a.first ≤ b.first := by
  simp only [before, Bool.or_eq_true, Bool.and_eq_true, decide_eq_true_eq, beq_iff_eq] at h
  omega

/-- An interval that does not sort before another does not start before it. -/
theorem first_le_of_not_before (h : ¬ a.before b = true) : b.first ≤ a.first := by
  simp only [before, Bool.or_eq_true, Bool.and_eq_true, decide_eq_true_eq, beq_iff_eq] at h
  omega

/-- Placing an interval adds it to the elements and changes nothing else. -/
theorem mem_place : b ∈ place a l ↔ b = a ∨ b ∈ l := by
  induction l with
  | nil => simp [place]
  | cons c rest ih =>
    unfold place
    split
    · rw [List.mem_cons]
    · rw [List.mem_cons, ih, List.mem_cons]
      exact or_left_comm

/-- Placing an interval keeps a list sorted by first addresses. -/
theorem pairwise_place (h : l.Pairwise fun x y => x.first ≤ y.first) :
    (place a l).Pairwise fun x y => x.first ≤ y.first := by
  induction l with
  | nil => exact List.pairwise_singleton _ _
  | cons c rest ih =>
    obtain ⟨hhead, hrest⟩ := List.pairwise_cons.1 h
    unfold place
    split
    · rename_i hbefore
      refine List.pairwise_cons.2 ⟨fun x hx => ?_, h⟩
      have hac := first_le_of_before hbefore
      rcases List.mem_cons.1 hx with rfl | hx
      · exact hac
      · exact hac.trans (hhead x hx)
    · rename_i hbefore
      refine List.pairwise_cons.2 ⟨fun x hx => ?_, ih hrest⟩
      rcases mem_place.1 hx with rfl | hx
      · exact first_le_of_not_before hbefore
      · exact hhead x hx

/-- Sorting keeps the elements. -/
theorem mem_sort : b ∈ sort l ↔ b ∈ l := by
  induction l with
  | nil => rfl
  | cons c rest ih =>
    show b ∈ place c (sort rest) ↔ _
    rw [mem_place, ih, List.mem_cons]

/-- Sorted intervals come in the order of their first addresses. -/
theorem pairwise_sort (l : List Interval) : (sort l).Pairwise fun x y => x.first ≤ y.first := by
  induction l with
  | nil => exact List.Pairwise.nil
  | cons c rest ih => exact pairwise_place ih

end Interval

/-! ## Clear blocks -/

namespace RouteIndex

variable {index : RouteIndex} {parent block candidate : Network}

/-- Whether a block overlaps no route but a parent's own and the ones around the parent. -/
def isClear (index : RouteIndex) (parent block : Network) : Bool :=
  index.networks.all fun n => n.contains parent || !n.overlaps block

/-- A clear block overlaps a route only if the route is around the parent, or is the parent's own. -/
theorem isClear_iff :
    index.isClear parent block = true ↔
      ∀ n ∈ index.networks, n.overlaps block = true → n.contains parent = true := by
  unfold isClear
  rw [List.all_eq_true]
  constructor
  · intro h n hn hmeet
    simpa [hmeet] using h n hn
  · intro h n hn
    by_cases hmeet : n.overlaps block = true
    · rw [h n hn hmeet, Bool.true_or]
    · rw [Bool.eq_false_iff.2 hmeet, Bool.not_false, Bool.or_true]

/-- Host bits of the parent do not matter. -/
@[simp] theorem isClear_truncate_left :
    index.isClear parent.truncate block = index.isClear parent block := by
  simp [isClear]

/-- Host bits of the block do not matter. -/
@[simp] theorem isClear_truncate_right :
    index.isClear parent block.truncate = index.isClear parent block := by
  simp [isClear, Network.overlaps]

/-- The blockers are the intervals of the routes strictly inside the parent. -/
theorem mem_blockers_iff {b : Interval} :
    b ∈ index.blockers parent ↔
      ∃ n ∈ index.networks, n ≠ parent ∧ parent.contains n = true ∧ n.interval = b := by
  simp only [blockers, Interval.mem_sort, List.mem_map, List.mem_filter, Bool.and_eq_true,
    bne_iff_ne, ne_eq]
  exact exists_congr fun n => by simp only [and_assoc]

/-- Only the routes strictly inside a parent decide whether a block of it is clear: a route that meets
the block meets the parent, so it lies around the parent or inside it. -/
theorem blockers_avoid_iff (hparent : parent.IsCanonical) (hinside : parent.contains block = true) :
    (∀ b ∈ index.blockers parent, b.last < block.first ∨ block.last < b.first) ↔
      index.isClear parent block = true := by
  rw [isClear_iff]
  obtain ⟨hfam, -, -⟩ := Network.contains_iff.1 hinside
  constructor
  · intro h n hn hmeet
    rcases Network.overlaps_iff.1 (Network.overlaps_of_contains_right hmeet hinside) with hc | hc
    · exact hc
    · by_cases hne : n = parent
      · exact hne ▸ n.contains_refl
      · obtain ⟨-, h1, h2⟩ := Network.overlaps_iff_meet.1 hmeet
        have hapart : n.last < block.first ∨ block.last < n.first :=
          h n.interval (mem_blockers_iff.2 ⟨n, hn, hne, hc, rfl⟩)
        omega
  · intro h b hb
    obtain ⟨n, hn, hne, hc, rfl⟩ := mem_blockers_iff.1 hb
    by_contra hmeet
    change ¬ (n.last < block.first ∨ block.last < n.first) at hmeet
    obtain ⟨hfam', -, -⟩ := Network.contains_iff.1 hc
    have hover : n.overlaps block = true :=
      Network.overlaps_iff_meet.2 ⟨hfam'.symm.trans hfam, by omega, by omega⟩
    exact hne ((isCanonical_of_mem hn).contains_antisymm hparent (h n hn hover) hc)

/-- The restore check: the candidate lies strictly inside the parent and is clear there. -/
theorem isFreeWithin_iff :
    index.isFreeWithin parent candidate = true ↔
      candidate.truncate ≠ parent.truncate ∧ parent.contains candidate = true ∧
        index.isClear parent candidate = true := by
  simp only [isFreeWithin, Bool.and_eq_true, bne_iff_ne, ne_eq, List.all_eq_true, Bool.or_eq_true,
    decide_eq_true_eq, Network.contains_truncate_left, Network.contains_truncate_right, and_assoc]
  refine and_congr_right fun _ => and_congr_right fun hinside => ?_
  rw [blockers_avoid_iff parent.truncate_isCanonical (by simpa using hinside),
    isClear_truncate_left, isClear_truncate_right]

/-- A block that could be handed out of a parent. -/
structure IsFreeBlock (index : RouteIndex) (parent : Network) (length : Nat) (block : Network) :
    Prop where
  canonical : block.IsCanonical
  length_eq : block.length = length
  inside : parent.contains block = true
  clear : index.isClear parent block = true

end RouteIndex

end AddressRegistry
