import AddressRegistry.Proofs.Route.Scan
import AddressRegistry.Route.Strategy

/-!
# What a search answers

A search for a block ends in one of three ways (`RouteIndex.SearchOutcome`): the length is refused
because it does not lie between the parent's and the family's, a free block is found, or there is none.
Both searches and both strategies end so (`findFree_outcome`, `findFreeFrom_outcome`,
`allocate_outcome`); they differ in which free block they answer, and the lowest-first search answers the
one with the least address (`findFree_least`).

The restore check looks at all blockers at once where a search walks along them, yet both mean the same by a
free block (`isFreeWithin_agrees_with_search`).
-/

namespace AddressRegistry

namespace RouteIndex

variable {index : RouteIndex} {parent block candidate : Network} {length : Nat} {s : BlockSearch}

/-- The three ways in which a search for a block of a length inside a parent ends. -/
inductive SearchOutcome (index : RouteIndex) (parent : Network) (length : Nat) :
    Except RegistryError Network → Prop
  | refused (h : length ≤ parent.length ∨ parent.family.width < length) :
    SearchOutcome index parent length (.error (.invalidInput (.cannotCarve length parent.truncate)))
  | found {block : Network} (hlt : parent.length < length)
    (hfree : index.IsFreeBlock parent length block) : SearchOutcome index parent length (.ok block)
  | full (hlt : parent.length < length) (hle : length ≤ parent.family.width)
    (hnone : ∀ block, ¬ index.IsFreeBlock parent length block) :
    SearchOutcome index parent length (.error (.exhausted parent.truncate.text length))

/-- Whatever scans a search makes from inside the parent, if it gives up only when the scan from the
parent's start does, it ends in one of the three ways. -/
theorem answer_outcome (hs : BlockSearch.start index parent length = .ok s) {found : Option Nat}
    (hsome : ∀ c, found = some c → ∃ origin, parent.first ≤ origin ∧ s.scan origin = some c)
    (hnone : found = none → s.scan parent.first = none) :
    SearchOutcome index parent length (s.answer found) := by
  obtain ⟨⟨hlt, hle⟩, hs'⟩ := BlockSearch.start_eq_ok_iff.1 hs
  cases hfound : found with
  | some c =>
    obtain ⟨origin, horigin, hscan⟩ := hsome c hfound
    obtain ⟨block, hblock, -, -, hfree⟩ := BlockSearch.scan_sound hs horigin hscan
    rw [BlockSearch.answer, hblock]
    exact .found hlt hfree
  | none =>
    have hempty : ∀ block, ¬ index.IsFreeBlock parent length block := by
      intro block hfree
      obtain ⟨-, h1, -⟩ := Network.contains_iff.1 hfree.inside
      obtain ⟨c, hscan, -⟩ := BlockSearch.scan_complete hs hfree h1
      rw [hnone hfound] at hscan
      cases hscan
    unfold BlockSearch.answer
    rw [hs']
    exact .full hlt hle hempty

/-- The lowest-first search is one scan from the parent's first address. -/
theorem findFree_of_start (hs : BlockSearch.start index parent length = .ok s) :
    index.findFree parent length = s.answer (s.scan parent.first) := by
  unfold findFree
  rw [hs]
  show s.answer (s.scan s.parent.first) = _
  rw [BlockSearch.parent_first_eq hs]

/-- How a lowest-first search ends. -/
theorem findFree_outcome (index : RouteIndex) (parent : Network) (length : Nat) :
    SearchOutcome index parent length (index.findFree parent length) := by
  cases hs : BlockSearch.start index parent length with
  | error e =>
    obtain ⟨hlen, rfl⟩ := BlockSearch.start_eq_error_iff.1 hs
    unfold findFree
    rw [hs]
    exact .refused hlen
  | ok s =>
    rw [findFree_of_start hs]
    exact answer_outcome hs (fun c hc => ⟨_, le_rfl, hc⟩) id

/-- The seeded search starts inside the parent. -/
theorem first_le_origin (s : BlockSearch) (seed : Nat) : s.parent.first ≤ s.origin seed := by
  unfold BlockSearch.origin
  cases h : (AddressSpace.mul? (s.slot seed) s.size).bind (AddressSpace.add? s.parent.first ·) with
  | none => exact le_rfl
  | some from? =>
    obtain ⟨offset, -, hadd⟩ := Option.bind_eq_some_iff.1 h
    obtain ⟨-, rfl⟩ := AddressSpace.add?_eq_some_iff.1 hadd
    exact Nat.le_add_right _ _

/-- How a seeded search ends, for every seed. -/
theorem findFreeFrom_outcome (index : RouteIndex) (parent : Network) (length seed : Nat) :
    SearchOutcome index parent length (index.findFreeFrom parent length seed) := by
  cases hs : BlockSearch.start index parent length with
  | error e =>
    obtain ⟨hlen, rfl⟩ := BlockSearch.start_eq_error_iff.1 hs
    unfold findFreeFrom
    rw [hs]
    exact .refused hlen
  | ok s =>
    have hfirst : s.parent.first = parent.first := BlockSearch.parent_first_eq hs
    unfold findFreeFrom
    rw [hs]
    show SearchOutcome _ _ _ (s.answer ((s.scan (s.origin seed)).or (s.scan s.parent.first)))
    rw [hfirst]
    refine answer_outcome hs (fun c hc => ?_) (fun hc => (Option.or_eq_none_iff.1 hc).2)
    rcases Option.or_eq_some_iff.1 hc with hc | ⟨-, hc⟩
    · exact ⟨_, hfirst ▸ first_le_origin s seed, hc⟩
    · exact ⟨_, le_rfl, hc⟩

/-- How a strategy's search ends, whatever identity it takes its seed from. -/
theorem allocate_outcome (strategy : Strategy) (index : RouteIndex) (parent : Network)
    (length : Nat) (identity : String) :
    SearchOutcome index parent length (strategy.allocate index parent length identity) := by
  cases strategy with
  | firstAvailable => exact findFree_outcome index parent length
  | deterministic => exact findFreeFrom_outcome index parent length _

/-- The lowest-first search answers the free block with the least address. -/
theorem findFree_least (h : index.findFree parent length = .ok block) {block' : Network}
    (hfree : index.IsFreeBlock parent length block') : block.first ≤ block'.first := by
  cases hs : BlockSearch.start index parent length with
  | error e =>
    unfold findFree at h
    rw [hs] at h
    cases h
  | ok s =>
    rw [findFree_of_start hs] at h
    obtain ⟨-, h1, -⟩ := Network.contains_iff.1 hfree.inside
    obtain ⟨c, hscan, hc⟩ := BlockSearch.scan_complete hs hfree h1
    obtain ⟨found, hfound, hfirst, -⟩ := BlockSearch.scan_sound hs le_rfl hscan
    rw [hscan, BlockSearch.answer, hfound] at h
    cases h
    exact hfirst.trans_le hc

/-! ## The restore check -/

/-- The restore check lets every free block through. -/
theorem IsFreeBlock.isFreeWithin (h : index.IsFreeBlock parent length block) (hlt : parent.length < length) :
    index.isFreeWithin parent block = true := by
  refine isFreeWithin_iff.2 ⟨fun heq => ?_, h.inside, h.clear⟩
  have hlength : block.truncate.length = parent.truncate.length := congrArg Network.length heq
  rw [Network.truncate_length, Network.truncate_length, h.length_eq] at hlength
  omega

/-- What the restore check lets through is smaller than the parent, and a free block once the bits beyond
its length are cleared. -/
theorem isFreeBlock_of_isFreeWithin (h : index.isFreeWithin parent candidate = true) :
    parent.length < candidate.length ∧
      index.IsFreeBlock parent candidate.length candidate.truncate := by
  obtain ⟨hne, hinside, hclear⟩ := isFreeWithin_iff.1 h
  refine ⟨Nat.lt_of_le_of_ne (Network.length_le_of_contains hinside) fun hlength => hne ?_,
    candidate.truncate_isCanonical, rfl, ?_, ?_⟩
  · have hmeet : parent.truncate.overlaps candidate.truncate = true :=
      Network.overlaps_of_contains (by simpa using hinside)
    rw [Network.overlaps_comm] at hmeet
    exact candidate.truncate_isCanonical.eq_of_overlaps parent.truncate_isCanonical hmeet hlength.symm
  · rwa [Network.contains_truncate_right]
  · rwa [isClear_truncate_right]

/-- A search answers what the restore check lets through. -/
theorem SearchOutcome.isFreeWithin (h : SearchOutcome index parent length (.ok block)) :
    block.length = length ∧ index.isFreeWithin parent block = true := by
  cases h with
  | found hlt hfree => exact ⟨hfree.length_eq, hfree.isFreeWithin hlt⟩

/-- **The restore check and the search agree on what is free.** A candidate passes the check exactly when it
lies strictly inside the parent and overlaps no route but those equal to the parent or around it; the search
for a length succeeds exactly when some candidate of the length passes; and whatever block a search answers,
from the parent's start or from a seed, passes. -/
theorem isFreeWithin_agrees_with_search (index : RouteIndex) (parent : Network) :
    (∀ candidate, index.isFreeWithin parent candidate = true ↔
      (candidate.truncate ≠ parent.truncate ∧ parent.truncate.contains candidate.truncate = true) ∧
        ∀ n ∈ index.networks, n.overlaps candidate.truncate = true →
          n = parent.truncate ∨ n.contains parent.truncate = true) ∧
    (∀ length, (∃ block, index.findFree parent length = .ok block) ↔
      ∃ candidate : Network, candidate.length = length ∧ index.isFreeWithin parent candidate = true) ∧
    (∀ length block, index.findFree parent length = .ok block →
      block.length = length ∧ index.isFreeWithin parent block = true) ∧
    ∀ length seed block, index.findFreeFrom parent length seed = .ok block →
      block.length = length ∧ index.isFreeWithin parent block = true := by
  refine ⟨fun candidate => ?_, fun length => ?_, fun length block h => ?_, fun length seed block h => ?_⟩
  · rw [isFreeWithin_iff, ← isClear_truncate_left, ← isClear_truncate_right, isClear_iff,
      Network.contains_truncate_left, Network.contains_truncate_right, and_assoc]
    refine and_congr_right fun _ => and_congr_right fun _ => ?_
    refine forall₂_congr fun n _ => imp_congr_right fun _ => ?_
    -- A network contains itself, so a route equal to the parent is one around it.
    exact ⟨Or.inr, fun h => h.elim (fun heq => heq ▸ n.contains_refl) id⟩
  · have houtcome := index.findFree_outcome parent length
    constructor
    · rintro ⟨block, h⟩
      rw [h] at houtcome
      exact ⟨block, houtcome.isFreeWithin⟩
    · rintro ⟨candidate, rfl, hwithin⟩
      obtain ⟨hlt, hfree⟩ := isFreeBlock_of_isFreeWithin hwithin
      obtain ⟨hfam, -, -⟩ := Network.contains_iff.1 hfree.inside
      have hle : candidate.length ≤ parent.family.width := hfam ▸ candidate.length_le
      cases hanswer : index.findFree parent candidate.length with
      | ok block => exact ⟨block, rfl⟩
      | error e =>
        rw [hanswer] at houtcome
        cases houtcome with
        | refused h => omega
        | full _ _ hnone => exact absurd hfree (hnone _)
  · have houtcome := index.findFree_outcome parent length
    rw [h] at houtcome
    exact houtcome.isFreeWithin
  · have houtcome := index.findFreeFrom_outcome parent length seed
    rw [h] at houtcome
    exact houtcome.isFreeWithin

end RouteIndex

namespace Sample

/-- The network `172.16.0.0/28`. -/
def rack : Network := ⟨.ipv4, 0xac100000, 28, by decide, by decide⟩

/-- The index with a route for `172.16.0.0/28` and one for its lower half. -/
def halved : RouteIndex :=
  ⟨.ofList [(rack, .empty), (⟨.ipv4, 0xac100000, 29, by decide, by decide⟩, .empty)], by decide⟩

/-- The first pair of addresses in the upper half, `172.16.0.8/31`. -/
def pair : Network := ⟨.ipv4, 0xac100008, 31, by decide, by decide⟩

end Sample

/-- Half of a rack is taken: the search answers a pair in the other half, and the restore check agrees that
it is free. -/
theorem RouteIndex.isFreeWithin_agrees_with_search_halved :
    Sample.halved.findFree Sample.rack 31 = .ok Sample.pair ∧
      Sample.halved.isFreeWithin Sample.rack Sample.pair = true := by
  have hfound : Sample.halved.findFree Sample.rack 31 = .ok Sample.pair := by decide +kernel
  obtain ⟨-, -, hpasses, -⟩ := isFreeWithin_agrees_with_search Sample.halved Sample.rack
  exact ⟨hfound, (hpasses 31 _ hfound).2⟩

end AddressRegistry
