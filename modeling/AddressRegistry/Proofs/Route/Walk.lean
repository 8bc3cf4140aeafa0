import AddressRegistry.Proofs.Route.Search

/-!
# The walk over all blocks

`Network.subnets` lists the blocks of a length inside a network in the order of their addresses, and
`RouteIndex.walk` answers the first of them that is clear. A parent of an IPv6 pool may have 2^128
blocks, so nobody walks; the search looks at the routes instead, and `findFree_eq_walk` says that it
answers the same.
-/

namespace AddressRegistry

/-! ## The blocks of a network -/

namespace Network

variable {parent block : Network} {length k : Nat}

/-- The block with number `k` among the blocks of a length inside a network. -/
def subnet? (parent : Network) (length k : Nat) : Option Network :=
  ofParts? parent.family (parent.first + k * powTwo (parent.family.width - length)) length

/-- The blocks of a length inside a network, by ascending address. -/
def subnets (parent : Network) (length : Nat) : List Network :=
  (List.range (powTwo (length - parent.length))).filterMap (parent.subnet? length)

/-- The `k`-th block has the parent's family, the length asked for, and lies `k` block sizes behind the
parent's first address. -/
theorem subnet?_eq_some_iff :
    parent.subnet? length k = some block ↔
      block.family = parent.family ∧ block.length = length ∧
        block.address = parent.first + k * powTwo (parent.family.width - length) := by
  unfold subnet? ofParts?
  constructor
  · intro h
    split at h
    · cases h
      exact ⟨rfl, rfl, rfl⟩
    · cases h
  · rintro ⟨hfam, hlen, haddr⟩
    rw [← haddr, ← hfam, ← hlen, dif_pos ⟨block.address_lt, block.length_le⟩]

/-- A network is as large as its blocks together. -/
theorem size_eq_mul (hlt : parent.length < length) (hle : length ≤ parent.family.width) :
    parent.size = powTwo (length - parent.length) * powTwo (parent.family.width - length) := by
  have hsum : parent.family.width - parent.length
      = (length - parent.length) + (parent.family.width - length) := by omega
  unfold size
  rw [hsum]
  exact Nat.pow_add 2 _ _

/-- A network starts at a boundary of its blocks. -/
theorem powTwo_dvd_first (hlt : parent.length < length) (hle : length ≤ parent.family.width) :
    powTwo (parent.family.width - length) ∣ parent.first := by
  refine Nat.dvd_trans ?_ parent.size_dvd_first
  rw [size_eq_mul hlt hle]
  exact Nat.dvd_mul_left _ _

/-- The blocks are the canonical networks of the length inside the network. -/
theorem mem_subnets_iff (hlt : parent.length < length) (hle : length ≤ parent.family.width) :
    block ∈ parent.subnets length ↔
      block.IsCanonical ∧ block.length = length ∧ parent.contains block = true := by
  have hsize := size_eq_mul hlt hle
  have hstep : 0 < powTwo (parent.family.width - length) := powTwo_pos _
  have hdvd : powTwo (parent.family.width - length) ∣ parent.first := powTwo_dvd_first hlt hle
  simp only [subnets, List.mem_filterMap, List.mem_range, subnet?_eq_some_iff]
  constructor
  · rintro ⟨k, hk, hfam, hlen, haddr⟩
    have hblock : block.size = powTwo (parent.family.width - length) := by rw [size, hfam, hlen]
    have hcanonical : block.IsCanonical := by
      refine isCanonical_of_dvd ?_
      rw [hblock, haddr]
      exact Nat.dvd_add hdvd (Nat.dvd_mul_left _ _)
    refine ⟨hcanonical, hlen, contains_iff.2 ⟨hfam.symm, ?_, ?_⟩⟩
    · rw [hcanonical.first_eq, haddr]
      exact Nat.le_add_right _ _
    · have hlast : (k + 1) * powTwo (parent.family.width - length) ≤ parent.size :=
        hsize ▸ Nat.mul_le_mul_right _ hk
      rw [Nat.add_one_mul] at hlast
      unfold last
      rw [hcanonical.first_eq, haddr, hblock]
      omega
  · rintro ⟨hcanonical, hlen, hinside⟩
    obtain ⟨hfam, h1, h2⟩ := contains_iff.1 hinside
    have hblock : block.size = powTwo (parent.family.width - length) := by rw [size, hlen, hfam]
    obtain ⟨k, hk⟩ : powTwo (parent.family.width - length) ∣ block.first - parent.first :=
      Nat.dvd_sub (hblock ▸ block.size_dvd_first) hdvd
    rw [Nat.mul_comm] at hk
    refine ⟨k, ?_, hfam.symm, hlen, by rw [← hcanonical.first_eq]; omega⟩
    refine Nat.lt_of_mul_lt_mul_right (a := powTwo (parent.family.width - length)) ?_
    unfold last at h2
    rw [hblock] at h2
    have hpos := parent.size_pos
    omega

/-- The blocks come by ascending address. -/
theorem pairwise_subnets (hlt : parent.length < length) (hle : length ≤ parent.family.width) :
    (parent.subnets length).Pairwise fun a b => a.first < b.first := by
  have hstep : 0 < powTwo (parent.family.width - length) := powTwo_pos _
  unfold subnets
  rw [List.pairwise_filterMap]
  refine List.pairwise_lt_range.imp_of_mem fun {i j} hi hj hij a ha b hb => ?_
  have hmem : ∀ k block, k ∈ List.range (powTwo (length - parent.length)) →
      parent.subnet? length k = some block → block.IsCanonical := by
    intro k block hk hblock
    exact ((mem_subnets_iff hlt hle).1 (List.mem_filterMap.2 ⟨k, hk, hblock⟩)).1
  have hai := (subnet?_eq_some_iff.1 ha).2.2
  have hbj := (subnet?_eq_some_iff.1 hb).2.2
  rw [(hmem i a hi ha).first_eq, (hmem j b hj hb).first_eq, hai, hbj]
  exact Nat.add_lt_add_left (Nat.mul_lt_mul_of_pos_right hij hstep) _

/-- Where blocks come by ascending address, the first one with a property is the least one with it. -/
theorem find?_eq_some_of_least {blocks : List Network} {p : Network → Bool}
    (hblocks : blocks.Pairwise fun a b => a.first < b.first) (hmem : block ∈ blocks)
    (hp : p block = true) (hleast : ∀ x ∈ blocks, p x = true → block.first ≤ x.first) :
    blocks.find? p = some block := by
  induction blocks with
  | nil => cases hmem
  | cons x rest ih =>
    obtain ⟨hfirst, hrest⟩ := List.pairwise_cons.1 hblocks
    obtain ⟨hx, hleast⟩ := List.forall_mem_cons.1 hleast
    by_cases hpx : p x = true
    · rw [List.find?_cons_of_pos hpx]
      rcases List.mem_cons.1 hmem with rfl | hmem
      · rfl
      · exact absurd (hx hpx) (Nat.not_le.2 (hfirst block hmem))
    · rw [List.find?_cons_of_neg hpx]
      rcases List.mem_cons.1 hmem with rfl | hmem
      · exact absurd hp hpx
      · exact ih hrest hmem hleast

end Network

namespace RouteIndex

variable {index : RouteIndex} {parent block : Network} {length : Nat}

/-- The first clear block of a length inside a parent, found by looking at every block. -/
def walk (index : RouteIndex) (parent : Network) (length : Nat) : Option Network :=
  (parent.subnets length).find? (index.isClear parent)

/-- A free block is a clear one among the parent's blocks. -/
theorem isFreeBlock_iff_mem (hlt : parent.length < length) (hle : length ≤ parent.family.width) :
    index.IsFreeBlock parent length block ↔
      block ∈ parent.subnets length ∧ index.isClear parent block = true := by
  rw [Network.mem_subnets_iff hlt hle]
  constructor
  · rintro ⟨hcanonical, hlen, hinside, hclear⟩
    exact ⟨⟨hcanonical, hlen, hinside⟩, hclear⟩
  · rintro ⟨⟨hcanonical, hlen, hinside⟩, hclear⟩
    exact ⟨hcanonical, hlen, hinside, hclear⟩

/-- The walk answers the free block with the least address. -/
theorem walk_eq_some (hlt : parent.length < length) (hle : length ≤ parent.family.width)
    (hfree : index.IsFreeBlock parent length block)
    (hleast : ∀ block', index.IsFreeBlock parent length block' → block.first ≤ block'.first) :
    index.walk parent length = some block := by
  obtain ⟨hmem, hclear⟩ := (isFreeBlock_iff_mem hlt hle).1 hfree
  refine Network.find?_eq_some_of_least (Network.pairwise_subnets hlt hle) hmem hclear ?_
  exact fun x hx hxclear => hleast x ((isFreeBlock_iff_mem hlt hle).2 ⟨hx, hxclear⟩)

/-- The walk comes back without an answer exactly when there is no free block. -/
theorem walk_eq_none_iff (hlt : parent.length < length) (hle : length ≤ parent.family.width) :
    index.walk parent length = none ↔ ∀ block, ¬ index.IsFreeBlock parent length block := by
  unfold walk
  rw [List.find?_eq_none]
  exact forall_congr' fun block => by rw [isFreeBlock_iff_mem hlt hle, not_and]

/-- **The search is the walk over all blocks.** It answers the first block of the parent, by ascending
address, that overlaps no route but those equal to the parent or around it; it reports exhaustion
exactly when there is no such block, and a bad input exactly when the length does not lie between the
parent's length and the family's width. -/
theorem findFree_eq_walk (index : RouteIndex) (parent : Network) (length : Nat) :
    (index.findFree parent length =
      if length ≤ parent.length ∨ parent.family.width < length then
        .error (.invalidInput (.cannotCarve length parent.truncate))
      else
        match index.walk parent length with
        | some block => .ok block
        | none => .error (.exhausted parent.truncate.text length)) ∧
    ((∃ text n, index.findFree parent length = .error (.exhausted text n)) ↔
      (parent.length < length ∧ length ≤ parent.family.width) ∧
        ∀ block ∈ parent.subnets length, index.isClear parent block = false) ∧
    ((∃ fault, index.findFree parent length = .error (.invalidInput fault)) ↔
      length ≤ parent.length ∨ parent.family.width < length) := by
  have hleast : ∀ block, index.findFree parent length = .ok block →
      ∀ block', index.IsFreeBlock parent length block' → block.first ≤ block'.first :=
    fun _ h _ hfree => findFree_least h hfree
  generalize hanswer : index.findFree parent length = answer at hleast
  have houtcome : SearchOutcome index parent length answer :=
    hanswer ▸ findFree_outcome index parent length
  cases houtcome with
  | refused h =>
    refine ⟨by rw [if_pos h], iff_of_false (by simp) (by omega), iff_of_true ⟨_, rfl⟩ h⟩
  | found hlt hfree =>
    rename_i block
    obtain ⟨hfam, -, -⟩ := Network.contains_iff.1 hfree.inside
    have hle : length ≤ parent.family.width := hfree.length_eq ▸ hfam ▸ block.length_le
    have hvalid : ¬ (length ≤ parent.length ∨ parent.family.width < length) := by omega
    refine ⟨?_, iff_of_false (by simp) ?_, iff_of_false (by simp) hvalid⟩
    · rw [if_neg hvalid, walk_eq_some hlt hle hfree (hleast block rfl)]
    · rintro ⟨-, hnone⟩
      obtain ⟨hmem, hclear⟩ := (isFreeBlock_iff_mem hlt hle).1 hfree
      rw [hnone block hmem] at hclear
      cases hclear
  | full hlt hle hnone =>
    have hvalid : ¬ (length ≤ parent.length ∨ parent.family.width < length) := by omega
    refine ⟨?_, iff_of_true ⟨_, _, rfl⟩ ⟨⟨hlt, hle⟩, fun block hmem => ?_⟩,
      iff_of_false (by simp) hvalid⟩
    · rw [if_neg hvalid, (walk_eq_none_iff hlt hle).2 hnone]
    · rw [Bool.eq_false_iff]
      intro hclear
      exact hnone block ((isFreeBlock_iff_mem hlt hle).2 ⟨hmem, hclear⟩)

end RouteIndex

end AddressRegistry
