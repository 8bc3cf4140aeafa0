import AddressRegistry.Proofs.Route.Walk
import Mathlib.Data.List.Rotate

/-!
# The walk in a cycle

A seeded search does not start at the parent's first block but at the one whose number the seed gives, and
goes on from the first block when it reaches the last one. `Network.subnetsFrom` lists the blocks in this
order and `RouteIndex.walkFrom` answers the first of them that is clear; `findFreeFrom_eq_walkFrom` says that
the search answers the same, and that it fails exactly when, and as, the search from the first block does.

The search itself makes two scans, from the starting block and from the first one. The first scan finds the
least free block from its starting point on, if there is one (`scan_upper`); if there is none, the
second scan finds the least free block of all, which then lies before the starting point (`scan_lower`). The
starting point is an address of the parent, so the checked sum and product behind it never give up
(`origin_eq`); this is where the seed has to be below 2^128, as a parent may have that many blocks.
-/

namespace AddressRegistry

/-! ## The blocks of a network in a cycle -/

namespace Network

variable {parent block : Network} {length k : Nat}

/-- The blocks of a length inside a network from the one with number `k` to the last one, and then from the
first one on. -/
def subnetsFrom (parent : Network) (length k : Nat) : List Network :=
  ((List.range (powTwo (length - parent.length))).rotate k).filterMap (parent.subnet? length)

/-- The blocks from the one with number `k` on. -/
def upperSubnets (parent : Network) (length k : Nat) : List Network :=
  ((List.range (powTwo (length - parent.length))).drop k).filterMap (parent.subnet? length)

/-- The blocks before the one with number `k`. -/
def lowerSubnets (parent : Network) (length k : Nat) : List Network :=
  ((List.range (powTwo (length - parent.length))).take k).filterMap (parent.subnet? length)

theorem mem_drop_range {i n : Nat} : i ∈ (List.range n).drop k ↔ k ≤ i ∧ i < n := by
  rw [List.range_eq_range', List.drop_range', List.mem_range'_1]
  omega

/-- The order of a seeded walk: the blocks from the `k`-th on, then those before it. -/
theorem subnetsFrom_eq_append (hk : k ≤ powTwo (length - parent.length)) :
    parent.subnetsFrom length k = parent.upperSubnets length k ++ parent.lowerSubnets length k := by
  unfold subnetsFrom upperSubnets lowerSubnets
  rw [List.rotate_eq_drop_append_take (by rwa [List.length_range]), List.filterMap_append]

section

variable (hlt : parent.length < length) (hle : length ≤ parent.family.width)
include hlt hle

/-- The block with number `k` starts `k` blocks behind the parent's first address. -/
theorem first_of_subnet? (hk : k < powTwo (length - parent.length))
    (h : parent.subnet? length k = some block) :
    block.first = parent.first + k * powTwo (parent.family.width - length) := by
  have hmem : block ∈ parent.subnets length := List.mem_filterMap.2 ⟨k, List.mem_range.2 hk, h⟩
  rw [((mem_subnets_iff hlt hle).1 hmem).1.first_eq]
  exact (subnet?_eq_some_iff.1 h).2.2

/-- The upper blocks are those that start at the `k`-th block or behind it. -/
theorem mem_upperSubnets_iff :
    block ∈ parent.upperSubnets length k ↔ block ∈ parent.subnets length ∧
      parent.first + k * powTwo (parent.family.width - length) ≤ block.first := by
  have hstep : 0 < powTwo (parent.family.width - length) := powTwo_pos _
  unfold upperSubnets subnets
  simp only [List.mem_filterMap, mem_drop_range, List.mem_range]
  constructor
  · rintro ⟨i, ⟨hki, hi⟩, hblock⟩
    refine ⟨⟨i, hi, hblock⟩, ?_⟩
    rw [first_of_subnet? hlt hle hi hblock]
    exact Nat.add_le_add_left (Nat.mul_le_mul_right _ hki) _
  · rintro ⟨⟨i, hi, hblock⟩, hfirst⟩
    rw [first_of_subnet? hlt hle hi hblock] at hfirst
    have hki : k ≤ i := Nat.le_of_mul_le_mul_right (Nat.le_of_add_le_add_left hfirst) hstep
    exact ⟨i, ⟨hki, hi⟩, hblock⟩

/-- The lower blocks are those that start before the `k`-th block. -/
theorem mem_lowerSubnets_iff :
    block ∈ parent.lowerSubnets length k ↔ block ∈ parent.subnets length ∧
      block.first < parent.first + k * powTwo (parent.family.width - length) := by
  have hstep : 0 < powTwo (parent.family.width - length) := powTwo_pos _
  unfold lowerSubnets subnets
  rw [List.take_range]
  simp only [List.mem_filterMap, List.mem_range]
  constructor
  · rintro ⟨i, hik, hblock⟩
    have hi : i < powTwo (length - parent.length) := by omega
    refine ⟨⟨i, hi, hblock⟩, ?_⟩
    rw [first_of_subnet? hlt hle hi hblock]
    exact Nat.add_lt_add_left (Nat.mul_lt_mul_of_pos_right (by omega) hstep) _
  · rintro ⟨⟨i, hi, hblock⟩, hfirst⟩
    rw [first_of_subnet? hlt hle hi hblock] at hfirst
    have hik : i < k := Nat.lt_of_mul_lt_mul_right (Nat.lt_of_add_lt_add_left hfirst)
    exact ⟨i, by omega, hblock⟩

/-- The upper blocks come in the order of their addresses, so the first clear one is the least one. -/
theorem pairwise_upperSubnets (k : Nat) :
    (parent.upperSubnets length k).Pairwise fun a b => a.first < b.first :=
  (pairwise_subnets hlt hle).sublist ((List.drop_sublist _ _).filterMap _)

/-- The lower blocks come in the order of their addresses. -/
theorem pairwise_lowerSubnets (k : Nat) :
    (parent.lowerSubnets length k).Pairwise fun a b => a.first < b.first :=
  (pairwise_subnets hlt hle).sublist ((List.take_sublist _ _).filterMap _)

end

end Network

/-! ## Where a seeded search starts -/

namespace BlockSearch

variable {index : RouteIndex} {parent : Network} {length seed : Nat} {s : BlockSearch}

section

variable (hs : start index parent length = .ok s) (hseed : seed < powTwo 128)
include hs hseed

/-- The search starts at the block whose number is the seed modulo the number of blocks. -/
theorem slot_eq : s.slot seed = seed % powTwo (length - parent.length) := by
  obtain ⟨⟨hlt, hle⟩, rfl⟩ := start_eq_ok_iff.1 hs
  have hwidth := parent.family.width_le
  unfold slot
  dsimp only
  rw [Network.truncate_length]
  split
  · rfl
  · -- The parent is everything, and there are 2^128 blocks.
    have hspread : length - parent.length = 128 := by omega
    rw [hspread, Nat.mod_eq_of_lt hseed]

/-- This block lies inside the parent. -/
theorem top_of_slot_le : parent.first + s.slot seed * s.size + (s.size - 1) ≤ parent.last := by
  obtain ⟨⟨hlt, hle⟩, -⟩ := start_eq_ok_iff.1 hs
  have hnumber : seed % powTwo (length - parent.length) < powTwo (length - parent.length) :=
    Nat.mod_lt _ (powTwo_pos _)
  have hinside : (s.slot seed + 1) * s.size ≤ parent.size := by
    rw [Network.size_eq_mul hlt hle, slot_eq hs hseed, size_eq hs]
    exact Nat.mul_le_mul_right _ hnumber
  rw [Nat.add_one_mul] at hinside
  have hpos := s.size_pos
  unfold Network.last
  omega

/-- The checked product and sum behind the starting point never give up. -/
theorem checkedOrigin_eq :
    (AddressSpace.mul? (s.slot seed) s.size).bind (AddressSpace.add? s.parent.first ·)
      = some (parent.first + s.slot seed * s.size) := by
  have htop := top_of_slot_le hs hseed
  have hbound := parent.last_lt_bound
  have hmul : AddressSpace.mul? (s.slot seed) s.size = some (s.slot seed * s.size) := if_pos (by omega)
  rw [hmul, Option.bind_some, parent_first_eq hs, AddressSpace.add?_eq_some_iff]
  exact ⟨by omega, rfl⟩

/-- The search starts at the first address of the block whose number is the seed modulo the number of
blocks. -/
theorem origin_eq :
    s.origin seed = parent.first
      + seed % powTwo (length - parent.length) * powTwo (parent.family.width - length) := by
  unfold origin
  rw [checkedOrigin_eq hs hseed, Option.getD_some, slot_eq hs hseed, size_eq hs]

end

end BlockSearch

namespace RouteIndex

variable {index : RouteIndex} {parent block : Network} {length k seed c : Nat} {s : BlockSearch}

/-- The first clear block of a length inside a parent, from the block with number `k` on and then from the
first one on. -/
def walkFrom (index : RouteIndex) (parent : Network) (length k : Nat) : Option Network :=
  (parent.subnetsFrom length k).find? (index.isClear parent)

/-- The walk in a cycle answers the first clear upper block and, without one, the first clear lower block.
The two scans of the search match these two parts. -/
theorem walkFrom_eq_or (hk : k ≤ powTwo (length - parent.length)) :
    index.walkFrom parent length k
      = ((parent.upperSubnets length k).find? (index.isClear parent)).or
          ((parent.lowerSubnets length k).find? (index.isClear parent)) := by
  unfold walkFrom
  rw [Network.subnetsFrom_eq_append hk, List.find?_append]

section

variable (hs : BlockSearch.start index parent length = .ok s)
include hs

/-- A scan from the block with number `k` answers the first clear block from there on. -/
theorem scan_upper :
    (∀ c, s.scan (parent.first + k * powTwo (parent.family.width - length)) = some c →
      ∃ block, s.blockAt c = .ok block ∧
        (parent.upperSubnets length k).find? (index.isClear parent) = some block) ∧
      (s.scan (parent.first + k * powTwo (parent.family.width - length)) = none →
        (parent.upperSubnets length k).find? (index.isClear parent) = none) := by
  obtain ⟨⟨hlt, hle⟩, -⟩ := BlockSearch.start_eq_ok_iff.1 hs
  have hfree : ∀ block ∈ parent.upperSubnets length k, index.isClear parent block = true →
      index.IsFreeBlock parent length block ∧
        parent.first + k * powTwo (parent.family.width - length) ≤ block.first := by
    intro block hmem hclear
    obtain ⟨hmem, hfirst⟩ := (Network.mem_upperSubnets_iff hlt hle).1 hmem
    exact ⟨(isFreeBlock_iff_mem hlt hle).2 ⟨hmem, hclear⟩, hfirst⟩
  constructor
  · intro c hscan
    obtain ⟨block, hblock, hfirst, horigin, hfound⟩ :=
      BlockSearch.scan_sound hs (Nat.le_add_right _ _) hscan
    obtain ⟨hmem, hclear⟩ := (isFreeBlock_iff_mem hlt hle).1 hfound
    refine ⟨block, hblock, Network.find?_eq_some_of_least (Network.pairwise_upperSubnets hlt hle k)
      ((Network.mem_upperSubnets_iff hlt hle).2 ⟨hmem, hfirst ▸ horigin⟩) hclear ?_⟩
    intro x hx hxclear
    obtain ⟨hxfree, hxfirst⟩ := hfree x hx hxclear
    obtain ⟨c', hscan', hc'⟩ := BlockSearch.scan_complete hs hxfree hxfirst
    cases hscan.symm.trans hscan'
    exact hfirst.trans_le hc'
  · intro hscan
    rw [List.find?_eq_none]
    intro x hx hxclear
    obtain ⟨hxfree, hxfirst⟩ := hfree x hx hxclear
    obtain ⟨c', hscan', -⟩ := BlockSearch.scan_complete hs hxfree hxfirst
    cases hscan.symm.trans hscan'

/-- Where no block from number `k` on is clear, a scan from the parent's start answers the first clear block
before it. -/
theorem scan_lower (hupper : (parent.upperSubnets length k).find? (index.isClear parent) = none) :
    s.answer (s.scan parent.first) =
      match (parent.lowerSubnets length k).find? (index.isClear parent) with
      | some block => .ok block
      | none => .error (.exhausted parent.truncate.text length) := by
  obtain ⟨⟨hlt, hle⟩, -⟩ := BlockSearch.start_eq_ok_iff.1 hs
  have hbefore : ∀ block, index.IsFreeBlock parent length block → block ∈ parent.lowerSubnets length k := by
    intro block hfree
    obtain ⟨hmem, hclear⟩ := (isFreeBlock_iff_mem hlt hle).1 hfree
    refine (Network.mem_lowerSubnets_iff hlt hle).2 ⟨hmem, Nat.lt_of_not_le fun hfirst => ?_⟩
    exact List.find?_eq_none.1 hupper block ((Network.mem_upperSubnets_iff hlt hle).2 ⟨hmem, hfirst⟩) hclear
  rw [← findFree_of_start hs]
  cases hanswer : index.findFree parent length with
  | ok block =>
    have hfree : index.IsFreeBlock parent length block := by
      have houtcome := index.findFree_outcome parent length
      rw [hanswer] at houtcome
      cases houtcome with
      | found _ hfree => exact hfree
    have hfind : (parent.lowerSubnets length k).find? (index.isClear parent) = some block := by
      refine Network.find?_eq_some_of_least (Network.pairwise_lowerSubnets hlt hle k)
        (hbefore block hfree) hfree.clear fun x hx hxclear => findFree_least hanswer ?_
      exact (isFreeBlock_iff_mem hlt hle).2 ⟨((Network.mem_lowerSubnets_iff hlt hle).1 hx).1, hxclear⟩
    rw [hfind]
  | error e =>
    have houtcome := index.findFree_outcome parent length
    rw [hanswer] at houtcome
    cases houtcome with
    | refused h => omega
    | full _ _ hnone =>
      have hfind : (parent.lowerSubnets length k).find? (index.isClear parent) = none := by
        rw [List.find?_eq_none]
        intro x hx hxclear
        exact hnone x ((isFreeBlock_iff_mem hlt hle).2
          ⟨((Network.mem_lowerSubnets_iff hlt hle).1 hx).1, hxclear⟩)
      rw [hfind]

/-- Two scans make one walk in a cycle. -/
theorem answer_eq_walkFrom (hseed : seed < powTwo 128) :
    s.answer ((s.scan (s.origin seed)).or (s.scan parent.first)) =
      match index.walkFrom parent length (seed % powTwo (length - parent.length)) with
      | some block => .ok block
      | none => .error (.exhausted parent.truncate.text length) := by
  rw [walkFrom_eq_or (Nat.le_of_lt (Nat.mod_lt _ (powTwo_pos _))), BlockSearch.origin_eq hs hseed]
  obtain ⟨hsome, hnone⟩ := scan_upper hs (k := seed % powTwo (length - parent.length))
  cases hscan : s.scan (parent.first
      + seed % powTwo (length - parent.length) * powTwo (parent.family.width - length)) with
  | some c =>
    obtain ⟨block, hblock, hfind⟩ := hsome c hscan
    rw [hfind, Option.some_or, Option.some_or]
    exact hblock
  | none =>
    have hupper := hnone hscan
    rw [hupper, Option.none_or, Option.none_or]
    exact scan_lower hs hupper

end

/-- When one search for a block fails, every search for it fails in the same way. -/
theorem SearchOutcome.eq_error {e : RegistryError} {answer : Except RegistryError Network}
    (h : SearchOutcome index parent length (.error e)) (h' : SearchOutcome index parent length answer) :
    answer = .error e := by
  cases h with
  | refused h =>
    cases h' with
    | refused _ => rfl
    | found hlt hfree =>
      rename_i block
      obtain ⟨hfam, -, -⟩ := Network.contains_iff.1 hfree.inside
      have hle : length ≤ parent.family.width := hfree.length_eq ▸ hfam ▸ block.length_le
      omega
    | full hlt hle _ => omega
  | full hlt hle hnone =>
    cases h' with
    | refused h => omega
    | found _ hfree => exact absurd hfree (hnone _)
    | full _ _ _ => rfl

/-- **A seeded search is a walk in a cycle.** It answers the first block of the parent that overlaps no route
but those equal to the parent or around it, visiting the blocks from the one whose number is the seed modulo
the number of blocks to the last one and then from the first one on. It succeeds exactly when the search
from the first block does, and fails with the same error otherwise. -/
theorem findFreeFrom_eq_walkFrom (index : RouteIndex) (parent : Network) (length : Nat) (seed : UInt64) :
    (index.findFreeFrom parent length seed.toNat =
      if length ≤ parent.length ∨ parent.family.width < length then
        .error (.invalidInput (.cannotCarve length parent.truncate))
      else
        match index.walkFrom parent length (seed.toNat % powTwo (length - parent.length)) with
        | some block => .ok block
        | none => .error (.exhausted parent.truncate.text length)) ∧
    ((∃ block, index.findFreeFrom parent length seed.toNat = .ok block) ↔
      ∃ block, index.findFree parent length = .ok block) ∧
    ∀ e, index.findFreeFrom parent length seed.toNat = .error e ↔ index.findFree parent length = .error e := by
  have hseed : seed.toNat < powTwo 128 :=
    seed.toNat_lt.trans_le (Nat.pow_le_pow_right Nat.two_pos (by decide))
  -- both searches end as `SearchOutcome` says, and of its cases only one can hold for an index and a length
  have hfails : ∀ e, index.findFreeFrom parent length seed.toNat = .error e ↔
      index.findFree parent length = .error e := by
    have hfrom := index.findFreeFrom_outcome parent length seed.toNat
    have hfirst := index.findFree_outcome parent length
    intro e
    constructor
    · intro h
      rw [h] at hfrom
      exact hfrom.eq_error hfirst
    · intro h
      rw [h] at hfirst
      exact hfirst.eq_error hfrom
  refine ⟨?_, ?_, hfails⟩
  · cases hs : BlockSearch.start index parent length with
    | error e =>
      obtain ⟨hlength, rfl⟩ := BlockSearch.start_eq_error_iff.1 hs
      rw [if_pos hlength]
      unfold findFreeFrom
      rw [hs]
      rfl
    | ok s =>
      obtain ⟨⟨hlt, hle⟩, hs'⟩ := BlockSearch.start_eq_ok_iff.1 hs
      have hfirst : s.parent.first = parent.first := by rw [hs', Network.truncate_first]
      rw [if_neg (by omega), ← answer_eq_walkFrom hs hseed, ← hfirst]
      unfold findFreeFrom
      rw [hs]
      rfl
  · cases hfrom : index.findFreeFrom parent length seed.toNat with
    | ok block =>
      refine iff_of_true ⟨block, rfl⟩ ?_
      cases hfree : index.findFree parent length with
      | ok block' => exact ⟨block', rfl⟩
      | error e =>
        rw [(hfails e).2 hfree] at hfrom
        cases hfrom
    | error e =>
      rw [(hfails e).1 hfrom]

end RouteIndex

end AddressRegistry
