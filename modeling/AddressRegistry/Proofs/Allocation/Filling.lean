import AddressRegistry.Proofs.Allocation.Registering
import AddressRegistry.Proofs.Route.Walk

/-!
# Filling a pool

Blocks are requested from a parent one after the other and each is added to the index (`RouteIndex.fill`).
What carries the run is the list of free blocks (`RouteIndex.freeBlocks`): a request takes one block off
this list, whatever the strategy and the identity (`freeBlocks_of_add`), so the blocks handed out and those
still free are together the ones free at the start (`fill_conserves`). The run stops only when the list is
empty (`fill_stops`). So it hands out all free blocks, each once, and every other run of enough requests
hands out the same (`fill_complete`).
-/

namespace AddressRegistry

/-- A request for a block: how to look for it, for whom, and the labels of its route. -/
structure Demand where
  strategy : Strategy
  identity : String
  labels : Labels

/-- How far a run of requests comes: the blocks handed out, the index after them, and what stopped it. -/
structure Filling where
  blocks : List Network
  index : RouteIndex
  failure? : Option RegistryError

namespace RouteIndex

variable {index changed : RouteIndex} {parent block : Network} {length : Nat} {labels : Labels}

/-- Find a block of a length inside a parent and add it. -/
def meet (index : RouteIndex) (parent : Network) (length : Nat) (d : Demand) :
    Except RegistryError (Network × RouteIndex) := do
  let block ← d.strategy.allocate index parent length d.identity
  let changed ← index.add block d.labels
  return (block, changed)

/-- Meet one request after the other, up to the first one that fails. -/
def fill (index : RouteIndex) (parent : Network) (length : Nat) : List Demand → Filling
  | [] => ⟨[], index, none⟩
  | d :: rest =>
    match index.meet parent length d with
    | .ok (block, changed) =>
      let run := changed.fill parent length rest
      { run with blocks := block :: run.blocks }
    | .error e => ⟨[], index, some e⟩

/-- The free blocks of a length inside a parent, by ascending address. -/
def freeBlocks (index : RouteIndex) (parent : Network) (length : Nat) : List Network :=
  (parent.subnets length).filter (index.isClear parent)

/-! ## The free blocks -/

/-- The list shows the blocks of the length that are free in the parent, and no others. -/
theorem mem_freeBlocks_iff (hlt : parent.length < length) (hle : length ≤ parent.family.width) :
    block ∈ index.freeBlocks parent length ↔ index.IsFreeBlock parent length block := by
  rw [isFreeBlock_iff_mem hlt hle, freeBlocks, List.mem_filter]

/-- The list shows no block twice. -/
theorem nodup_freeBlocks (hlt : parent.length < length) (hle : length ≤ parent.family.width) :
    (index.freeBlocks parent length).Nodup := by
  refine List.Pairwise.filter _ ((Network.pairwise_subnets hlt hle).imp ?_)
  rintro a b hab rfl
  exact absurd hab (Nat.lt_irrefl _)

/-- An added block has a route, beside those that were there. -/
theorem mem_networks_of_add (hcanonical : block.IsCanonical) (hadd : index.add block labels = .ok changed)
    {n : Network} : n ∈ changed.networks ↔ n = block ∨ n ∈ index.networks := by
  obtain ⟨-, hroutes⟩ := add_eq_ok_iff.1 hadd
  unfold networks
  rw [hroutes, hcanonical, SortedMap.mem_keys_insert]

/-- After an insertion a block is clear if it was before and does not meet the new route, which does not
lie around the parent. -/
theorem isClear_of_add {b : Network} (hcanonical : block.IsCanonical) (hlen : parent.length < block.length)
    (hadd : index.add block labels = .ok changed) :
    changed.isClear parent b = (index.isClear parent b && !block.overlaps b) := by
  have houtside : block.contains parent = false := by
    rw [Bool.eq_false_iff]
    intro h
    exact absurd (Network.length_le_of_contains h) (Nat.not_le.2 hlen)
  rw [Bool.eq_iff_iff, Bool.and_eq_true, isClear_iff, isClear_iff]
  simp [mem_networks_of_add hcanonical hadd, houtside, and_comm]

/-- Adding a free block takes it off the free blocks, and no other. -/
theorem freeBlocks_of_add (hlt : parent.length < length) (hle : length ≤ parent.family.width)
    (hfree : index.IsFreeBlock parent length block) (hadd : index.add block labels = .ok changed) :
    changed.freeBlocks parent length = (index.freeBlocks parent length).erase block := by
  rw [(nodup_freeBlocks hlt hle).erase_eq_filter, freeBlocks, freeBlocks, List.filter_filter]
  refine List.filter_congr fun b hb => ?_
  obtain ⟨hcanonical, hlen, -⟩ := (Network.mem_subnets_iff hlt hle).1 hb
  -- Blocks of one length meet only if they are the same.
  have hmeet : block.overlaps b = (b == block) := by
    rw [Bool.eq_iff_iff, beq_iff_eq]
    constructor
    · intro h
      exact (hfree.canonical.eq_of_overlaps hcanonical h (hfree.length_eq.trans hlen.symm)).symm
    · rintro rfl
      exact Network.overlaps_of_contains b.contains_refl
  rw [isClear_of_add hfree.canonical (hfree.length_eq ▸ hlt) hadd, hmeet, Bool.and_comm]
  rfl

/-! ## The run -/

/-- A request is met with a free block, which is added without a conflict; it fails only by exhaustion,
when no block is free. -/
theorem meet_cases (hlt : parent.length < length) (hle : length ≤ parent.family.width) (d : Demand) :
    (∃ block changed, index.meet parent length d = .ok (block, changed) ∧
      index.IsFreeBlock parent length block ∧ index.add block d.labels = .ok changed) ∨
    (index.meet parent length d = .error (.exhausted parent.truncate.text length) ∧
      index.freeBlocks parent length = []) := by
  have houtcome := allocate_outcome d.strategy index parent length d.identity
  unfold meet
  generalize d.strategy.allocate index parent length d.identity = answer at houtcome
  cases houtcome with
  | refused h => omega
  | @found block _ hfree =>
    obtain ⟨changed, hadd⟩ := hfree.exists_add hlt d.labels
    refine .inl ⟨block, changed, ?_, hfree, hadd⟩
    show (do let changed ← index.add block d.labels; pure (block, changed)) = _
    rw [hadd]
    rfl
  | full _ _ hnone =>
    refine .inr ⟨rfl, List.eq_nil_iff_forall_not_mem.2 fun block hmem => ?_⟩
    exact hnone block ((mem_freeBlocks_iff hlt hle).1 hmem)

/-- A request that is met hands its block out, and the rest of the run goes on from there. -/
theorem fill_of_ok {d : Demand} {rest : List Demand}
    (h : index.meet parent length d = .ok (block, changed)) :
    index.fill parent length (d :: rest) = { changed.fill parent length rest with
      blocks := block :: (changed.fill parent length rest).blocks } := by
  simp [fill, h]

/-- A request that is not met ends the run, with the blocks handed out so far. -/
theorem fill_of_error {d : Demand} {rest : List Demand} {e : RegistryError}
    (h : index.meet parent length d = .error e) :
    index.fill parent length (d :: rest) = ⟨[], index, some e⟩ := by
  simp [fill, h]

/-- The blocks handed out and those still free are together the ones free at the start. -/
theorem fill_conserves (hlt : parent.length < length) (hle : length ≤ parent.family.width)
    (demands : List Demand) (index : RouteIndex) :
    (index.freeBlocks parent length).Perm ((index.fill parent length demands).blocks ++
      (index.fill parent length demands).index.freeBlocks parent length) := by
  induction demands generalizing index with
  | nil => exact .refl _
  | cons d rest ih =>
    rcases meet_cases hlt hle d with ⟨block, changed, hmeet, hfree, hadd⟩ | ⟨hmeet, -⟩
    · have hrest := ih changed
      rw [freeBlocks_of_add hlt hle hfree hadd] at hrest
      rw [fill_of_ok hmeet]
      exact (List.perm_cons_erase ((mem_freeBlocks_iff hlt hle).2 hfree)).trans (hrest.cons block)
    · rw [fill_of_error hmeet]
      exact .refl _

/-- A run meets every request, or it stops at one with no free block left. -/
theorem fill_stops (hlt : parent.length < length) (hle : length ≤ parent.family.width)
    (demands : List Demand) (index : RouteIndex) :
    ((index.fill parent length demands).failure? = none ∧
      (index.fill parent length demands).blocks.length = demands.length) ∨
    ((index.fill parent length demands).failure? = some (.exhausted parent.truncate.text length) ∧
      (index.fill parent length demands).blocks.length < demands.length ∧
      (index.fill parent length demands).index.freeBlocks parent length = []) := by
  induction demands generalizing index with
  | nil => exact .inl ⟨rfl, rfl⟩
  | cons d rest ih =>
    rcases meet_cases hlt hle d with ⟨block, changed, hmeet, -, -⟩ | ⟨hmeet, hnone⟩
    · rw [fill_of_ok hmeet]
      simpa using ih changed
    · rw [fill_of_error hmeet]
      exact .inr ⟨rfl, Nat.succ_pos _, hnone⟩

/-- The networks of the index after a run are those before it and the blocks that it hands out. -/
theorem mem_networks_fill (hlt : parent.length < length) (hle : length ≤ parent.family.width)
    (demands : List Demand) (index : RouteIndex) (n : Network) :
    n ∈ (index.fill parent length demands).index.networks ↔
      n ∈ (index.fill parent length demands).blocks ∨ n ∈ index.networks := by
  induction demands generalizing index with
  | nil => simp [fill]
  | cons d rest ih =>
    rcases meet_cases hlt hle d with ⟨block, changed, hmeet, hfree, hadd⟩ | ⟨hmeet, -⟩
    · rw [fill_of_ok hmeet]
      simp [ih, mem_networks_of_add hfree.canonical hadd, or_left_comm, or_assoc]
    · rw [fill_of_error hmeet]
      simp

/-- A run with as many requests as free blocks leaves no block free. -/
theorem fill_perm_freeBlocks (hlt : parent.length < length) (hle : length ≤ parent.family.width)
    {demands : List Demand} (henough : (index.freeBlocks parent length).length ≤ demands.length) :
    (index.fill parent length demands).blocks.Perm (index.freeBlocks parent length) := by
  have hperm := fill_conserves hlt hle demands index
  have hcount := hperm.length_eq
  rw [List.length_append] at hcount
  have hnone : (index.fill parent length demands).index.freeBlocks parent length = [] := by
    rcases fill_stops hlt hle demands index with ⟨-, hall⟩ | ⟨-, -, hnone⟩
    · exact List.eq_nil_of_length_eq_zero (by omega)
    · exact hnone
  rw [hnone, List.append_nil] at hperm
  exact hperm.symm

/-- A run meets as many requests as there are free blocks, and a further one fails by exhaustion. -/
theorem fill_counts (hlt : parent.length < length) (hle : length ≤ parent.family.width)
    (demands : List Demand) (index : RouteIndex) :
    (index.fill parent length demands).blocks.length =
      min demands.length (index.freeBlocks parent length).length ∧
    (index.fill parent length demands).failure? =
      if (index.freeBlocks parent length).length < demands.length then
        some (.exhausted parent.truncate.text length) else none := by
  have hcount := (fill_conserves hlt hle demands index).length_eq
  rw [List.length_append] at hcount
  rcases fill_stops hlt hle demands index with ⟨hfailure, hall⟩ | ⟨hfailure, hfewer, hnone⟩
  · rw [hfailure, if_neg (by omega)]
    exact ⟨by omega, rfl⟩
  · rw [hnone, List.length_nil] at hcount
    rw [hfailure, if_pos (by omega)]
    exact ⟨by omega, rfl⟩

/-- **Filling is complete, and neither the strategy nor the identities matter.** Requests for blocks of a
valid length, each with its own strategy and identity, are met as long as a block is free: as many as were
free at the start, each with another of these blocks, and no insertion is a conflict. A further request
fails by exhaustion. Once there are as many requests as free blocks, all of them have been handed out, so
any two such runs hand out the same. -/
theorem fill_complete (index : RouteIndex) (hlt : parent.length < length)
    (hle : length ≤ parent.family.width) (demands : List Demand) :
    let run := index.fill parent length demands
    let free := index.freeBlocks parent length
    run.blocks.length = min demands.length free.length ∧
    run.failure? = (if free.length < demands.length then
      some (.exhausted parent.truncate.text length) else none) ∧
    run.blocks.Nodup ∧
    (∀ block ∈ run.blocks, index.IsFreeBlock parent length block) ∧
    (∀ n, n ∈ run.index.networks ↔ n ∈ run.blocks ∨ n ∈ index.networks) ∧
    (free.length ≤ demands.length →
      (∀ block, block ∈ run.blocks ↔ index.IsFreeBlock parent length block) ∧
      ∀ demands' : List Demand, free.length ≤ demands'.length →
        (index.fill parent length demands').blocks.Perm run.blocks) := by
  intro run free
  have hperm : free.Perm (run.blocks ++ run.index.freeBlocks parent length) :=
    fill_conserves hlt hle demands index
  have hdistinct : run.blocks.Nodup :=
    (List.nodup_append.1 (hperm.nodup (nodup_freeBlocks hlt hle))).1
  have hfree : ∀ block ∈ run.blocks, index.IsFreeBlock parent length block := by
    intro block hmem
    exact (mem_freeBlocks_iff hlt hle).1 (hperm.mem_iff.2 (List.mem_append_left _ hmem))
  obtain ⟨hlength, hfailure⟩ := fill_counts hlt hle demands index
  refine ⟨hlength, hfailure, hdistinct, hfree, mem_networks_fill hlt hle demands index, ?_⟩
  intro henough
  constructor
  · intro block
    rw [(fill_perm_freeBlocks hlt hle henough).mem_iff, mem_freeBlocks_iff hlt hle]
  · intro demands' henough'
    exact (fill_perm_freeBlocks hlt hle henough').trans (fill_perm_freeBlocks hlt hle henough).symm

end RouteIndex

/-- Five requests by both strategies, two of them for one claim. -/
def Sample.demands : List Demand :=
  [⟨.deterministic, "edge", .empty⟩, ⟨.firstAvailable, "core", .empty⟩,
    ⟨.deterministic, "edge", .empty⟩, ⟨.deterministic, "spine", .empty⟩,
    ⟨.firstAvailable, "leaf", .empty⟩]

/-- The network `10.0.0.0/30` has four addresses, so the fifth request for one fails. -/
theorem RouteIndex.fill_complete_quad :
    (Sample.index.fill Sample.network 32 Sample.demands).blocks.length = 4 ∧
      (Sample.index.fill Sample.network 32 Sample.demands).failure? =
        some (.exhausted "10.0.0.0/30" 32) := by
  have hfour : (Sample.index.freeBlocks Sample.network 32).length = 4 := by decide +kernel
  have htext : Sample.network.truncate.text = "10.0.0.0/30" := by decide +kernel
  have hlt : Sample.network.length < 32 := by decide
  have hle : 32 ≤ Sample.network.family.width := by decide
  obtain ⟨hlength, hfailure, -⟩ := fill_complete Sample.index hlt hle Sample.demands
  rw [hfour] at hlength hfailure
  rw [htext] at hfailure
  exact ⟨hlength, hfailure⟩

end AddressRegistry
