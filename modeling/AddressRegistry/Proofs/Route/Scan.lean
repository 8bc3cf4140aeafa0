import AddressRegistry.Proofs.Route.FreeBlock

/-!
# The search finds the least free block

`BlockSearch.scan` passes over the sorted blockers once, with a cursor on block boundaries. What it
answers is a free block (`scan_sound`), and it answers one whenever there is one at or after its
starting point, and none beyond that one (`scan_complete`). Both follow from an induction over the
blockers that are left: the cursor has all passed blockers behind it, and it never jumps over an aligned
block that avoids all blockers. Checked sums give up only past the last block.
-/

namespace AddressRegistry

/-! ## Checked arithmetic -/

namespace AddressSpace

variable {a b c d size value : Nat}

/-- A checked sum is the sum, below the bound. -/
theorem add?_eq_some_iff : add? a b = some c ↔ a + b < bound ∧ c = a + b := by
  unfold add?
  split <;> simp_all [eq_comm]

/-- Rounding up answers a multiple of the size that is no smaller. -/
theorem alignUp?_sound (hsize : 0 < size) (h : alignUp? value size = some c) :
    value ≤ c ∧ size ∣ c := by
  unfold alignUp? at h
  split at h
  · rename_i hmod
    cases h
    exact ⟨le_rfl, Nat.dvd_of_mod_eq_zero hmod⟩
  · obtain ⟨-, rfl⟩ := add?_eq_some_iff.1 h
    refine ⟨Nat.le_add_right _ _, ?_⟩
    have hlt := Nat.mod_lt value hsize
    have hsplit := Nat.div_add_mod value size
    have : value + (size - value % size) = size * (value / size) + size := by omega
    rw [this]
    exact Nat.dvd_add (Nat.dvd_mul_right _ _) (Nat.dvd_refl _)

/-- Rounding up meets no aligned address on its way. -/
theorem alignUp?_complete (hsize : 0 < size) (hd : size ∣ d) (hle : value ≤ d) (hbound : d < bound) :
    ∃ c, alignUp? value size = some c ∧ c ≤ d := by
  unfold alignUp?
  split
  · exact ⟨value, rfl, hle⟩
  · rename_i hmod
    have hlt := Nat.mod_lt value hsize
    have hsplit := Nat.div_add_mod value size
    have hnext : size * (value / size) + size ≤ d := by
      refine Nat.le_of_lt_add_of_dvd (n := size) ?_ ?_ hd
      · omega
      · exact Nat.dvd_add (Nat.dvd_mul_right _ _) (Nat.dvd_refl _)
    have hsum : value + (size - value % size) ≤ d := by omega
    exact ⟨_, add?_eq_some_iff.2 ⟨hsum.trans_lt hbound, rfl⟩, hsum⟩

end AddressSpace

/-- The addresses of both families are numbers of the address space. -/
theorem Network.last_lt_bound (n : Network) : n.last < AddressSpace.bound :=
  n.last_lt.trans_le (Nat.pow_le_pow_right Nat.two_pos n.family.width_le)

namespace BlockSearch

/-! ## Passing the blockers -/

section pass

variable {size cursor c d : Nat} {l : List Interval}

/-- The cursor only moves forward, to a block that avoids every blocker. -/
theorem passBlockers_sound (hsize : 0 < size) (hl : l.Pairwise fun x y => x.first ≤ y.first)
    (hcursor : size ∣ cursor) (h : passBlockers size cursor l = some c) :
    cursor ≤ c ∧ size ∣ c ∧ ∀ b ∈ l, b.Avoids c size := by
  induction l generalizing cursor with
  | nil =>
    cases h
    exact ⟨le_rfl, hcursor, by simp⟩
  | cons b rest ih =>
    obtain ⟨hhead, hrest⟩ := List.pairwise_cons.1 hl
    unfold passBlockers at h
    split at h
    · rename_i hbehind
      obtain ⟨hle, hdvd, havoid⟩ := ih hrest hcursor h
      refine ⟨hle, hdvd, List.forall_mem_cons.2 ⟨?_, havoid⟩⟩
      exact Or.inl (hbehind.trans_le hle)
    · split at h
      · cases h
      · rename_i top htop
        obtain ⟨-, rfl⟩ := AddressSpace.add?_eq_some_iff.1 htop
        split at h
        · -- The block fits before this blocker, and the others start no earlier.
          rename_i hfits
          cases h
          refine ⟨le_rfl, hcursor, List.forall_mem_cons.2 ⟨Or.inr hfits, fun x hx => ?_⟩⟩
          exact Or.inr (hfits.trans_le (hhead x hx))
        · split at h
          · cases h
          · rename_i next hnext
            obtain ⟨succ, hsucc, halign⟩ := Option.bind_eq_some_iff.1 hnext
            obtain ⟨-, rfl⟩ := AddressSpace.add?_eq_some_iff.1 hsucc
            obtain ⟨hge, hdvd⟩ := AddressSpace.alignUp?_sound hsize halign
            obtain ⟨hle, hdvd', havoid⟩ := ih hrest hdvd h
            refine ⟨by omega, hdvd', List.forall_mem_cons.2 ⟨?_, havoid⟩⟩
            exact Or.inl (by omega)

/-- The cursor does not jump over an aligned block that avoids every blocker. -/
theorem passBlockers_complete (hsize : 0 < size) (hd : size ∣ d) (hle : cursor ≤ d)
    (hbound : d + (size - 1) < AddressSpace.bound) (havoid : ∀ b ∈ l, b.Avoids d size) :
    ∃ c, passBlockers size cursor l = some c ∧ c ≤ d := by
  induction l generalizing cursor with
  | nil => exact ⟨cursor, rfl, hle⟩
  | cons b rest ih =>
    obtain ⟨hb, hrest⟩ := List.forall_mem_cons.1 havoid
    unfold passBlockers
    split
    · exact ih hle hrest
    · rw [AddressSpace.add?_eq_some_iff.2 ⟨by omega, rfl⟩]
      dsimp only
      split
      · exact ⟨cursor, rfl, hle⟩
      · -- The blocker meets the cursor's block, so it lies behind the later block.
        rename_i hmeet
        have hbehind : b.last + 1 ≤ d := by
          rcases hb with hb | hb <;> omega
        obtain ⟨next, halign, hnext⟩ :=
          AddressSpace.alignUp?_complete hsize hd hbehind (by omega)
        have hsucc : AddressSpace.add? b.last 1 = some (b.last + 1) :=
          AddressSpace.add?_eq_some_iff.2 ⟨by omega, rfl⟩
        rw [hsucc, Option.bind_some, halign]
        exact ih hnext hrest

end pass

/-! ## A prepared search -/

/-- A block has at least one address. -/
theorem size_pos (s : BlockSearch) : 0 < s.size := powTwo_pos _

section search

variable {index : RouteIndex} {parent block : Network} {length origin c : Nat} {s : BlockSearch}

/-- A search starts when the length lies between the parent's and the family's. -/
theorem start_eq_ok_iff :
    start index parent length = .ok s ↔
      (parent.length < length ∧ length ≤ parent.family.width) ∧
        s = ⟨parent.truncate, length, index.blockers parent.truncate⟩ := by
  rw [start]
  split <;> rename_i h <;> rw [Network.truncate_length, Network.truncate_family] at h
  · exact iff_of_false (by simp) (by omega)
  · rw [Except.ok.injEq, eq_comm]
    exact (and_iff_right (by omega)).symm

/-- A search refuses the other lengths, with the parent in its canonical form. -/
theorem start_eq_error_iff {e : RegistryError} :
    start index parent length = .error e ↔
      (length ≤ parent.length ∨ parent.family.width < length) ∧
        e = .invalidInput (.cannotCarve length parent.truncate) := by
  rw [start]
  split <;> rename_i h <;> rw [Network.truncate_length, Network.truncate_family] at h
  · rw [Except.error.injEq, eq_comm]
    exact (and_iff_right h).symm
  · exact iff_of_false (by simp) (fun hc => h hc.1)

/-- The size of the blocks that a search looks for. -/
theorem size_eq (hs : start index parent length = .ok s) :
    s.size = powTwo (parent.family.width - length) := by
  obtain ⟨-, rfl⟩ := start_eq_ok_iff.1 hs
  rfl

/-- A search goes through the parent with the bits beyond its length cleared, which has the same addresses. -/
theorem parent_first_eq (hs : start index parent length = .ok s) : s.parent.first = parent.first := by
  obtain ⟨-, rfl⟩ := start_eq_ok_iff.1 hs
  exact Network.truncate_first _

/-- What a scan does: it rounds its starting point up, passes the blockers, and looks whether the block ends
inside the parent. -/
theorem scan_eq_some_iff :
    s.scan origin = some c ↔
      ∃ cursor, AddressSpace.alignUp? origin s.size = some cursor ∧
        passBlockers s.size cursor s.blockers = some c ∧
          c + (s.size - 1) < AddressSpace.bound ∧ c + (s.size - 1) ≤ s.parent.last := by
  constructor
  · intro h
    obtain ⟨cursor, halign, h⟩ := Option.bind_eq_some_iff.1 h
    obtain ⟨c', hpass, h⟩ := Option.bind_eq_some_iff.1 h
    obtain ⟨top, htop, h⟩ := Option.bind_eq_some_iff.1 h
    obtain ⟨hbound, rfl⟩ := AddressSpace.add?_eq_some_iff.1 htop
    split at h
    · rename_i hlast
      cases h
      exact ⟨cursor, halign, hpass, hbound, hlast⟩
    · cases h
  · rintro ⟨cursor, halign, hpass, hbound, hlast⟩
    refine Option.bind_eq_some_iff.2 ⟨cursor, halign, Option.bind_eq_some_iff.2 ⟨c, hpass, ?_⟩⟩
    refine Option.bind_eq_some_iff.2 ⟨_, AddressSpace.add?_eq_some_iff.2 ⟨hbound, rfl⟩, ?_⟩
    exact if_pos hlast

/-- What a scan finds is the first address of a block that ends inside the parent. -/
theorem exists_blockAt (hs : start index parent length = .ok s) (h : s.scan origin = some c) :
    ∃ block, s.blockAt c = .ok block ∧ block.IsCanonical ∧ block.family = parent.family ∧
      block.length = length ∧ block.first = c ∧ block.last ≤ parent.last := by
  obtain ⟨⟨-, hwidth⟩, rfl⟩ := start_eq_ok_iff.1 hs
  obtain ⟨cursor, halign, hpass, -, htop⟩ := scan_eq_some_iff.1 h
  obtain ⟨-, hdvd⟩ := AddressSpace.alignUp?_sound (size_pos _) halign
  obtain ⟨-, hdvd, -⟩ := passBlockers_sound (size_pos _) (Interval.pairwise_sort _) hdvd hpass
  rw [Network.truncate_last] at htop
  have haddr : c < powTwo parent.family.width :=
    ((Nat.le_add_right _ _).trans htop).trans_lt parent.last_lt
  have hcanonical : (⟨parent.family, c, length, haddr, hwidth⟩ : Network).IsCanonical :=
    Network.isCanonical_of_dvd hdvd
  refine ⟨_, ?_, hcanonical, rfl, rfl, hcanonical.first_eq, ?_⟩
  · unfold blockAt Network.ofParts?
    rw [dif_pos ⟨haddr, hwidth⟩]
    rfl
  · unfold Network.last
    rw [hcanonical.first_eq]
    exact htop

/-- What a scan from inside the parent finds is a free block at or after its starting point. -/
theorem scan_sound (hs : start index parent length = .ok s) (horigin : parent.first ≤ origin)
    (h : s.scan origin = some c) :
    ∃ block, s.blockAt c = .ok block ∧ block.first = c ∧ origin ≤ c ∧
      index.IsFreeBlock parent length block := by
  obtain ⟨block, hblock, hcanonical, hfam, hlen, hfirst, hlast⟩ := exists_blockAt hs h
  obtain ⟨-, rfl⟩ := start_eq_ok_iff.1 hs
  obtain ⟨cursor, halign, hpass, -, -⟩ := scan_eq_some_iff.1 h
  obtain ⟨hge, hdvd⟩ := AddressSpace.alignUp?_sound (size_pos _) halign
  obtain ⟨hle, -, havoid⟩ :=
    passBlockers_sound (size_pos _) (Interval.pairwise_sort _) hdvd hpass
  have hinside : parent.contains block = true :=
    Network.contains_iff.2 ⟨hfam.symm, by omega, hlast⟩
  refine ⟨block, hblock, hfirst, hge.trans hle, hcanonical, hlen, hinside, ?_⟩
  rw [← RouteIndex.isClear_truncate_left]
  refine (RouteIndex.blockers_avoid_iff parent.truncate_isCanonical (by simpa using hinside)).1 ?_
  intro b hb
  unfold Network.last Network.size
  rw [hfirst, hfam, hlen]
  exact havoid b hb

/-- A scan finds a block no later than any free block behind its starting point. -/
theorem scan_complete (hs : start index parent length = .ok s)
    (hfree : index.IsFreeBlock parent length block) (horigin : origin ≤ block.first) :
    ∃ c, s.scan origin = some c ∧ c ≤ block.first := by
  obtain ⟨-, rfl⟩ := start_eq_ok_iff.1 hs
  obtain ⟨hfam, -, hlast⟩ := Network.contains_iff.1 hfree.inside
  have hsize : block.size = powTwo (parent.family.width - length) := by
    unfold Network.size
    rw [hfree.length_eq, hfam]
  have hlast' : block.first + (powTwo (parent.family.width - length) - 1) ≤ parent.last := by
    rw [← hsize]
    exact hlast
  have hbound := parent.last_lt_bound
  have hdvd : powTwo (parent.family.width - length) ∣ block.first := hsize ▸ block.size_dvd_first
  have havoid : ∀ b ∈ index.blockers parent.truncate,
      b.Avoids block.first (powTwo (parent.family.width - length)) := by
    intro b hb
    have := (RouteIndex.blockers_avoid_iff parent.truncate_isCanonical
      (by simpa using hfree.inside)).2 (by simpa using hfree.clear) b hb
    unfold Network.last at this
    rw [hsize] at this
    exact this
  obtain ⟨cursor, halign, hcursor⟩ :=
    AddressSpace.alignUp?_complete (powTwo_pos _) hdvd horigin (by omega)
  obtain ⟨c, hpass, hc⟩ :=
    passBlockers_complete (powTwo_pos _) hdvd hcursor (by omega) havoid
  refine ⟨c, scan_eq_some_iff.2 ⟨cursor, halign, hpass, ?_, ?_⟩, hc⟩
  · show c + (powTwo (parent.family.width - length) - 1) < AddressSpace.bound
    omega
  · show c + (powTwo (parent.family.width - length) - 1) ≤ parent.truncate.last
    rw [Network.truncate_last]
    omega

end search

end BlockSearch

end AddressRegistry
