import AddressRegistry.Proofs.Outcome
import AddressRegistry.Proofs.Route.Cycle

/-!
# The search stays in the address space

A search adds and multiplies addresses, at the top of the IPv6 space too, and everything that it works out is an
address or the size of a block. `BlockSearch.trail` tells how a scan goes: the cursors at which it stands, and
the checked operation at which it gives up if it does. It is the scan itself, told in full (`scan_eq_trail`).

The size of a block divides the size of the address space, so a block that starts at a block boundary below the
end also ends below it (`fits_of_dvd`). The walk only ever stands at such boundaries (`trailSound_passTrail`),
hence the sum for the last address of a block never gives up. What may give up is a step behind a blocker, and
rounding up afterwards; then no free block is left from the starting point on, since a scan that meets one finds
it or an earlier one. The starting points are block boundaries of the parent, so neither rounding them up nor
the checked product and sum behind them give up. All in all see `search_stays_in_space`.
-/

namespace AddressRegistry

namespace BlockSearch

/-! ## How a scan goes -/

/-- The checked operations of a scan. -/
inductive Checked where
  /-- Rounding the starting point up to a block boundary. -/
  | alignOrigin
  /-- The sum for the last address of the block at the cursor. -/
  | top
  /-- The step behind a blocker. -/
  | behind
  /-- Rounding the address behind a blocker up to a block boundary. -/
  | alignBehind
deriving DecidableEq

/-- The cursors at which a scan stands, one after the other, and what it comes to or where it gives up. -/
structure Trail (α : Type) where
  cursors : List Nat
  ending : Except Checked α

/-- The trail from a cursor one step before. -/
def Trail.after {α : Type} (cursor : Nat) (t : Trail α) : Trail α := { t with cursors := cursor :: t.cursors }

/-- How the walk past the blockers goes from a cursor. -/
def passTrail (size : Nat) : (cursor : Nat) → List Interval → Trail Nat
  | cursor, [] => ⟨[cursor], .ok cursor⟩
  | cursor, b :: rest =>
    if b.last < cursor then
      passTrail size cursor rest
    else
      match AddressSpace.add? cursor (size - 1) with
      | none => ⟨[cursor], .error .top⟩
      | some top =>
        if top < b.first then
          ⟨[cursor], .ok cursor⟩
        else
          match AddressSpace.add? b.last 1 with
          | none => ⟨[cursor], .error .behind⟩
          | some behind =>
            match AddressSpace.alignUp? behind size with
            | none => ⟨[cursor], .error .alignBehind⟩
            | some next => (passTrail size next rest).after cursor

/-- What a scan comes to at its last cursor: the cursor if the block there ends inside the parent. -/
def conclude (s : BlockSearch) (cursor : Nat) : Except Checked (Option Nat) :=
  match AddressSpace.add? cursor (s.size - 1) with
  | none => .error .top
  | some top => .ok (if top ≤ s.parent.last then some cursor else none)

/-- How a scan goes from a starting point. -/
def trail (s : BlockSearch) (origin : Nat) : Trail (Option Nat) :=
  match AddressSpace.alignUp? origin s.size with
  | none => ⟨[], .error .alignOrigin⟩
  | some cursor =>
    ⟨(passTrail s.size cursor s.blockers).cursors,
      (passTrail s.size cursor s.blockers).ending >>= s.conclude⟩

/-- The walk past blockers answers what its trail ends in. -/
theorem passBlockers_eq_passTrail (size cursor : Nat) (l : List Interval) :
    passBlockers size cursor l = (passTrail size cursor l).ending.toOption := by
  induction l generalizing cursor with
  | nil => rfl
  | cons b rest ih =>
    unfold passBlockers passTrail
    split
    · exact ih cursor
    · cases AddressSpace.add? cursor (size - 1) with
      | none => rfl
      | some top =>
        dsimp only
        split
        · rfl
        · cases AddressSpace.add? b.last 1 with
          | none => rfl
          | some behind =>
            dsimp only [Option.bind_some]
            cases AddressSpace.alignUp? behind size with
            | none => rfl
            | some next => exact ih next

/-- The trail tells the scan. -/
theorem scan_eq_trail (s : BlockSearch) (origin : Nat) :
    s.scan origin = (s.trail origin).ending.toOption.join := by
  unfold scan trail
  cases AddressSpace.alignUp? origin s.size with
  | none => rfl
  | some cursor =>
    show (passBlockers s.size cursor s.blockers >>= _) = _
    rw [passBlockers_eq_passTrail]
    dsimp only
    cases (passTrail s.size cursor s.blockers).ending with
    | error op => rfl
    | ok c =>
      show (AddressSpace.add? c (s.size - 1) >>= _) = (s.conclude c).toOption.join
      unfold conclude
      cases AddressSpace.add? c (s.size - 1) <;> rfl

/-! ## Blocks fit into the address space -/

/-- A block boundary whose block ends in the address space. -/
structure Fits (size c : Nat) : Prop where
  aligned : size ∣ c
  top_lt : c + (size - 1) < AddressSpace.bound

section

variable {size cursor c : Nat}

/-- A block at a block boundary below the end of the address space ends within it, since the space is a
multiple of the block's size. -/
theorem fits_of_dvd (hspace : size ∣ AddressSpace.bound) (hc : size ∣ c) (hlt : c < AddressSpace.bound) :
    Fits size c :=
  ⟨hc, aligned_last_lt hspace hc hlt⟩

/-- The sum for the last address of a block that fits does not give up. -/
theorem Fits.add?_eq (h : Fits size c) : AddressSpace.add? c (size - 1) = some (c + (size - 1)) :=
  AddressSpace.add?_eq_some_iff.2 ⟨h.top_lt, rfl⟩

/-- Rounding up ends at a block boundary in the address space, or gives up. -/
theorem fits_of_alignUp? (hspace : size ∣ AddressSpace.bound) {value : Nat}
    (hvalue : value < AddressSpace.bound) (h : AddressSpace.alignUp? value size = some c) : Fits size c := by
  have hpos : 0 < size := Nat.pos_of_dvd_of_pos hspace (powTwo_pos _)
  refine fits_of_dvd hspace (AddressSpace.alignUp?_sound hpos h).2 ?_
  unfold AddressSpace.alignUp? at h
  split at h
  · cases h
    exact hvalue
  · obtain ⟨hlt, rfl⟩ := AddressSpace.add?_eq_some_iff.1 h
    exact hlt

/-- Rounding a block boundary up leaves it where it is, so it does not give up either. -/
theorem alignUp?_of_dvd (h : size ∣ c) : AddressSpace.alignUp? c size = some c :=
  if_pos (Nat.mod_eq_zero_of_dvd h)

/-- What is true of every walk past blockers: it stands at block boundaries in the address space, ends at one
of them, and gives up only behind a blocker. -/
structure TrailSound (size : Nat) (t : Trail Nat) : Prop where
  fits : ∀ c ∈ t.cursors, Fits size c
  ends : ∀ c, t.ending = .ok c → c ∈ t.cursors
  gaveUp : ∀ op, t.ending = .error op → op = .behind ∨ op = .alignBehind

/-- The walk past blockers stands at cursors whose block fits, and a sum or rounding gives up only behind a
blocker. The induction is on the blockers; a step behind one lands on a boundary again, which fits by
`fits_of_dvd`. -/
theorem trailSound_passTrail (hspace : size ∣ AddressSpace.bound) (hcursor : Fits size cursor)
    (l : List Interval) : TrailSound size (passTrail size cursor l) := by
  have hstand : ∀ c ∈ [cursor], Fits size c := fun c hc => List.mem_singleton.1 hc ▸ hcursor
  induction l generalizing cursor with
  | nil =>
    refine ⟨hstand, fun c hc => ?_, nofun⟩
    cases hc
    exact List.mem_singleton_self _
  | cons b rest ih =>
    unfold passTrail
    split
    · exact ih hcursor hstand
    · rw [hcursor.add?_eq]
      dsimp only
      split
      · refine ⟨hstand, fun c hc => ?_, nofun⟩
        cases hc
        exact List.mem_singleton_self _
      · cases hbehind : AddressSpace.add? b.last 1 with
        | none => exact ⟨hstand, nofun, fun op hop => Or.inl (Except.error.inj hop).symm⟩
        | some behind =>
          dsimp only
          cases halign : AddressSpace.alignUp? behind size with
          | none => exact ⟨hstand, nofun, fun op hop => Or.inr (Except.error.inj hop).symm⟩
          | some next =>
            obtain ⟨hlt, rfl⟩ := AddressSpace.add?_eq_some_iff.1 hbehind
            have hnext : Fits size next := fits_of_alignUp? hspace hlt halign
            have hrest := ih hnext fun c hc => List.mem_singleton.1 hc ▸ hnext
            refine ⟨List.forall_mem_cons.2 ⟨hcursor, hrest.fits⟩, fun c hc => ?_, hrest.gaveUp⟩
            exact List.mem_cons_of_mem _ (hrest.ends c hc)

end

/-! ## A prepared search -/

section

variable {index : RouteIndex} {parent : Network} {length origin c seed : Nat} {s : BlockSearch}
variable (hs : start index parent length = .ok s)
include hs

/-- The size of a block divides the size of the address space. -/
theorem size_dvd_bound : s.size ∣ AddressSpace.bound := by
  rw [size_eq hs]
  exact powTwo_dvd_powTwo ((Nat.sub_le _ _).trans parent.family.width_le)

/-- A block is strictly smaller than its parent, so its size is an address even where the parent is
everything. -/
theorem size_lt_bound : s.size < AddressSpace.bound := by
  obtain ⟨⟨hlt, hle⟩, -⟩ := start_eq_ok_iff.1 hs
  have hwidth := parent.family.width_le
  rw [size_eq hs]
  exact Nat.pow_lt_pow_right Nat.one_lt_two (by omega)

/-- A scan stands at block boundaries in the address space. The sum for the last address of a block never gives
up, and rounding the starting point up does not when it is a block boundary. -/
theorem trail_cases (horigin : origin < AddressSpace.bound) :
    (∀ c ∈ (s.trail origin).cursors, Fits s.size c) ∧
      ∀ op, (s.trail origin).ending = .error op →
        op ≠ .top ∧ (s.size ∣ origin → op ≠ .alignOrigin) := by
  have hspace := size_dvd_bound hs
  unfold trail
  cases halign : AddressSpace.alignUp? origin s.size with
  | none =>
    refine ⟨nofun, fun op hop => ?_⟩
    cases hop
    refine ⟨nofun, fun haligned => ?_⟩
    rw [alignUp?_of_dvd haligned] at halign
    cases halign
  | some cursor =>
    have hsound := trailSound_passTrail hspace (fits_of_alignUp? hspace horigin halign) s.blockers
    refine ⟨hsound.fits, fun op hop => ?_⟩
    rcases Except.bind_eq_error_iff.1 hop with hpass | ⟨c, hpass, hconclude⟩
    · rcases hsound.gaveUp op hpass with rfl | rfl
      · exact ⟨nofun, fun _ => nofun⟩
      · exact ⟨nofun, fun _ => nofun⟩
    · -- The last cursor is one of those at which the walk stood.
      unfold conclude at hconclude
      rw [(hsound.fits c (hsound.ends c hpass)).add?_eq] at hconclude
      cases hconclude

/-- Where a scan gives up, no free block starts at or after its starting point. -/
theorem first_lt_of_scan_eq_none (h : s.scan origin = none) {block : Network}
    (hfree : index.IsFreeBlock parent length block) : block.first < origin := by
  refine Nat.lt_of_not_le fun hle => ?_
  obtain ⟨c, hscan, -⟩ := scan_complete hs hfree hle
  rw [h] at hscan
  cases hscan

/-- The size of a block divides the first address of its parent, the parent being larger. -/
theorem size_dvd_first : s.size ∣ parent.first := by
  obtain ⟨⟨hlt, hle⟩, -⟩ := start_eq_ok_iff.1 hs
  rw [size_eq hs]
  exact Network.powTwo_dvd_first hlt hle

end

/-- **The search stays in the address space.** Take any search that is accepted and any seed of 64 bits. The
lengths are in order, and the size of a block is positive and below 2^128. Wherever a scan starts in the address
space, it only stands at block boundaries whose blocks end in the address space; when it gives up at a checked
operation, this is not the sum for the last address of a block, nor the rounding of a starting point at a block
boundary, and no free block starts at or after its starting point. What a scan finds is an address of the family
and the first address of a block. The block that the seed selects lies inside the parent, so the checked product
and sum for its first address never give up, and the search starts there, as it starts at the parent's first
address, at a block boundary. -/
theorem search_stays_in_space (index : RouteIndex) (parent : Network) (length : Nat) (seed : UInt64)
    (s : BlockSearch) (hs : start index parent length = .ok s) :
    ((s.parent.length < s.length ∧ s.length ≤ s.parent.family.width) ∧
      0 < s.size ∧ s.size < AddressSpace.bound) ∧
    (∀ origin < AddressSpace.bound,
      s.scan origin = (s.trail origin).ending.toOption.join ∧
      (∀ c ∈ (s.trail origin).cursors, s.size ∣ c ∧ c + (s.size - 1) < AddressSpace.bound) ∧
      ∀ op, (s.trail origin).ending = .error op →
        (op ≠ .top ∧ (s.size ∣ origin → op ≠ .alignOrigin)) ∧
        ∀ block, index.IsFreeBlock parent length block → block.first < origin) ∧
    (∀ origin c, s.scan origin = some c →
      c < powTwo s.parent.family.width ∧ ∃ block, s.blockAt c = .ok block ∧ block.first = c) ∧
    (s.parent.first + s.slot seed.toNat * s.size + (s.size - 1) ≤ s.parent.last ∧
      s.parent.last < AddressSpace.bound) ∧
    ((AddressSpace.mul? (s.slot seed.toNat) s.size).bind (AddressSpace.add? s.parent.first ·)
        = some (s.parent.first + s.slot seed.toNat * s.size) ∧
      s.origin seed.toNat = s.parent.first + s.slot seed.toNat * s.size) ∧
    (s.size ∣ s.parent.first ∧ s.size ∣ s.origin seed.toNat) := by
  have hseed : seed.toNat < powTwo 128 :=
    seed.toNat_lt.trans_le (Nat.pow_le_pow_right Nat.two_pos (by decide))
  obtain ⟨hlength, hs'⟩ := start_eq_ok_iff.1 hs
  have hfirst : s.parent.first = parent.first := parent_first_eq hs
  have hlast : s.parent.last = parent.last := by rw [hs', Network.truncate_last]
  have hchecked := checkedOrigin_eq hs hseed
  have horigin : s.origin seed.toNat = parent.first + s.slot seed.toNat * s.size := by
    unfold origin
    rw [hchecked, Option.getD_some]
  refine ⟨⟨by rw [hs']; exact hlength, s.size_pos, size_lt_bound hs⟩, fun origin hlt => ?_,
    fun origin c hscan => ?_, ?_, ?_, ?_⟩
  · obtain ⟨hfits, hgaveUp⟩ := trail_cases hs hlt
    refine ⟨s.scan_eq_trail origin, fun c hc => ⟨(hfits c hc).aligned, (hfits c hc).top_lt⟩, fun op hop => ?_⟩
    have hnone : s.scan origin = none := by
      rw [scan_eq_trail, hop]
      rfl
    exact ⟨hgaveUp op hop, fun block hfree => first_lt_of_scan_eq_none hs hnone hfree⟩
  · obtain ⟨block, hblock, -, hfam, -, hstart, hend⟩ := exists_blockAt hs hscan
    refine ⟨?_, block, hblock, hstart⟩
    have hfamily : s.parent.family = parent.family := by rw [hs', Network.truncate_family]
    rw [← hstart, hfamily]
    exact (block.first_le_last.trans hend).trans_lt parent.last_lt
  · rw [hfirst, hlast]
    exact ⟨top_of_slot_le hs hseed, parent.last_lt_bound⟩
  · rw [hfirst] at hchecked ⊢
    exact ⟨hchecked, horigin⟩
  · rw [hfirst, horigin]
    exact ⟨size_dvd_first hs, Nat.dvd_add (size_dvd_first hs) (Nat.dvd_mul_left _ _)⟩

end BlockSearch

namespace Sample

/-- The last four addresses of the IPv6 space. -/
def summit : Network := ⟨.ipv6, 0xfffffffffffffffffffffffffffffffc, 126, by decide, by decide⟩

/-- The index with a route for them and one for each half. -/
def summitTaken : RouteIndex :=
  ⟨.ofList [(summit, .empty), (⟨.ipv6, 0xfffffffffffffffffffffffffffffffc, 127, by decide, by decide⟩, .empty),
    (⟨.ipv6, 0xfffffffffffffffffffffffffffffffe, 127, by decide, by decide⟩, .empty)], by decide⟩

/-- The search for a single address among them. -/
def summitSearch : BlockSearch := ⟨summit, 128, summitTaken.blockers summit⟩

end Sample

/-- Behind the last blocker there is no address, and no block is free. -/
theorem BlockSearch.search_stays_in_space_summit :
    start Sample.summitTaken Sample.summit 128 = .ok Sample.summitSearch ∧
      Sample.summit.first < AddressSpace.bound ∧
      (Sample.summitSearch.trail Sample.summit.first).ending = .error .behind ∧
      ∀ block, Sample.summitTaken.IsFreeBlock Sample.summit 128 block → block.first < Sample.summit.first := by
  have hcanonical : Sample.summit.IsCanonical := by decide +kernel
  have hstart : start Sample.summitTaken Sample.summit 128 = .ok Sample.summitSearch :=
    start_eq_ok_iff.2 ⟨by decide, by rw [hcanonical]; rfl⟩
  have hbound : Sample.summit.first < AddressSpace.bound := by decide +kernel
  have hgaveUp : (Sample.summitSearch.trail Sample.summit.first).ending = .error .behind := by decide +kernel
  obtain ⟨-, hscan, -⟩ := search_stays_in_space Sample.summitTaken Sample.summit 128 0 _ hstart
  exact ⟨hstart, hbound, hgaveUp, ((hscan _ hbound).2.2 _ hgaveUp).2⟩

end AddressRegistry
