import AddressRegistry.Proofs.Route.Runs
import Mathlib.Data.List.Perm.Subperm

/-!
# Routes inside and around a network

Which routes lie inside a network and which around it is worked out from the networks at every call. This
file says that the listings are right about the addresses themselves: `RouteIndex.children` lists the routes
whose addresses are some but not all of the network's, `RouteIndex.parents` those that have all of the
network's addresses and more (`Network.inside_iff_contains`), so a route lies inside another exactly when that
one lies around it.

The routes around a network share its addresses, so of any two one contains the other, and an index lists the
containing one first: at the same first address it is the shorter one (`Network.Precedes.contains`). Hence they
come as a chain with growing lengths, and a network has no more of them than bits (`listings_follow_nesting`).
-/

namespace AddressRegistry

namespace Network

variable {a b n : Network}

/-! ## Addresses -/

/-- An address of a family is one of the network's. -/
def Has (n : Network) (family : Family) (address : Nat) : Prop :=
  n.family = family ∧ n.first ≤ address ∧ address ≤ n.last

/-- A network lies strictly inside another one: that one has all of its addresses, and more. -/
structure Inside (inner outer : Network) : Prop where
  among : ∀ family address, inner.Has family address → outer.Has family address
  more : ∃ family address, outer.Has family address ∧ ¬ inner.Has family address

/-- Containment is a matter of the addresses. -/
theorem contains_iff_among :
    a.contains b = true ↔ ∀ family address, b.Has family address → a.Has family address := by
  rw [contains_iff]
  constructor
  · rintro ⟨hfam, hfirst, hlast⟩ family address ⟨hb, hle, hge⟩
    exact ⟨hfam.trans hb, hfirst.trans hle, hge.trans hlast⟩
  · intro h
    -- The least and the greatest address of the inner network decide.
    obtain ⟨hfam, hfirst, -⟩ := h b.family b.first ⟨rfl, le_rfl, b.first_le_last⟩
    obtain ⟨-, -, hlast⟩ := h b.family b.last ⟨rfl, b.first_le_last, le_rfl⟩
    exact ⟨hfam, hfirst, hlast⟩

/-- A network is inside another when that one contains it and not the other way round. -/
theorem inside_iff_contains : b.Inside a ↔ a.contains b = true ∧ ¬ b.contains a = true := by
  rw [contains_iff_among, contains_iff_among]
  constructor
  · rintro ⟨hamong, family, address, ha, hb⟩
    exact ⟨hamong, fun h => hb (h family address ha)⟩
  · rintro ⟨hamong, hmore⟩
    simp only [not_forall, exists_prop] at hmore
    exact ⟨hamong, hmore⟩

instance (inner outer : Network) : Decidable (inner.Inside outer) :=
  decidable_of_iff' _ inside_iff_contains

/-- Host bits of the network outside do not matter. -/
theorem inside_truncate_right : b.Inside a.truncate ↔ b.Inside a := by
  simp [inside_iff_contains]

/-- Host bits of the network inside do not matter. -/
theorem inside_truncate_left : b.truncate.Inside a ↔ b.Inside a := by
  simp [inside_iff_contains]

/-- Among canonical networks the one that contains another and is not the same has more addresses. -/
theorem IsCanonical.inside_iff (ha : a.IsCanonical) (hb : b.IsCanonical) :
    b.Inside a ↔ b ≠ a ∧ a.contains b = true := by
  rw [inside_iff_contains, and_comm]
  refine and_congr_left fun hab => not_congr ⟨fun hba => hb.contains_antisymm ha hba hab, ?_⟩
  rintro rfl
  exact hab

/-- A network inside another is longer, so no chain of them has more members than bits. -/
theorem Inside.length_lt (h : b.Inside a) : a.length < b.length := by
  obtain ⟨hab, hba⟩ := inside_iff_contains.1 h
  refine Nat.lt_of_le_of_ne (length_le_of_contains hab) fun hlength => hba ?_
  have hmeet : b.overlaps a = true := by
    rw [overlaps_comm]
    exact overlaps_of_contains hab
  exact contains_of_overlaps_of_length_le hmeet hlength.ge

/-! ## Nesting and order -/

/-- Two networks around a third one share its addresses. -/
theorem overlaps_of_contains_both (ha : a.contains n = true) (hb : b.contains n = true) :
    a.overlaps b = true :=
  overlaps_of_contains_right (overlaps_of_contains ha) hb

/-- Of two nested networks the one that comes first in order is the outer one. -/
theorem Precedes.contains (ha : a.IsCanonical) (hb : b.IsCanonical) (h : a.Precedes b)
    (hmeet : a.overlaps b = true) : a.contains b = true := by
  rcases overlaps_iff.1 hmeet with hab | hba
  · exact hab
  · obtain ⟨hfam, hfirst, -⟩ := contains_iff.1 hba
    have hlength : b.length ≤ a.length := length_le_of_contains hba
    rw [ha.first_eq, hb.first_eq] at hfirst
    rcases h with ⟨ha4, hb6⟩ | ⟨-, haddress⟩
    · rw [ha4, hb6] at hfam
      cases hfam
    · omega

/-- What precedes a network is another network. -/
theorem Precedes.ne (h : a.Precedes b) : a ≠ b := by
  rintro rfl
  rcases h with ⟨h4, h6⟩ | ⟨-, h⟩
  · rw [h4] at h6
    cases h6
  · omega

end Network

namespace RouteIndex

variable {index : RouteIndex} {r r' : Route} {n : Network}

/-! ## The listings -/

/-- Routes of an index lie on canonical networks. -/
theorem isCanonical_of_mem_toList (h : r ∈ index.toList) : r.network.IsCanonical :=
  isCanonical_of_get? (mem_toList_iff.1 h)

/-- An index lists its routes in the order of their networks. -/
theorem pairwise_toList (index : RouteIndex) :
    index.toList.Pairwise fun r r' => r.network.Precedes r'.network :=
  List.pairwise_map.2 (index.routes.increasing.imp Network.compare_eq_lt_iff.1)

/-- The listing of children picks, from the sorted routes, those inside the network. -/
theorem children_eq_filter (index : RouteIndex) (n : Network) :
    index.children n = index.toList.filter fun r => r.network.Inside n.truncate := by
  refine List.filter_congr fun r hr => ?_
  rw [Bool.eq_iff_iff, decide_eq_true_iff, Bool.and_eq_true, bne_iff_ne,
    n.truncate_isCanonical.inside_iff (isCanonical_of_mem_toList hr)]

/-- The listing of parents picks, from the sorted routes, those around the network. -/
theorem parents_eq_filter (index : RouteIndex) (n : Network) :
    index.parents n = index.toList.filter fun r => n.truncate.Inside r.network := by
  refine List.filter_congr fun r hr => ?_
  rw [Bool.eq_iff_iff, decide_eq_true_iff, Bool.and_eq_true, bne_iff_ne,
    (isCanonical_of_mem_toList hr).inside_iff n.truncate_isCanonical, ne_comm]

/-- A child is a route of the index inside the network. -/
theorem mem_children_iff : r ∈ index.children n ↔ r ∈ index.toList ∧ r.network.Inside n := by
  rw [children_eq_filter, List.mem_filter, decide_eq_true_iff, Network.inside_truncate_right]

/-- A parent is a route of the index around the network. -/
theorem mem_parents_iff : r ∈ index.parents n ↔ r ∈ index.toList ∧ n.Inside r.network := by
  rw [parents_eq_filter, List.mem_filter, decide_eq_true_iff, Network.inside_truncate_left]

/-- The routes around a network come from the outermost to the innermost. -/
theorem pairwise_parents (index : RouteIndex) (n : Network) :
    (index.parents n).Pairwise fun r r' => r'.network.Inside r.network := by
  have hordered : (index.parents n).Pairwise fun r r' => r.network.Precedes r'.network :=
    index.pairwise_toList.filter _
  refine hordered.imp_of_mem fun {r r'} hr hr' hprecedes => ?_
  obtain ⟨hr, haround⟩ := mem_parents_iff.1 hr
  obtain ⟨hr', haround'⟩ := mem_parents_iff.1 hr'
  have hmeet : r.network.overlaps r'.network = true :=
    Network.overlaps_of_contains_both (Network.inside_iff_contains.1 haround).1
      (Network.inside_iff_contains.1 haround').1
  have hcanonical := isCanonical_of_mem_toList hr
  have hcanonical' := isCanonical_of_mem_toList hr'
  exact (hcanonical.inside_iff hcanonical').2
    ⟨hprecedes.ne.symm, hprecedes.contains hcanonical hcanonical' hmeet⟩

/-- Parents come with growing lengths. They all share the network's addresses, so the sorting by address and
length is one by length alone. -/
theorem pairwise_length_parents (index : RouteIndex) (n : Network) :
    (index.parents n).Pairwise fun r r' => r.network.length < r'.network.length :=
  (index.pairwise_parents n).imp Network.Inside.length_lt

/-- The lengths of the routes around a network are different numbers below its own length. -/
theorem length_parents_le (index : RouteIndex) (n : Network) : (index.parents n).length ≤ n.length := by
  have hnodup : ((index.parents n).map fun r => r.network.length).Nodup :=
    List.pairwise_map.2 ((index.pairwise_length_parents n).imp Nat.ne_of_lt)
  have hbelow : ((index.parents n).map fun r => r.network.length) ⊆ List.range n.length := by
    intro length hlength
    obtain ⟨r, hr, rfl⟩ := List.mem_map.1 hlength
    exact List.mem_range.2 (mem_parents_iff.1 hr).2.length_lt
  have hcount := (List.subperm_of_subset hnodup hbelow).length_le
  rwa [List.length_map, List.length_range] at hcount

/-- **Listings follow the nesting of address ranges.** For a network in any spelling, the listed children
are the routes that have some of its addresses and no other ones, but not all of them, and the listed parents
those that have all of its addresses and more, each once and in the order of the index. Of two routes one is a
child of the other exactly when that one is a parent of it. And the parents of a network form a chain: every
one strictly contains all that follow, so they come widest first, with growing lengths, and there are no more of
them than the network's length. -/
theorem listings_follow_nesting (index : RouteIndex) (n : Network) :
    (index.children n = index.toList.filter fun r => r.network.Inside n.truncate) ∧
    (index.parents n = index.toList.filter fun r => n.truncate.Inside r.network) ∧
    (∀ r ∈ index.toList, ∀ r' ∈ index.toList,
      r' ∈ index.children r.network ↔ r ∈ index.parents r'.network) ∧
    ((index.parents n).Pairwise fun r r' =>
      r'.network.Inside r.network ∧ r.network.length < r'.network.length) ∧
    (index.parents n).length ≤ n.length := by
  refine ⟨index.children_eq_filter n, index.parents_eq_filter n, fun r hr r' hr' => ?_,
    List.Pairwise.and (index.pairwise_parents n) (index.pairwise_length_parents n), index.length_parents_le n⟩
  rw [mem_children_iff, mem_parents_iff, and_iff_right hr, and_iff_right hr']

end RouteIndex

namespace Sample

/-- The route of `10.77.0.0/16`. -/
def campus : Route := ⟨⟨.ipv4, 0x0a4d0000, 16, by decide, by decide⟩, .empty⟩

/-- The route of `10.77.1.0/24`. -/
def building : Route := ⟨⟨.ipv4, 0x0a4d0100, 24, by decide, by decide⟩, .empty⟩

/-- The route of `10.77.1.32/27`. -/
def floor : Route := ⟨⟨.ipv4, 0x0a4d0120, 27, by decide, by decide⟩, .empty⟩

/-- The index with these three routes and one for `192.168.0.0/24`. -/
def premises : RouteIndex :=
  ⟨.ofList [(floor.network, .empty), (building.network, .empty), (campus.network, .empty),
    (⟨.ipv4, 0xc0a80000, 24, by decide, by decide⟩, .empty)], by decide⟩

end Sample

/-- A floor in a building on a campus: it is listed among the campus's children, and its parents are the
campus and the building in this order. -/
theorem RouteIndex.listings_follow_nesting_premises :
    Sample.campus ∈ Sample.premises.toList ∧ Sample.floor ∈ Sample.premises.toList ∧
      Sample.floor ∈ Sample.premises.children Sample.campus.network ∧
      Sample.premises.parents Sample.floor.network = [Sample.campus, Sample.building] := by
  have hcampus : Sample.campus ∈ Sample.premises.toList := by decide +kernel
  have hfloor : Sample.floor ∈ Sample.premises.toList := by decide +kernel
  have hparents : Sample.premises.parents Sample.floor.network = [Sample.campus, Sample.building] := by
    decide +kernel
  obtain ⟨-, -, hkin, -⟩ := listings_follow_nesting Sample.premises Sample.floor.network
  refine ⟨hcampus, hfloor, (hkin _ hcampus _ hfloor).2 ?_, hparents⟩
  rw [hparents]
  exact List.mem_cons_self

end AddressRegistry
