import AddressRegistry.Network.Basic
import Mathlib.Algebra.Order.Group.Nat
import Mathlib.Data.Nat.Init

/-!
# Networks are nested or apart

A network's size is a power of two and its first address a multiple of its size. Hence two networks
that share an address are nested (`overlaps_iff`), and among canonical networks containment is an order
(`contains_refl`, `contains_trans`, `IsCanonical.contains_antisymm`) along which lengths grow
(`length_le_of_contains`).
-/

namespace AddressRegistry

/-! ## Powers of two -/

theorem powTwo_pos (bits : Nat) : 0 < powTwo bits := Nat.two_pow_pos bits

theorem powTwo_dvd_powTwo {a b : Nat} (h : a ≤ b) : powTwo a ∣ powTwo b :=
  Nat.pow_dvd_pow 2 h

theorem le_of_powTwo_le {a b : Nat} (h : powTwo a ≤ powTwo b) : a ≤ b :=
  (Nat.pow_le_pow_iff_right Nat.one_lt_two).1 h

/-- Where an aligned block of `s` addresses meets one of `t` addresses and `s` divides `t`, the first
one lies inside the second one. -/
theorem aligned_nested {s t u v : Nat} (ht : 0 < t) (hst : s ∣ t) (hu : s ∣ u) (hv : t ∣ v)
    (huv : u ≤ v + (t - 1)) (hvu : v ≤ u + (s - 1)) : v ≤ u ∧ u + (s - 1) ≤ v + (t - 1) := by
  have hs : 0 < s := Nat.pos_of_dvd_of_pos hst ht
  have hsv : s ∣ v := Nat.dvd_trans hst hv
  have hlow : v ≤ u := Nat.le_of_lt_add_of_dvd (by omega) hsv hu
  have hhigh : u + s ≤ v + t :=
    Nat.le_of_lt_add_of_dvd (n := s) (by omega) (Nat.dvd_add hu (Nat.dvd_refl s))
      (Nat.dvd_add hsv hst)
  exact ⟨hlow, by omega⟩

/-- Where `s` divides `t`, an aligned block of `s` addresses that starts below `t` also ends below it. -/
theorem aligned_last_lt {s t u : Nat} (hst : s ∣ t) (hu : s ∣ u) (hut : u < t) : u + (s - 1) < t := by
  have hs : 0 < s := Nat.pos_of_dvd_of_pos hst (Nat.zero_lt_of_lt hut)
  have hnext : u + s ≤ t :=
    Nat.le_of_lt_add_of_dvd (n := s) (by omega) (Nat.dvd_add hu (Nat.dvd_refl s)) hst
  omega

/-- No family's addresses are wider than 128 bits. -/
theorem Family.width_le (f : Family) : f.width ≤ 128 := by
  cases f <;> decide

namespace Network

variable {a b c : Network}

/-! ## The addresses of a network -/

/-- A network has at least one address. -/
theorem size_pos (n : Network) : 0 < n.size := powTwo_pos _

/-- A network starts at a multiple of its size. -/
theorem size_dvd_first (n : Network) : n.size ∣ n.first := Nat.dvd_sub_mod n.address

theorem first_le_address (n : Network) : n.first ≤ n.address := Nat.sub_le _ _

theorem first_le_last (n : Network) : n.first ≤ n.last := Nat.le_add_right _ _

/-- The last address still belongs to the family. -/
theorem last_lt (n : Network) : n.last < powTwo n.family.width := by
  have hdvd : n.size ∣ powTwo n.family.width := powTwo_dvd_powTwo (Nat.sub_le _ _)
  have hfirst : n.first < powTwo n.family.width :=
    Nat.lt_of_le_of_lt n.first_le_address n.address_lt
  exact aligned_last_lt hdvd n.size_dvd_first hfirst

/-- A canonical network's address is its first one. -/
theorem IsCanonical.first_eq (h : a.IsCanonical) : a.first = a.address :=
  congrArg address h

/-- A network whose address is a multiple of its size is canonical: clearing the bits behind the length
changes nothing. -/
theorem isCanonical_of_dvd (h : a.size ∣ a.address) : a.IsCanonical := by
  have hfirst : a.first = a.address := by
    unfold first
    rw [Nat.mod_eq_zero_of_dvd h, Nat.sub_zero]
  unfold IsCanonical truncate
  congr 1

/-- A canonical network is known by its family, first address and length. -/
theorem IsCanonical.ext (ha : a.IsCanonical) (hb : b.IsCanonical) (hfam : a.family = b.family)
    (hfirst : a.first = b.first) (hlen : a.length = b.length) : a = b := by
  rw [ha.first_eq, hb.first_eq] at hfirst
  cases a
  cases b
  simp_all

/-! ## Containment -/

/-- Containment as a comparison of bounds within a family. -/
theorem contains_iff :
    a.contains b = true ↔ a.family = b.family ∧ a.first ≤ b.first ∧ b.last ≤ a.last := by
  simp [contains, and_assoc]

/-- A network contains itself. -/
theorem contains_refl (n : Network) : n.contains n = true :=
  contains_iff.2 ⟨rfl, le_rfl, le_rfl⟩

/-- Containment goes through a network in between. -/
theorem contains_trans (hab : a.contains b = true) (hbc : b.contains c = true) :
    a.contains c = true := by
  obtain ⟨hf, h1, h2⟩ := contains_iff.1 hab
  obtain ⟨hf', h1', h2'⟩ := contains_iff.1 hbc
  exact contains_iff.2 ⟨hf.trans hf', h1.trans h1', h2'.trans h2⟩

/-- Clearing host bits on the left does not change what is contained. -/
@[simp] theorem contains_truncate_left : a.truncate.contains b = a.contains b := by
  simp [contains]

/-- Clearing host bits on the right does not change what is contained. -/
@[simp] theorem contains_truncate_right : a.contains b.truncate = a.contains b := by
  simp [contains]

/-- What lies inside a network is at least as long. -/
theorem length_le_of_contains (h : a.contains b = true) : a.length ≤ b.length := by
  obtain ⟨hf, h1, h2⟩ := contains_iff.1 h
  have hsize : b.size ≤ a.size := by
    have ha := a.size_pos
    have hb := b.size_pos
    unfold last at h2
    omega
  have hbits : b.family.width - b.length ≤ a.family.width - a.length := le_of_powTwo_le hsize
  have ha := a.length_le
  have hb := b.length_le
  rw [hf] at hbits ha
  omega

/-- Of two networks that contain each other, only bits beyond the length can differ. -/
theorem IsCanonical.contains_antisymm (ha : a.IsCanonical) (hb : b.IsCanonical)
    (hab : a.contains b = true) (hba : b.contains a = true) : a = b := by
  obtain ⟨hf, h1, -⟩ := contains_iff.1 hab
  obtain ⟨-, h1', -⟩ := contains_iff.1 hba
  exact ha.ext hb hf (le_antisymm h1 h1')
    (le_antisymm (length_le_of_contains hab) (length_le_of_contains hba))

/-! ## Overlap -/

/-- Whether two networks share an address. -/
def overlaps (a b : Network) : Bool :=
  a.family == b.family && a.first ≤ b.last && b.first ≤ a.last

/-- Two networks overlap when neither ends before the other starts, within a family. -/
theorem overlaps_iff_meet :
    a.overlaps b = true ↔ a.family = b.family ∧ a.first ≤ b.last ∧ b.first ≤ a.last := by
  simp [overlaps, and_assoc]

/-- Overlapping goes both ways. -/
theorem overlaps_comm (a b : Network) : a.overlaps b = b.overlaps a := by
  rw [Bool.eq_iff_iff, overlaps_iff_meet, overlaps_iff_meet]
  exact ⟨fun ⟨hf, h1, h2⟩ => ⟨hf.symm, h2, h1⟩, fun ⟨hf, h1, h2⟩ => ⟨hf.symm, h2, h1⟩⟩

/-- A network overlaps what it contains. -/
theorem overlaps_of_contains (h : a.contains b = true) : a.overlaps b = true := by
  obtain ⟨hf, h1, h2⟩ := contains_iff.1 h
  exact overlaps_iff_meet.2 ⟨hf, h1.trans b.first_le_last, b.first_le_last.trans h2⟩

/-- Of two networks that overlap, the shorter one contains the other. Both bounds are multiples of the
shorter one's size, so a block that reaches into it cannot reach beyond it. -/
theorem contains_of_overlaps_of_length_le (h : a.overlaps b = true) (hlen : a.length ≤ b.length) :
    a.contains b = true := by
  obtain ⟨hf, h1, h2⟩ := overlaps_iff_meet.1 h
  have hdvd : b.size ∣ a.size := by
    unfold size
    rw [hf]
    exact powTwo_dvd_powTwo (by omega)
  obtain ⟨hlow, hhigh⟩ := aligned_nested a.size_pos hdvd b.size_dvd_first a.size_dvd_first h2 h1
  exact contains_iff.2 ⟨hf, hlow, hhigh⟩

/-- Two networks share an address only if one of them contains the other. -/
theorem overlaps_iff :
    a.overlaps b = true ↔ a.contains b = true ∨ b.contains a = true := by
  constructor
  · intro h
    rcases le_total a.length b.length with hlen | hlen
    · exact Or.inl (contains_of_overlaps_of_length_le h hlen)
    · rw [overlaps_comm] at h
      exact Or.inr (contains_of_overlaps_of_length_le h hlen)
  · rintro (h | h)
    · exact overlaps_of_contains h
    · rw [overlaps_comm]
      exact overlaps_of_contains h

/-- What overlaps a network overlaps every network around it. -/
theorem overlaps_of_contains_right (h : a.overlaps b = true) (hbc : c.contains b = true) :
    a.overlaps c = true := by
  obtain ⟨hf, h1, h2⟩ := overlaps_iff_meet.1 h
  obtain ⟨hf', h1', h2'⟩ := contains_iff.1 hbc
  exact overlaps_iff_meet.2 ⟨hf.trans hf'.symm, h1.trans h2', h1'.trans h2⟩

/-- Two canonical networks of one length that share an address are the same. -/
theorem IsCanonical.eq_of_overlaps (ha : a.IsCanonical) (hb : b.IsCanonical) (h : a.overlaps b = true)
    (hlen : a.length = b.length) : a = b := by
  have hab := contains_of_overlaps_of_length_le h hlen.le
  rw [overlaps_comm] at h
  exact ha.contains_antisymm hb hab (contains_of_overlaps_of_length_le h hlen.ge)

end Network

end AddressRegistry
