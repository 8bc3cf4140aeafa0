import AddressRegistry.Proofs.Allocation.Ledger
import Mathlib.Data.List.Pairwise

/-!
# Routes of one sort held apart

`RouteIndex.HoldsApart` says of an index alone what `RouteIndex.Holds` says of an index and a ledger: the
routes whose labels are of one sort are the blocks of dynamic claims, apart from each other and from
every other route, except those around them. Removing any route keeps that, so do a dynamic registration
with labels of the sort (`HoldsApart.register`) and the declaration of a network that lies outside every
route of the sort (`HoldsApart.declare`).
-/

namespace AddressRegistry.RouteIndex

variable {spec : ScopeSpec} {index index' : RouteIndex} {held : List Grant} {r : Registration}
variable {block n m : Network} {labels labels' : Labels} {mine : Labels → Prop}

/-- A route that no claim holds may be inserted outside the held blocks. -/
theorem Holds.insert_other (h : Holds spec index held) (hnone : index.routes.get? n = none)
    (hothers : ∀ m, m ≠ n → index'.routes.get? m = index.routes.get? m)
    (houtside : ∀ g ∈ held, g.block.contains n = false) : Holds spec index' held := by
  have hkept : ∀ g ∈ held, g.block ≠ n := by
    rintro g hg rfl
    rw [h.present g hg] at hnone
    cases hnone
  constructor
  case present =>
    intro g hg
    rw [hothers _ (hkept g hg)]
    exact h.present g hg
  case asked => exact h.asked
  case neutral => exact h.neutral
  case below =>
    intro g hg m hm hfresh
    by_cases heq : m = n
    · subst heq
      exact houtside g hg
    · rw [mem_networks_iff, hothers m heq] at hm
      exact h.below g hg m (mem_networks_iff.2 hm) hfresh
  case apart => exact h.apart

/-- The routes with labels of one sort are the held blocks. -/
def HoldsApart (spec : ScopeSpec) (mine : Labels → Prop) (index : RouteIndex) : Prop :=
  ∃ held, Holds spec index held ∧
    ∀ n labels, index.routes.get? n = some labels → (mine labels ↔ ∃ g ∈ held, g.block = n)

/-- In an index without routes there is nothing to hold apart. -/
theorem holdsApart_empty (spec : ScopeSpec) (mine : Labels → Prop) :
    HoldsApart spec mine .empty :=
  ⟨[], .nil spec _, fun _ _ h => nomatch h.symm.trans (SortedMap.get?_empty _)⟩

/-- Two routes of the sort have no address in common. -/
theorem HoldsApart.overlaps_eq_false (h : HoldsApart spec mine index)
    (hn : index.routes.get? n = some labels) (hmine : mine labels)
    (hm : index.routes.get? m = some labels') (hmine' : mine labels') (hne : n ≠ m) :
    n.overlaps m = false := by
  obtain ⟨held, hholds, hiff⟩ := h
  obtain ⟨g, hg, rfl⟩ := (hiff n labels hn).1 hmine
  obtain ⟨g', hg', rfl⟩ := (hiff m labels' hm).1 hmine'
  have hsymm : Std.Symm fun g g' : Grant => g.block.overlaps g'.block = false :=
    ⟨fun g g' hapart => by rw [Network.overlaps_comm, hapart]⟩
  exact hholds.apart.forall hg hg' fun heq => hne (congrArg Grant.block heq)

/-- Taking a route away leaves the others apart. -/
theorem HoldsApart.erase (h : HoldsApart spec mine index)
    (hroutes : index'.routes = index.routes.erase n) : HoldsApart spec mine index' := by
  obtain ⟨held, hholds, hiff⟩ := h
  obtain ⟨hgone, hothers⟩ := get?_of_erase hroutes
  refine ⟨_, hholds.erase hroutes, fun m labels hget => ?_⟩
  have hne : m ≠ n := by
    rintro rfl
    rw [hgone] at hget
    cases hget
  rw [hothers m hne] at hget
  rw [hiff m labels hget]
  constructor
  · rintro ⟨g, hg, rfl⟩
    exact ⟨g, (hholds.present.mem_left_iff hroutes).2 ⟨hg, hne⟩, rfl⟩
  · rintro ⟨g, hg, rfl⟩
    exact ⟨g, ((hholds.present.mem_left_iff hroutes).1 hg).1, rfl⟩

/-- A network that lies outside the routes of the sort may be declared with other labels. -/
theorem HoldsApart.declare (h : HoldsApart spec mine index) (hcanonical : n.IsCanonical)
    (hother : ¬ mine labels)
    (houtside : ∀ m labels', index.routes.get? m = some labels' → mine labels' → m.contains n = false)
    (hdeclare : index.declare n labels = .ok index') : HoldsApart spec mine index' := by
  obtain ⟨hself, hothers⟩ := get?_of_declare hcanonical hdeclare
  cases hget : index.routes.get? n with
  | some labels₀ =>
    rw [eq_of_declare hcanonical hget hdeclare]
    exact h
  | none =>
    obtain ⟨held, hholds, hiff⟩ := h
    have hmine : ∀ g ∈ held, mine g.labels := fun g hg =>
      (hiff g.block g.labels (hholds.present g hg)).2 ⟨g, hg, rfl⟩
    refine ⟨held, hholds.insert_other hget hothers fun g hg =>
      houtside g.block g.labels (hholds.present g hg) (hmine g hg), fun m labels' hm => ?_⟩
    by_cases heq : m = n
    · rw [heq, hself, hget] at hm
      cases hm
      refine iff_of_false hother ?_
      rintro ⟨g, hg, hblock⟩
      rw [← heq, ← hblock, hholds.present g hg] at hget
      cases hget
    · rw [hothers m heq] at hm
      exact hiff m labels' hm

/-- A dynamic claim with labels of the sort finds its block or gets a new one. -/
theorem HoldsApart.register (h : HoldsApart spec mine index) (htag : r.NeutralTag)
    (hmine : mine r.combined.requirements)
    (houtcome : RegisterOutcome index spec r (.ok (block, index'))) : HoldsApart spec mine index' := by
  cases houtcome with
  | owned _ _ => exact h
  | inserted hasks _ hpool hlt hfree hadd =>
    obtain ⟨held, hholds, hiff⟩ := h
    obtain ⟨hnone, hblock, hothers⟩ := get?_of_add hfree.canonical hadd
    refine ⟨_, hholds.insert htag hasks hpool hlt hfree hadd, fun m labels hget => ?_⟩
    by_cases heq : m = block
    · rw [heq, hblock] at hget
      cases hget
      exact iff_of_true hmine ⟨⟨r, block⟩, List.mem_cons_self, heq.symm⟩
    · rw [hothers m heq] at hget
      rw [hiff m labels hget]
      constructor
      · rintro ⟨g, hg, rfl⟩
        exact ⟨g, List.mem_cons_of_mem _ hg, rfl⟩
      · rintro ⟨g, hg, rfl⟩
        rcases List.mem_cons.1 hg with rfl | hg
        · exact absurd rfl heq
        · exact ⟨g, hg, rfl⟩

end AddressRegistry.RouteIndex
