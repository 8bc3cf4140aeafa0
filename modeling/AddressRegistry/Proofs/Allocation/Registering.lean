import AddressRegistry.Proofs.Allocation.Dynamic
import AddressRegistry.Proofs.Allocation.Operations

/-!
# What a dynamic registration leaves behind

A dynamic registration that succeeds leaves an index in which its block has the labels of the claim, in which
nothing that was there has changed, and in which nothing but the block is new; a new block was carved out of a
wider route that matches the selector (`RouteIndex.Registered`). Both ways of success come to this: the claim
owned the block (`Registered.of_owned`), or the block was free and was inserted (`Registered.of_inserted`).
-/

namespace AddressRegistry

namespace RouteIndex

variable {index index' : RouteIndex} {spec : ScopeSpec} {r : Registration} {block n : Network}

/-- What a dynamic registration that answers a block did to the index of its scope. -/
structure Registered (spec : ScopeSpec) (r : Registration) (block : Network)
    (before after : RouteIndex) : Prop where
  canonical : block.IsCanonical
  asked : r.Asks spec block.length
  /-- The block is there with exactly the labels of the claim. -/
  present : after.routes.get? block = some r.combined.requirements
  kept : ∀ n labels, before.routes.get? n = some labels → after.routes.get? n = some labels
  /-- At most the block is new. -/
  only : ∀ n labels, after.routes.get? n = some labels →
    n = block ∨ before.routes.get? n = some labels
  /-- A new block lies strictly inside a wider route that matches the selector, and of the routes
  before it overlaps that one and the ones around that one only. -/
  carved : before.routes.get? block = none →
    ∃ pool ∈ before.query r.selector, pool.network.length < block.length ∧
      pool.network.contains block = true ∧ block ≠ pool.network ∧
        ∀ n ∈ before.networks, n.overlaps block = true → n.contains pool.network = true

/-- A claim that owns its block finds it and changes nothing. -/
theorem Registered.of_owned (hasks : r.Asks spec block.length)
    (hget : index.routes.get? block = some r.combined.requirements) :
    Registered spec r block index index where
  canonical := isCanonical_of_get? hget
  asked := hasks
  present := hget
  kept _ _ h := h
  only _ _ h := Or.inr h
  carved hnone := absurd (hget.symm.trans hnone) nofun

/-- A claim that owns nothing gets a block that was free in a wider route. -/
theorem Registered.of_inserted {pool : Route} (hasks : r.Asks spec block.length)
    (hpool : pool ∈ index.query r.selector) (hlt : pool.network.length < block.length)
    (hfree : index.IsFreeBlock pool.network block.length block)
    (hadd : index.add block r.combined.requirements = .ok index') :
    Registered spec r block index index' := by
  obtain ⟨hnone, hblock, hothers⟩ := get?_of_add hfree.canonical hadd
  refine ⟨hfree.canonical, hasks, hblock, ?_, ?_, ?_⟩
  · intro n labels hget
    have hne : n ≠ block := by
      rintro rfl
      rw [hnone] at hget
      cases hget
    rw [hothers n hne, hget]
  · intro n labels hget
    by_cases hne : n = block
    · exact Or.inl hne
    · rw [hothers n hne] at hget
      exact Or.inr hget
  · intro _
    have hne : block ≠ pool.network := by
      rintro rfl
      exact absurd hlt (Nat.lt_irrefl _)
    exact ⟨pool, hpool, hlt, hfree.inside, hne, isClear_iff.1 hfree.clear⟩

/-- However a dynamic registration succeeds, it comes to this. -/
theorem registered_of_outcome (h : RegisterOutcome index spec r (.ok (block, index'))) :
    Registered spec r block index index' := by
  cases h with
  | owned hasks hget => exact .of_owned hasks hget
  | inserted hasks _ hpool hlt hfree hadd => exact .of_inserted hasks hpool hlt hfree hadd

end RouteIndex

/-! ## A sample scope

Four addresses to be handed out one by one. -/

namespace Sample

def key : ObjectKey := ⟨"default", "acme.lab"⟩

def spec : ScopeSpec :=
  { ScopeSpec.fresh with defaultLengths := .ofList [("loopback", .ofList [(.ipv4, 32)])] }

/-- The scope, ready for operations. -/
def scope : Scope :=
  ⟨.fresh key.space key.name, spec, { Status.fresh with condition := ⟨true, "", "", none⟩ }⟩

def store : Store := ⟨.ofList [(⟨.scope, key⟩, .scope scope)], []⟩

def labels : Labels := .ofList [(Labels.purposeKey, "loopback"), (Labels.familyKey, "ipv4")]

/-- The network `10.0.0.0/30`. -/
def network : Network := ⟨.ipv4, 0x0a000000, 30, by decide, by decide⟩

def index : RouteIndex := ⟨SortedMap.empty.insert network labels, by decide⟩

def indexes : ScopeIndexes := .ofList [(key, index)]

/-- A dynamic registration of a claim without a source tag, with the network that it held before. -/
def registration (claim : String) (persisted : Option String) : Registration :=
  ⟨key.space, key.name, claim, none, ⟨labels⟩, sourceTagOrDefault .empty claim, persisted⟩

end Sample

end AddressRegistry
