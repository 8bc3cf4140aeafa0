import AddressRegistry.Proofs.Allocation.Registering

/-!
# Blocks that claims hold

A ledger follows a run of registrations and releases in one scope and notes which blocks registrations
inserted and no release has removed. As long as the scope's specification stays and source tags leave
purpose and family to the selectors, the blocks of a ledger are disjoint at every point of a run,
whatever was declared and whatever is released (`Ledger.held_apart`).

The search for a free block passes over the routes around a pool, so one search alone does not see that
its pool lies inside a block that a claim holds. The invariant `RouteIndex.Holds` excludes that: no
block that a claim holds contains a route that no claim holds, and no block that a claim holds is ever a
pool for a block of another claim.
-/

namespace AddressRegistry

/-! ## Runs -/

/-- A block that a registration inserted. -/
structure Grant where
  registration : Registration
  block : Network
deriving DecidableEq

/-- The labels of the claim's route. -/
def Grant.labels (g : Grant) : Labels := g.registration.combined.requirements

/-- A call on behalf of a claim, with the store as it is when the call is made. -/
inductive Call where
  | register (access : Access) (r : Registration)
  | deregister (access : Access) (r : Registration)

/-- The indexes during a run, with notes of what happened in one scope. -/
structure Ledger where
  indexes : ScopeIndexes
  /-- What registrations inserted and no release has removed, the newest first. -/
  held : List Grant
  /-- Every block that a registration ever inserted. -/
  inserted : List Network

namespace ScopeIndexes

/-- Whether the index of a scope has a route of a network. -/
def hasRoute (indexes : ScopeIndexes) (key : ObjectKey) (n : Network) : Bool :=
  (indexes.get? key).any fun index => index.routes.contains n

/-- The indexes once the index of a scope was dropped and pools were declared in a new one. -/
def rebuild (indexes : ScopeIndexes) (key : ObjectKey) (pools : List Pool) : ScopeIndexes :=
  pools.foldl (fun (indexes : ScopeIndexes) pool => indexes.after (indexes.declare key pool).2)
    (ensure (indexes.erase key) key)

end ScopeIndexes

namespace Ledger

/-- The ledger before the first call: pools are declared, nothing is held. -/
def start (indexes : ScopeIndexes) (key : ObjectKey) (pools : List Pool) : Ledger :=
  ⟨indexes.rebuild key pools, [], []⟩

/-- A call. A registration whose block was not a route before has inserted it; a release has removed
what is no route any more. -/
def step (s : Ledger) : Call → Ledger
  | .register access r =>
    match s.indexes.register access r with
    | .ok (block, changed) =>
      if s.indexes.hasRoute r.scopeKey block then
        { s with indexes := changed }
      else
        ⟨changed, ⟨r, block⟩ :: s.held, block :: s.inserted⟩
    | .error _ => s
  | .deregister access r =>
    match s.indexes.deregister access r with
    | .ok changed =>
      { s with
        indexes := changed
        held := s.held.filter fun g => changed.hasRoute r.scopeKey g.block }
    | .error _ => s

/-- One call after the other. -/
def run (s : Ledger) (calls : List Call) : Ledger := calls.foldl step s

end Ledger

/-- The source tag leaves purpose and family to the selector. -/
structure Registration.NeutralTag (r : Registration) : Prop where
  purpose : r.sourceTag.get? Labels.purposeKey = none
  family : r.sourceTag.get? Labels.familyKey = none

/-- Whenever a scope is found it has the given specification. -/
def Access.Serves (access : Access) (key : ObjectKey) (spec : ScopeSpec) : Prop :=
  ∀ scope, access.fetchScope key = .ok (some scope) → scope.spec = spec

/-- The calls of a run in a scope with a fixed specification: dynamic registrations with neutral source
tags, and releases of any kind. -/
def Call.Admissible (key : ObjectKey) (spec : ScopeSpec) : Call → Prop
  | .register access r =>
    r.scopeKey = key ∧ r.network = none ∧ r.NeutralTag ∧ access.Serves key spec
  | .deregister _ r => r.scopeKey = key

/-! ## The invariant -/

/-- Where the source tag says nothing about a key, the combined labels say what the selector says. -/
theorem Registration.get?_combined {r : Registration} {k : String} (h : r.sourceTag.get? k = none) :
    r.combined.requirements.get? k = r.selector.get? k := by
  rw [← Selector.get?, Registration.combined, Selector.get?_merge, h, Option.none_or]

/-- Purpose and family decide the length. -/
theorem Registration.Asks.length_eq {r r' : Registration} {spec : ScopeSpec} {length length' : Nat}
    (hasks : r.Asks spec length) (hasks' : r'.Asks spec length')
    (hpurpose : ∀ v, r.selector.get? Labels.purposeKey = some v →
      r'.selector.get? Labels.purposeKey = some v)
    (hfamily : ∀ v, r.selector.get? Labels.familyKey = some v →
      r'.selector.get? Labels.familyKey = some v) : length = length' := by
  obtain ⟨purpose, family, hp, hf, hlength⟩ := hasks
  obtain ⟨purpose', family', hp', hf', hlength'⟩ := hasks'
  obtain rfl := Option.some.inj (hp'.symm.trans (hpurpose _ hp))
  obtain rfl := Family.label_injective (Option.some.inj (hf'.symm.trans (hfamily _ hf)))
  exact Option.some.inj (hlength.symm.trans hlength')

/-- A selector that matches the labels of a claim with a neutral tag asks for what the claim asks for.
-/
theorem Registration.Asks.of_matches {r r' : Registration} {spec : ScopeSpec} {length length' : Nat}
    (htag : r'.NeutralTag) (hmatch : r.selector.matchesLabels r'.combined.requirements = true)
    (hasks : r.Asks spec length) (hasks' : r'.Asks spec length') : length = length' := by
  have hmatches := Selector.matchesLabels_iff.1 hmatch
  refine hasks.length_eq hasks' (fun v hv => ?_) (fun v hv => ?_)
  · rw [← get?_combined htag.purpose]
    exact hmatches _ v hv
  · rw [← get?_combined htag.family]
    exact hmatches _ v hv

namespace RouteIndex

variable {spec : ScopeSpec} {index index' : RouteIndex} {held : List Grant} {r : Registration}
variable {pool : Route} {block n : Network}

/-- An index has a route for each of some grants. -/
def Carries (index : RouteIndex) (held : List Grant) : Prop :=
  ∀ g ∈ held, index.routes.get? g.block = some g.labels

/-- One more grant. -/
theorem Carries.insert {g : Grant} {grants : List Grant} (h : index.Carries held)
    (hnone : index.routes.get? g.block = none) (hblock : index'.routes.get? g.block = some g.labels)
    (hothers : ∀ m, m ≠ g.block → index'.routes.get? m = index.routes.get? m)
    (hmem : ∀ g', g' ∈ grants ↔ g' = g ∨ g' ∈ held) : index'.Carries grants := by
  intro g' hg'
  rcases (hmem g').1 hg' with rfl | hg'
  · exact hblock
  · have hne : g'.block ≠ g.block := by
      intro heq
      have hget := h g' hg'
      rw [heq, hnone] at hget
      cases hget
    rw [hothers _ hne]
    exact h g' hg'

/-- After a removal, the grants that still have a route are those of other networks. -/
theorem Carries.mem_left_iff {g : Grant} (h : index.Carries held)
    (hroutes : index'.routes = index.routes.erase n) :
    g ∈ held.filter (fun g => index'.routes.contains g.block) ↔ g ∈ held ∧ g.block ≠ n := by
  obtain ⟨hgone, hothers⟩ := get?_of_erase hroutes
  rw [List.mem_filter]
  apply and_congr_right
  intro hg
  unfold SortedMap.contains
  constructor
  · intro hcontains heq
    rw [heq, hgone] at hcontains
    cases hcontains
  · intro hne
    rw [hothers _ hne, h g hg]
    rfl

/-- Taking a route away leaves the routes of the blocks that are still held. -/
theorem Carries.erase (h : index.Carries held) (hroutes : index'.routes = index.routes.erase n) :
    index'.Carries (held.filter fun g => index'.routes.contains g.block) := by
  intro g hg
  obtain ⟨hg, hne⟩ := (h.mem_left_iff hroutes).1 hg
  rw [(get?_of_erase hroutes).2 _ hne]
  exact h g hg

/-- An index holds the blocks of some claims apart from each other and from everything else. -/
structure Holds (spec : ScopeSpec) (index : RouteIndex) (held : List Grant) : Prop where
  present : index.Carries held
  asked : ∀ g ∈ held, g.registration.Asks spec g.block.length
  neutral : ∀ g ∈ held, g.registration.NeutralTag
  /-- What lies inside a held block is held. -/
  below : ∀ g ∈ held, ∀ n ∈ index.networks, (∀ g' ∈ held, g'.block ≠ n) → g.block.contains n = false
  apart : held.Pairwise fun g g' => g.block.overlaps g'.block = false

/-- A ledger without grants claims nothing. -/
theorem Holds.nil (spec : ScopeSpec) (index : RouteIndex) : Holds spec index [] :=
  ⟨nofun, nofun, nofun, nofun, List.Pairwise.nil⟩

/-- A block that is held has a route. -/
theorem Holds.mem_networks (h : Holds spec index held) {g : Grant} (hg : g ∈ held) :
    g.block ∈ index.networks :=
  mem_networks_iff.2 ⟨_, h.present g hg⟩

/-- A held block that a selector matches is as long as the blocks that the selector asks for, so it is
no pool for them. -/
theorem Holds.ne_pool (h : Holds spec index held) (hasks : r.Asks spec block.length)
    (hpool : pool ∈ index.query r.selector) (hlt : pool.network.length < block.length) :
    ∀ g ∈ held, g.block ≠ pool.network := by
  intro g hg heq
  obtain ⟨hget, hmatch⟩ := mem_query_iff.1 hpool
  rw [← heq, h.present g hg, Option.some.injEq] at hget
  rw [← hget] at hmatch
  have hlength := hasks.of_matches (h.neutral g hg) hmatch (h.asked g hg)
  rw [heq] at hlength
  omega

/-- A block that is free in a pool overlaps no held block: that block would contain the pool. -/
theorem Holds.apart_of_free (h : Holds spec index held) (hasks : r.Asks spec block.length)
    (hpool : pool ∈ index.query r.selector) (hlt : pool.network.length < block.length)
    (hfree : index.IsFreeBlock pool.network block.length block) :
    ∀ g ∈ held, block.overlaps g.block = false := by
  intro g hg
  by_contra hmeet
  rw [Bool.not_eq_false, Network.overlaps_comm] at hmeet
  have hcontains := isClear_iff.1 hfree.clear g.block (h.mem_networks hg) hmeet
  have hbelow := h.below g hg pool.network (mem_networks_of_mem_query hpool)
    (h.ne_pool hasks hpool hlt)
  rw [hcontains] at hbelow
  cases hbelow

/-- Inserting a free block keeps the invariant. -/
theorem Holds.insert (h : Holds spec index held) (htag : r.NeutralTag)
    (hasks : r.Asks spec block.length) (hpool : pool ∈ index.query r.selector)
    (hlt : pool.network.length < block.length)
    (hfree : index.IsFreeBlock pool.network block.length block)
    (hadd : index.add block r.combined.requirements = .ok index') :
    Holds spec index' (⟨r, block⟩ :: held) := by
  obtain ⟨hnone, hblock, hothers⟩ := get?_of_add hfree.canonical hadd
  have hold : ∀ n ∈ index'.networks, block ≠ n → n ∈ index.networks := by
    intro n hn hne
    rw [mem_networks_iff, hothers n (Ne.symm hne)] at hn
    exact mem_networks_iff.2 hn
  constructor
  case present =>
    exact Carries.insert (g := ⟨r, block⟩) h.present hnone hblock hothers fun g' => List.mem_cons
  case asked => exact List.forall_mem_cons.2 ⟨hasks, h.asked⟩
  case neutral => exact List.forall_mem_cons.2 ⟨htag, h.neutral⟩
  case below =>
    intro g hg n hn hfresh
    obtain ⟨hne, hfresh⟩ := List.forall_mem_cons.1 hfresh
    have hn := hold n hn hne
    rcases List.mem_cons.1 hg with rfl | hg
    · -- a route inside the new block would lie around the pool, which is wider than the block
      by_contra hcontains
      rw [Bool.not_eq_false] at hcontains
      have hmeet : n.overlaps block = true := Network.overlaps_iff.2 (Or.inr hcontains)
      have haround := isClear_iff.1 hfree.clear n hn hmeet
      have hlength := Network.length_le_of_contains (Network.contains_trans hcontains haround)
      dsimp only at hlength
      omega
    · exact h.below g hg n hn hfresh
  case apart => exact List.pairwise_cons.2 ⟨h.apart_of_free hasks hpool hlt hfree, h.apart⟩

/-- Removing a route keeps the invariant for what is left. -/
theorem Holds.erase (h : Holds spec index held) (hroutes : index'.routes = index.routes.erase n) :
    Holds spec index' (held.filter fun g => index'.routes.contains g.block) := by
  have hleft : ∀ g, g ∈ held.filter (fun g => index'.routes.contains g.block) →
      g ∈ held ∧ g.block ≠ n := fun g hg => (h.present.mem_left_iff hroutes).1 hg
  constructor
  case present => exact h.present.erase hroutes
  case asked => exact fun g hg => h.asked g (hleft g hg).1
  case neutral => exact fun g hg => h.neutral g (hleft g hg).1
  case below =>
    intro g hg m hm hfresh
    unfold networks at hm
    rw [hroutes, SortedMap.mem_keys_erase] at hm
    obtain ⟨hmn, hm⟩ := hm
    refine h.below g (hleft g hg).1 m hm ?_
    intro g' hg' heq
    have hne : g'.block ≠ n := heq ▸ hmn
    exact hfresh g' ((h.present.mem_left_iff hroutes).2 ⟨hg', hne⟩) heq
  case apart => exact h.apart.filter _

end RouteIndex

/-! ## What a call does -/

namespace Ledger

variable {key : ObjectKey} {spec : ScopeSpec} {s : Ledger} {c : Call}

/-- A ledger whose scope has an index that holds what the ledger says. -/
def Sound (key : ObjectKey) (spec : ScopeSpec) (s : Ledger) : Prop :=
  ∃ index, s.indexes.get? key = some index ∧ index.Holds spec s.held

/-- The ways in which an admissible call ends. -/
inductive StepOutcome (key : ObjectKey) (spec : ScopeSpec) (s : Ledger) : Call → Ledger → Prop
  /-- The call fails, finds a block that the claim owns, or has nothing to release. -/
  | idle {c : Call} : StepOutcome key spec s c s
  /-- A block that was free in a wider route is inserted. -/
  | insert {access : Access} {r : Registration} {index index' : RouteIndex} {pool : Route}
    {block : Network} (hkey : r.scopeKey = key)
    (hname : ∃ name, ResourceName.parse .scope key.name = .ok name)
    (hdynamic : r.network = none) (htag : r.NeutralTag) (hindex : s.indexes.get? key = some index)
    (hasks : r.Asks spec block.length)
    (hunowned : ∀ n, index.routes.get? n = some r.combined.requirements → n.length ≠ block.length)
    (hpool : pool ∈ index.query r.selector) (hlt : pool.network.length < block.length)
    (hfree : index.IsFreeBlock pool.network block.length block)
    (hadd : index.add block r.combined.requirements = .ok index') :
    StepOutcome key spec s (.register access r)
      ⟨s.indexes.insert key index', ⟨r, block⟩ :: s.held, block :: s.inserted⟩
  /-- The route of a network is removed if there is one. -/
  | release {access : Access} {r : Registration} {index index' : RouteIndex} {network : Network}
    (hpersisted : r.persistedNetwork = .ok (some network)) (hindex : s.indexes.get? key = some index)
    (hroutes : index'.routes = index.routes.erase network) :
    StepOutcome key spec s (.deregister access r)
      ⟨s.indexes.insert key index', s.held.filter fun g => index'.routes.contains g.block, s.inserted⟩

/-- Whether a network of a scope has a route is seen in the index of the scope. -/
theorem hasRoute_of_get? {indexes : ScopeIndexes} {index : RouteIndex} {n : Network}
    (h : indexes.get? key = some index) : indexes.hasRoute key n = index.routes.contains n := by
  unfold ScopeIndexes.hasRoute
  rw [h, Option.any_some]

/-- How a registration ends on a ledger: it fails, or finds a route, or inserts a block that is held from
then on. -/
theorem register_outcome {access : Access} {r : Registration} (h : s.Sound key spec)
    (hc : (Call.register access r).Admissible key spec) :
    StepOutcome key spec s (.register access r) (s.step (.register access r)) := by
  obtain ⟨index, hindex, -⟩ := h
  obtain ⟨rfl, hdynamic, htag, hserves⟩ := hc
  rw [step]
  cases hregister : s.indexes.register access r with
  | error f => exact .idle
  | ok answer =>
    obtain ⟨block, changed⟩ := answer
    obtain ⟨scope, index₁, index', hready, hindex₁, hanswer, rfl⟩ :=
      ScopeIndexes.register_eq_ok_iff.1 hregister
    obtain rfl := Option.some.inj (hindex.symm.trans hindex₁)
    obtain ⟨hname, hfetch, -, -⟩ := ScopeIndexes.readyScope_eq_ok_iff.1 hready
    have houtcome := index.register_outcome r.scopeKey scope.spec hdynamic
    rw [hanswer, hserves scope hfetch] at houtcome
    dsimp only
    rw [hasRoute_of_get? hindex]
    cases houtcome with
    | owned _ hget =>
      have hroute : index.routes.contains block = true := by
        unfold SortedMap.contains
        rw [hget]
        rfl
      rw [if_pos hroute, SortedMap.insert_of_get? hindex]
      exact .idle
    | inserted hasks hunowned hpool hlt hfree hadd =>
      have hroute : index.routes.contains block = false :=
        SortedMap.contains_eq_false_iff.2 (hfree.get?_eq_none hlt)
      rw [hroute]
      exact .insert rfl hname hdynamic htag hindex hasks hunowned hpool hlt hfree hadd

/-- How a release ends on a ledger: it fails, or removes a route, and whoever held its network holds it no
more. -/
theorem deregister_outcome {access : Access} {r : Registration} (h : s.Sound key spec)
    (hkey : r.scopeKey = key) :
    StepOutcome key spec s (.deregister access r) (s.step (.deregister access r)) := by
  obtain ⟨index, hindex, hholds⟩ := h
  rw [step]
  cases hderegister : s.indexes.deregister access r with
  | error f => exact .idle
  | ok changed =>
    obtain ⟨-, hrest⟩ := ScopeIndexes.deregister_eq_ok_iff.1 hderegister
    rw [hkey] at hrest
    dsimp only
    rw [hkey]
    rcases hrest with ⟨-, rfl⟩ | ⟨network, index₁, index', hpersisted, hindex₁, hroutes, rfl⟩
    · -- nothing was released, and what is held is still there
      have hall : (s.held.filter fun g => s.indexes.hasRoute key g.block) = s.held := by
        apply List.filter_eq_self.2
        intro g hg
        rw [hasRoute_of_get? hindex, SortedMap.contains, hholds.present g hg]
        rfl
      rw [hall]
      exact .idle
    · obtain rfl := Option.some.inj (hindex.symm.trans hindex₁)
      rw [Registration.isCanonical_of_persistedNetwork hpersisted] at hroutes
      have hfilter :
          (fun g : Grant => ScopeIndexes.hasRoute (s.indexes.insert key index') key g.block)
            = fun g => index'.routes.contains g.block := by
        funext g
        exact hasRoute_of_get? (SortedMap.get?_insert_self _ _ _)
      rw [hfilter]
      exact .release hpersisted hindex hroutes

/-- How each of the four calls ends on a ledger. -/
theorem step_outcome (h : s.Sound key spec) (hc : c.Admissible key spec) :
    StepOutcome key spec s c (s.step c) := by
  cases c with
  | register access r => exact register_outcome h hc
  | deregister access r => exact deregister_outcome h hc

/-- An admissible call keeps a ledger sound. -/
theorem Sound.step (h : s.Sound key spec) (hc : c.Admissible key spec) :
    (s.step c).Sound key spec := by
  have houtcome := step_outcome h hc
  obtain ⟨index, hindex, hholds⟩ := h
  generalize s.step c = s' at houtcome
  cases houtcome with
  | idle => exact ⟨index, hindex, hholds⟩
  | insert _ _ _ htag hindex₁ hasks _ hpool hlt hfree hadd =>
    obtain rfl := Option.some.inj (hindex.symm.trans hindex₁)
    exact ⟨_, SortedMap.get?_insert_self _ _ _, hholds.insert htag hasks hpool hlt hfree hadd⟩
  | release _ hindex₁ hroutes =>
    obtain rfl := Option.some.inj (hindex.symm.trans hindex₁)
    exact ⟨_, SortedMap.get?_insert_self _ _ _, hholds.erase hroutes⟩

/-- A ledger stays sound in every run of admissible calls. -/
theorem Sound.run (h : s.Sound key spec) {calls : List Call}
    (hcalls : ∀ c ∈ calls, c.Admissible key spec) : (s.run calls).Sound key spec := by
  induction calls generalizing s with
  | nil => exact h
  | cons c rest ih =>
    obtain ⟨hc, hrest⟩ := List.forall_mem_cons.1 hcalls
    exact ih (h.step hc) hrest

end Ledger

/-! ## The start -/

namespace ScopeIndexes

variable {key : ObjectKey}

/-- Declaring a pool changes the index of its scope, in a way that depends on that index alone. -/
theorem exists_after_declare (key : ObjectKey) (pool : Pool) (index : RouteIndex) :
    ∃ index' : RouteIndex, ∀ indexes : ScopeIndexes, indexes.get? key = some index →
      indexes.after (indexes.declare key pool).2 = indexes.insert key index' := by
  cases hparse : Network.parse pool.spec.network with
  | error e =>
    refine ⟨index, fun indexes hindex => ?_⟩
    rw [SortedMap.insert_of_get? hindex, declare, hparse]
    rfl
  | ok network =>
    obtain ⟨index', hdeclare⟩ := index.exists_declare network
      (declarationLabels pool.spec.labels network)
    refine ⟨index', fun indexes hindex => ?_⟩
    have hok : (indexes.declare key pool).2 = .ok (network, indexes.insert key index') :=
      declare_eq_ok_iff.2 ⟨hparse, index, index', hindex, hdeclare, rfl⟩
    rw [hok]
    rfl

/-- Rebuilding gives a scope an index that depends on the pools alone. -/
theorem exists_rebuild (key : ObjectKey) (pools : List Pool) :
    ∃ base : RouteIndex, ∀ indexes : ScopeIndexes,
      indexes.rebuild key pools = indexes.insert key base := by
  have hfold : ∀ index : RouteIndex, ∃ base : RouteIndex, ∀ indexes : ScopeIndexes,
      pools.foldl (fun (indexes : ScopeIndexes) pool => indexes.after (indexes.declare key pool).2)
        (indexes.insert key index) = indexes.insert key base := by
    induction pools with
    | nil => exact fun index => ⟨index, fun _ => rfl⟩
    | cons pool rest ih =>
      intro index
      obtain ⟨index', hdeclare⟩ := exists_after_declare key pool index
      obtain ⟨base, hbase⟩ := ih index'
      refine ⟨base, fun indexes => ?_⟩
      rw [List.foldl_cons, hdeclare _ (SortedMap.get?_insert_self _ _ _), SortedMap.insert_insert,
        hbase]
  obtain ⟨base, hbase⟩ := hfold .empty
  refine ⟨base, fun indexes => ?_⟩
  have hensure : ensure (indexes.erase key) key = indexes.insert key .empty := by
    unfold ensure
    rw [SortedMap.contains_eq_false_iff.2 (SortedMap.get?_erase_self _ _)]
    exact SortedMap.insert_erase _ _ _
  unfold rebuild
  rw [hensure, hbase]

end ScopeIndexes

namespace Ledger

/-- Whatever pools are declared in an empty index, with networks nested or equal, and whatever dynamic
registrations and releases follow: at every point of the run, the blocks that registrations inserted
and no release has removed have no address in common. -/
theorem held_apart (indexes : ScopeIndexes) (key : ObjectKey) (spec : ScopeSpec) (pools : List Pool)
    (calls : List Call) (hcalls : ∀ c ∈ calls, c.Admissible key spec) (n : Nat) :
    ((start indexes key pools).run (calls.take n)).held.Pairwise fun g g' =>
      g.block.overlaps g'.block = false := by
  obtain ⟨base, hbase⟩ := ScopeIndexes.exists_rebuild key pools
  have hstart : (start indexes key pools).Sound key spec := by
    refine ⟨base, ?_, .nil spec base⟩
    unfold start
    rw [hbase, SortedMap.get?_insert_self]
  have hbefore : ∀ c ∈ calls.take n, c.Admissible key spec := by
    intro c hc
    exact hcalls c (List.mem_of_mem_take hc)
  obtain ⟨index, -, hholds⟩ := hstart.run hbefore
  exact hholds.apart

end Ledger

/-! ## A sample run

Two pools, one inside the other; three claims register, and the first one releases its block. -/

namespace Sample

def access : Access := ⟨store, []⟩

def pool (network : String) : Pool :=
  ⟨.fresh key.space "acme.lab.pool", ⟨network, true, .ofList [(Labels.purposeKey, "loopback")], none⟩,
    .fresh⟩

def pools : List Pool := [pool "10.0.0.0/30", pool "10.0.0.2/31"]

def calls : List Call :=
  [.register access (registration "edge" none), .register access (registration "core" none),
    .register access (registration "rim" none),
    .deregister access (registration "edge" (some "10.0.0.0/32"))]

/-- The store of the sample holds the scope as it is. -/
theorem access_serves : access.Serves key spec := by
  intro scope hfetch
  have hget : store.get? ⟨.scope, key⟩ = some (.scope Sample.scope) := by decide +kernel
  unfold access at hfetch
  rw [Access.fetchScope_eq_some_iff, hget] at hfetch
  cases hfetch
  rfl

/-- The calls of the sample are admissible. -/
theorem calls_admissible : ∀ c ∈ calls, c.Admissible key spec := by
  have htag : ∀ claim, (registration claim none).NeutralTag := by
    intro claim
    exact ⟨SortedMap.get?_insert_of_ne claim (by decide),
      SortedMap.get?_insert_of_ne claim (by decide)⟩
  simp only [calls, List.forall_mem_cons]
  exact ⟨⟨rfl, rfl, htag _, access_serves⟩, ⟨rfl, rfl, htag _, access_serves⟩,
    ⟨rfl, rfl, htag _, access_serves⟩, rfl, nofun⟩

end Sample

/-- After the first calls of the sample two claims hold blocks, and these are apart. -/
theorem Ledger.held_apart_sample :
    (∀ c ∈ Sample.calls, c.Admissible Sample.key Sample.spec) ∧
      ((start .empty Sample.key Sample.pools).run (Sample.calls.take 4)).held.length = 2 ∧
        ((start .empty Sample.key Sample.pools).run (Sample.calls.take 4)).held.Pairwise fun g g' =>
          g.block.overlaps g'.block = false :=
  ⟨Sample.calls_admissible, by decide +kernel,
    held_apart .empty Sample.key Sample.spec Sample.pools Sample.calls Sample.calls_admissible 4⟩

end AddressRegistry
