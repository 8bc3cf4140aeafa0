import AddressRegistry.Proofs.Allocation.Ledger
import AddressRegistry.Proofs.Network.RoundTrip

/-!
# Replaying registrations

When the index of a scope is dropped, the pools are declared again and each claim registers again with
the block that it held, then every claim gets its block back and the index is as it was, in whatever
order the claims come (`Ledger.replay_of_perm`).

Two things are shown. In a run that releases nothing but blocks of claims, an index consists of the
declared pools and the held blocks (`RouteIndex.Covers`), and each held block is still free in the pool
that it was carved from when only pools are there (`Grant.Fits`). And a claim that registers again gets
its block when the index consists of the pools and the blocks of some other claims, because those lie
apart from its block and carry other labels (`Grant.Apart`, `RouteIndex.Covers.register_again`).
-/

namespace AddressRegistry

/-! ## The replay -/

/-- The registration repeated, with its block as the one that the claim held before. -/
def Grant.again (g : Grant) : Registration := { g.registration with persisted := some g.block.text }

/-- Claims register again, one after the other. -/
def ScopeIndexes.replay (indexes : ScopeIndexes) :
    List (Access × Grant) → Except Failure (List Network × ScopeIndexes)
  | [] => .ok ([], indexes)
  | (access, g) :: rest => do
    let (block, changed) ← indexes.register access g.again
    let (blocks, final) ← replay changed rest
    return (block :: blocks, final)

/-- A scope is found ready with the given specification. -/
def Access.Offers (access : Access) (key : ObjectKey) (spec : ScopeSpec) : Prop :=
  ∃ scope, access.fetchScope key = .ok (some scope) ∧ scope.status.condition.ready = true ∧
    scope.spec = spec

/-- A release concerns a block that a registration inserted. -/
def Call.ReleasesFrom (inserted : List Network) : Call → Prop
  | .register _ _ => True
  | .deregister _ r => ∀ n, r.persistedNetwork = .ok (some n) → n ∈ inserted

/-- Each release of a run concerns a block that a registration before it inserted. -/
def Ledger.ReleasesInserted : Ledger → List Call → Prop
  | _, [] => True
  | s, c :: rest => c.ReleasesFrom s.inserted ∧ (s.step c).ReleasesInserted rest

/-! ## Indexes over pools -/

/-- The blocks are disjoint and the labels different. -/
def Grant.Apart (g g' : Grant) : Prop :=
  g.block.overlaps g'.block = false ∧ g.labels ≠ g'.labels

/-- Being apart has no direction. -/
theorem Grant.Apart.symm {g g' : Grant} (h : g.Apart g') : g'.Apart g :=
  ⟨Network.overlaps_comm g.block g'.block ▸ h.1, h.2.symm⟩

/-- What a claim needs to get its block in an index that consists of pools. -/
structure Grant.Fits (key : ObjectKey) (spec : ScopeSpec) (base : RouteIndex) (g : Grant) : Prop where
  scope : g.registration.scopeKey = key
  name : ∃ name, ResourceName.parse .scope key.name = .ok name
  dynamic : g.registration.network = none
  asked : g.registration.Asks spec g.block.length
  /-- The block is free in a pool that the selector matches. -/
  pool : ∃ pool ∈ base.query g.registration.selector, pool.network.length < g.block.length ∧
    base.IsFreeBlock pool.network g.block.length g.block
  /-- No pool of the block's length passes for the claim's own route. -/
  unowned : ∀ n, base.routes.get? n = some g.labels → n.length ≠ g.block.length

namespace RouteIndex

variable {key : ObjectKey} {spec : ScopeSpec} {base index index' : RouteIndex}
variable {grants held : List Grant} {g : Grant} {n : Network}

/-- A block that fits over the pools is none of them. -/
theorem get?_eq_none_of_fits (h : g.Fits key spec base) : base.routes.get? g.block = none := by
  obtain ⟨pool, -, hlt, hfree⟩ := h.pool
  exact hfree.get?_eq_none hlt

/-- An index consists of the routes of another one and of the blocks of some claims. -/
structure Covers (base index : RouteIndex) (grants : List Grant) : Prop where
  granted : index.Carries grants
  rest : ∀ n, (∀ g ∈ grants, g.block ≠ n) → index.routes.get? n = base.routes.get? n

namespace Covers

/-- An index of pools is covered by the pools, with no grants. -/
theorem refl (base : RouteIndex) : Covers base base [] := ⟨nofun, fun _ _ => rfl⟩

/-- An index is known by what it consists of. -/
theorem unique (h : Covers base index grants) (h' : Covers base index' held)
    (hmem : ∀ g, g ∈ grants ↔ g ∈ held) : index = index' := by
  apply ext_get?
  intro n
  by_cases hn : ∀ g ∈ grants, g.block ≠ n
  · rw [h.rest n hn, h'.rest n fun g hg => hn g ((hmem g).2 hg)]
  · obtain ⟨g, hg, rfl⟩ : ∃ g ∈ grants, g.block = n := by simpa using hn
    rw [h.granted g hg, h'.granted g ((hmem g).1 hg)]

/-- The routes of the other index are still there. -/
theorem get?_of_base {labels : Labels} (h : Covers base index grants)
    (hfits : ∀ g ∈ grants, g.Fits key spec base) (hget : base.routes.get? n = some labels) :
    index.routes.get? n = some labels := by
  rw [h.rest n, hget]
  rintro g hg rfl
  rw [get?_eq_none_of_fits (hfits g hg)] at hget
  cases hget

/-- A route belongs to the other index or to a claim. -/
theorem get?_cases {labels : Labels} (h : Covers base index grants)
    (hget : index.routes.get? n = some labels) :
    base.routes.get? n = some labels ∨ ∃ g ∈ grants, g.block = n ∧ g.labels = labels := by
  by_cases hn : ∀ g ∈ grants, g.block ≠ n
  · rw [h.rest n hn] at hget
    exact Or.inl hget
  · obtain ⟨g, hg, rfl⟩ : ∃ g ∈ grants, g.block = n := by simpa using hn
    rw [h.granted g hg] at hget
    exact Or.inr ⟨g, hg, rfl, Option.some.inj hget⟩

/-- One more claim. -/
theorem insert (h : Covers base index grants) (hnone : index.routes.get? g.block = none)
    (hblock : index'.routes.get? g.block = some g.labels)
    (hothers : ∀ m, m ≠ g.block → index'.routes.get? m = index.routes.get? m)
    (hmem : ∀ g', g' ∈ held ↔ g' = g ∨ g' ∈ grants) : Covers base index' held := by
  refine ⟨h.granted.insert hnone hblock hothers hmem, ?_⟩
  intro n hn
  rw [hothers n (Ne.symm (hn g ((hmem g).2 (Or.inl rfl))))]
  exact h.rest n fun g' hg' => hn g' ((hmem g').2 (Or.inr hg'))

/-- One claim less. -/
theorem erase (h : Covers base index grants) (hbase : base.routes.get? n = none)
    (hroutes : index'.routes = index.routes.erase n) :
    Covers base index' (grants.filter fun g => index'.routes.contains g.block) := by
  obtain ⟨hgone, hothers⟩ := get?_of_erase hroutes
  refine ⟨h.granted.erase hroutes, ?_⟩
  intro m hm
  by_cases hmn : m = n
  · rw [hmn, hgone, hbase]
  · rw [hothers m hmn]
    apply h.rest m
    intro g hg heq
    have hne : g.block ≠ n := heq ▸ hmn
    exact hm g ((h.granted.mem_left_iff hroutes).2 ⟨hg, hne⟩) heq

/-- A claim that registers again gets its block back. The blocks of the claims before it lie apart from
its own, so it is as free as it was over the pools alone, and none of their routes carries its labels.
-/
theorem register_again (h : Covers base index grants) (hgrants : ∀ g' ∈ grants, g'.Fits key spec base)
    (hg : g.Fits key spec base) (hapart : ∀ g' ∈ grants, g'.Apart g) :
    ∃ index', index.register key spec g.again = .ok (g.block, index') ∧
      Covers base index' (grants ++ [g]) := by
  obtain ⟨pool, hpool, hlt, hfree⟩ := hg.pool
  have hpersisted : g.again.persistedNetwork = .ok (some g.block) := by
    show (Network.parse g.block.text).map some = _
    rw [Network.parse_text hfree.canonical]
    rfl
  have hunowned : ∀ n, index.routes.get? n = some g.labels → n.length ≠ g.block.length := by
    intro n hget
    rcases h.get?_cases hget with hbase | ⟨g', hg', -, hlabels⟩
    · exact hg.unowned n hbase
    · exact absurd hlabels (hapart g' hg').2
  have hquery : pool ∈ index.query g.registration.selector := by
    obtain ⟨hget, hmatch⟩ := mem_query_iff.1 hpool
    exact mem_query_iff.2 ⟨h.get?_of_base hgrants hget, hmatch⟩
  have hfree' : index.IsFreeBlock pool.network g.block.length g.block := by
    refine ⟨hfree.canonical, rfl, hfree.inside, isClear_iff.2 fun n hn hmeet => ?_⟩
    obtain ⟨labels, hget⟩ := mem_networks_iff.1 hn
    rcases h.get?_cases hget with hbase | ⟨g', hg', rfl, -⟩
    · exact isClear_iff.1 hfree.clear n (mem_networks_iff.2 ⟨labels, hbase⟩) hmeet
    · rw [(hapart g' hg').1] at hmeet
      cases hmeet
  obtain ⟨index', hadd⟩ := hfree'.exists_add hlt g.labels
  have hdynamic : g.again.network = none := hg.dynamic
  obtain ⟨hnone, hblock, hothers⟩ := get?_of_add hfree.canonical hadd
  refine ⟨index', ?_, h.insert hnone hblock hothers fun g' => ?_⟩
  · unfold RouteIndex.register
    rw [hdynamic]
    exact registerDynamic_restores hg.asked hpersisted hunowned hquery hlt hfree' hadd
  · rw [List.mem_append, List.mem_singleton, or_comm]

end Covers

end RouteIndex

/-! ## The run -/

namespace Ledger

variable {key : ObjectKey} {spec : ScopeSpec} {base : RouteIndex} {pools : List Pool} {s : Ledger}
variable {c : Call}

/-- A ledger of a run over declared pools that released nothing but blocks of claims. -/
structure Traced (key : ObjectKey) (spec : ScopeSpec) (base : RouteIndex) (s : Ledger) : Prop where
  index : ∃ index, s.indexes.get? key = some index ∧ index.Holds spec s.held ∧
    base.Covers index s.held
  fits : ∀ g ∈ s.held, g.Fits key spec base
  labels : s.held.Pairwise fun g g' => g.labels ≠ g'.labels
  inserted : ∀ n ∈ s.inserted, base.routes.get? n = none

/-- A ledger over pools is a sound ledger. -/
theorem Traced.sound (h : s.Traced key spec base) : s.Sound key spec := by
  obtain ⟨index, hindex, hholds, -⟩ := h.index
  exact ⟨index, hindex, hholds⟩

/-- The blocks that are held over pools are apart, and so are their labels. -/
theorem Traced.apart (h : s.Traced key spec base) : s.held.Pairwise Grant.Apart := by
  obtain ⟨index, -, hholds, -⟩ := h.index
  exact List.Pairwise.and hholds.apart h.labels

/-- The ledger at the start of a run. -/
theorem traced_start (indexes : ScopeIndexes)
    (hbase : indexes.rebuild key pools = indexes.insert key base) :
    (start indexes key pools).Traced key spec base := by
  refine ⟨⟨base, ?_, .nil spec base, .refl base⟩, nofun, .nil, nofun⟩
  unfold start
  rw [hbase, SortedMap.get?_insert_self]

/-- A block that a registration inserts fits: its pool is a declared one, since no held block is a pool,
and over the declared pools alone it is free as well. -/
theorem Traced.fits_of_insert {r : Registration} {index : RouteIndex} {pool : Route} {block : Network}
    (h : s.Traced key spec base) (hindex : s.indexes.get? key = some index) (hkey : r.scopeKey = key)
    (hname : ∃ name, ResourceName.parse .scope key.name = .ok name) (hdynamic : r.network = none)
    (hasks : r.Asks spec block.length)
    (hunowned : ∀ n, index.routes.get? n = some r.combined.requirements → n.length ≠ block.length)
    (hpool : pool ∈ index.query r.selector) (hlt : pool.network.length < block.length)
    (hfree : index.IsFreeBlock pool.network block.length block) :
    Grant.Fits key spec base ⟨r, block⟩ := by
  obtain ⟨index₁, hindex₁, hholds, hcovers⟩ := h.index
  obtain rfl := Option.some.inj (hindex.symm.trans hindex₁)
  obtain ⟨hget, hmatch⟩ := RouteIndex.mem_query_iff.1 hpool
  rw [hcovers.rest _ (hholds.ne_pool hasks hpool hlt)] at hget
  refine ⟨hkey, hname, hdynamic, hasks, ?_, ?_⟩
  · refine ⟨pool, RouteIndex.mem_query_iff.2 ⟨hget, hmatch⟩, hlt, ?_⟩
    refine ⟨hfree.canonical, rfl, hfree.inside, RouteIndex.isClear_iff.2 ?_⟩
    intro n hn hmeet
    obtain ⟨labels, hn⟩ := RouteIndex.mem_networks_iff.1 hn
    exact RouteIndex.isClear_iff.1 hfree.clear n
      (RouteIndex.mem_networks_iff.2 ⟨labels, hcovers.get?_of_base h.fits hn⟩) hmeet
  · intro n hn
    exact hunowned n (hcovers.get?_of_base h.fits hn)

/-- A claim that owns no block of its length carries other labels than every claim that holds one. -/
theorem Traced.labels_ne {r : Registration} {index : RouteIndex} {block : Network}
    (h : s.Traced key spec base) (hindex : s.indexes.get? key = some index) (htag : r.NeutralTag)
    (hasks : r.Asks spec block.length)
    (hunowned : ∀ n, index.routes.get? n = some r.combined.requirements → n.length ≠ block.length) :
    ∀ g ∈ s.held, r.combined.requirements ≠ g.labels := by
  obtain ⟨index₁, hindex₁, hholds, -⟩ := h.index
  obtain rfl := Option.some.inj (hindex.symm.trans hindex₁)
  intro g hg heq
  refine hunowned g.block (heq ▸ hholds.present g hg) ?_
  have hneutral := hholds.neutral g hg
  refine (hholds.asked g hg).length_eq hasks (fun v hv => ?_) (fun v hv => ?_)
  · rw [← Registration.get?_combined htag.purpose, heq]
    exact (Registration.get?_combined hneutral.purpose).trans hv
  · rw [← Registration.get?_combined htag.family, heq]
    exact (Registration.get?_combined hneutral.family).trans hv

/-- A call keeps a ledger traced unless it releases a declared pool. -/
theorem Traced.step (h : s.Traced key spec base) (hc : c.Admissible key spec)
    (hrelease : c.ReleasesFrom s.inserted) : (s.step c).Traced key spec base := by
  have houtcome := step_outcome h.sound hc
  obtain ⟨index, hindex, hholds, hcovers⟩ := h.index
  generalize s.step c = s' at houtcome
  cases houtcome with
  | idle => exact h
  | @insert access r index₁ index' pool block hkey hname hdynamic htag hindex₁ hasks hunowned hpool hlt
      hfree hadd =>
    obtain rfl := Option.some.inj (hindex.symm.trans hindex₁)
    obtain ⟨hnone, hblock, hothers⟩ := RouteIndex.get?_of_add hfree.canonical hadd
    have hfits := h.fits_of_insert hindex hkey hname hdynamic hasks hunowned hpool hlt hfree
    constructor
    case index =>
      refine ⟨index', SortedMap.get?_insert_self _ _ _, ?_, ?_⟩
      · exact hholds.insert htag hasks hpool hlt hfree hadd
      · exact RouteIndex.Covers.insert (g := ⟨r, block⟩) hcovers hnone hblock hothers fun g' =>
          List.mem_cons
    case fits => exact List.forall_mem_cons.2 ⟨hfits, h.fits⟩
    case labels =>
      exact List.pairwise_cons.2 ⟨h.labels_ne hindex htag hasks hunowned, h.labels⟩
    case inserted =>
      exact List.forall_mem_cons.2 ⟨RouteIndex.get?_eq_none_of_fits hfits, h.inserted⟩
  | release hpersisted hindex₁ hroutes =>
    obtain rfl := Option.some.inj (hindex.symm.trans hindex₁)
    have hbase := h.inserted _ (hrelease _ hpersisted)
    constructor
    case index =>
      exact ⟨_, SortedMap.get?_insert_self _ _ _, hholds.erase hroutes, hcovers.erase hbase hroutes⟩
    case fits => exact fun g hg => h.fits g (List.mem_filter.1 hg).1
    case labels => exact h.labels.filter _
    case inserted => exact h.inserted

/-- A run that releases nothing but what it inserted goes on being one over the pools. -/
theorem Traced.run (h : s.Traced key spec base) {calls : List Call}
    (hcalls : ∀ c ∈ calls, c.Admissible key spec) (hreleases : s.ReleasesInserted calls) :
    (s.run calls).Traced key spec base := by
  induction calls generalizing s with
  | nil => exact h
  | cons c rest ih =>
    obtain ⟨hc, hrest⟩ := List.forall_mem_cons.1 hcalls
    obtain ⟨hrelease, hreleases⟩ := hreleases
    exact ih (h.step hc hrelease) hrest hreleases

end Ledger

/-! ## The rebuilt index -/

namespace ScopeIndexes

variable {key : ObjectKey} {spec : ScopeSpec} {base index : RouteIndex} {indexes : ScopeIndexes}

/-- The replay of claims that fit and lie apart, from any point of it on. -/
theorem replay_eq_ok {done : List Grant} {order : List (Access × Grant)}
    (hindex : indexes.get? key = some index) (hcovers : base.Covers index done)
    (haccess : ∀ x ∈ order, x.1.Offers key spec)
    (hfits : ∀ g ∈ done ++ order.map (·.2), g.Fits key spec base)
    (hapart : (done ++ order.map (·.2)).Pairwise Grant.Apart) :
    ∃ final, indexes.replay order = .ok (order.map (·.2.block), indexes.insert key final) ∧
      base.Covers final (done ++ order.map (·.2)) := by
  -- on the claims that are still to come; those that are done are kept with the index they made
  induction order generalizing indexes index done with
  | nil =>
    refine ⟨index, ?_, by rwa [List.map_nil, List.append_nil]⟩
    rw [SortedMap.insert_of_get? hindex]
    rfl
  | cons x rest ih =>
    obtain ⟨access, g⟩ := x
    obtain ⟨⟨scope, hfetch, hready, rfl⟩, haccess⟩ := List.forall_mem_cons.1 haccess
    have hg : g.Fits key scope.spec base := hfits g (by simp)
    have hdone : ∀ g' ∈ done, g'.Fits key scope.spec base := by
      intro g' hg'
      exact hfits g' (List.mem_append_left _ hg')
    have hbefore : ∀ g' ∈ done, g'.Apart g := by
      intro g' hg'
      exact (List.pairwise_append.1 hapart).2.2 g' hg' g List.mem_cons_self
    obtain ⟨index', hanswer, hcovers'⟩ := hcovers.register_again hdone hg hbefore
    have hkey : g.again.scopeKey = key := hg.scope
    have hcontains : indexes.contains key = true := by
      unfold SortedMap.contains
      rw [hindex]
      rfl
    have hregister : indexes.register access g.again = .ok (g.block, indexes.insert key index') := by
      refine register_eq_ok_iff.2 ⟨scope, index, index', ?_, ?_, ?_, ?_⟩
      · rw [hkey]
        exact readyScope_eq_ok_iff.2 ⟨hg.name, hfetch, hready, hcontains⟩
      · rw [hkey, hindex]
      · rw [hkey, hanswer]
      · rw [hkey]
    -- the first claim moves from those to come to those that are done
    have hsplit : done ++ ((access, g) :: rest).map (·.2) = (done ++ [g]) ++ rest.map (·.2) := by
      rw [List.map_cons, List.append_assoc, List.singleton_append]
    rw [hsplit] at hfits hapart ⊢
    have hindex' : (indexes.insert key index').get? key = some index' :=
      SortedMap.get?_insert_self _ _ _
    obtain ⟨final, hreplay, hfinal⟩ := ih hindex' hcovers' haccess hfits hapart
    refine ⟨final, ?_, hfinal⟩
    unfold replay
    rw [hregister]
    show (replay (indexes.insert key index') rest >>= _) = _
    rw [hreplay, SortedMap.insert_insert]
    rfl

end ScopeIndexes

namespace Ledger

/-- Replay in any order. After a run over declared pools that released nothing but blocks of claims, the
index is dropped, the same pools are declared in the same order, and every claim that holds a block
repeats the registration that inserted it. Each of them gets its block, and all indexes are as before.
-/
theorem replay_of_perm (indexes : ScopeIndexes) (key : ObjectKey) (spec : ScopeSpec)
    (pools : List Pool) (calls : List Call) (hcalls : ∀ c ∈ calls, c.Admissible key spec)
    (hreleases : (start indexes key pools).ReleasesInserted calls) (s : Ledger)
    (hs : s = (start indexes key pools).run calls) (order : List (Access × Grant))
    (horder : (order.map (·.2)).Perm s.held) (haccess : ∀ x ∈ order, x.1.Offers key spec) :
    (s.indexes.rebuild key pools).replay order = .ok (order.map (·.2.block), s.indexes) := by
  obtain ⟨base, hbase⟩ := ScopeIndexes.exists_rebuild key pools
  have htraced : s.Traced key spec base := by
    rw [hs]
    exact (traced_start indexes (hbase indexes)).run hcalls hreleases
  obtain ⟨index, hindex, -, hcovers⟩ := htraced.index
  have hfits : ∀ g ∈ [] ++ order.map Prod.snd, g.Fits key spec base := by
    intro g hg
    exact htraced.fits g (horder.mem_iff.1 hg)
  have hapart : ([] ++ order.map Prod.snd).Pairwise Grant.Apart :=
    (horder.pairwise_iff Grant.Apart.symm).2 htraced.apart
  have hstart : (s.indexes.rebuild key pools).get? key = some base := by
    rw [hbase, SortedMap.get?_insert_self]
  obtain ⟨final, hreplay, hfinal⟩ := ScopeIndexes.replay_eq_ok hstart (.refl base) haccess hfits hapart
  have hsame : final = index := hfinal.unique hcovers fun g => horder.mem_iff
  rw [hreplay, hbase, SortedMap.insert_insert, hsame, SortedMap.insert_of_get? hindex]

end Ledger

/-! ## A sample replay

The claims of the sample run that still hold a block come back, the last one first. -/

namespace Sample

def ledger : Ledger := (Ledger.start .empty key pools).run calls

def order : List (Access × Grant) := ledger.held.reverse.map fun g => (access, g)

/-- The store of the sample holds the scope as it has to be for the claims to register again. -/
theorem access_offers : access.Offers key spec :=
  ⟨scope, Access.fetchScope_eq_some_iff.2 (by decide +kernel), rfl, rfl⟩

/-- The calls of the sample release what they inserted. -/
theorem calls_releaseInserted : (Ledger.start .empty key pools).ReleasesInserted calls := by
  refine ⟨trivial, trivial, trivial, ?_, trivial⟩
  intro n hn
  have hmem : ∀ m ∈ (Network.parse "10.0.0.0/32").toOption, m ∈ ((Ledger.start .empty key pools).run
      (calls.take 3)).inserted := by decide +kernel
  change (Network.parse "10.0.0.0/32").map some = .ok (some n) at hn
  obtain ⟨m, hparse, heq⟩ := Except.map_eq_ok_iff.1 hn
  obtain rfl := Option.some.inj heq
  rw [hparse] at hmem
  exact hmem m rfl

end Sample

/-- In another order, the claims of the sample get their blocks back. -/
theorem Ledger.replay_of_perm_sample :
    (∀ c ∈ Sample.calls, c.Admissible Sample.key Sample.spec) ∧
      (start .empty Sample.key Sample.pools).ReleasesInserted Sample.calls ∧ Sample.order.length = 2 ∧
        (Sample.ledger.indexes.rebuild Sample.key Sample.pools).replay Sample.order
          = .ok (Sample.order.map (·.2.block), Sample.ledger.indexes) := by
  have horder : (Sample.order.map (·.2)).Perm Sample.ledger.held := by
    unfold Sample.order
    rw [List.map_map]
    show (Sample.ledger.held.reverse.map id).Perm _
    rw [List.map_id]
    exact List.reverse_perm _
  have haccess : ∀ x ∈ Sample.order, x.1.Offers Sample.key Sample.spec := by
    intro x hx
    obtain ⟨g, -, rfl⟩ := List.mem_map.1 hx
    exact Sample.access_offers
  exact ⟨Sample.calls_admissible, Sample.calls_releaseInserted, by decide +kernel,
    replay_of_perm .empty Sample.key Sample.spec Sample.pools Sample.calls Sample.calls_admissible
      Sample.calls_releaseInserted Sample.ledger rfl Sample.order horder haccess⟩

end AddressRegistry
