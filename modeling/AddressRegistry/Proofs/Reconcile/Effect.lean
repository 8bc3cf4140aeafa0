import AddressRegistry.Proofs.Allocation.Dynamic
import AddressRegistry.Proofs.Allocation.Operations
import AddressRegistry.Proofs.Network.RoundTrip
import AddressRegistry.Proofs.Store.Contents
import AddressRegistry.Reconcile.Effect

/-!
# What the effect of a pool or claim does to its scope

A pool or claim stands in one scope (`ObjectId.home?`), records the network that it holds
(`Object.recorded?`) and describes the route that it is to have: the network that it names, if it names
one (`Object.named?`), and its own labels (`Object.ownLabels?`).

Applying its effect either fails and changes nothing, or leaves it with a network whose route is present
(`Object.Obtained`, `Pool.apply_outcome`, `Claim.apply_outcome`). Undoing the effect removes one route
at most, the one of the network that `Object.retired?` gives (`Pool.undo_outcome`,
`Claim.undo_outcome`). No other index is touched.
-/

namespace AddressRegistry

/-! ## What an object says about its route -/

/-- The scope of a pool or claim. -/
def ObjectId.home? (id : ObjectId) : Option ObjectKey :=
  match id.kind with
  | .tenant | .scope => none
  | .pool | .claim =>
    (ResourceName.parent id.kind id.key.name).toOption.join.map fun name => ⟨id.key.space, name⟩

namespace Object

/-- The network that a pool declared, or that a claim holds, according to its status. -/
def recorded? : Object → Option Network
  | tenant _ | scope _ => none
  | pool p => p.status.declared.bind fun raw => (Network.parse raw).toOption
  | claim c => c.status.network.bind fun raw => (Network.parse raw).toOption

/-- The network that the specification names. -/
def named? : Object → Option Network
  | tenant _ | scope _ => none
  | pool p => (Network.parse p.spec.network).toOption
  | claim c => c.spec.network.bind fun raw => (Network.parse raw).toOption

/-- The labels that the object's own route is to have. -/
def ownLabels? : Object → Option Labels
  | tenant _ | scope _ => none
  | pool p => (Network.parse p.spec.network).toOption.map (declarationLabels p.spec.labels)
  | claim c => some (Selector.merge ⟨c.spec.selector⟩
      (sourceTagOrDefault c.spec.sourceTag c.info.name)).requirements

/-- Whether the labels of a pool were edited since it was declared. -/
def Relabelled : Object → Prop
  | tenant _ | scope _ | claim _ => False
  | pool p => ∃ n, Network.parse p.spec.network = .ok n ∧
      p.status.labels ≠ declarationLabels p.spec.labels n

/-- The network whose route goes when the object is finalized: the recorded one; a pool that records
none gives up the one that it names. -/
def retired? : Object → Option Network
  | tenant _ | scope _ => none
  | pool p => (Network.parse (p.status.declared.getD p.spec.network)).toOption
  | claim c => (claim c).recorded?

/-- Before an object declares the network that it names, it takes back another one that it recorded, or
the same one with other labels. -/
inductive Cleared (o : Object) (n : Network) (index : RouteIndex) : RouteIndex → Prop
  | unchanged (hrecord : ∀ m, o.recorded? = some m → m = n ∧ ¬ o.Relabelled) :
    Cleared o n index index
  | takenBack {m : Network} {index' : RouteIndex} (hrecord : o.recorded? = some m)
    (hedited : m ≠ n ∨ o.Relabelled) (hroutes : index'.routes = index.routes.erase m) :
    Cleared o n index index'

/-- How an object of a scope obtains a network, and what becomes of the index of the scope. -/
inductive Obtained (store : Store) (key : ObjectKey) (o : Object) (index : RouteIndex) :
    Network → RouteIndex → Prop
  /-- The object names its network. If the network has a route already, the route stays as it is. -/
  | declared {n : Network} {labels : Labels} {cleared index' : RouteIndex}
    (hnamed : o.named? = some n) (hlabels : o.ownLabels? = some labels)
    (hcleared : o.Cleared n index cleared) (hdeclare : cleared.declare n labels = .ok index') :
    Obtained store key o index n index'
  /-- A dynamic claim owns a block or is allocated one. -/
  | allocated {c : Claim} {r : Registration} {scope : Scope} {n : Network} {index' : RouteIndex}
    (hclaim : o = claim c) (hregistration : c.registration = .ok r) (hdynamic : r.network = none)
    (hscope : store.get? ⟨.scope, key⟩ = some (.scope scope))
    (houtcome : RouteIndex.RegisterOutcome index scope.spec r (.ok (n, index'))) :
    Obtained store key o index n index'

/-- The object is a claim that names no network. -/
def IsDynamic : Object → Prop
  | tenant _ | scope _ | pool _ => False
  | claim c => c.spec.network = none

section

variable {store : Store} {key : ObjectKey} {o o' : Object} {index index' : RouteIndex}
variable {n m : Network} {labels : Labels}

/-- The status has no part in the labels that an object's route is to have. -/
theorem SameBody.ownLabels? (h : o.SameBody o') : o'.ownLabels? = o.ownLabels? := by
  cases h <;> rfl

/-- Whether a claim names a network is a matter of its specification. -/
theorem SameBody.isDynamic_iff (h : o.SameBody o') : o'.IsDynamic ↔ o.IsDynamic := by
  cases h <;> rfl

/-- Common statuses do not matter to whether a claim names a network. -/
@[simp] theorem isDynamic_mapInfo (o : Object) (f : Metadata → Metadata) :
    (o.mapInfo f).IsDynamic ↔ o.IsDynamic := by
  cases o <;> rfl

/-- A claim that takes over a specification is dynamic when the specification is. -/
theorem isDynamic_copySpec? {o'' : Object} (h : o.copySpec? o' = some o'') :
    o''.IsDynamic ↔ o'.IsDynamic := by
  cases o <;> cases o' <;> cases h <;> rfl

/-- Metadata is no part of the record. -/
@[simp] theorem recorded?_mapInfo (o : Object) (f : Metadata → Metadata) :
    (o.mapInfo f).recorded? = o.recorded? := by
  cases o <;> rfl

/-- Editing a specification leaves the record, even if the two disagree then. The next pass settles that. -/
theorem recorded?_copySpec? {o'' : Object} (h : o.copySpec? o' = some o'') :
    o''.recorded? = o.recorded? := by
  cases o <;> cases o' <;> cases h <;> rfl

/-- An object that is finalized gives up what it records, or else what it names. -/
theorem recorded?_or_named?_of_retired? (h : o.retired? = some n) :
    o.recorded? = some n ∨ o.named? = some n := by
  cases o with
  | claim c => exact Or.inl h
  | pool p =>
    unfold Object.retired? at h
    unfold Object.recorded? Object.named?
    cases hdeclared : p.status.declared <;> simp_all
  | tenant _ => cases h
  | scope _ => cases h

/-- A network is named or allocated. -/
theorem not_isDynamic_of_named? (h : o.named? = some n) : ¬ o.IsDynamic := by
  cases o with
  | claim c =>
    intro hdynamic
    have hnone : c.spec.network = none := hdynamic
    simp [Object.named?, hnone] at h
  | tenant _ => exact not_false
  | scope _ => exact not_false
  | pool _ => exact not_false

/-- Only a route that the object recorded is taken back. -/
theorem Cleared.get?_of_ne (h : o.Cleared n index index') (hrecord : o.recorded? ≠ some m) :
    index'.routes.get? m = index.routes.get? m := by
  cases h with
  | unchanged _ => rfl
  | takenBack hm _ hroutes =>
    refine (RouteIndex.get?_of_erase hroutes).2 m ?_
    rintro rfl
    exact hrecord hm

/-- Taking a route back adds none. -/
theorem Cleared.get?_of_get? (h : o.Cleared n index index') (hget : index'.routes.get? m = some labels) :
    index.routes.get? m = some labels := by
  cases h with
  | unchanged _ => exact hget
  | takenBack _ _ hroutes => exact SortedMap.get?_of_get?_erase (hroutes ▸ hget)

/-- An object that obtains a network takes away no route but one that it recorded. -/
theorem Obtained.get?_of_ne (h : o.Obtained store key index n index') (hcanonical : n.IsCanonical)
    (hget : index.routes.get? m = some labels) (hrecord : o.recorded? ≠ some m) :
    index'.routes.get? m = some labels := by
  cases h with
  | declared _ _ hcleared hdeclare =>
    obtain ⟨hself, hothers⟩ := RouteIndex.get?_of_declare hcanonical hdeclare
    rw [← hcleared.get?_of_ne hrecord] at hget
    by_cases heq : m = n
    · subst heq
      rw [hself, hget]
      rfl
    · rw [hothers m heq, hget]
  | allocated _ _ _ _ houtcome =>
    cases houtcome with
    | owned _ _ => exact hget
    | inserted _ _ _ _ hfree hadd =>
      obtain ⟨hnone, -, hothers⟩ := RouteIndex.get?_of_add hfree.canonical hadd
      rw [hothers m, hget]
      rintro rfl
      rw [hnone] at hget
      cases hget

end

end Object

/-! ## The scope of an object -/

/-- The parent of a resource is found in its own namespace, under the name that its own name gives. -/
theorem Metadata.parentKey_eq_ok_iff {m : Metadata} {kind parent : Kind} {key : ObjectKey} :
    m.parentKey kind parent = .ok key ↔
      ∃ name, ResourceName.parent kind m.name = .ok (some name) ∧ key = ⟨m.space, name⟩ := by
  unfold Metadata.parentKey
  rw [Except.bind_eq_ok_iff]
  constructor
  · rintro ⟨_ | name, hparent, h⟩
    · cases h
    · cases h
      exact ⟨name, hparent, rfl⟩
  · rintro ⟨name, hparent, rfl⟩
    exact ⟨some name, hparent, rfl⟩

/-- The scope of a pool is the one that its name gives. -/
theorem Pool.home?_eq_some_iff {pool : Pool} {key : ObjectKey} :
    (Object.pool pool).id.home? = some key ↔ pool.info.parentKey .pool .scope = .ok key := by
  rw [Metadata.parentKey_eq_ok_iff]
  show (ResourceName.parent .pool pool.info.name).toOption.join.map _ = _ ↔ _
  simp only [Option.map_eq_some_iff, Option.join_eq_some_iff, Except.toOption_eq_some_iff]
  exact ⟨fun ⟨name, h, heq⟩ => ⟨name, h, heq.symm⟩, fun ⟨name, h, heq⟩ => ⟨name, h, heq.symm⟩⟩

namespace Claim

variable {claim : Claim} {r : Registration} {key : ObjectKey}

/-- What a claim registers, part by part. -/
theorem registration_eq_ok_iff :
    claim.registration = .ok r ↔
      ∃ scope, ResourceName.parent .claim claim.info.name = .ok (some scope) ∧
        r = ⟨claim.info.space, scope, claim.info.name, claim.spec.network, ⟨claim.spec.selector⟩,
          sourceTagOrDefault claim.spec.sourceTag claim.info.name, claim.status.network⟩ := by
  unfold registration
  rw [Except.bind_eq_ok_iff]
  constructor
  · rintro ⟨_ | scope, hparent, h⟩
    · cases h
    · cases h
      exact ⟨scope, hparent, rfl⟩
  · rintro ⟨scope, hparent, rfl⟩
    exact ⟨some scope, hparent, rfl⟩

/-- The scope that a claim registers in is its own. -/
theorem home?_of_registration (h : claim.registration = .ok r) :
    (Object.claim claim).id.home? = some r.scopeKey := by
  obtain ⟨scope, hparent, rfl⟩ := registration_eq_ok_iff.1 h
  show (ResourceName.parent .claim claim.info.name).toOption.join.map _ = _
  rw [hparent]
  rfl

/-- A claim is registered in the scope that its name gives. -/
theorem parentKey_of_registration (h : claim.registration = .ok r) :
    claim.info.parentKey .claim .scope = .ok r.scopeKey := by
  obtain ⟨scope, hparent, rfl⟩ := registration_eq_ok_iff.1 h
  exact Metadata.parentKey_eq_ok_iff.2 ⟨scope, hparent, rfl⟩

/-- A claim whose name gives a scope can be registered, there and with the network that its status records.
-/
theorem registration_of_parentKey (h : claim.info.parentKey .claim .scope = .ok key) :
    ∃ r, claim.registration = .ok r ∧ r.scopeKey = key ∧ r.persisted = claim.status.network := by
  obtain ⟨scope, hparent, rfl⟩ := Metadata.parentKey_eq_ok_iff.1 h
  exact ⟨_, registration_eq_ok_iff.2 ⟨scope, hparent, rfl⟩, rfl, rfl⟩

/-- What a claim records is what it registers as the network that it holds. -/
theorem recorded?_of_registration (h : claim.registration = .ok r) {n : Network} :
    (Object.claim claim).recorded? = some n ↔ r.persistedNetwork = .ok (some n) := by
  obtain ⟨scope, -, rfl⟩ := registration_eq_ok_iff.1 h
  unfold Object.recorded? Registration.persistedNetwork
  dsimp only
  cases claim.status.network with
  | none => simp
  | some raw => simp [Except.toOption_eq_some_iff, Except.map_eq_ok_iff]

/-- The labels that a claim's route is to have are those that it registers: the selector and the source tag
together. -/
theorem ownLabels?_of_registration (h : claim.registration = .ok r) :
    (Object.claim claim).ownLabels? = some r.combined.requirements := by
  obtain ⟨scope, -, rfl⟩ := registration_eq_ok_iff.1 h
  rfl

/-- A claim that registers a network names it. -/
theorem named?_of_registration (h : claim.registration = .ok r) {raw : String} {n : Network}
    (hnetwork : r.network = some raw) (hparse : Network.parse raw = .ok n) :
    (Object.claim claim).named? = some n := by
  obtain ⟨scope, -, rfl⟩ := registration_eq_ok_iff.1 h
  show claim.spec.network.bind _ = _
  rw [show claim.spec.network = some raw from hnetwork, Option.bind_some, hparse]
  rfl

end Claim

/-! ## Applying -/

namespace Object

/-- How applying the effect of a pool or claim ends: it fails and changes nothing, or the object records
the network that it obtained. -/
inductive ApplyOutcome (store : Store) (o : Object) (indexes : ScopeIndexes) :
    Except Failure Unit → Object → ScopeIndexes → Prop
  | refused (e : RegistryError) : ApplyOutcome store o indexes (.error (.refused e)) o indexes
  | applied {key : ObjectKey} {index index' : RouteIndex} {n : Network} {o' : Object}
    (hhome : o.id.home? = some key) (hindex : indexes.get? key = some index)
    (hbody : o.SameBody o') (hcanonical : n.IsCanonical) (hrecord : o'.recorded? = some n)
    (hobtained : o.Obtained store key index n index') :
    ApplyOutcome store o indexes (.ok ()) o' (indexes.insert key index')

end Object

namespace Pool

variable {store : Store} {indexes : ScopeIndexes} {pool : Pool} {key : ObjectKey}
variable {index : RouteIndex} {n : Network}

/-- A declaration is stale when the network was edited, or the labels that it was made with. -/
theorem isStale_eq_true_iff {m : Network} :
    pool.isStale m n = true ↔ m ≠ n ∨ pool.status.labels ≠ declarationLabels pool.spec.labels n := by
  simp [isStale]

/-- Whether a pool was relabelled is seen on its labels, when its network can be read. -/
theorem relabelled_iff (hparse : Network.parse pool.spec.network = .ok n) :
    (Object.pool pool).Relabelled ↔ pool.status.labels ≠ declarationLabels pool.spec.labels n := by
  show (∃ n, _ = _ ∧ _) ↔ _
  simp [hparse]

/-- A pool that recorded a declaration takes it back if it is stale, and forgets it then. -/
theorem retractStale_of_declared {raw : String} {m : Network}
    (hdeclared : pool.status.declared = some raw) (hparse : Network.parse pool.spec.network = .ok n)
    (hraw : Network.parse raw = .ok m) :
    pool.retractStale indexes key =
      if pool.isStale m n then
        (indexes.retract key raw).map fun indexes =>
          ({ pool with status := { pool.status with declared := none } }, indexes)
      else
        .ok (pool, indexes) := by
  unfold retractStale
  simp only [hdeclared, hparse, hraw]
  show (if pool.isStale m n then _ else _) = _
  split
  · cases indexes.retract key raw <;> rfl
  · rfl

/-- A stale declaration is taken back before the network is declared. -/
theorem retractStale_outcome (hparse : Network.parse pool.spec.network = .ok n)
    (hindex : indexes.get? key = some index) :
    (∃ e, pool.retractStale indexes key = .error e) ∨
      ∃ declared cleared,
        pool.retractStale indexes key
          = .ok ({ pool with status := { pool.status with declared } },
              indexes.insert key cleared) ∧
          (Object.pool pool).Cleared n index cleared := by
  -- in two of the three branches nothing is taken back, which is the same as putting the index back
  have hkept : Except.ok (pool, indexes) = (.ok ({ pool with status :=
      { pool.status with declared := pool.status.declared } }, indexes.insert key index)
        : Except RegistryError (Pool × ScopeIndexes)) := by
    rw [SortedMap.insert_of_get? hindex]
  cases hdeclared : pool.status.declared with
  | none =>
    refine Or.inr ⟨pool.status.declared, index, ?_, .unchanged fun m hm => ?_⟩
    · unfold retractStale
      rw [← hkept, hdeclared]
      rfl
    · simp [Object.recorded?, hdeclared] at hm
  | some raw =>
    cases hraw : Network.parse raw with
    | error e =>
      refine Or.inl ⟨e, ?_⟩
      unfold retractStale
      simp only [hdeclared, hparse, hraw]
      rfl
    | ok m =>
      rw [retractStale_of_declared hdeclared hparse hraw]
      have hrecord : (Object.pool pool).recorded? = some m := by
        simp [Object.recorded?, hdeclared, hraw, Except.toOption]
      cases hstale : pool.isStale m n with
      | false =>
        refine Or.inr ⟨pool.status.declared, index, hkept, .unchanged fun m' hm' => ?_⟩
        obtain rfl := Option.some.inj (hrecord.symm.trans hm')
        rw [relabelled_iff hparse]
        rw [← Bool.not_eq_true, isStale_eq_true_iff, not_or, not_not] at hstale
        exact hstale
      | true =>
        obtain ⟨cleared, hcleared⟩ := index.exists_erase m
        have hretract : indexes.retract key raw = .ok (indexes.insert key cleared) := by
          refine ScopeIndexes.retract_eq_ok_iff.2 ⟨m, hraw, Or.inr ⟨index, cleared, hindex, ?_, rfl⟩⟩
          rw [Network.parse_isCanonical hraw]
          exact hcleared
        refine Or.inr ⟨none, cleared, ?_, .takenBack hrecord ?_ hcleared⟩
        · rw [hretract]
          rfl
        · rw [relabelled_iff hparse]
          exact isStale_eq_true_iff.1 hstale

/-- A pool whose network cannot be read is left as it is, and so are the indexes. -/
theorem apply_of_parse_error {e : RegistryError} (hkey : pool.info.parentKey .pool .scope = .ok key)
    (hparse : Network.parse pool.spec.network = .error e) :
    pool.apply indexes = (.error e, pool, indexes) := by
  unfold apply retractStale ScopeIndexes.declare
  simp only [hkey]
  cases pool.status.declared with
  | none => simp only [pure, Except.pure, hparse]
  | some raw =>
    simp only [hparse]
    rfl

/-- A pool whose stale declaration cannot be taken back is left as it is, and so are the indexes. -/
theorem apply_of_retractStale_error {e : RegistryError}
    (hkey : pool.info.parentKey .pool .scope = .ok key)
    (hstale : pool.retractStale indexes key = .error e) :
    pool.apply indexes = (.error e, pool, indexes) := by
  unfold apply
  simp only [hkey, hstale]

/-- The network is declared once what is stale has been taken back. -/
theorem apply_of_declare {declared : Option String} {cleared index' : RouteIndex}
    (hkey : pool.info.parentKey .pool .scope = .ok key)
    (hparse : Network.parse pool.spec.network = .ok n)
    (hstale : pool.retractStale indexes key
      = .ok ({ pool with status := { pool.status with declared } }, indexes.insert key cleared))
    (hdeclare : cleared.declare n (declarationLabels pool.spec.labels n) = .ok index') :
    ∃ status, status.declared = some n.text ∧
      pool.apply indexes = (.ok (), { pool with status }, indexes.insert key index') := by
  have hmodify : ScopeIndexes.modify (indexes.insert key cleared) key (fun index =>
      (index.declare n (declarationLabels pool.spec.labels n)).map fun index => (n, index))
        = .ok (n, indexes.insert key index') := by
    refine ScopeIndexes.modify_eq_ok_iff.2 ⟨cleared, index', SortedMap.get?_insert_self _ _ _, ?_, ?_⟩
    · rw [hdeclare]
      rfl
    · rw [SortedMap.insert_insert]
  have hfind : ScopeIndexes.find (indexes.insert key index') key = .ok index' := by
    unfold ScopeIndexes.find
    rw [SortedMap.get?_insert_self]
  unfold apply ScopeIndexes.declare ScopeIndexes.usage
  simp only [hkey, hstale, hparse, hmodify, hfind]
  exact ⟨_, rfl, rfl⟩

/-- Applying the effect of a pool whose scope has an index. -/
theorem apply_outcome (store : Store) (hkey : pool.info.parentKey .pool .scope = .ok key)
    (hindex : indexes.get? key = some index) :
    Object.ApplyOutcome store (.pool pool) indexes (Failure.lift (pool.apply indexes).1)
      (.pool (pool.apply indexes).2.1) (pool.apply indexes).2.2 := by
  cases hparse : Network.parse pool.spec.network with
  | error e =>
    rw [apply_of_parse_error hkey hparse]
    exact .refused e
  | ok n =>
    rcases retractStale_outcome hparse hindex with ⟨e, hstale⟩ | ⟨declared, cleared, hstale, hcleared⟩
    · rw [apply_of_retractStale_error hkey hstale]
      exact .refused e
    · obtain ⟨index', hdeclare⟩ := cleared.exists_declare n (declarationLabels pool.spec.labels n)
      obtain ⟨status, hstatus, happly⟩ := apply_of_declare hkey hparse hstale hdeclare
      have hcanonical := Network.parse_isCanonical hparse
      rw [happly]
      refine .applied (home?_eq_some_iff.2 hkey) hindex (.pool status) hcanonical ?_
        (.declared ?_ ?_ hcleared hdeclare)
      · simp [Object.recorded?, hstatus, Network.parse_text hcanonical, Except.toOption]
      · simp [Object.named?, hparse, Except.toOption]
      · simp [Object.ownLabels?, hparse, Except.toOption]

end Pool

namespace Claim

variable {store : Store} {indexes : ScopeIndexes} {claim : Claim} {r : Registration}
variable {index : RouteIndex} {scope : Scope}

/-- A claim that holds no network has not moved. -/
theorem isMoved_of_persisted_none (h : r.persisted = none) : isMoved r = .ok false := by
  unfold isMoved
  rw [h]
  cases r.network <;> rfl

/-- A dynamic claim does not move: whatever it holds is its network. -/
theorem isMoved_of_network_none (h : r.network = none) : isMoved r = .ok false := by
  unfold isMoved
  rw [h]

/-- A claim with both texts has moved when they are read as different networks. -/
theorem isMoved_of_persisted {raw persisted : String} {n : Network} (hnetwork : r.network = some raw)
    (hparse : Network.parse raw = .ok n) (hpersisted : r.persisted = some persisted) :
    isMoved r = (Network.parse persisted).map (n != ·) := by
  unfold isMoved
  simp only [hnetwork, hpersisted, hparse]
  cases Network.parse persisted <;> rfl

/-- Whether a claim has moved cannot be told if it names what is no network. -/
theorem isMoved_of_parse_error {raw persisted : String} {e : RegistryError}
    (hnetwork : r.network = some raw) (hparse : Network.parse raw = .error e)
    (hpersisted : r.persisted = some persisted) : isMoved r = .error e := by
  unfold isMoved
  simp only [hnetwork, hpersisted, hparse]
  rfl

/-- A claim that stays where it is releases nothing. -/
theorem releaseMoved_of_isMoved_false (indexes : ScopeIndexes) (access : Access)
    (hselector : claim.checkSelector r = .ok ()) (hmoved : isMoved r = .ok false) :
    claim.releaseMoved r indexes access = .ok (claim, indexes) := by
  unfold releaseMoved
  rw [hselector, hmoved]
  rfl

/-- A claim that has moved gives up what it holds before it registers what it names. -/
theorem releaseMoved_of_isMoved_true {access : Access} {changed : ScopeIndexes}
    (hselector : claim.checkSelector r = .ok ()) (hmoved : isMoved r = .ok true)
    (hderegister : indexes.deregister access r = .ok changed) :
    claim.releaseMoved r indexes access = .ok (claim.withNetwork none, changed) := by
  unfold releaseMoved
  rw [hselector, hmoved]
  show (indexes.deregister access r >>= _) = _
  rw [hderegister]
  rfl

/-- Whatever is wrong with a selector or a text is found before anything is released. -/
theorem releaseMoved_of_error {access : Access} {e : RegistryError}
    (h : claim.checkSelector r = .error e ∨ claim.checkSelector r = .ok () ∧ isMoved r = .error e) :
    claim.releaseMoved r indexes access = .error (.refused e) := by
  unfold releaseMoved
  rcases h with hselector | ⟨hselector, hmoved⟩
  · rw [hselector]
    rfl
  · rw [hselector, hmoved]
    rfl

/-- A claim that names its network needs neither purpose nor family. -/
theorem checkSelector_of_network {raw : String} (hregistration : claim.registration = .ok r)
    (hnetwork : r.network = some raw) : claim.checkSelector r = .ok () := by
  obtain ⟨_, -, rfl⟩ := registration_eq_ok_iff.1 hregistration
  unfold checkSelector ClaimSpec.isDynamic
  rw [show claim.spec.network = some raw from hnetwork]
  rfl

/-- A claim that names a network first releases another one that it holds. -/
theorem releaseMoved_outcome {raw : String} {n : Network}
    (hregistration : claim.registration = .ok r) (hnetwork : r.network = some raw)
    (hparse : Network.parse raw = .ok n)
    (hready : indexes.readyScope ⟨store, []⟩ r.scopeKey = .ok scope)
    (hindex : indexes.get? r.scopeKey = some index) :
    (∃ e, claim.releaseMoved r indexes ⟨store, []⟩ = .error (.refused e)) ∨
      ∃ network cleared,
        claim.releaseMoved r indexes ⟨store, []⟩
          = .ok (claim.withNetwork network, indexes.insert r.scopeKey cleared) ∧
          (Object.claim claim).Cleared n index cleared := by
  have hselector := checkSelector_of_network hregistration hnetwork
  have hrecord := fun m => recorded?_of_registration hregistration (n := m)
  -- a claim that stays where it is keeps its network and the index
  have hstays : isMoved r = .ok false → claim.releaseMoved r indexes ⟨store, []⟩
      = .ok (claim.withNetwork claim.status.network, indexes.insert r.scopeKey index) := by
    intro hmoved
    rw [releaseMoved_of_isMoved_false _ _ hselector hmoved, SortedMap.insert_of_get? hindex]
    rfl
  cases hpersisted : r.persisted with
  | none =>
    refine Or.inr ⟨_, index, hstays (isMoved_of_persisted_none hpersisted), .unchanged fun m hm => ?_⟩
    rw [hrecord, Registration.persistedNetwork, hpersisted] at hm
    cases hm
  | some persisted =>
    have hmoved := isMoved_of_persisted hnetwork hparse hpersisted
    cases hheld : Network.parse persisted with
    | error e =>
      rw [hheld] at hmoved
      exact Or.inl ⟨e, releaseMoved_of_error (Or.inr ⟨hselector, hmoved⟩)⟩
    | ok m =>
      rw [hheld] at hmoved
      have hm : r.persistedNetwork = .ok (some m) := by
        unfold Registration.persistedNetwork
        simp only [hpersisted, hheld]
        rfl
      by_cases heq : n = m
      · refine Or.inr ⟨_, index, hstays ?_, .unchanged fun m' hm' => ?_⟩
        · rw [hmoved, heq, Except.map, bne_self_eq_false]
        · obtain rfl := Option.some.inj (((hrecord m).2 hm).symm.trans hm')
          exact ⟨heq.symm, id⟩
      · obtain ⟨cleared, hcleared⟩ := index.exists_erase m
        have hderegister :
            indexes.deregister ⟨store, []⟩ r = .ok (indexes.insert r.scopeKey cleared) := by
          refine ScopeIndexes.deregister_eq_ok_iff.2
            ⟨⟨scope, hready⟩, Or.inr ⟨m, index, cleared, hm, hindex, ?_, rfl⟩⟩
          rw [Network.parse_isCanonical hheld]
          exact hcleared
        refine Or.inr ⟨none, cleared, releaseMoved_of_isMoved_true hselector ?_ hderegister,
          .takenBack ((hrecord m).2 hm) (Or.inl (Ne.symm heq)) hcleared⟩
        rw [hmoved, Except.map, bne_iff_ne.2 heq]

/-- A claim that cannot release what it holds is left as it is, and so are the indexes. -/
theorem apply_of_releaseMoved_error {access : Access} {f : Failure}
    (hregistration : claim.registration = .ok r)
    (hrelease : claim.releaseMoved r indexes access = .error f) :
    claim.apply indexes access = (.error f, claim, indexes) := by
  unfold apply
  simp only [hregistration, hrelease]

/-- A claim that cannot be registered is left as it is. It had nothing to release, so the indexes are left
as well. -/
theorem apply_of_register_error {access : Access} {f : Failure}
    (hregistration : claim.registration = .ok r)
    (hrelease : claim.releaseMoved r indexes access = .ok (claim, indexes))
    (hregister : indexes.register access r = .error f) :
    claim.apply indexes access = (.error f, claim, indexes) := by
  unfold apply
  simp only [hregistration, hrelease, hregister]

/-- A claim that was registered records its network, whatever it recorded before. -/
theorem apply_of_register {access : Access} {claim' : Claim} {indexes' changed : ScopeIndexes}
    {n : Network} (hregistration : claim.registration = .ok r)
    (hrelease : claim.releaseMoved r indexes access = .ok (claim', indexes'))
    (hregister : indexes'.register access r = .ok (n, changed)) :
    claim.apply indexes access = (.ok (), claim'.withNetwork (some n.text), changed) := by
  unfold apply
  simp only [hregistration, hrelease, hregister]

/-- What a claim records as the text of a canonical network is read as that network. -/
theorem recorded?_withNetwork {n : Network} (h : n.IsCanonical) :
    (Object.claim (claim.withNetwork (some n.text))).recorded? = some n := by
  show (Network.parse n.text).toOption = some n
  rw [Network.parse_text h]
  rfl

/-- Applying the effect of a dynamic claim in a scope that is ready. -/
theorem apply_outcome_of_dynamic {index : RouteIndex} (hregistration : claim.registration = .ok r)
    (hnetwork : r.network = none) (hready : indexes.readyScope ⟨store, []⟩ r.scopeKey = .ok scope)
    (hindex : indexes.get? r.scopeKey = some index) :
    Object.ApplyOutcome store (.claim claim) indexes (claim.apply indexes ⟨store, []⟩).1
      (.claim (claim.apply indexes ⟨store, []⟩).2.1) (claim.apply indexes ⟨store, []⟩).2.2 := by
  cases hselector : claim.checkSelector r with
  | error e =>
    rw [apply_of_releaseMoved_error hregistration (releaseMoved_of_error (Or.inl hselector))]
    exact .refused e
  | ok _ =>
    have hrelease := releaseMoved_of_isMoved_false indexes ⟨store, []⟩ hselector
      (isMoved_of_network_none hnetwork)
    cases hregister : indexes.register ⟨store, []⟩ r with
    | error f =>
      obtain ⟨e, rfl⟩ := ScopeIndexes.register_refused hready hregister
      rw [apply_of_register_error hregistration hrelease hregister]
      exact .refused e
    | ok answer =>
      obtain ⟨n, changed⟩ := answer
      rw [apply_of_register hregistration hrelease hregister]
      obtain ⟨_, _, index', hready', hindex', hanswer, rfl⟩ :=
        ScopeIndexes.register_eq_ok_iff.1 hregister
      obtain rfl := Except.ok.inj (hready.symm.trans hready')
      obtain rfl := Option.some.inj (hindex.symm.trans hindex')
      have hfetch := (ScopeIndexes.readyScope_eq_ok_iff.1 hready).2.1
      have houtcome := index.register_outcome r.scopeKey scope.spec hnetwork
      rw [hanswer] at houtcome
      have hcanonical := houtcome.isCanonical
      exact .applied (home?_of_registration hregistration) hindex (.claim _) hcanonical
        (recorded?_withNetwork hcanonical)
        (.allocated rfl hregistration hnetwork (Access.fetchScope_eq_some_iff.1 hfetch) houtcome)

/-- A claim that names a text which is no network is refused. -/
theorem apply_of_parse_error {raw : String} {e : RegistryError}
    (hregistration : claim.registration = .ok r) (hnetwork : r.network = some raw)
    (hparse : Network.parse raw = .error e)
    (hready : indexes.readyScope ⟨store, []⟩ r.scopeKey = .ok scope) :
    ∃ e, claim.apply indexes ⟨store, []⟩ = (.error (.refused e), claim, indexes) := by
  have hselector := checkSelector_of_network hregistration hnetwork
  cases hpersisted : r.persisted with
  | some persisted =>
    have hmoved := isMoved_of_parse_error hnetwork hparse hpersisted
    exact ⟨e, apply_of_releaseMoved_error hregistration
      (releaseMoved_of_error (Or.inr ⟨hselector, hmoved⟩))⟩
  | none =>
    have hrelease := releaseMoved_of_isMoved_false indexes ⟨store, []⟩ hselector
      (isMoved_of_persisted_none hpersisted)
    cases hregister : indexes.register ⟨store, []⟩ r with
    | error f =>
      obtain ⟨e, rfl⟩ := ScopeIndexes.register_refused hready hregister
      exact ⟨e, apply_of_register_error hregistration hrelease hregister⟩
    | ok answer =>
      obtain ⟨_, _, _, -, -, hanswer, -⟩ := ScopeIndexes.register_eq_ok_iff.1 hregister
      rw [RouteIndex.register_of_parse_error hnetwork hparse] at hanswer
      cases hanswer

/-- Applying the effect of a claim that names a network, in a scope that is ready. -/
theorem apply_outcome_of_network {index : RouteIndex} {raw : String}
    (hregistration : claim.registration = .ok r) (hnetwork : r.network = some raw)
    (hready : indexes.readyScope ⟨store, []⟩ r.scopeKey = .ok scope)
    (hindex : indexes.get? r.scopeKey = some index) :
    Object.ApplyOutcome store (.claim claim) indexes (claim.apply indexes ⟨store, []⟩).1
      (.claim (claim.apply indexes ⟨store, []⟩).2.1) (claim.apply indexes ⟨store, []⟩).2.2 := by
  cases hparse : Network.parse raw with
  | error e =>
    obtain ⟨e, hrefused⟩ := apply_of_parse_error hregistration hnetwork hparse hready
    rw [hrefused]
    exact .refused e
  | ok n =>
    rcases releaseMoved_outcome hregistration hnetwork hparse hready hindex with
      ⟨e, hrelease⟩ | ⟨network, cleared, hrelease, hcleared⟩
    · rw [apply_of_releaseMoved_error hregistration hrelease]
      exact .refused e
    · obtain ⟨index', hdeclare⟩ := cleared.exists_declare n r.combined.requirements
      have hregister : ScopeIndexes.register (indexes.insert r.scopeKey cleared) ⟨store, []⟩ r
          = .ok (n, indexes.insert r.scopeKey index') := by
        refine ScopeIndexes.register_eq_ok_iff.2 ⟨scope, cleared, index',
          ScopeIndexes.readyScope_insert hready cleared, SortedMap.get?_insert_self _ _ _, ?_, ?_⟩
        · exact (RouteIndex.register_of_network_eq_ok_iff hnetwork).2 ⟨hparse, hdeclare⟩
        · rw [SortedMap.insert_insert]
      rw [apply_of_register hregistration hrelease hregister]
      have hcanonical := Network.parse_isCanonical hparse
      exact .applied (home?_of_registration hregistration) hindex (.claim _) hcanonical
        (recorded?_withNetwork hcanonical)
        (.declared (named?_of_registration hregistration hnetwork hparse)
          (ownLabels?_of_registration hregistration) hcleared hdeclare)

/-- Applying the effect of a claim in a scope that is ready. -/
theorem apply_outcome (hregistration : claim.registration = .ok r)
    (hready : indexes.readyScope ⟨store, []⟩ r.scopeKey = .ok scope) :
    Object.ApplyOutcome store (.claim claim) indexes (claim.apply indexes ⟨store, []⟩).1
      (.claim (claim.apply indexes ⟨store, []⟩).2.1) (claim.apply indexes ⟨store, []⟩).2.2 := by
  obtain ⟨index, hindex⟩ :=
    Option.isSome_iff_exists.1 (ScopeIndexes.readyScope_eq_ok_iff.1 hready).2.2.2
  cases hnetwork : r.network with
  | none => exact apply_outcome_of_dynamic hregistration hnetwork hready hindex
  | some raw => exact apply_outcome_of_network hregistration hnetwork hready hindex

end Claim

/-! ## Undoing -/

namespace Object

/-- How undoing the effect of an object ends, if it succeeds. -/
inductive UndoOutcome (o : Object) (indexes : ScopeIndexes) : ScopeIndexes → Prop
  | nothing : UndoOutcome o indexes indexes
  /-- The index of a scope goes with the scope. -/
  | dropped (hscope : o.kind = .scope) : UndoOutcome o indexes (indexes.erase o.key)
  /-- A pool or claim gives up one route. -/
  | removed {key : ObjectKey} {index index' : RouteIndex} {n : Network}
    (hhome : o.id.home? = some key) (hindex : indexes.get? key = some index)
    (hretired : o.retired? = some n) (hroutes : index'.routes = index.routes.erase n) :
    UndoOutcome o indexes (indexes.insert key index')

end Object

/-- Undoing a pool takes one route out of its scope: of the declaration on record, or else of the network
that it names. -/
theorem Pool.undo_outcome {pool : Pool} {indexes changed : ScopeIndexes}
    (h : pool.undo indexes = .ok changed) : (Object.pool pool).UndoOutcome indexes changed := by
  obtain ⟨key, hkey, h⟩ := Except.bind_eq_ok_iff.1 h
  obtain ⟨n, hparse, ⟨-, rfl⟩ | ⟨index, index', hindex, hroutes, rfl⟩⟩ :=
    ScopeIndexes.retract_eq_ok_iff.1 h
  · exact .nothing
  · rw [Network.parse_isCanonical hparse] at hroutes
    exact .removed (home?_eq_some_iff.2 hkey) hindex (Except.toOption_eq_some_iff.2 hparse) hroutes

namespace Claim

variable {claim : Claim} {indexes changed : ScopeIndexes} {store : Store}

/-- Undoing the effect of a claim does not crash. -/
theorem undo_eq_error {f : Failure} (h : claim.undo indexes ⟨store, []⟩ = .error f) :
    ∃ e, f = .refused e := by
  rcases Except.bind_eq_error_iff.1 h with hregistration | ⟨r, -, h⟩
  · obtain ⟨e, -, rfl⟩ := Failure.lift_eq_error_iff.1 hregistration
    exact ⟨e, rfl⟩
  · cases hderegister : indexes.deregister ⟨store, []⟩ r with
    | ok changed =>
      rw [hderegister] at h
      cases h
    | error f' =>
      obtain ⟨e, rfl⟩ := ScopeIndexes.deregister_eq_error hderegister
      rw [hderegister] at h
      dsimp only at h
      split at h
      · cases h
      · cases h
        exact ⟨e, rfl⟩

/-- Undoing a claim takes the route on record out of its scope. A claim with none on record, or whose scope
has gone, gives nothing up. -/
theorem undo_outcome (h : claim.undo indexes ⟨store, []⟩ = .ok changed) :
    (Object.claim claim).UndoOutcome indexes changed := by
  obtain ⟨r, hregistration, h⟩ := Except.bind_eq_ok_iff.1 h
  have hregistration := Failure.lift_eq_ok_iff.1 hregistration
  cases hderegister : indexes.deregister ⟨store, []⟩ r with
  | error f =>
    rw [hderegister] at h
    obtain ⟨e, rfl⟩ := ScopeIndexes.deregister_eq_error hderegister
    dsimp only at h
    split at h
    · cases h
      exact .nothing
    · cases h
  | ok changed' =>
    rw [hderegister] at h
    cases h
    obtain ⟨-, ⟨-, rfl⟩ | ⟨n, index, index', hpersisted, hindex, hroutes, rfl⟩⟩ :=
      ScopeIndexes.deregister_eq_ok_iff.1 hderegister
    · exact .nothing
    · rw [Registration.isCanonical_of_persistedNetwork hpersisted] at hroutes
      exact .removed (home?_of_registration hregistration) hindex
        ((recorded?_of_registration hregistration).2 hpersisted) hroutes

end Claim

end AddressRegistry
