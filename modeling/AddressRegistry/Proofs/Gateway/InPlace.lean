import AddressRegistry.Proofs.Gateway.Leaks
import AddressRegistry.Proofs.InPlace

/-!
# Calls made in place

A gateway changes indexes, ledger, retry counters and queues where they stand, and nothing takes a change
back when a later step of the same call fails. Written as such programs, a request and a release come to
what `Controller.request` and `Controller.release` say all the same (`Controller.requestInPlace_eq`,
`Controller.releaseInPlace_eq`): each asks and checks first, changes one index in the last step that can
fail, and only then touches the ledger, the counters and the queues. So a call that is refused has changed
nothing (`Controller.refused_call_keeps_everything`).
-/

namespace AddressRegistry

/-! ## Changes of one index -/

namespace RouteIndex

/-- Insert a route. -/
def addInPlace (network : Network) (labels : Labels) : EStateM RegistryError RouteIndex Unit := do
  let index ← asking fun index => index.add network labels
  set index

/-- Remove a route. -/
def deleteInPlace (network : Network) : EStateM RegistryError RouteIndex Unit := do
  let answer ← asking fun index => index.delete network
  set answer.2

/-- Remove a route that may be gone. -/
def releaseInPlace (network : Network) : EStateM RegistryError RouteIndex Unit :=
  tolerating (deleteInPlace network) RegistryError.isNotFound

/-- Insert the route of a given network, which may be there. -/
def registerExplicitInPlace (r : Registration) (network : Network) :
    EStateM RegistryError RouteIndex Network := do
  tolerating (addInPlace network r.combined.requirements) RegistryError.isConflict
  return network

/-- Insert the route of a block that was found free. -/
def insertInPlace (r : Registration) (network : Network) : EStateM RegistryError RouteIndex Network := do
  addInPlace network r.combined.requirements
  return network

/-- Find the block of a claim, or restore or carve one. -/
def registerDynamicInPlace (scope : ObjectKey) (spec : ScopeSpec) (r : Registration) (purpose : String)
    (family : Family) (persisted : Option Network) : EStateM RegistryError RouteIndex Network := do
  let index ← get
  let matching := index.query r.selector
  if matching.isEmpty then
    throw (.noAvailableRoute r.selector.text)
  match spec.lengthFor purpose family with
  | none => throw (.missingConfiguration (.noDefaultLength scope purpose family))
  | some length =>
    match Route.pickUnique ((index.owned r.combined).filter fun o => o.network.length == length) with
    | some route => return route.network
    | none =>
      let pools := poolsFor matching length
      if pools.isEmpty then
        throw (.noAvailableRoute r.selector.text)
      match persisted.filter (index.canRestore pools length) with
      | some restored => insertInPlace r restored
      | none => do
        let network ← asking fun index => index.carve spec.strategy length r pools
        insertInPlace r network

variable {index : RouteIndex} {r : Registration} {network : Network} {purpose : String} {family : Family}
variable {persisted : Option Network}

/-- An addition in place is the addition of an index: it looks for the place before it writes, so a refusal
has written nothing. -/
theorem addInPlace_comesTo (index : RouteIndex) (network : Network) (labels : Labels) :
    ComesTo (addInPlace network labels) index
      (index.add network labels >>= fun index => .ok ((), index)) :=
  ComesTo.asking_bind fun _ _ => rfl

/-- A removal in place is the removal of an index, since the only step that fails is the look-up before it.
-/
theorem releaseInPlace_comesTo (index : RouteIndex) (network : Network) :
    ComesTo (releaseInPlace network) index ((index.release network).map fun index => ((), index)) := by
  have hdelete : ComesTo (deleteInPlace network) index
      (index.delete network >>= fun answer => .ok ((), answer.2)) := ComesTo.asking_bind fun _ _ => rfl
  have h := hdelete.tolerating RegistryError.isNotFound
  unfold ComesTo at h ⊢
  refine h.trans ?_
  unfold ComesTo.pardon release tolerateNotFound
  cases index.delete network with
  | ok answer => rfl
  | error e =>
    dsimp only [bind, Except.bind, Except.map]
    cases e.isNotFound <;> rfl

/-- Registering a network that was asked for. A `Conflict` counts as success there, and the index stays as
it is either way, which is why a tolerated refusal needs no undoing. -/
theorem registerExplicitInPlace_comesTo (index : RouteIndex) (r : Registration) (network : Network) :
    ComesTo (registerExplicitInPlace r network) index
      (tolerateConflict index (index.add network r.combined.requirements) >>=
        fun index => .ok (network, index)) := by
  have hadd := (addInPlace_comesTo index network r.combined.requirements).tolerating
    RegistryError.isConflict
  have h := hadd.bind_sure (k := fun _ => pure network) (fun _ index => (network, index)) fun _ _ => rfl
  unfold ComesTo at h ⊢
  refine h.trans ?_
  unfold ComesTo.pardon tolerateConflict
  cases index.add network r.combined.requirements with
  | ok _ => rfl
  | error e =>
    dsimp only [bind, Except.bind]
    cases e.isConflict <;> rfl

/-- Inserting the network that a search answered or a restore checked: an addition under the labels of the
registration. -/
theorem insertInPlace_comesTo (index : RouteIndex) (r : Registration) (network : Network) :
    ComesTo (insertInPlace r network) index
      (index.add network r.combined.requirements >>= fun index => .ok (network, index)) := by
  have h := (addInPlace_comesTo index network r.combined.requirements).bind_sure
    (k := fun _ => pure network) (fun _ index => (network, index)) fun _ _ => rfl
  unfold ComesTo at h ⊢
  refine h.trans ?_
  cases index.add network r.combined.requirements <;> rfl

/-- The dynamic way in place. Every question it asks (the routes with the claim's labels, the recorded
network, the pools, the search in each) leaves the index alone, and the one insertion comes last. So the
proof follows the questions, and each branch ends in an answer, a refusal or the insertion. -/
theorem registerDynamicInPlace_comesTo (index : RouteIndex) (scope : ObjectKey) (spec : ScopeSpec)
    (hpurpose : r.purpose = .ok purpose) (hfamily : r.family = .ok family)
    (hpersisted : r.persistedNetwork = .ok persisted) :
    ComesTo (registerDynamicInPlace scope spec r purpose family persisted) index
      (index.registerDynamic scope spec r) := by
  unfold registerDynamicInPlace registerDynamic
  rw [hpurpose, hfamily, hpersisted]
  refine ComesTo.ite (fun _ => rfl) fun _ => ?_
  cases spec.lengthFor purpose family with
  | none => rfl
  | some length =>
    dsimp only
    cases Route.pickUnique ((index.owned r.combined).filter fun o => o.network.length == length) with
    | some route => rfl
    | none =>
      refine ComesTo.ite (fun _ => rfl) fun _ => ?_
      cases persisted.filter (index.canRestore (poolsFor (index.query r.selector) length) length) with
      | some restored => exact insertInPlace_comesTo index r restored
      | none => exact ComesTo.asking_bind fun network _ => insertInPlace_comesTo index r network

end RouteIndex

/-! ## Calls -/

/-- A program that changes a controller and a gateway. -/
abbrev Errand (α : Type) : Type := EStateM Failure (Controller × Gateway) α

namespace Errand

/-- Work out something that may fail. -/
def reckon {α : Type} (x : Except RegistryError α) : Errand α := asking fun _ => Failure.lift x

/-- Change the index of a scope, whatever the change ends in. -/
def withIndex {α : Type} (scope : ObjectKey) (p : EStateM RegistryError RouteIndex α) : Errand α :=
  fun (c, g) =>
    match c.indexes.get? scope with
    | none => .error (.refused (.notReady (.indexMissing scope))) (c, g)
    | some index =>
      match p index with
      | .ok a index => .ok a ({ c with indexes := c.indexes.insert scope index }, g)
      | .error e index => .error (.refused e) ({ c with indexes := c.indexes.insert scope index }, g)

/-- The scope of a call, which has to be ready. -/
def readyScope (scope : ObjectKey) : Errand Scope :=
  asking fun (c, _) => c.indexes.readyScope c.access scope

/-- Create or find the network of a registration. -/
def register (r : Registration) : Errand Network := do
  let scope ← readyScope r.scopeKey
  match r.network with
  | some raw => do
    let network ← reckon (Network.parse raw)
    withIndex r.scopeKey (RouteIndex.registerExplicitInPlace r network)
  | none => do
    let purpose ← reckon r.purpose
    let family ← reckon r.family
    let persisted ← reckon r.persistedNetwork
    withIndex r.scopeKey (RouteIndex.registerDynamicInPlace r.scopeKey scope.spec r purpose family persisted)

/-- Release the network that a registration held before. -/
def deregister (r : Registration) : Errand Unit := do
  let _ ← readyScope r.scopeKey
  match ← reckon r.persistedNetwork with
  | none => return ()
  | some network => withIndex r.scopeKey (RouteIndex.releaseInPlace network)

/-- Hand out a network and put it on record. -/
def request (q : ClaimRequest) (network : Option String) : Errand String := do
  let r ← asking fun (_, g) => Failure.lift (q.registration network (g.ledger.get? q.key))
  let granted ← register r
  modify fun (c, g) => (c, { g with ledger := g.ledger.insert q.key granted.text })
  return granted.text

/-- Take a network back and off the record. -/
def release (q : ClaimRequest) : Errand Unit := do
  let r ← reckon (q.registration none none)
  let persisted ← asking fun (c, g) => Failure.lift (g.heldNetwork c.indexes q r)
  deregister { r with persisted }
  modify fun (c, g) => (c, { g with ledger := g.ledger.erase q.key })

/-- Answer a call: wake what depends on the claim when it succeeded, and turn an error into a status. -/
def respond (q : ClaimRequest) (p : Errand (Option String)) (s : Controller × Gateway) :
    Option Controller.Reply × Controller × Gateway :=
  match p s with
  | .error .crashed s => (none, s)
  | .error (.refused e) s => (some (.error (.ofError e)), s)
  | .ok answer (c, g) =>
    match c.served g q with
    | (.ok (), c) => (some (.ok answer), c, g)
    | (.error _, c) => (none, c, g)

variable {c : Controller} {g : Gateway} {r : Registration} {scope : Scope} {α : Type}

/-- What a change of one index comes to, the whole state comes to as well. -/
theorem withIndex_comesTo {p : EStateM RegistryError RouteIndex α} {key : ObjectKey}
    {f : RouteIndex → Except RegistryError (α × RouteIndex)} (h : ∀ index, ComesTo p index (f index)) :
    ComesTo (withIndex key p) (c, g) ((Failure.lift (c.indexes.modify key f)).map
      fun (a, indexes) => (a, { c with indexes }, g)) := by
  unfold ComesTo withIndex ScopeIndexes.modify ScopeIndexes.find
  cases hindex : c.indexes.get? key with
  | none =>
    dsimp only
    rw [hindex]
    rfl
  | some index =>
    have hp := h index
    unfold ComesTo at hp
    dsimp only
    rw [hindex]
    dsimp only
    rw [hp]
    dsimp only [bind, Except.bind]
    cases f index with
    | error e =>
      dsimp only [Failure.lift, Except.map]
      rw [SortedMap.insert_of_get? hindex]
    | ok answer => rfl

/-- What is worked out on the way plays no part in the outcome unless it fails. -/
theorem reckon_bind {β : Type} {x : Except RegistryError α} {k : α → Errand β} {s : Controller × Gateway}
    {y : Except Failure (β × Controller × Gateway)} (h : ∀ a, x = .ok a → ComesTo (k a) s y)
    (herror : ∀ e, x = .error e → y = .error (.refused e)) : ComesTo (reckon x >>= k) s y := by
  cases hx : x with
  | error e =>
    rw [herror e hx]
    rfl
  | ok a => exact h a hx

/-- A scope that is there and a call that is refused whatever the index holds: the failure is the refusal
itself, which is how the checks before the first look at an index come out. -/
theorem lift_modify_of_error {indexes : ScopeIndexes} {key : ObjectKey} {e : RegistryError}
    {f : RouteIndex → Except RegistryError (α × RouteIndex)} (hindex : indexes.contains key = true)
    (hf : ∀ index, f index = .error e) : Failure.lift (indexes.modify key f) = .error (.refused e) := by
  obtain ⟨index, hget⟩ := Option.isSome_iff_exists.1 hindex
  unfold ScopeIndexes.modify ScopeIndexes.find
  rw [hget]
  show Failure.lift (f index >>= _) = _
  rw [hf index]
  rfl

/-- A registration in place is the registration of the scope indexes, run on a controller: the same answer
on either side, and on a failure the controller is the one from before. -/
theorem register_comesTo (c : Controller) (g : Gateway) (r : Registration) :
    ComesTo (register r) (c, g) ((c.indexes.register c.access r).map
      fun (n, indexes) => (n, { c with indexes }, g)) := by
  unfold register ScopeIndexes.register
  rw [Except.map_bind]
  refine ComesTo.asking_bind fun scope hready => ?_
  have hindex := (ScopeIndexes.readyScope_eq_ok_iff.1 hready).2.2.2
  -- a check made before the index is looked at fails the call whatever the index holds
  have hfails : ∀ e, (∀ index : RouteIndex, index.register r.scopeKey scope.spec r = .error e) →
      (Failure.lift (c.indexes.modify r.scopeKey fun index => index.register r.scopeKey scope.spec r)).map
        (fun (n, indexes) => (n, ({ c with indexes } : Controller), g)) = .error (.refused e) := by
    intro e hf
    rw [lift_modify_of_error hindex hf]
    rfl
  cases hnetwork : r.network with
  | some raw =>
    refine reckon_bind (fun network hparse => withIndex_comesTo fun index => ?_) fun e hparse =>
      hfails e fun index => ?_
    · unfold RouteIndex.register RouteIndex.registerExplicit
      simp only [hnetwork, hparse]
      exact RouteIndex.registerExplicitInPlace_comesTo index r network
    · unfold RouteIndex.register RouteIndex.registerExplicit
      simp only [hnetwork, hparse]
      rfl
  | none =>
    have hdynamic : ∀ index : RouteIndex, index.register r.scopeKey scope.spec r
        = index.registerDynamic r.scopeKey scope.spec r := by
      intro index
      unfold RouteIndex.register
      rw [hnetwork]
    refine reckon_bind (fun purpose hpurpose => reckon_bind (fun family hfamily =>
      reckon_bind (fun persisted hpersisted => withIndex_comesTo fun index => ?_) ?_) ?_) ?_
    · rw [hdynamic]
      exact RouteIndex.registerDynamicInPlace_comesTo index r.scopeKey scope.spec hpurpose hfamily hpersisted
    · refine fun e he => hfails e fun index => ?_
      rw [hdynamic, RouteIndex.registerDynamic, hpurpose, hfamily, he]
      rfl
    · refine fun e he => hfails e fun index => ?_
      rw [hdynamic, RouteIndex.registerDynamic, hpurpose, he]
      rfl
    · refine fun e he => hfails e fun index => ?_
      rw [hdynamic, RouteIndex.registerDynamic, he]
      rfl

/-- A release in place is the release of the scope indexes, run on a controller. -/
theorem deregister_comesTo (c : Controller) (g : Gateway) (r : Registration) :
    ComesTo (deregister r) (c, g) ((c.indexes.deregister c.access r).map
      fun indexes => ((), { c with indexes }, g)) := by
  unfold deregister ScopeIndexes.deregister
  rw [Except.map_bind]
  refine ComesTo.asking_bind fun scope _ => ?_
  rw [Except.map_bind]
  refine ComesTo.asking_bind fun persisted _ => ?_
  cases persisted with
  | none => rfl
  | some network =>
    have h : ComesTo (withIndex r.scopeKey (RouteIndex.releaseInPlace network)) (c, g) _ :=
      withIndex_comesTo fun index => RouteIndex.releaseInPlace_comesTo index network
    unfold ComesTo at h ⊢
    refine h.trans ?_
    dsimp only
    cases Failure.lift (c.indexes.modify r.scopeKey fun index =>
      (index.release network).map fun index => ((), index)) <;> rfl

/-- A request in place is `Gateway.request`. The ledger is written after the registration, which is the last
step that can fail, so no failure leaves a record behind. -/
theorem request_comesTo (c : Controller) (g : Gateway) (q : ClaimRequest) (network : Option String) :
    ComesTo (request q network) (c, g) ((g.request c.indexes c.access q network).map
      fun (text, indexes, g) => (text, { c with indexes }, g)) := by
  unfold request Gateway.request
  rw [Except.map_bind]
  refine ComesTo.asking_bind fun r _ => ?_
  have h := (register_comesTo c g r).bind_sure (k := fun granted => do
      modify fun (c, g) => (c, { g with ledger := g.ledger.insert q.key granted.text })
      return granted.text)
    (fun granted (c, g) => (granted.text, c, { g with ledger := g.ledger.insert q.key granted.text }))
    fun _ _ => rfl
  unfold ComesTo at h ⊢
  refine h.trans ?_
  cases c.indexes.register c.access r <;> rfl

/-- A release in place is `Gateway.release`. The record goes after the route went, so a release that is
refused keeps both. -/
theorem release_comesTo (c : Controller) (g : Gateway) (q : ClaimRequest) :
    ComesTo (release q) (c, g) ((g.release c.indexes c.access q).map
      fun (indexes, g) => ((), { c with indexes }, g)) := by
  unfold release Gateway.release
  rw [Except.map_bind]
  refine ComesTo.asking_bind fun r _ => ?_
  rw [Except.map_bind]
  refine ComesTo.asking_bind fun persisted _ => ?_
  have h := (deregister_comesTo c g { r with persisted }).bind_sure
    (k := fun _ => modify fun (c, g) => (c, { g with ledger := g.ledger.erase q.key }))
    (fun _ (c, g) => ((), c, { g with ledger := g.ledger.erase q.key })) fun _ _ => rfl
  unfold ComesTo at h ⊢
  refine h.trans ?_
  cases c.indexes.deregister c.access { r with persisted } <;> rfl

end Errand

namespace Controller

/-- Hand out a network through a gateway, in place. -/
def requestInPlace (c : Controller) (g : Gateway) (q : ClaimRequest) (network : Option String) :
    Option Reply × Controller × Gateway :=
  Errand.respond q (do return some (← Errand.request q network)) (c, g)

/-- Take a network back through a gateway, in place. -/
def releaseInPlace (c : Controller) (g : Gateway) (q : ClaimRequest) :
    Option Reply × Controller × Gateway :=
  Errand.respond q (do
    Errand.release q
    return none) (c, g)

/-- The whole call in place, retry counters and queues included, is `Controller.request`: these are reset
and told in the branch of success only. -/
theorem requestInPlace_eq (c : Controller) (g : Gateway) (q : ClaimRequest) (network : Option String) :
    c.requestInPlace g q network = c.request g q network := by
  have h := (Errand.request_comesTo c g q network).bind_sure (k := fun text => pure (some text))
    (fun text s => (some text, s)) fun _ _ => rfl
  unfold ComesTo at h
  unfold requestInPlace Errand.respond request
  rw [h]
  rcases g.request c.indexes c.access q network with ⟨_ | _⟩ | ⟨text, indexes, g'⟩ <;> rfl

/-- The whole call in place, retry counters and queues included, is `Controller.release`. -/
theorem releaseInPlace_eq (c : Controller) (g : Gateway) (q : ClaimRequest) :
    c.releaseInPlace g q = c.release g q := by
  have h := (Errand.release_comesTo c g q).bind_sure (k := fun _ => pure (none : Option String))
    (fun _ s => (none, s)) fun _ _ => rfl
  unfold ComesTo at h
  unfold releaseInPlace Errand.respond release
  rw [h]
  rcases g.release c.indexes c.access q with ⟨_ | _⟩ | ⟨indexes, g'⟩ <;> rfl

/-- A refused request answers controller and gateway as they were. Together with `requestInPlace_eq` this is
what a refused call in place leaves. -/
theorem eq_of_request_refused {c : Controller} {g : Gateway} {q : ClaimRequest} {network : Option String}
    {status : GatewayStatus} {s : Controller × Gateway}
    (h : c.request g q network = (some (.error status), s)) : s = (c, g) := by
  unfold request at h
  cases hrequest : g.request c.indexes c.access q network with
  | error f =>
    rw [hrequest] at h
    cases f <;> cases h
    rfl
  | ok answer =>
    rw [hrequest] at h
    dsimp only at h
    split at h <;> cases h

/-- A refused release answers controller and gateway as they were. -/
theorem eq_of_release_refused {c : Controller} {g : Gateway} {q : ClaimRequest}
    {status : GatewayStatus} {s : Controller × Gateway}
    (h : c.release g q = (some (.error status), s)) : s = (c, g) := by
  unfold release at h
  cases hrelease : g.release c.indexes c.access q with
  | error f =>
    rw [hrelease] at h
    cases f <;> cases h
    rfl
  | ok answer =>
    rw [hrelease] at h
    dsimp only at h
    split at h <;> cases h

/-- **A refused call keeps everything.** A request or a release that changes indexes, ledger, retry counters
and queues in place has changed none of them when it answers an error, and it is the call of the
controller. -/
theorem refused_call_keeps_everything (c : Controller) (g : Gateway) (q : ClaimRequest)
    (network : Option String) :
    (c.requestInPlace g q network = c.request g q network ∧ c.releaseInPlace g q = c.release g q) ∧
      ∀ (status : GatewayStatus) (s : Controller × Gateway),
        (c.requestInPlace g q network = (some (.error status), s) → s = (c, g)) ∧
          (c.releaseInPlace g q = (some (.error status), s) → s = (c, g)) := by
  refine ⟨⟨requestInPlace_eq c g q network, releaseInPlace_eq c g q⟩, ?_⟩
  refine fun status s => ⟨fun h => ?_, fun h => ?_⟩
  · rw [requestInPlace_eq] at h
    exact eq_of_request_refused h
  · rw [releaseInPlace_eq] at h
    exact eq_of_release_refused h

end Controller

/-- The sample scope after each of four claims was given one of its four addresses. -/
def Sample.crowded : Controller × Gateway :=
  ["one", "two", "three", "four"].foldl
    (fun (c, g) name => (c.requestInPlace g { edgeRequest with claim := "acme.lab." ++ name } none).2)
    ({ Controller.start access ⟨10, 1000, 60000, 5⟩ with indexes }, .fresh true)

/-- A request of the edge claim that does not say what it asks for. -/
def Sample.vagueRequest : ClaimRequest := { edgeRequest with selector := .empty }

namespace Controller

/-- A full gateway: four networks are handed out and the pool has no more. A request for one more and a
release with vague labels are refused, and all is as before. -/
theorem refused_call_keeps_everything_sample :
    Sample.crowded.2.ledger.size = 4 ∧
      (∃ status, Sample.crowded.1.requestInPlace Sample.crowded.2 Sample.edgeRequest none
        = (some (.error status), Sample.crowded)) ∧
        ∃ status, Sample.crowded.1.releaseInPlace Sample.crowded.2 Sample.vagueRequest
          = (some (.error status), Sample.crowded) := by
  have hrefused : Sample.crowded.2.ledger.size = 4 ∧
      (Sample.crowded.1.requestInPlace Sample.crowded.2 Sample.edgeRequest none).1
          = some (.error ⟨.resourceExhausted,
            "ipam: AddressSpaceExhausted: address space exhausted: no free /32 left in 10.0.0.0/30"⟩) ∧
        (Sample.crowded.1.releaseInPlace Sample.crowded.2 Sample.vagueRequest).1
          = some (.error ⟨.invalidArgument,
            "ipam: InvalidInput: invalid input: selector \x7b\x7d has no purpose key"⟩) := by
    decide +kernel
  obtain ⟨hsize, hrequest, hrelease⟩ := hrefused
  have hkept := (refused_call_keeps_everything Sample.crowded.1 Sample.crowded.2 Sample.edgeRequest none).2
  have hkept' := (refused_call_keeps_everything Sample.crowded.1 Sample.crowded.2 Sample.vagueRequest none).2
  exact ⟨hsize, ⟨_, Prod.ext hrequest ((hkept _ _).1 (Prod.ext hrequest rfl))⟩,
    ⟨_, Prod.ext hrelease ((hkept' _ _).2 (Prod.ext hrelease rfl))⟩⟩

end Controller

end AddressRegistry
