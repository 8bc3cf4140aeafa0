import AddressRegistry.Proofs.Allocation.Ledger
import AddressRegistry.Proofs.Gateway.Calls

/-!
# What a gateway does not take back

A claim holds a network at a gateway (`Desk.Holds`) if the network has a route that a request for the claim
inserted. A release takes one network back, the one on record, and a request records the network that it
answers in place of the earlier one. So a claim that asks for one network and then for another holds both, and
keeps the first when it is released (`Desk.repeated_request_leaks`).

In a run in which a claim, while the network on record has a route, asks for this network or finds its route
again (`Desk.Faithful`), a claim holds no other network (`Desk.recorded_of_holds`), and none once it was
released (`Desk.not_holds_of_released`). Requests and releases of other claims, failing calls and whatever
else happens to the indexes may come between.
-/

namespace AddressRegistry

/-! ## Requests and registrations -/

namespace Registration

/-- A registration that names no network finds the route of a network again. -/
structure FindsAgain (r : Registration) (indexes : ScopeIndexes) (access : Access) (n : Network) : Prop where
  /-- The route has the labels that the claim's own route is to have. -/
  labels : indexes.labelsAt r.scopeKey n = some r.combined.requirements
  /-- The scope gives this length for what the claim asks for. -/
  length : ∀ found ∈ (access.fetchScope r.scopeKey).toOption, ∀ scope ∈ found,
    r.askedLength? scope.spec = some n.length
  /-- No other route has these labels. -/
  only : ∀ index ∈ indexes.get? r.scopeKey, ∀ route ∈ index.toList,
    route.labels = r.combined.requirements → route.network = n

instance (r : Registration) (indexes : ScopeIndexes) (access : Access) (n : Network) :
    Decidable (r.FindsAgain indexes access n) :=
  decidable_of_iff
    (indexes.labelsAt r.scopeKey n = some r.combined.requirements ∧
      (∀ found ∈ (access.fetchScope r.scopeKey).toOption, ∀ scope ∈ found,
        r.askedLength? scope.spec = some n.length) ∧
        ∀ index ∈ indexes.get? r.scopeKey, ∀ route ∈ index.toList,
          route.labels = r.combined.requirements → route.network = n)
    ⟨fun h => ⟨h.1, h.2.1, h.2.2⟩, fun h => ⟨h.labels, h.length, h.only⟩⟩

variable {r : Registration} {indexes indexes' : ScopeIndexes} {access : Access} {n m : Network}

/-- A dynamic registration that finds a route again answers that route and no other. Nothing is inserted
then, so the claim comes to hold no second network. -/
theorem FindsAgain.eq_of_register (h : r.FindsAgain indexes access n) (hdynamic : r.network = none)
    (hregister : indexes.register access r = .ok (m, indexes')) : m = n := by
  obtain ⟨scope, index, index', hready, hindex, hanswer, rfl⟩ :=
    ScopeIndexes.register_eq_ok_iff.1 hregister
  have hfetch := (ScopeIndexes.readyScope_eq_ok_iff.1 hready).2.1
  have houtcome := index.register_outcome r.scopeKey scope.spec hdynamic
  rw [hanswer] at houtcome
  have hlabels := h.labels
  rw [ScopeIndexes.labelsAt_of_get? hindex] at hlabels
  cases houtcome with
  | owned _ hget => exact h.only index hindex ⟨m, _⟩ (RouteIndex.mem_toList_iff.2 hget) rfl
  | inserted hasks hunowned _ _ _ _ =>
    have hlength := h.length _ (Except.toOption_eq_some_iff.2 hfetch) scope rfl
    rw [askedLength?_of_asks hasks] at hlength
    exact absurd (Option.some.inj hlength).symm (hunowned n hlabels)

end Registration

/-- A registration changes the route of the network that it answers, in its own scope. -/
theorem ScopeIndexes.labelsAt_of_register {indexes indexes' : ScopeIndexes} {access : Access}
    {r : Registration} {key : ObjectKey} {n m : Network}
    (h : indexes.register access r = .ok (m, indexes')) (hother : key = r.scopeKey → n ≠ m) :
    indexes'.labelsAt key n = indexes.labelsAt key n := by
  obtain ⟨scope, index, index', -, hindex, hanswer, rfl⟩ := register_eq_ok_iff.1 h
  by_cases hkey : key = r.scopeKey
  · subst hkey
    rw [labelsAt_insert_self, labelsAt_of_get? hindex,
      (RouteIndex.get?_of_register hanswer).2 n (hother rfl)]
  · exact labelsAt_insert_of_ne _ _ hkey n

/-- A registration answers canonical networks, so the record that is kept of them reads back as the network
itself. -/
theorem ScopeIndexes.isCanonical_of_register {indexes indexes' : ScopeIndexes} {access : Access}
    {r : Registration} {m : Network} (h : indexes.register access r = .ok (m, indexes')) :
    m.IsCanonical := by
  obtain ⟨scope, index, index', -, -, hanswer, -⟩ := register_eq_ok_iff.1 h
  exact (RouteIndex.get?_of_register hanswer).1

namespace Gateway

variable {g g' : Gateway} {indexes indexes' : ScopeIndexes} {access : Access} {q : ClaimRequest}

/-- The network on record has no route after a release. -/
theorem labelsAt_of_release {n : Network} {key : ObjectKey}
    (h : g.release indexes access q = .ok (indexes', g')) (hrecord : g.ledger.get? q.key = some n.text)
    (hcanonical : n.IsCanonical) (hhome : (⟨.claim, q.key⟩ : ObjectId).home? = some key) :
    indexes'.labelsAt key n = none := by
  obtain ⟨r, persisted, hregistration, hheld, hderegister, -⟩ := release_eq_ok h
  obtain rfl := Option.some.inj ((ClaimRequest.registration_eq_ok hregistration).1.symm.trans hhome)
  unfold heldNetwork at hheld
  rw [hrecord] at hheld
  cases hheld
  let given : Registration := { r with persisted := some n.text }
  have hpersisted : given.persistedNetwork = .ok (some n) := by
    unfold Registration.persistedNetwork
    dsimp only [given]
    rw [Network.parse_text hcanonical]
    rfl
  exact ScopeIndexes.labelsAt_of_deregister (r := given) hderegister hpersisted hcanonical

end Gateway

/-! ## A gateway at work -/

/-- A gateway and the indexes that it works on. -/
structure Desk where
  indexes : ScopeIndexes
  gateway : Gateway

namespace Desk

/-- A call of the gateway, with the store as it is when the call is made, or what happens between calls. -/
inductive Call where
  | request (access : Access) (q : ClaimRequest) (network : Option String)
  | release (access : Access) (q : ClaimRequest)
  /-- Something else changes the indexes. -/
  | change (indexes : ScopeIndexes)

variable {s : Desk} {scope claim : ObjectKey} {n : Network} {call : Call} {calls : List Call}

/-- One call; one that fails changes nothing. -/
def act (s : Desk) : Call → Desk
  | .request access q network =>
    match s.gateway.request s.indexes access q network with
    | .ok (_, indexes, gateway) => ⟨indexes, gateway⟩
    | .error _ => s
  | .release access q =>
    match s.gateway.release s.indexes access q with
    | .ok (indexes, gateway) => ⟨indexes, gateway⟩
    | .error _ => s
  | .change indexes => { s with indexes }

/-- One call after the other. -/
def run (s : Desk) (calls : List Call) : Desk := calls.foldl act s

/-- A run of one more call is the run and then that call. -/
theorem run_concat (s : Desk) (calls : List Call) (call : Call) :
    s.run (calls ++ [call]) = (s.run calls).act call :=
  List.foldl_append

/-- The networks of a scope that a claim holds after some calls: each has a route, which a request for the
claim inserted. -/
inductive Holds (scope claim : ObjectKey) (s : Desk) : List Call → Network → Prop
  | inserted {calls : List Call} {access : Access} {q : ClaimRequest} {network : Option String}
    {n : Network} (hclaim : q.key = claim) (hbefore : (s.run calls).indexes.labelsAt scope n = none)
    (hafter : ((s.run calls).act (.request access q network)).indexes.labelsAt scope n ≠ none) :
    Holds scope claim s (calls ++ [.request access q network]) n
  | kept {calls : List Call} {n : Network} (h : Holds scope claim s calls n) (call : Call)
    (hafter : ((s.run calls).act call).indexes.labelsAt scope n ≠ none) :
    Holds scope claim s (calls ++ [call]) n

/-- What a claim holds has a route. Holding is about what a claim inserted, so this is the part of it that
the indexes still show. -/
theorem Holds.labelsAt (h : Holds scope claim s calls n) : (s.run calls).indexes.labelsAt scope n ≠ none := by
  cases h <;> rwa [run_concat]

/-! ### Faithful runs -/

/-- The network on record for a claim. -/
def recorded? (s : Desk) (claim : ObjectKey) : Option Network :=
  (s.gateway.ledger.get? claim).bind fun text => (Network.parse text).toOption

/-- A request for a claim that succeeds is faithful: while the network on record has a route, the request
names this network, or names none and finds this route again. -/
def Faithful (claim : ObjectKey) (s : Desk) : Call → Prop
  | .request access q network => q.key = claim →
      (s.gateway.request s.indexes access q network).toOption.isSome = true →
        ∀ n ∈ s.recorded? claim, ∀ r ∈ (q.registration network (s.gateway.ledger.get? q.key)).toOption,
          s.indexes.labelsAt r.scopeKey n ≠ none →
            (∀ raw ∈ network, (Network.parse raw).toOption = some n) ∧
              (network = none → r.FindsAgain s.indexes access n)
  | .release _ _ | .change _ => True

instance (claim : ObjectKey) (s : Desk) : (call : Call) → Decidable (Faithful claim s call)
  | .request access q network => inferInstanceAs (Decidable (q.key = claim →
      (s.gateway.request s.indexes access q network).toOption.isSome = true →
        ∀ n ∈ s.recorded? claim, ∀ r ∈ (q.registration network (s.gateway.ledger.get? q.key)).toOption,
          s.indexes.labelsAt r.scopeKey n ≠ none →
            (∀ raw ∈ network, (Network.parse raw).toOption = some n) ∧
              (network = none → r.FindsAgain s.indexes access n)))
  | .release _ _ | .change _ => isTrue trivial

/-- All requests of a run are faithful. -/
def FaithfulRun (claim : ObjectKey) : Desk → List Call → Prop
  | _, [] => True
  | s, call :: rest => Faithful claim s call ∧ FaithfulRun claim (s.act call) rest

instance decidableFaithfulRun (claim : ObjectKey) :
    (s : Desk) → (calls : List Call) → Decidable (FaithfulRun claim s calls)
  | _, [] => isTrue trivial
  | s, call :: rest =>
    have := decidableFaithfulRun claim (s.act call) rest
    inferInstanceAs (Decidable (Faithful claim s call ∧ _))

/-- A run of one more call is faithful when the run is and the call is faithful where the run ends. -/
theorem faithfulRun_concat :
    FaithfulRun claim s (calls ++ [call]) ↔ FaithfulRun claim s calls ∧ Faithful claim (s.run calls) call := by
  induction calls generalizing s with
  | nil => exact and_comm
  | cons first rest ih => exact (and_congr_right fun _ => ih).trans and_assoc.symm

/-! ### What is on record -/

/-- The gateway records a network of a scope for a claim of this scope. -/
structure Records (scope claim : ObjectKey) (n : Network) (s : Desk) : Prop where
  canonical : n.IsCanonical
  home : (⟨.claim, claim⟩ : ObjectId).home? = some scope
  ledger : s.gateway.ledger.get? claim = some n.text

/-- Where the record is of `n`, the claim has `n` on record. -/
theorem Records.recorded? (h : Records scope claim n s) : s.recorded? claim = some n := by
  unfold Desk.recorded?
  rw [h.ledger, Option.bind_some, Network.parse_text h.canonical]
  rfl

/-- A request records a network that it inserts. -/
theorem records_of_inserted {access : Access} {q : ClaimRequest} {network : Option String}
    (hclaim : q.key = claim) (hbefore : s.indexes.labelsAt scope n = none)
    (hafter : (s.act (.request access q network)).indexes.labelsAt scope n ≠ none) :
    Records scope claim n (s.act (.request access q network)) := by
  subst hclaim
  dsimp only [act] at hafter ⊢
  cases hrequest : s.gateway.request s.indexes access q network with
  | error f =>
    rw [hrequest] at hafter
    exact absurd hbefore hafter
  | ok answer =>
    obtain ⟨text, indexes, gateway⟩ := answer
    rw [hrequest] at hafter
    obtain ⟨r, m, hregistration, hregister, rfl⟩ := Gateway.request_eq_ok hrequest
    obtain ⟨hhome, -⟩ := ClaimRequest.registration_eq_ok hregistration
    have hinserted : ¬ (scope = r.scopeKey → n ≠ m) := fun hother =>
      hafter ((ScopeIndexes.labelsAt_of_register hregister hother).trans hbefore)
    obtain ⟨rfl, hn⟩ := Classical.not_imp.1 hinserted
    obtain rfl := not_not.1 hn
    exact ⟨ScopeIndexes.isCanonical_of_register hregister, hhome, SortedMap.get?_insert_self _ _ _⟩

/-- After a faithful request the network on record is still there or has no route. -/
theorem Records.request {access : Access} {q : ClaimRequest} {network : Option String}
    (h : Records scope claim n s) (hfaithful : Faithful claim s (.request access q network))
    (hroute : s.indexes.labelsAt scope n ≠ none) :
    Records scope claim n (s.act (.request access q network)) := by
  dsimp only [act]
  cases hrequest : s.gateway.request s.indexes access q network with
  | error f => exact h
  | ok answer =>
    obtain ⟨text, indexes, gateway⟩ := answer
    obtain ⟨r, m, hregistration, hregister, rfl⟩ := Gateway.request_eq_ok hrequest
    refine ⟨h.canonical, h.home, ?_⟩
    by_cases hclaim : q.key = claim
    · subst hclaim
      obtain ⟨hhome, hnetwork⟩ := ClaimRequest.registration_eq_ok hregistration
      obtain rfl := Option.some.inj (hhome.symm.trans h.home)
      obtain ⟨hnamed, hfinds⟩ := hfaithful rfl (by rw [hrequest]; rfl) n h.recorded? r
        (Except.toOption_eq_some_iff.2 hregistration) hroute
      have hsame : m = n := by
        cases network with
        | none => exact (hfinds rfl).eq_of_register hnetwork hregister
        | some raw =>
          obtain ⟨_, _, _, -, -, hanswer, -⟩ := ScopeIndexes.register_eq_ok_iff.1 hregister
          have hparse := ((RouteIndex.register_of_network_eq_ok_iff hnetwork).1 hanswer).1
          exact Option.some.inj ((Except.toOption_eq_some_iff.2 hparse).symm.trans (hnamed raw rfl))
      rw [hsame]
      exact SortedMap.get?_insert_self _ _ _
    · exact (SortedMap.get?_insert_of_ne _ (Ne.symm hclaim)).trans h.ledger

/-- After a release the network on record is still there or has no route. -/
theorem Records.release {access : Access} {q : ClaimRequest} (h : Records scope claim n s)
    (hafter : (s.act (.release access q)).indexes.labelsAt scope n ≠ none) :
    Records scope claim n (s.act (.release access q)) := by
  dsimp only [act] at hafter ⊢
  cases hrelease : s.gateway.release s.indexes access q with
  | error f => exact h
  | ok answer =>
    obtain ⟨indexes, gateway⟩ := answer
    rw [hrelease] at hafter
    by_cases hclaim : q.key = claim
    · subst hclaim
      exact absurd (Gateway.labelsAt_of_release hrelease h.ledger h.canonical h.home) hafter
    · obtain ⟨r, persisted, -, -, -, rfl⟩ := Gateway.release_eq_ok hrelease
      exact ⟨h.canonical, h.home, (SortedMap.get?_erase_of_ne (Ne.symm hclaim)).trans h.ledger⟩

/-- In a faithful run a claim holds no network but the one on record. -/
theorem recorded_of_holds (hfaithful : FaithfulRun claim s calls) (h : Holds scope claim s calls n) :
    Records scope claim n (s.run calls) := by
  induction h with
  | inserted hclaim hbefore hafter =>
    rw [run_concat]
    exact records_of_inserted hclaim hbefore hafter
  | kept hholds call hafter ih =>
    obtain ⟨hearlier, hlast⟩ := faithfulRun_concat.1 hfaithful
    have hrecords := ih hearlier
    rw [run_concat]
    cases call with
    | request access q network => exact hrecords.request hlast hholds.labelsAt
    | release access q => exact hrecords.release hafter
    | change indexes => exact ⟨hrecords.canonical, hrecords.home, hrecords.ledger⟩

/-- **A released claim holds nothing.** After a faithful run in which a release of a claim succeeded at the
end, no route is left that a request for the claim inserted. -/
theorem not_holds_of_released (s : Desk) (calls : List Call) (access : Access) (q : ClaimRequest)
    (hfaithful : FaithfulRun q.key s calls)
    (hreleased : ((s.run calls).gateway.release (s.run calls).indexes access q).toOption.isSome = true)
    (scope : ObjectKey) (n : Network) : ¬ Holds scope q.key s (calls ++ [.release access q]) n := by
  intro h
  have hreleaseFaithful : Faithful q.key (s.run calls) (.release access q) := trivial
  have hrecords := recorded_of_holds (faithfulRun_concat.2 ⟨hfaithful, hreleaseFaithful⟩) h
  obtain ⟨answer, hanswer⟩ := Option.isSome_iff_exists.1 hreleased
  have hrelease := Except.toOption_eq_some_iff.1 hanswer
  obtain ⟨indexes, gateway⟩ := answer
  obtain ⟨r, persisted, -, -, -, rfl⟩ := Gateway.release_eq_ok hrelease
  have hledger := hrecords.ledger
  rw [run_concat] at hledger
  dsimp only [act] at hledger
  rw [hrelease] at hledger
  cases hledger.symm.trans (SortedMap.get?_erase_self _ _)

end Desk

/-! ## Sample runs -/

namespace Sample

def edgeRequest : ClaimRequest := ⟨key.space, "acme.lab.edge", labels, .empty⟩

/-- A gateway that handed out nothing, over the sample scope. -/
def desk : Desk := ⟨indexes, .fresh true⟩

/-- The edge claim asks for some address, and then for the one that it was given. -/
def repeating : List Desk.Call :=
  [.request access edgeRequest none, .request access edgeRequest (some "10.0.0.0/32")]

/-- The edge claim asks for one address, and then for another one. -/
def changing : List Desk.Call :=
  [.request access edgeRequest (some "10.9.0.1/32"), .request access edgeRequest (some "10.9.0.2/32")]

/-- The network `10.0.0.0/32`. -/
def firstAddress : Network := ⟨.ipv4, 0x0a000000, 32, network.address_lt, Nat.le_refl 32⟩

/-- The network `10.9.0.1/32`. -/
def remoteAddress : Network := ⟨.ipv4, 0x0a090001, 32, by decide, firstAddress.length_le⟩

end Sample

namespace Desk

/-- A claim that asks twice for one address: the run is faithful, the claim holds the address, and once it
is released it holds no network at all. -/
theorem not_holds_of_released_sample :
    FaithfulRun Sample.edgeRequest.key Sample.desk Sample.repeating ∧
      Holds Sample.key Sample.edgeRequest.key Sample.desk Sample.repeating Sample.firstAddress ∧
        ∀ n, ¬ Holds Sample.key Sample.edgeRequest.key Sample.desk
          (Sample.repeating ++ [.release Sample.access Sample.edgeRequest]) n := by
  have hruns : FaithfulRun Sample.edgeRequest.key Sample.desk Sample.repeating ∧
      ((Sample.desk.run Sample.repeating).gateway.release (Sample.desk.run Sample.repeating).indexes
        Sample.access Sample.edgeRequest).toOption.isSome = true ∧
      Sample.desk.indexes.labelsAt Sample.key Sample.firstAddress = none ∧
      (Sample.desk.run (Sample.repeating.take 1)).indexes.labelsAt Sample.key Sample.firstAddress ≠ none ∧
      (Sample.desk.run Sample.repeating).indexes.labelsAt Sample.key Sample.firstAddress ≠ none := by
    decide +kernel
  obtain ⟨hfaithful, hreleased, hbefore, hfirst, hsecond⟩ := hruns
  have hholds : Holds Sample.key Sample.edgeRequest.key Sample.desk ([] ++ Sample.repeating.take 1)
      Sample.firstAddress := .inserted rfl hbefore hfirst
  exact ⟨hfaithful, hholds.kept _ hsecond,
    not_holds_of_released Sample.desk Sample.repeating Sample.access Sample.edgeRequest hfaithful hreleased
      Sample.key⟩

/-- A claim that asks for one address and then for another one keeps the first one when it is released. -/
theorem repeated_request_leaks :
    ((Sample.desk.run Sample.changing).gateway.release (Sample.desk.run Sample.changing).indexes
        Sample.access Sample.edgeRequest).toOption.isSome = true ∧
      Holds Sample.key Sample.edgeRequest.key Sample.desk
        (Sample.changing ++ [.release Sample.access Sample.edgeRequest]) Sample.remoteAddress := by
  have hruns : ((Sample.desk.run Sample.changing).gateway.release (Sample.desk.run Sample.changing).indexes
        Sample.access Sample.edgeRequest).toOption.isSome = true ∧
      Sample.desk.indexes.labelsAt Sample.key Sample.remoteAddress = none ∧
      (Sample.desk.run (Sample.changing.take 1)).indexes.labelsAt Sample.key Sample.remoteAddress ≠ none ∧
      (Sample.desk.run Sample.changing).indexes.labelsAt Sample.key Sample.remoteAddress ≠ none ∧
      ((Sample.desk.run Sample.changing).act (.release Sample.access Sample.edgeRequest)).indexes.labelsAt
        Sample.key Sample.remoteAddress ≠ none := by
    decide +kernel
  obtain ⟨hreleased, hbefore, hfirst, hsecond, hlast⟩ := hruns
  have hholds : Holds Sample.key Sample.edgeRequest.key Sample.desk ([] ++ Sample.changing.take 1)
      Sample.remoteAddress := .inserted rfl hbefore hfirst
  have hholds' : Holds Sample.key Sample.edgeRequest.key Sample.desk Sample.changing
      Sample.remoteAddress := hholds.kept _ hsecond
  exact ⟨hreleased, hholds'.kept _ hlast⟩

end Desk

end AddressRegistry
