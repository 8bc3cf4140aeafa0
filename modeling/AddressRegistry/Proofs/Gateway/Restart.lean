import AddressRegistry.Proofs.Gateway.Leaks
import Mathlib.Data.List.Induction

/-!
# Releasing after a restart

A gateway releases the network that it has on record for a claim. One that was started since has no record
and releases the network whose route has exactly the claim's labels. The two remove the same route if and
only if the labels lead to the network on record, or the network on record has no route and no route has the
labels (`Gateway.release_agrees_iff`).

In an *orderly* run of declarations, requests and releases (`Desk.OrderlyRun`) each set of labels belongs to
one claim or to declarations, and a request meets its claim's own routes: one that names a network finds the
claim's labels there and nowhere else, and one that names none finds every route with the claim's labels
again (`Desk.MeetsOwn`). This says what the indexes hold when a request comes in, not what it is answered.
There a claim on record has one route, on the network on record (`Desk.Marks`), so the restarted gateway
releases the same network, and no declaration goes (`Desk.restart_agrees`). In a run that is not orderly the
gateway that served a claim may remove a declared pool, while a restarted one would not
(`Desk.recorded_pool_lost`).
-/

namespace AddressRegistry

/-! ## Requests and their labels -/

namespace ClaimRequest

variable {q : ClaimRequest} {network persisted : Option String} {r : Registration}

/-- The scope of the claim. -/
def home? (q : ClaimRequest) : Option ObjectKey := (⟨.claim, q.key⟩ : ObjectId).home?

/-- The labels of the claim's route. -/
def labels (q : ClaimRequest) : Labels :=
  (Selector.merge ⟨q.selector⟩ (sourceTagOrDefault q.sourceTag q.claim)).requirements

/-- A registration combines the labels of its request with nothing else, so the labels of its route are the
request's. -/
theorem labels_of_registration (h : q.registration network persisted = .ok r) :
    r.combined.requirements = q.labels := by
  obtain ⟨found, -, h⟩ := Except.bind_eq_ok_iff.1 h
  cases found with
  | none => cases h
  | some scope =>
    obtain ⟨purpose, -, h⟩ := Except.bind_eq_ok_iff.1 h
    obtain ⟨family, -, h⟩ := Except.bind_eq_ok_iff.1 h
    cases h
    rfl

/-- A request that can be read can be released. -/
theorem registration_of_registration (h : q.registration network persisted = .ok r) :
    q.registration none none = .ok { r with network := none, persisted := none } := by
  obtain ⟨found, hparent, h⟩ := Except.bind_eq_ok_iff.1 h
  refine Except.bind_eq_ok_iff.2 ⟨found, hparent, ?_⟩
  cases found with
  | none => cases h
  | some scope =>
    obtain ⟨purpose, hpurpose, h⟩ := Except.bind_eq_ok_iff.1 h
    obtain ⟨family, hfamily, h⟩ := Except.bind_eq_ok_iff.1 h
    cases h
    exact Except.bind_eq_ok_iff.2 ⟨purpose, hpurpose, Except.bind_eq_ok_iff.2 ⟨family, hfamily, rfl⟩⟩

end ClaimRequest

/-! ## Routes that are put in and found -/

namespace ScopeIndexes

variable {indexes indexes' : ScopeIndexes} {access : Access} {key scope : ObjectKey} {r : Registration}
variable {n m : Network} {labels labels' : Labels}

/-- A network of a scope has a route afterwards: the one that it had, or a new one with the given labels. -/
structure Places (scope : ObjectKey) (n : Network) (labels : Labels) (indexes indexes' : ScopeIndexes) :
    Prop where
  self : indexes'.labelsAt scope n = some ((indexes.labelsAt scope n).getD labels)
  others : ∀ key m, (key = scope → m ≠ n) → indexes'.labelsAt key m = indexes.labelsAt key m

/-- A route that is there stays. -/
theorem Places.labelsAt (h : Places scope n labels indexes indexes')
    (hget : indexes.labelsAt key m = some labels') : indexes'.labelsAt key m = some labels' := by
  by_cases hplace : key = scope → m ≠ n
  · rw [h.others key m hplace, hget]
  · obtain ⟨rfl, hm⟩ := Classical.not_imp.1 hplace
    obtain rfl := not_not.1 hm
    rw [h.self, hget]
    rfl

/-- Other labels stay where they are. -/
theorem Places.labelsAt_iff (h : Places scope n labels indexes indexes')
    (hne : key = scope → labels' ≠ labels) :
    indexes'.labelsAt key m = some labels' ↔ indexes.labelsAt key m = some labels' := by
  refine ⟨fun hget => ?_, h.labelsAt⟩
  by_cases hplace : key = scope → m ≠ n
  · rwa [h.others key m hplace] at hget
  · obtain ⟨rfl, hm⟩ := Classical.not_imp.1 hplace
    obtain rfl := not_not.1 hm
    rw [h.self] at hget
    cases hbefore : indexes.labelsAt key m with
    | none =>
      rw [hbefore] at hget
      exact absurd (Option.some.inj hget).symm (hne rfl)
    | some _ =>
      rw [hbefore] at hget
      exact hget

/-- A registration that succeeds places its labels at the network it answers, or finds a route there, and
changes no other network. -/
theorem places_of_register (h : indexes.register access r = .ok (n, indexes')) :
    Places r.scopeKey n r.combined.requirements indexes indexes' := by
  refine ⟨?_, fun key m hm => labelsAt_of_register h hm⟩
  obtain ⟨scope, index, index', -, hindex, hanswer, rfl⟩ := register_eq_ok_iff.1 h
  rw [labelsAt_insert_self, labelsAt_of_get? hindex]
  cases hnetwork : r.network with
  | some raw =>
    obtain ⟨hparse, hdeclare⟩ := (RouteIndex.register_of_network_eq_ok_iff hnetwork).1 hanswer
    exact (RouteIndex.get?_of_declare (Network.parse_isCanonical hparse) hdeclare).1
  | none =>
    have houtcome := index.register_outcome r.scopeKey scope.spec hnetwork
    rw [hanswer] at houtcome
    cases houtcome with
    | owned _ hget =>
      rw [hget]
      rfl
    | inserted _ _ _ _ hfree hadd =>
      obtain ⟨hnone, hself, -⟩ := RouteIndex.get?_of_add hfree.canonical hadd
      rw [hnone, hself]
      rfl

/-- A declaration that succeeds places its own labels at the pool's network and changes no other network. -/
theorem places_of_declare {pool : Pool} (h : (indexes.declare scope pool).2 = .ok (n, indexes')) :
    Places scope n (declarationLabels pool.spec.labels n) indexes indexes' := by
  obtain ⟨hparse, index, index', hindex, hdeclare, rfl⟩ := declare_eq_ok_iff.1 h
  obtain ⟨hself, hothers⟩ := RouteIndex.get?_of_declare (Network.parse_isCanonical hparse) hdeclare
  refine ⟨?_, fun key m hm => ?_⟩
  · rw [labelsAt_insert_self, labelsAt_of_get? hindex, hself]
  · by_cases hkey : key = scope
    · subst hkey
      rw [labelsAt_insert_self, labelsAt_of_get? hindex, hothers m (hm rfl)]
    · rw [labelsAt_insert_of_ne _ _ hkey]

/-- Labels are looked up to a network whose route has them. -/
theorem labelsAt_of_lookup (h : indexes.lookup r = .ok (some n)) :
    indexes.labelsAt r.scopeKey n = some r.combined.requirements := by
  obtain ⟨index, hfind, h⟩ := Except.bind_eq_ok_iff.1 h
  obtain ⟨route, hroute, rfl⟩ := Option.map_eq_some_iff.1 (Except.ok.inj h)
  obtain ⟨hget, hlabels⟩ := RouteIndex.mem_owned_iff.1 (Route.mem_of_pickUnique hroute)
  unfold find at hfind
  cases hindex : indexes.get? r.scopeKey with
  | none =>
    rw [hindex] at hfind
    cases hfind
  | some _ =>
    rw [hindex] at hfind
    cases hfind
    rw [labelsAt_of_get? hindex, hget, hlabels]

/-- Labels that one route has are looked up to its network. -/
theorem lookup_eq_of_labelsAt_iff
    (h : ∀ m, indexes.labelsAt r.scopeKey m = some r.combined.requirements ↔ m = n) :
    indexes.lookup r = .ok (some n) := by
  have hn := (h n).2 rfl
  obtain ⟨index, hindex, hget⟩ := Option.bind_eq_some_iff.1 hn
  have hfind : indexes.find r.scopeKey = .ok index := by
    unfold find
    rw [hindex]
  cases hroute : index.ownedRoute? r.combined with
  | none =>
    have howned := Route.pickUnique_eq_none_iff.1 hroute
    have hmem : (⟨n, r.combined.requirements⟩ : Route) ∈ index.owned r.combined :=
      RouteIndex.mem_owned_iff.2 ⟨hget, rfl⟩
    rw [howned] at hmem
    cases hmem
  | some route =>
    have hlookup : indexes.lookup r = .ok (some route.network) :=
      Except.bind_eq_ok_iff.2 ⟨index, hfind, by rw [hroute]; rfl⟩
    rw [hlookup, (h _).1 (labelsAt_of_lookup hlookup)]

/-- A ready scope has an index, in which labels can be looked up. -/
theorem exists_lookup {found : Scope} (hready : indexes.readyScope access r.scopeKey = .ok found) :
    ∃ network, indexes.lookup r = .ok network := by
  obtain ⟨index, hindex⟩ := Option.isSome_iff_exists.1 (readyScope_eq_ok_iff.1 hready).2.2.2
  refine ⟨_, Except.bind_eq_ok_iff.2 ⟨index, ?_, rfl⟩⟩
  unfold find
  rw [hindex]

/-- In a ready scope a network can be released: its route is gone, and nothing else. -/
theorem exists_deregister {found : Scope} (hready : indexes.readyScope access r.scopeKey = .ok found)
    (hcanonical : n.IsCanonical) :
    ∃ changed, indexes.deregister access { r with persisted := some n.text } = .ok changed ∧
      changed.labelsAt r.scopeKey n = none ∧
        (∀ m, m ≠ n → changed.labelsAt r.scopeKey m = indexes.labelsAt r.scopeKey m) ∧
          (indexes.labelsAt r.scopeKey n = none → changed = indexes) := by
  obtain ⟨index, hindex⟩ := Option.isSome_iff_exists.1 (readyScope_eq_ok_iff.1 hready).2.2.2
  obtain ⟨index', hroutes⟩ := index.exists_erase n
  obtain ⟨hself, hothers⟩ := RouteIndex.get?_of_erase hroutes
  have hpersisted : Registration.persistedNetwork { r with persisted := some n.text } = .ok (some n) := by
    unfold Registration.persistedNetwork
    dsimp only
    rw [Network.parse_text hcanonical]
    rfl
  refine ⟨indexes.insert r.scopeKey index', deregister_eq_ok_iff.2 ⟨⟨found, hready⟩,
    Or.inr ⟨n, index, index', hpersisted, hindex, by rw [hcanonical, hroutes], rfl⟩⟩, ?_, fun m hm => ?_,
      fun hnone => ?_⟩
  · rw [labelsAt_insert_self, hself]
  · rw [labelsAt_insert_self, hothers m hm, labelsAt_of_get? hindex]
  · rw [labelsAt_of_get? hindex] at hnone
    have hsame : index' = index := RouteIndex.ext_get? fun m => by
      by_cases hm : m = n
      · rw [hm, hself, hnone]
      · exact hothers m hm
    rw [hsame, SortedMap.insert_of_get? hindex]

end ScopeIndexes

/-! ## The ledger and the labels -/

namespace Gateway

variable {g g' : Gateway} {indexes indexes' : ScopeIndexes} {access : Access} {q : ClaimRequest}
variable {r : Registration} {n m : Network} {key : ObjectKey} {labels : Labels}

/-- What a release does to the indexes: it looks the held network up, then deregisters. The ledger is left
out of view here, since the two gateways that are compared differ in nothing else. -/
theorem map_fst_release (hregistration : q.registration none none = .ok r) :
    (g.release indexes access q).map Prod.fst
      = Failure.lift (g.heldNetwork indexes q r) >>= fun persisted =>
        indexes.deregister access { r with persisted } := by
  unfold release
  rw [hregistration]
  show (Failure.lift (g.heldNetwork indexes q r) >>= fun persisted =>
    indexes.deregister access { r with persisted } >>= fun changed =>
      Except.ok (changed, { g with ledger := g.ledger.erase q.key })).map Prod.fst = _
  cases Failure.lift (g.heldNetwork indexes q r) with
  | error f => rfl
  | ok persisted =>
    show (indexes.deregister access { r with persisted } >>= fun changed =>
      Except.ok (changed, { g with ledger := g.ledger.erase q.key })).map Prod.fst
        = indexes.deregister access { r with persisted }
    cases indexes.deregister access { r with persisted } <;> rfl

/-- The gateway that served the claim deregisters the network on record. -/
theorem map_fst_release_of_record (hregistration : q.registration none none = .ok r)
    (hrecord : g.ledger.get? q.key = some n.text) :
    (g.release indexes access q).map Prod.fst
      = indexes.deregister access { r with persisted := some n.text } := by
  have hheld : g.heldNetwork indexes q r = .ok (some n.text) := by
    unfold heldNetwork
    rw [hrecord]
  rw [map_fst_release hregistration, hheld]
  rfl

/-- A gateway without records deregisters the network whose route has the claim's labels, if the look-up
finds one. -/
theorem map_fst_release_of_lookup {found : Option Network} {fansOut : Bool}
    (hregistration : q.registration none none = .ok r) (hlookup : indexes.lookup r = .ok found) :
    ((fresh fansOut).release indexes access q).map Prod.fst
      = indexes.deregister access { r with persisted := found.map Network.text } := by
  have hheld : (fresh fansOut).heldNetwork indexes q r = .ok (found.map Network.text) := by
    show (indexes.lookup r).map _ = _
    rw [hlookup]
    rfl
  rw [map_fst_release hregistration, hheld]
  rfl

/-- When the labels lead to the network on record, it makes no difference who releases. -/
theorem release_eq_of_lookup (hregistration : q.registration none none = .ok r)
    (hrecord : g.ledger.get? q.key = some n.text) (hlookup : indexes.lookup r = .ok (some n))
    (fansOut : Bool) :
    (g.release indexes access q).map Prod.fst
      = ((fresh fansOut).release indexes access q).map Prod.fst := by
  rw [map_fst_release_of_record hregistration hrecord, map_fst_release_of_lookup hregistration hlookup]
  rfl

/-- **When a restart makes no difference.** A gateway that has a network on record and a gateway without
records leave the same indexes behind if and only if the claim's labels lead to this network, or neither the
network has a route nor the labels lead anywhere. -/
theorem release_agrees_iff {scope : Scope} (hregistration : q.registration none none = .ok r)
    (hready : indexes.readyScope access r.scopeKey = .ok scope)
    (hrecord : g.ledger.get? q.key = some n.text) (hcanonical : n.IsCanonical) (fansOut : Bool) :
    (g.release indexes access q).map Prod.fst
        = ((fresh fansOut).release indexes access q).map Prod.fst ↔
      indexes.lookup r = .ok (some n) ∨
        indexes.lookup r = .ok none ∧ indexes.labelsAt r.scopeKey n = none := by
  obtain ⟨changed, hchanged, hgone, hothers, hidle⟩ := ScopeIndexes.exists_deregister hready hcanonical
  obtain ⟨found, hlookup⟩ := ScopeIndexes.exists_lookup hready
  rw [map_fst_release_of_record hregistration hrecord, map_fst_release_of_lookup hregistration hlookup,
    hchanged, hlookup]
  cases found with
  | none =>
    have hkept : indexes.deregister access { r with persisted := none } = .ok indexes :=
      ScopeIndexes.deregister_eq_ok_iff.2 ⟨⟨scope, hready⟩, Or.inl ⟨rfl, rfl⟩⟩
    show Except.ok changed = indexes.deregister access { r with persisted := none } ↔ _
    rw [hkept]
    constructor
    · intro h
      cases h
      exact Or.inr ⟨rfl, hgone⟩
    · rintro (h | ⟨-, hnone⟩)
      · cases h
      · rw [hidle hnone]
  | some m =>
    have hm := ScopeIndexes.labelsAt_of_lookup hlookup
    obtain ⟨index, -, hget⟩ := Option.bind_eq_some_iff.1 hm
    obtain ⟨changed', hchanged', hgone', -, -⟩ :=
      ScopeIndexes.exists_deregister hready (RouteIndex.isCanonical_of_get? hget)
    show Except.ok changed = indexes.deregister access { r with persisted := some m.text } ↔ _
    constructor
    · intro h
      rw [hchanged'] at h
      cases h
      refine Or.inl ?_
      by_cases hmn : m = n
      · rw [hmn]
      · rw [hothers m hmn, hm] at hgone'
        cases hgone'
    · rintro (h | ⟨h, -⟩)
      · cases h
        rw [hchanged]
      · cases h

/-- What a release removes: nothing, or the route of the network on record or of one with the claim's
labels. -/
inductive Released (g : Gateway) (q : ClaimRequest) (indexes indexes' : ScopeIndexes) : Prop
  | nothing (h : indexes' = indexes)
  | removed {scope : ObjectKey} {n : Network} (hhome : q.home? = some scope)
    (hheld : (∃ text, g.ledger.get? q.key = some text ∧ Network.parse text = .ok n) ∨
      indexes.labelsAt scope n = some q.labels)
    (hself : indexes'.labelsAt scope n = none)
    (hothers : ∀ key m, (key = scope → m ≠ n) → indexes'.labelsAt key m = indexes.labelsAt key m)

/-- The network that a release looks up is the one on record or, without a record, one whose route has the
claim's labels. -/
theorem held_of_heldNetwork {persisted : Option String}
    (hregistration : q.registration none none = .ok r) (hheld : g.heldNetwork indexes q r = .ok persisted)
    (hpersisted : Registration.persistedNetwork { r with persisted } = .ok (some n)) :
    n.IsCanonical ∧ ((∃ text, g.ledger.get? q.key = some text ∧ Network.parse text = .ok n) ∨
      indexes.labelsAt r.scopeKey n = some q.labels) := by
  unfold heldNetwork at hheld
  -- the ledger comes first, the labels only without a record
  cases hledger : g.ledger.get? q.key with
  | some text =>
    rw [hledger] at hheld
    cases hheld
    obtain ⟨_, hparse, heq⟩ := Except.map_eq_ok_iff.1 hpersisted
    cases heq
    exact ⟨Network.parse_isCanonical hparse, Or.inl ⟨text, rfl, hparse⟩⟩
  | none =>
    rw [hledger] at hheld
    obtain ⟨found, hlookup, rfl⟩ := Except.map_eq_ok_iff.1 hheld
    cases found with
    | none => cases hpersisted
    | some m =>
      have hm := ScopeIndexes.labelsAt_of_lookup hlookup
      obtain ⟨_, -, hget⟩ := Option.bind_eq_some_iff.1 hm
      have hcanonical := RouteIndex.isCanonical_of_get? hget
      obtain ⟨_, hparse, heq⟩ := Except.map_eq_ok_iff.1 hpersisted
      cases heq
      cases (Network.parse_text hcanonical).symm.trans hparse
      rw [ClaimRequest.labels_of_registration hregistration] at hm
      exact ⟨hcanonical, Or.inr hm⟩

/-- A release that succeeds took at most one route away: that of the network on record, or without a record
one that has the claim's labels. -/
theorem released_of_release (h : g.release indexes access q = .ok (indexes', g')) :
    g.Released q indexes indexes' := by
  obtain ⟨r, persisted, hregistration, hheld, hderegister, -⟩ := release_eq_ok h
  obtain ⟨hhome, -⟩ := ClaimRequest.registration_eq_ok hregistration
  rcases ScopeIndexes.deregister_eq_ok_iff.1 hderegister with
    ⟨-, ⟨-, hsame⟩ | ⟨n, index, index', hpersisted, hindex, hroutes, rfl⟩⟩
  · exact .nothing hsame
  have hindex : indexes.get? r.scopeKey = some index := hindex
  obtain ⟨hcanonical, hheld⟩ := held_of_heldNetwork hregistration hheld hpersisted
  rw [hcanonical] at hroutes
  obtain ⟨hself, hothers⟩ := RouteIndex.get?_of_erase hroutes
  refine .removed hhome hheld ((ScopeIndexes.labelsAt_insert_self _ _ _ _).trans hself) fun key m hm => ?_
  by_cases hkey : key = r.scopeKey
  · subst hkey
    rw [ScopeIndexes.labelsAt_of_get? hindex, ← hothers m (hm rfl)]
    exact ScopeIndexes.labelsAt_insert_self _ _ _ _
  · exact ScopeIndexes.labelsAt_insert_of_ne _ _ hkey m

/-- A route stays that neither is on record nor has the claim's labels. -/
theorem Released.labelsAt (h : g.Released q indexes indexes') (hget : indexes.labelsAt key m = some labels)
    (hlabels : q.home? = some key → labels ≠ q.labels)
    (hrecord : q.home? = some key →
      ∀ text, g.ledger.get? q.key = some text → Network.parse text ≠ .ok m) :
    indexes'.labelsAt key m = some labels := by
  cases h with
  | nothing hsame => rw [hsame, hget]
  | @removed scope n hhome hheld _ hothers =>
    rw [hothers key m, hget]
    rintro rfl rfl
    rcases hheld with ⟨text, hledger, hparse⟩ | hheld
    · exact hrecord hhome text hledger hparse
    · exact hlabels hhome (Option.some.inj (hget.symm.trans hheld))

/-- A release puts no route in. -/
theorem Released.labelsAt_of_labelsAt (h : g.Released q indexes indexes')
    (hget : indexes'.labelsAt key m = some labels) : indexes.labelsAt key m = some labels := by
  cases h with
  | nothing hsame => rwa [hsame] at hget
  | @removed scope n _ _ hself hothers =>
    rw [← hothers key m, hget]
    rintro rfl rfl
    rw [hself] at hget
    cases hget

end Gateway

namespace Desk

/-! ## Runs with declarations -/

/-- A declaration of a pool, or a call of the gateway. -/
inductive Turn where
  | declare (scope : ObjectKey) (pool : Pool)
  | request (access : Access) (q : ClaimRequest) (network : Option String)
  | release (access : Access) (q : ClaimRequest)

namespace Turn

/-- What happens at the desk in a turn. -/
def call (s : Desk) : Turn → Call
  | .declare scope pool => .change (s.indexes.after (s.indexes.declare scope pool).2)
  | .request access q network => .request access q network
  | .release access q => .release access q

/-- The claim that a turn is for. -/
def claim? : Turn → Option ObjectKey
  | .declare _ _ => none
  | .request _ q _ | .release _ q => some q.key

/-- Whether a turn succeeds. -/
def succeeds (s : Desk) : Turn → Bool
  | .declare scope pool => (s.indexes.declare scope pool).2.toOption.isSome
  | .request access q network => (s.gateway.request s.indexes access q network).toOption.isSome
  | .release access q => (s.gateway.release s.indexes access q).toOption.isSome

end Turn

variable {s : Desk} {key claim : ObjectKey} {n m : Network} {labels : Labels} {q : ClaimRequest}
variable {turn : Turn} {turns : List Turn}

/-- One turn. -/
def take (s : Desk) (turn : Turn) : Desk := s.act (turn.call s)

/-- One turn after the other. -/
def serve (s : Desk) (turns : List Turn) : Desk := turns.foldl take s

/-- A run of one more turn is the run and then that turn. -/
theorem serve_concat (s : Desk) (turns : List Turn) (turn : Turn) :
    s.serve (turns ++ [turn]) = (s.serve turns).take turn :=
  List.foldl_append

/-- What comes of a turn. -/
inductive Outcome (s : Desk) : Turn → Desk → Prop
  | failed {turn : Turn} (h : turn.succeeds s = false) : Outcome s turn s
  | declared {scope : ObjectKey} {pool : Pool} {n : Network} {indexes : ScopeIndexes}
    (h : (s.indexes.declare scope pool).2 = .ok (n, indexes)) :
    Outcome s (.declare scope pool) { s with indexes }
  | granted {access : Access} {q : ClaimRequest} {network : Option String} {r : Registration} {n : Network}
    {indexes : ScopeIndexes}
    (h : s.gateway.request s.indexes access q network
      = .ok (n.text, indexes, { s.gateway with ledger := s.gateway.ledger.insert q.key n.text }))
    (hregistration : q.registration network (s.gateway.ledger.get? q.key) = .ok r)
    (hregister : s.indexes.register access r = .ok (n, indexes)) :
    Outcome s (.request access q network)
      ⟨indexes, { s.gateway with ledger := s.gateway.ledger.insert q.key n.text }⟩
  | released {access : Access} {q : ClaimRequest} {indexes : ScopeIndexes}
    (h : s.gateway.release s.indexes access q
      = .ok (indexes, { s.gateway with ledger := s.gateway.ledger.erase q.key })) :
    Outcome s (.release access q)
      ⟨indexes, { s.gateway with ledger := s.gateway.ledger.erase q.key }⟩

/-- What a turn can do to a desk: nothing if it fails, and else the outcome for its kind. All invariants of
a run are proved from these few cases. -/
theorem take_outcome (s : Desk) (turn : Turn) : s.Outcome turn (s.take turn) := by
  cases turn with
  | declare scope pool =>
    unfold take act Turn.call
    dsimp only
    cases hdeclare : (s.indexes.declare scope pool).2 with
    | error e => exact .failed (congrArg (·.toOption.isSome) hdeclare)
    | ok answer => exact .declared hdeclare
  | request access q network =>
    unfold take act Turn.call
    dsimp only
    cases hrequest : s.gateway.request s.indexes access q network with
    | error f => exact .failed (congrArg (·.toOption.isSome) hrequest)
    | ok answer =>
      obtain ⟨text, indexes, gateway⟩ := answer
      obtain ⟨r, hregistration, h⟩ := Except.bind_eq_ok_iff.1 hrequest
      obtain ⟨⟨n, changed⟩, hregister, h⟩ := Except.bind_eq_ok_iff.1 h
      cases h
      exact .granted hrequest (Failure.lift_eq_ok_iff.1 hregistration) hregister
  | release access q =>
    unfold take act Turn.call
    dsimp only
    cases hrelease : s.gateway.release s.indexes access q with
    | error f => exact .failed (congrArg (·.toOption.isSome) hrelease)
    | ok answer =>
      obtain ⟨indexes, gateway⟩ := answer
      obtain ⟨r, persisted, -, -, -, rfl⟩ := Gateway.release_eq_ok hrelease
      exact .released hrelease

/-! ### Orderly runs -/

/-- A request meets routes of its claim only. If it names a network, then among the routes of the scope that
of this network, and no other one, has the labels of the claim; a network without a route may be named while
no route has them. If it names none, it finds each route with the labels of the claim again, so that there is
at most one. -/
def MeetsOwn (key : ObjectKey) (s : Desk) (access : Access) (q : ClaimRequest) : Option String → Prop
  | some raw => ∀ n ∈ (Network.parse raw).toOption, ∀ index ∈ s.indexes.get? key, ∀ route ∈ index.toList,
      route.labels = q.labels ↔ route.network = n
  | none => ∀ r ∈ (q.registration none (s.gateway.ledger.get? q.key)).toOption,
      ∀ index ∈ s.indexes.get? key, ∀ route ∈ index.toList,
        route.labels = q.labels → r.FindsAgain s.indexes access route.network

instance (key : ObjectKey) (s : Desk) (access : Access) (q : ClaimRequest) :
    (network : Option String) → Decidable (MeetsOwn key s access q network)
  | some raw => inferInstanceAs (Decidable (∀ n ∈ (Network.parse raw).toOption,
      ∀ index ∈ s.indexes.get? key, ∀ route ∈ index.toList, route.labels = q.labels ↔ route.network = n))
  | none => inferInstanceAs (Decidable (∀ r ∈ (q.registration none (s.gateway.ledger.get? q.key)).toOption,
      ∀ index ∈ s.indexes.get? key, ∀ route ∈ index.toList,
        route.labels = q.labels → r.FindsAgain s.indexes access route.network))

/-- When a turn is orderly for a scope, given whose labels are whose: declarations use labels of no claim and
find no route of a claim on their network, and a claim uses labels of its own. A request that is granted meets
routes of its claim only. -/
def Orderly (owner : Labels → Option ObjectKey) (key : ObjectKey) (s : Desk) : Turn → Prop
  | .declare scope pool => scope = key → ∀ n ∈ (Network.parse pool.spec.network).toOption,
      owner (declarationLabels pool.spec.labels n) = none ∧
        ∀ labels ∈ s.indexes.labelsAt key n, owner labels = none
  | .request access q network => q.home? = some key → owner q.labels = some q.key ∧
      ((s.gateway.request s.indexes access q network).toOption.isSome = true → MeetsOwn key s access q network)
  | .release _ q => q.home? = some key → owner q.labels = some q.key

instance (owner : Labels → Option ObjectKey) (key : ObjectKey) (s : Desk) :
    (turn : Turn) → Decidable (Orderly owner key s turn)
  | .declare scope pool => inferInstanceAs (Decidable (scope = key →
      ∀ n ∈ (Network.parse pool.spec.network).toOption,
        owner (declarationLabels pool.spec.labels n) = none ∧
          ∀ labels ∈ s.indexes.labelsAt key n, owner labels = none))
  | .request access q network => inferInstanceAs (Decidable (q.home? = some key →
      owner q.labels = some q.key ∧ ((s.gateway.request s.indexes access q network).toOption.isSome = true →
        MeetsOwn key s access q network)))
  | .release _ q => inferInstanceAs (Decidable (q.home? = some key → owner q.labels = some q.key))

/-- All turns of a run are orderly. -/
def OrderlyRun (owner : Labels → Option ObjectKey) (key : ObjectKey) : Desk → List Turn → Prop
  | _, [] => True
  | s, turn :: rest => Orderly owner key s turn ∧ OrderlyRun owner key (s.take turn) rest

instance decidableOrderlyRun (owner : Labels → Option ObjectKey) (key : ObjectKey) :
    (s : Desk) → (turns : List Turn) → Decidable (OrderlyRun owner key s turns)
  | _, [] => isTrue trivial
  | s, turn :: rest =>
    have := decidableOrderlyRun owner key (s.take turn) rest
    inferInstanceAs (Decidable (Orderly owner key s turn ∧ _))

variable {owner : Labels → Option ObjectKey}

/-- A run of one more turn is orderly when the run is and the turn is orderly where the run ends. -/
theorem orderlyRun_concat :
    OrderlyRun owner key s (turns ++ [turn]) ↔
      OrderlyRun owner key s turns ∧ Orderly owner key (s.serve turns) turn := by
  induction turns generalizing s with
  | nil => exact and_comm
  | cons first rest ih => exact (and_congr_right fun _ => ih).trans and_assoc.symm

/-- A request that meets routes of its claim only is answered the one among them that has the claim's labels:
the network that it names, the one whose route it finds again, or one that had no route. -/
theorem MeetsOwn.labels_iff {access : Access} {network : Option String} {r : Registration}
    {indexes : ScopeIndexes} (h : MeetsOwn r.scopeKey s access q network)
    (hregistration : q.registration network (s.gateway.ledger.get? q.key) = .ok r)
    (hregister : s.indexes.register access r = .ok (n, indexes))
    (hget : s.indexes.labelsAt r.scopeKey m = some labels) : labels = q.labels ↔ m = n := by
  obtain ⟨scope, index, index', -, hindex, hanswer, -⟩ := ScopeIndexes.register_eq_ok_iff.1 hregister
  obtain ⟨-, hnetwork⟩ := ClaimRequest.registration_eq_ok hregistration
  rw [ScopeIndexes.labelsAt_of_get? hindex] at hget
  have hroute : (⟨m, labels⟩ : Route) ∈ index.toList := RouteIndex.mem_toList_iff.2 hget
  cases network with
  | some raw =>
    obtain ⟨hparse, -⟩ := (RouteIndex.register_of_network_eq_ok_iff hnetwork).1 hanswer
    exact h n (Except.toOption_eq_some_iff.2 hparse) index hindex _ hroute
  | none =>
    constructor
    · intro hlabels
      have hfinds := h r (Except.toOption_eq_some_iff.2 hregistration) index hindex _ hroute hlabels
      exact (hfinds.eq_of_register hnetwork hregister).symm
    · rintro rfl
      -- A route on the network of the answer is the one that the registration owns.
      have houtcome := index.register_outcome r.scopeKey scope.spec hnetwork
      rw [hanswer] at houtcome
      cases houtcome with
      | owned _ hlabels =>
        cases hget.symm.trans hlabels
        exact ClaimRequest.labels_of_registration hregistration
      | inserted _ _ _ _ hfree hadd =>
        cases hget.symm.trans (RouteIndex.get?_of_add hfree.canonical hadd).1

/-! ### Whose routes are on record -/

/-- Every network of a scope on record has a route with labels of the claim that it is recorded for. -/
def Owns (owner : Labels → Option ObjectKey) (key : ObjectKey) (s : Desk) : Prop :=
  ∀ claim n, (⟨.claim, claim⟩ : ObjectId).home? = some key → s.recorded? claim = some n →
    ∃ labels, s.indexes.labelsAt key n = some labels ∧ owner labels = some claim

/-- With nothing on record there is nothing to show, so a run may start from an empty ledger. -/
theorem owns_of_empty (hempty : s.gateway.ledger = .empty) : Owns owner key s := by
  intro claim n _ hrecorded
  unfold recorded? at hrecorded
  rw [hempty] at hrecorded
  cases hrecorded

/-- The gateway has a network on record for a request, and this network alone has a route with the labels of
the claim. -/
structure Marks (key : ObjectKey) (q : ClaimRequest) (n : Network) (s : Desk) : Prop extends
    Records key q.key n s where
  route : ∀ m, s.indexes.labelsAt key m = some q.labels ↔ m = n

namespace Outcome

variable {s' : Desk} {access : Access} {network : Option String}

/-- A route stays, unless the turn is a release of the claim whose labels it has. -/
theorem labelsAt (h : s.Outcome turn s') (howns : s.Owns owner key) (horderly : Orderly owner key s turn)
    (hget : s.indexes.labelsAt key m = some labels)
    (hother : turn.succeeds s = true → turn.claim? = owner labels →
      ∀ access q, turn ≠ .release access q) :
    s'.indexes.labelsAt key m = some labels := by
  cases h with
  | failed => exact hget
  | declared hdeclare => exact (ScopeIndexes.places_of_declare hdeclare).labelsAt hget
  | granted _ _ hregister => exact (ScopeIndexes.places_of_register hregister).labelsAt hget
  -- a release of another claim: the route is not its by labels, and not by record since records are owned
  | @released access q _ hrelease =>
    have hne : owner labels ≠ some q.key := fun howner =>
      hother (congrArg (·.toOption.isSome) hrelease) howner.symm access q rfl
    refine (Gateway.released_of_release hrelease).labelsAt hget (fun hhome hlabels => ?_) ?_
    · exact hne (hlabels ▸ horderly hhome)
    · intro hhome text hledger hparse
      have hrecorded : s.recorded? q.key = some m := by
        unfold recorded?
        rw [hledger, Option.bind_some, hparse]
        rfl
      obtain ⟨labels', hlabels', howner⟩ := howns q.key m hhome hrecorded
      obtain rfl := Option.some.inj (hget.symm.trans hlabels')
      exact hne howner

/-- Labels come to no network in a turn of somebody else. -/
theorem labelsAt_of_labelsAt (h : s.Outcome turn s') (horderly : Orderly owner key s turn)
    (hother : turn.succeeds s = true → turn.claim? ≠ owner labels)
    (hget : s'.indexes.labelsAt key m = some labels) : s.indexes.labelsAt key m = some labels := by
  cases h with
  | failed => exact hget
  | @declared scope pool n indexes hdeclare =>
    refine ((ScopeIndexes.places_of_declare hdeclare).labelsAt_iff fun hkey hlabels => ?_).1 hget
    have hparse := (ScopeIndexes.declare_eq_ok_iff.1 hdeclare).1
    have howner := (horderly hkey.symm n (Except.toOption_eq_some_iff.2 hparse)).1
    exact hother (congrArg (·.toOption.isSome) hdeclare) (hlabels ▸ howner.symm)
  | @granted access q network r n indexes hrequest hregistration hregister =>
    refine ((ScopeIndexes.places_of_register hregister).labelsAt_iff fun hkey hlabels => ?_).1 hget
    obtain ⟨hhome, -⟩ := ClaimRequest.registration_eq_ok hregistration
    have howner := (horderly (hhome.trans (congrArg some hkey.symm))).1
    rw [ClaimRequest.labels_of_registration hregistration] at hlabels
    exact hother (congrArg (·.toOption.isSome) hrequest) (hlabels ▸ howner.symm)
  | released hrelease => exact (Gateway.released_of_release hrelease).labelsAt_of_labelsAt hget

/-- A turn leaves the record of a claim alone, unless it succeeds for this claim. -/
theorem ledger_get? (h : s.Outcome turn s') (hother : turn.succeeds s = true → turn.claim? ≠ some claim) :
    s'.gateway.ledger.get? claim = s.gateway.ledger.get? claim := by
  cases h with
  | failed | declared _ => rfl
  | granted hrequest _ _ =>
    have hne := hother (congrArg (·.toOption.isSome) hrequest)
    exact SortedMap.get?_insert_of_ne _ fun heq => hne (congrArg some heq.symm)
  | released hrelease =>
    have hne := hother (congrArg (·.toOption.isSome) hrelease)
    exact SortedMap.get?_erase_of_ne fun heq => hne (congrArg some heq.symm)

/-- A claim that is released is off the record. -/
theorem ledger_get?_of_release (h : s.Outcome (.release access q) s')
    (hsucceeds : (Turn.release access q).succeeds s = true) : s'.gateway.ledger.get? q.key = none := by
  cases h with
  | failed hfails =>
    rw [hfails] at hsucceeds
    cases hsucceeds
  | released _ => exact SortedMap.get?_erase_self _ _

/-- An orderly request is answered a network that has the only route with the labels of the claim. -/
theorem marks (h : s.Outcome (.request access q network) s')
    (hsucceeds : (Turn.request access q network).succeeds s = true)
    (horderly : Orderly owner key s (.request access q network)) (hhome : q.home? = some key) :
    ∃ n, Marks key q n s' := by
  cases h with
  | failed hfails =>
    rw [hfails] at hsucceeds
    cases hsucceeds
  | @granted _ _ _ r n indexes hrequest hregistration hregister =>
    obtain ⟨hscope, -⟩ := ClaimRequest.registration_eq_ok hregistration
    obtain rfl := Option.some.inj (hhome.symm.trans hscope)
    have hcanonical := ScopeIndexes.isCanonical_of_register hregister
    have hplaces := ScopeIndexes.places_of_register hregister
    rw [ClaimRequest.labels_of_registration hregistration] at hplaces
    have hmeets : MeetsOwn r.scopeKey s access q network :=
      (horderly hhome).2 (congrArg (·.toOption.isSome) hrequest)
    refine ⟨n, ⟨hcanonical, hhome, SortedMap.get?_insert_self _ _ _⟩, fun m => ⟨fun hm => ?_, ?_⟩⟩
    · by_cases hmn : m = n
      · exact hmn
      dsimp only at hm
      rw [hplaces.others _ m fun _ => hmn] at hm
      exact (hmeets.labels_iff hregistration hregister hm).1 rfl
    · rintro rfl
      dsimp only
      rw [hplaces.self]
      cases hm : s.indexes.labelsAt r.scopeKey m with
      | none => rfl
      | some labels => exact congrArg some ((hmeets.labels_iff hregistration hregister hm).2 rfl)

/-- One turn keeps every recorded network with a route of its claim. An orderly turn of another claim has
other labels, so it takes no such route away. -/
theorem owns (h : s.Outcome turn s') (howns : s.Owns owner key) (horderly : Orderly owner key s turn) :
    s'.Owns owner key := by
  intro claim n hhome hrecorded
  by_cases hother : turn.succeeds s = true → turn.claim? ≠ some claim
  · unfold recorded? at hrecorded
    rw [h.ledger_get? hother] at hrecorded
    obtain ⟨labels, hlabels, howner⟩ := howns claim n hhome hrecorded
    refine ⟨labels, h.labelsAt howns horderly hlabels fun hsucceeds hclaim => ?_, howner⟩
    exact absurd (hclaim.trans howner) (hother hsucceeds)
  · obtain ⟨hsucceeds, hclaim⟩ := Classical.not_imp.1 hother
    cases turn with
    | declare scope pool => cases not_not.1 hclaim
    | request access q network =>
      cases not_not.1 hclaim
      obtain ⟨m, hmarks⟩ := h.marks hsucceeds horderly hhome
      obtain rfl := Option.some.inj (hrecorded.symm.trans hmarks.recorded?)
      exact ⟨q.labels, (hmarks.route n).2 rfl, (horderly hhome).1⟩
    | release access q =>
      cases not_not.1 hclaim
      unfold recorded? at hrecorded
      rw [h.ledger_get?_of_release hsucceeds] at hrecorded
      cases hrecorded

end Outcome

/-- A run of orderly turns keeps every recorded network with a route of its claim. -/
theorem owns_serve (howns : s.Owns owner key) (horderly : OrderlyRun owner key s turns) :
    (s.serve turns).Owns owner key := by
  induction turns generalizing s with
  | nil => exact howns
  | cons turn rest ih => exact ih ((s.take_outcome turn).owns howns horderly.1) horderly.2

/-! ### Standing requests -/

/-- A request is the last one that was granted for its claim, and no release of the claim succeeded since. -/
inductive Standing (s : Desk) (q : ClaimRequest) : List Turn → Prop
  | granted {turns : List Turn} {access : Access} {network : Option String}
    (h : (Turn.request access q network).succeeds (s.serve turns) = true) :
    Standing s q (turns ++ [.request access q network])
  | kept {turns : List Turn} (h : Standing s q turns) (turn : Turn)
    (hother : turn.succeeds (s.serve turns) = true → turn.claim? ≠ some q.key) :
    Standing s q (turns ++ [turn])

/-- A request that was granted can be read. -/
theorem Standing.registration (h : Standing s q turns) : ∃ r, q.registration none none = .ok r := by
  induction h with
  | granted h =>
    obtain ⟨answer, hanswer⟩ := Option.isSome_iff_exists.1 h
    obtain ⟨text, indexes, gateway⟩ := answer
    obtain ⟨r, _, hregistration, -, -⟩ := Gateway.request_eq_ok (Except.toOption_eq_some_iff.1 hanswer)
    exact ⟨_, ClaimRequest.registration_of_registration hregistration⟩
  | kept _ _ _ ih => exact ih

/-- Behind every record stands a request. -/
theorem exists_standing {text : String} (hempty : s.gateway.ledger = .empty) (turns : List Turn)
    (h : (s.serve turns).gateway.ledger.get? claim = some text) :
    ∃ q, q.key = claim ∧ Standing s q turns := by
  induction turns using List.reverseRecOn with
  | nil =>
    have h : s.gateway.ledger.get? claim = some text := h
    rw [hempty] at h
    cases h
  | append_singleton turns turn ih =>
    rw [serve_concat] at h
    have houtcome := (s.serve turns).take_outcome turn
    by_cases hother : turn.succeeds (s.serve turns) = true → turn.claim? ≠ some claim
    · rw [houtcome.ledger_get? hother] at h
      obtain ⟨q, rfl, hq⟩ := ih h
      exact ⟨q, rfl, hq.kept turn hother⟩
    · obtain ⟨hsucceeds, hclaim⟩ := Classical.not_imp.1 hother
      cases turn with
      | declare scope pool => cases not_not.1 hclaim
      | request access q network => exact ⟨q, Option.some.inj (not_not.1 hclaim), .granted hsucceeds⟩
      | release access q =>
        cases not_not.1 hclaim
        rw [houtcome.ledger_get?_of_release hsucceeds] at h
        cases h

/-- A claim whose request stands is on record with one network, and its labels are found there and nowhere
else. This is what a restarted gateway can read off the indexes without a record. -/
theorem marks_of_standing (howns : s.Owns owner key) (horderly : OrderlyRun owner key s turns)
    (h : Standing s q turns) (hhome : q.home? = some key) :
    owner q.labels = some q.key ∧ ∃ n, Marks key q n (s.serve turns) := by
  induction h with
  | @granted turns access network hsucceeds =>
    obtain ⟨hearlier, hlast⟩ := orderlyRun_concat.1 horderly
    rw [serve_concat]
    exact ⟨(hlast hhome).1, ((s.serve turns).take_outcome _).marks hsucceeds hlast hhome⟩
  | @kept turns h turn hother ih =>
    obtain ⟨hearlier, hlast⟩ := orderlyRun_concat.1 horderly
    obtain ⟨howner, n, hmarks⟩ := ih hearlier
    have houtcome := (s.serve turns).take_outcome turn
    rw [serve_concat]
    rw [← howner] at hother
    refine ⟨howner, n, ⟨hmarks.canonical, hmarks.home, ?_⟩, fun m => ?_⟩
    · rw [howner] at hother
      exact (houtcome.ledger_get? hother).trans hmarks.ledger
    · rw [← hmarks.route m]
      exact ⟨houtcome.labelsAt_of_labelsAt hlast hother, fun hget =>
        houtcome.labelsAt (owns_serve howns hearlier) hlast hget fun hsucceeds hclaim =>
          absurd hclaim (hother hsucceeds)⟩

/-! ### Declared networks -/

/-- A declaration of a network of a scope succeeded. -/
inductive Declared (key : ObjectKey) (s : Desk) : List Turn → Network → Prop
  | declared {turns : List Turn} {pool : Pool} {n : Network} {indexes : ScopeIndexes}
    (h : ((s.serve turns).indexes.declare key pool).2 = .ok (n, indexes)) :
    Declared key s (turns ++ [.declare key pool]) n
  | kept {turns : List Turn} {n : Network} (h : Declared key s turns n) (turn : Turn) :
    Declared key s (turns ++ [turn]) n

/-- In an orderly run a declared network always has a route, with labels of no claim. -/
theorem labelsAt_of_declared (howns : s.Owns owner key) (horderly : OrderlyRun owner key s turns)
    (h : Declared key s turns n) :
    ∃ labels, (s.serve turns).indexes.labelsAt key n = some labels ∧ owner labels = none := by
  induction h with
  | @declared turns pool n indexes hdeclare =>
    obtain ⟨-, hlast⟩ := orderlyRun_concat.1 horderly
    obtain ⟨hlabels, hroute⟩ := hlast rfl n
      (Except.toOption_eq_some_iff.2 (ScopeIndexes.declare_eq_ok_iff.1 hdeclare).1)
    rw [serve_concat]
    unfold take act Turn.call
    dsimp only
    rw [hdeclare]
    refine ⟨_, (ScopeIndexes.places_of_declare hdeclare).self, ?_⟩
    cases hget : (s.serve turns).indexes.labelsAt key n with
    | none => exact hlabels
    | some labels => exact hroute labels hget
  | @kept turns n _ turn ih =>
    obtain ⟨hearlier, hlast⟩ := orderlyRun_concat.1 horderly
    obtain ⟨labels, hget, howner⟩ := ih hearlier
    rw [serve_concat]
    refine ⟨labels, ((s.serve turns).take_outcome turn).labelsAt (owns_serve howns hearlier) hlast hget ?_,
      howner⟩
    rintro - hclaim access q rfl
    rw [howner] at hclaim
    cases hclaim

/-! ### A restart -/

/-- **A restart makes no difference.** After an orderly run there is a request behind every record. Whoever
releases the claim with this request, the gateway that served it or one without records, the indexes come
to be the same, and every network that was declared keeps its route. -/
theorem restart_agrees (owner : Labels → Option ObjectKey) (key : ObjectKey) (s : Desk) (turns : List Turn)
    (claim : ObjectKey) (text : String) (hempty : s.gateway.ledger = .empty)
    (horderly : OrderlyRun owner key s turns) (hhome : (⟨.claim, claim⟩ : ObjectId).home? = some key)
    (hrecord : (s.serve turns).gateway.ledger.get? claim = some text) :
    (∃ q, q.key = claim ∧ Standing s q turns) ∧
      ∀ q, q.key = claim → Standing s q turns → ∀ access fansOut,
        ((s.serve turns).gateway.release (s.serve turns).indexes access q).map Prod.fst
            = ((Gateway.fresh fansOut).release (s.serve turns).indexes access q).map Prod.fst ∧
          ∀ n, Declared key s turns n → ∃ labels, (s.serve turns).indexes.labelsAt key n = some labels ∧
            ∀ indexes, ((s.serve turns).gateway.release (s.serve turns).indexes access q).map Prod.fst
              = .ok indexes → indexes.labelsAt key n = some labels := by
  refine ⟨exists_standing hempty turns hrecord, ?_⟩
  rintro q rfl hstanding access fansOut
  have howns : s.Owns owner key := owns_of_empty hempty
  obtain ⟨howner, n, hmarks⟩ := marks_of_standing howns horderly hstanding hhome
  constructor
  · obtain ⟨r, hregistration⟩ := hstanding.registration
    obtain ⟨hscope, -⟩ := ClaimRequest.registration_eq_ok hregistration
    obtain rfl := Option.some.inj (hhome.symm.trans hscope)
    refine Gateway.release_eq_of_lookup hregistration hmarks.ledger ?_ fansOut
    refine ScopeIndexes.lookup_eq_of_labelsAt_iff ?_
    rw [ClaimRequest.labels_of_registration hregistration]
    exact hmarks.route
  · intro m hdeclared
    obtain ⟨labels, hget, hnone⟩ := labelsAt_of_declared howns horderly hdeclared
    refine ⟨labels, hget, fun indexes hreleased => ?_⟩
    obtain ⟨⟨indexes', gateway⟩, hrelease, rfl⟩ := Except.map_eq_ok_iff.1 hreleased
    have hlabels : labels ≠ q.labels := by
      rintro rfl
      rw [howner] at hnone
      cases hnone
    refine (Gateway.released_of_release hrelease).labelsAt hget (fun _ => hlabels) ?_
    intro _ text' hledger hparse
    obtain rfl := Option.some.inj (hmarks.ledger.symm.trans hledger)
    cases (Network.parse_text hmarks.canonical).symm.trans hparse
    exact hlabels (Option.some.inj (hget.symm.trans ((hmarks.route n).2 rfl)))

end Desk

/-! ## Sample runs -/

namespace Sample

/-- The sample scope before anything was declared, and a gateway that handed out nothing. -/
def bareDesk : Desk := ⟨.ensure .empty key, .fresh true⟩

def coreRequest : ClaimRequest := { edgeRequest with claim := "acme.lab.core" }

/-- Whose labels are whose: the two claims use theirs, and declarations all others. -/
def claimOf (labels : Labels) : Option ObjectKey :=
  if labels = edgeRequest.labels then some edgeRequest.key
  else if labels = coreRequest.labels then some coreRequest.key
  else none

/-- A pool is declared; one claim asks for an address of it, the other one for an address that it names, and
the first one asks again. -/
def mixed : List Desk.Turn :=
  [.declare key (pool "10.0.0.0/30"), .request access edgeRequest none,
    .request access coreRequest (some "10.0.0.2/32"), .request access edgeRequest none]

/-- A pool is declared, and a claim names the network of the pool. -/
def intruding : List Desk.Turn :=
  [.declare key (pool "10.0.0.0/30"), .request access edgeRequest (some "10.0.0.0/30")]

end Sample

namespace Desk

/-- The first turn of the mixed run declares the pool of the example. -/
theorem declared_sample : Declared Sample.key Sample.bareDesk (Sample.mixed.take 1) Sample.network := by
  have hanswer : ∃ answer ∈ (Sample.bareDesk.indexes.declare Sample.key
      (Sample.pool "10.0.0.0/30")).2.toOption, answer.1 = Sample.network := by
    decide +kernel
  obtain ⟨⟨_, indexes⟩, hok, rfl⟩ := hanswer
  have hdeclared : Declared Sample.key Sample.bareDesk ([] ++ Sample.mixed.take 1) Sample.network :=
    .declared (Except.toOption_eq_some_iff.1 hok)
  exact hdeclared

/-- A pool is declared, two claims are served from it, and one is released by either gateway: both succeed
with the same indexes, in which the declared pool is still there. -/
theorem restart_agrees_sample :
    OrderlyRun Sample.claimOf Sample.key Sample.bareDesk Sample.mixed ∧
      (Sample.bareDesk.serve Sample.mixed).indexes.labelsAt Sample.key Sample.firstAddress ≠ none ∧
        ∃ indexes,
          ((Sample.bareDesk.serve Sample.mixed).gateway.release (Sample.bareDesk.serve Sample.mixed).indexes
            Sample.access Sample.edgeRequest).map Prod.fst = .ok indexes ∧
          ((Gateway.fresh true).release (Sample.bareDesk.serve Sample.mixed).indexes
            Sample.access Sample.edgeRequest).map Prod.fst = .ok indexes ∧
          indexes.labelsAt Sample.key Sample.network ≠ none := by
  have hruns : OrderlyRun Sample.claimOf Sample.key Sample.bareDesk Sample.mixed ∧
      (Sample.bareDesk.serve Sample.mixed).indexes.labelsAt Sample.key Sample.firstAddress ≠ none ∧
      (Sample.bareDesk.serve Sample.mixed).gateway.ledger.get? Sample.edgeRequest.key = some "10.0.0.0/32" ∧
      (Turn.request Sample.access Sample.edgeRequest none).succeeds
        (Sample.bareDesk.serve (Sample.mixed.take 3)) = true ∧
      (((Sample.bareDesk.serve Sample.mixed).gateway.release (Sample.bareDesk.serve Sample.mixed).indexes
        Sample.access Sample.edgeRequest).map Prod.fst).toOption.isSome = true := by
    decide +kernel
  obtain ⟨horderly, hroute, hrecord, hgranted, hreleased⟩ := hruns
  have hstanding : Standing Sample.bareDesk Sample.edgeRequest
      (Sample.mixed.take 3 ++ [.request Sample.access Sample.edgeRequest none]) := .granted hgranted
  have hdeclared : Declared Sample.key Sample.bareDesk
      (((Sample.mixed.take 1 ++ [.request Sample.access Sample.edgeRequest none]) ++
        [.request Sample.access Sample.coreRequest (some "10.0.0.2/32")]) ++
          [.request Sample.access Sample.edgeRequest none]) Sample.network :=
    ((declared_sample.kept _).kept _).kept _
  obtain ⟨hsame, hkept⟩ := (restart_agrees Sample.claimOf Sample.key Sample.bareDesk Sample.mixed
    Sample.edgeRequest.key "10.0.0.0/32" rfl horderly (by decide) hrecord).2
      Sample.edgeRequest rfl hstanding Sample.access true
  obtain ⟨indexes, hindexes⟩ := Option.isSome_iff_exists.1 hreleased
  have hrelease := Except.toOption_eq_some_iff.1 hindexes
  obtain ⟨labels, -, hdeclaration⟩ := hkept Sample.network hdeclared
  refine ⟨horderly, hroute, indexes, hrelease, hsame.symm.trans hrelease, ?_⟩
  rw [hdeclaration indexes hrelease]
  nofun

/-- A claim names the network of a pool. The gateway that has it on record removes the pool's route when it
releases the claim; a restarted one finds no route of the claim and removes nothing. -/
theorem recorded_pool_lost :
    Standing Sample.bareDesk Sample.edgeRequest Sample.intruding ∧
      Declared Sample.key Sample.bareDesk Sample.intruding Sample.network ∧
        ∃ indexes indexes',
          ((Sample.bareDesk.serve Sample.intruding).gateway.release
            (Sample.bareDesk.serve Sample.intruding).indexes Sample.access Sample.edgeRequest).map Prod.fst
              = .ok indexes ∧
          ((Gateway.fresh true).release (Sample.bareDesk.serve Sample.intruding).indexes Sample.access
            Sample.edgeRequest).map Prod.fst = .ok indexes' ∧
          indexes.labelsAt Sample.key Sample.network = none ∧
          indexes'.labelsAt Sample.key Sample.network ≠ none := by
  have hruns : (Turn.request Sample.access Sample.edgeRequest (some "10.0.0.0/30")).succeeds
        (Sample.bareDesk.serve (Sample.mixed.take 1)) = true ∧
      (∃ indexes ∈ (((Sample.bareDesk.serve Sample.intruding).gateway.release
          (Sample.bareDesk.serve Sample.intruding).indexes Sample.access Sample.edgeRequest).map
            Prod.fst).toOption, indexes.labelsAt Sample.key Sample.network = none) ∧
      ∃ indexes ∈ (((Gateway.fresh true).release (Sample.bareDesk.serve Sample.intruding).indexes
          Sample.access Sample.edgeRequest).map Prod.fst).toOption,
        indexes.labelsAt Sample.key Sample.network ≠ none := by
    decide +kernel
  obtain ⟨hgranted, ⟨indexes, hindexes, hlost⟩, indexes', hindexes', hkept⟩ := hruns
  have hstanding : Standing Sample.bareDesk Sample.edgeRequest
      (Sample.mixed.take 1 ++ [.request Sample.access Sample.edgeRequest (some "10.0.0.0/30")]) :=
    .granted hgranted
  have hdeclared : Declared Sample.key Sample.bareDesk
      (Sample.mixed.take 1 ++ [.request Sample.access Sample.edgeRequest (some "10.0.0.0/30")])
      Sample.network := declared_sample.kept _
  exact ⟨hstanding, hdeclared, indexes, indexes', Except.toOption_eq_some_iff.1 hindexes,
    Except.toOption_eq_some_iff.1 hindexes', hlost, hkept⟩

end Desk

end AddressRegistry
