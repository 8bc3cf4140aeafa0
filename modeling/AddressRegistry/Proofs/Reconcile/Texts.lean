import AddressRegistry.Proofs.Gateway.Leaks
import AddressRegistry.Proofs.Reconcile.Course
import AddressRegistry.Proofs.Reconcile.Entitlement

/-!
# Networks on record

The registry records networks by their texts: a claim the network that it holds, a pool the one that it
declared and those around and inside it, and a gateway the ones that it handed out. Whatever is decided later
about such a network is decided after its text was parsed. So it matters that a text leads back to the network
that it was written for, and to no other one.

A pass that ends ready records networks with a route in the scope of its object (`Controller.Sound.texts_routed`),
and so does a request that a gateway grants (`Gateway.ledger_routed`). Nobody records anything but the texts of
canonical networks, whatever happens (`Object.Printed.develops`, `Gateway.Printed.run`), and each of these texts
parses to its network (`Network.IsPrinted.parse`). `recorded_texts_read_back` puts this together.
-/

namespace AddressRegistry

/-! ## Texts -/

/-- The text of a canonical network. -/
def Network.IsPrinted (raw : String) : Prop := ∃ n : Network, n.IsCanonical ∧ raw = n.text

/-- The text of a canonical network parses to it. -/
theorem Network.IsPrinted.parse {raw : String} (h : IsPrinted raw) :
    ∃ n : Network, n.IsCanonical ∧ raw = n.text ∧ Network.parse raw = .ok n := by
  obtain ⟨n, hcanonical, rfl⟩ := h
  exact ⟨n, hcanonical, rfl, parse_text hcanonical⟩

namespace Object

variable {o o' : Object}

/-- The texts of networks on the status of an object. -/
def texts : Object → List String
  | tenant _ | scope _ => []
  | pool p => p.status.declared.toList ++ p.status.children ++ p.status.parents
  | claim c => c.status.network.toList

/-- The status of an object shows no text but those of canonical networks. -/
def Printed (o : Object) : Prop := ∀ raw ∈ o.texts, Network.IsPrinted raw

/-- On a pool these are the network that was declared, and those around and inside it. -/
theorem printed_pool_iff {p : Pool} :
    (pool p).Printed ↔ (∀ raw ∈ p.status.declared, Network.IsPrinted raw) ∧
      (∀ raw ∈ p.status.children, Network.IsPrinted raw) ∧ ∀ raw ∈ p.status.parents, Network.IsPrinted raw := by
  unfold Printed texts
  simp only [List.forall_mem_append, Option.mem_toList, Option.mem_def, and_assoc]

/-- On a claim this is the network that it holds. -/
theorem printed_claim_iff {c : Claim} :
    (claim c).Printed ↔ ∀ raw ∈ c.status.network, Network.IsPrinted raw := by
  unfold Printed texts
  simp only [Option.mem_toList, Option.mem_def]

/-- The common status shows no network. -/
@[simp] theorem texts_mapStatus (o : Object) (f : Status → Status) : (o.mapStatus f).texts = o.texts := by
  cases o <;> rfl

/-- The metadata shows no network. -/
theorem Printed.mapInfo (h : o.Printed) (f : Metadata → Metadata) : (o.mapInfo f).Printed := by
  cases o <;> exact h

/-- Editing leaves the texts on the status. -/
theorem SameStatus.texts_eq (h : o.SameStatus o') : o'.texts = o.texts := by
  cases h <;> rfl

/-- A new object shows no text. -/
theorem IsNew.printed (h : o.IsNew) : o.Printed := by
  cases o with
  | tenant _ => exact nofun
  | scope _ => exact nofun
  | pool p =>
    rw [printed_pool_iff, show p.status = .fresh from h]
    exact ⟨nofun, nofun, nofun⟩
  | claim c =>
    rw [printed_claim_iff, show c.status = .fresh from h]
    exact nofun

end Object

/-! ## What a pass records -/

/-- Only canonical networks have routes. -/
theorem ScopeIndexes.isCanonical_of_labelsAt {indexes : ScopeIndexes} {key : ObjectKey} {n : Network}
    {labels : Labels} (h : indexes.labelsAt key n = some labels) : n.IsCanonical := by
  obtain ⟨index, -, hget⟩ := Option.bind_eq_some_iff.1 h
  exact RouteIndex.isCanonical_of_get? hget

/-- The network that a registration answers has a route. -/
theorem ScopeIndexes.exists_labelsAt_of_register {indexes indexes' : ScopeIndexes} {access : Access}
    {r : Registration} {n : Network} (h : indexes.register access r = .ok (n, indexes')) :
    ∃ labels, indexes'.labelsAt r.scopeKey n = some labels := by
  obtain ⟨scope, index, index', -, -, hanswer, rfl⟩ := register_eq_ok_iff.1 h
  rw [labelsAt_insert_self]
  cases hnetwork : r.network with
  | none =>
    have houtcome := index.register_outcome r.scopeKey scope.spec hnetwork
    rw [hanswer] at houtcome
    exact ⟨_, houtcome.get?_block⟩
  | some raw =>
    obtain ⟨hparse, hdeclare⟩ := (RouteIndex.register_of_network_eq_ok_iff hnetwork).1 hanswer
    exact ⟨_, (RouteIndex.get?_of_declare (Network.parse_isCanonical hparse) hdeclare).1⟩

/-- The networks around and inside a declared one have routes. -/
theorem ScopeIndexes.routed_of_usage {indexes : ScopeIndexes} {key : ObjectKey} {n : Network} {usage : Usage}
    (h : indexes.usage key n = .ok usage) {raw : String}
    (hraw : raw ∈ usage.children ∨ raw ∈ usage.parents) :
    ∃ m labels, indexes.labelsAt key m = some labels ∧ raw = m.text := by
  obtain ⟨index, hindex, rfl⟩ := usage_eq_ok_iff.1 h
  obtain ⟨route, hroute, rfl⟩ : ∃ route ∈ index.toList, route.network.text = raw := by
    rcases hraw with hraw | hraw <;> obtain ⟨route, hroute, htext⟩ := List.mem_map.1 hraw <;>
      exact ⟨route, (List.mem_filter.1 hroute).1, htext⟩
  refine ⟨route.network, route.labels, ?_, rfl⟩
  rw [labelsAt_of_get? hindex]
  exact RouteIndex.mem_toList_iff.1 hroute

namespace Pool

variable {pool pool' : Pool} {indexes indexes' : ScopeIndexes} {key : ObjectKey}

/-- Taking a declaration back writes no text. -/
theorem printed_of_retractStale (hprinted : (Object.pool pool).Printed)
    (h : pool.retractStale indexes key = .ok (pool', indexes')) : (Object.pool pool').Printed := by
  obtain ⟨-, hchildren, hparents⟩ := Object.printed_pool_iff.1 hprinted
  rcases retractStale_eq_ok_iff.1 h with
    ⟨-, rfl, -⟩ | ⟨_, _, _, -, -, -, ⟨-, rfl, -⟩ | ⟨-, -, rfl⟩⟩
  · exact hprinted
  · exact hprinted
  · exact Object.printed_pool_iff.2 ⟨nofun, hchildren, hparents⟩

/-- Whatever applying a pool comes to, it records the texts of canonical networks. -/
theorem printed_of_apply {result : Except RegistryError Unit} (hprinted : (Object.pool pool).Printed)
    (h : pool.apply indexes = (result, pool', indexes')) : (Object.pool pool').Printed := by
  unfold apply at h
  split at h
  · cases h
    exact hprinted
  · rename_i key _
    split at h
    · cases h
      exact hprinted
    · rename_i pool₁ indexes₁ hstale
      have hprinted₁ := printed_of_retractStale hprinted hstale
      have hprinted₂ : (Object.pool (indexes₁.declare key pool₁).1).Printed := by
        unfold ScopeIndexes.declare
        split <;> exact hprinted₁
      split at h
      · rename_i pool₂ e hdeclare
        cases h
        rwa [hdeclare] at hprinted₂
      · rename_i pool₂ n indexes₂ hdeclare
        have hparse := (ScopeIndexes.declare_eq_ok_iff.1 (congrArg Prod.snd hdeclare)).1
        have hdeclared : ∀ raw ∈ some n.text, Network.IsPrinted raw := by
          rintro _ ⟨⟩
          exact ⟨n, Network.parse_isCanonical hparse, rfl⟩
        rw [hdeclare] at hprinted₂
        obtain ⟨-, hchildren, hparents⟩ := Object.printed_pool_iff.1 hprinted₂
        dsimp only at h
        split at h <;> cases h
        · exact Object.printed_pool_iff.2 ⟨hdeclared, hchildren, hparents⟩
        · rename_i usage husage
          have husage : ∀ raw, raw ∈ usage.children ∨ raw ∈ usage.parents → Network.IsPrinted raw := by
            intro raw hraw
            obtain ⟨m, labels, hlabels, rfl⟩ := ScopeIndexes.routed_of_usage husage hraw
            exact ⟨m, ScopeIndexes.isCanonical_of_labelsAt hlabels, rfl⟩
          exact Object.printed_pool_iff.2 ⟨hdeclared, fun raw hraw => husage raw (Or.inl hraw),
            fun raw hraw => husage raw (Or.inr hraw)⟩

/-- What a pool records when it is declared has a route. -/
theorem texts_routed_of_apply (h : pool.apply indexes = (.ok (), pool', indexes')) :
    ∃ key, (Object.pool pool).id.home? = some key ∧ ∀ raw ∈ (Object.pool pool').texts,
      ∃ n labels, indexes'.labelsAt key n = some labels ∧ raw = n.text := by
  obtain ⟨key, pool₁, indexes₁, n, index', hkey, -, hdeclare, hindex, rfl⟩ := apply_eq_ok_iff.1 h
  refine ⟨key, home?_eq_some_iff.2 hkey, ?_⟩
  have husage := ScopeIndexes.usage_eq_ok_iff (n := n).2 ⟨index', hindex, rfl⟩
  show ∀ raw ∈ [n.text] ++ (index'.children n).map (·.network.text)
    ++ (index'.parents n).map (·.network.text), _
  simp only [List.forall_mem_append, List.forall_mem_singleton]
  refine ⟨⟨?_, fun raw hraw => ?_⟩, fun raw hraw => ?_⟩
  · obtain ⟨hparse, index₁, index₂, -, hinserted, rfl⟩ := ScopeIndexes.declare_eq_ok_iff.1 hdeclare
    have hroute := (RouteIndex.get?_of_declare (Network.parse_isCanonical hparse) hinserted).1
    exact ⟨n, _, (ScopeIndexes.labelsAt_insert_self _ _ _ n).trans hroute, rfl⟩
  · exact ScopeIndexes.routed_of_usage husage (Or.inl hraw)
  · exact ScopeIndexes.routed_of_usage husage (Or.inr hraw)

end Pool

namespace Claim

variable {claim claim' : Claim} {indexes indexes' : ScopeIndexes} {access : Access}

/-- Whatever applying a claim comes to, it records the text of a canonical network. -/
theorem printed_of_apply {result : Except Failure Unit} (hprinted : (Object.claim claim).Printed)
    (h : claim.apply indexes access = (result, claim', indexes')) : (Object.claim claim').Printed := by
  unfold apply at h
  split at h
  · cases h
    exact hprinted
  · split at h
    · cases h
      exact hprinted
    · rename_i claim₁ indexes₁ hrelease
      split at h
      · cases h
        obtain ⟨-, ⟨-, rfl, -⟩ | ⟨-, -, rfl⟩⟩ := releaseMoved_eq_ok_iff.1 hrelease
        · exact hprinted
        · exact Object.printed_claim_iff.2 nofun
      · rename_i n indexes₂ hregister
        cases h
        refine Object.printed_claim_iff.2 ?_
        rintro _ ⟨⟩
        exact ⟨n, ScopeIndexes.isCanonical_of_register hregister, rfl⟩

/-- What a claim records when it is registered has a route. -/
theorem texts_routed_of_apply (h : claim.apply indexes access = (.ok (), claim', indexes')) :
    ∃ key, (Object.claim claim).id.home? = some key ∧ ∀ raw ∈ (Object.claim claim').texts,
      ∃ n labels, indexes'.labelsAt key n = some labels ∧ raw = n.text := by
  obtain ⟨r, claim₁, indexes₁, n, hregistration, -, hregister, rfl⟩ := apply_eq_ok_iff.1 h
  obtain ⟨labels, hlabels⟩ := ScopeIndexes.exists_labelsAt_of_register hregister
  refine ⟨r.scopeKey, home?_of_registration hregistration, List.forall_mem_singleton.2 ?_⟩
  exact ⟨n, labels, hlabels, rfl⟩

end Claim

namespace Object

variable {o o' : Object} {c c' : Controller}

/-- Whatever an evaluation comes to, it writes no text but those of canonical networks. -/
theorem printed_of_evaluate {v : Option Verdict} (hprinted : o.Printed)
    (h : c.evaluate o = (v, o', c')) : o'.Printed := by
  have hplaced : ∀ f, (o.mapStatus f).Printed := fun f raw hraw => hprinted raw (o.texts_mapStatus f ▸ hraw)
  unfold Controller.evaluate at h
  split at h
  · cases h
    exact hprinted
  · rename_i name _
    dsimp only at h
    split at h
    · cases h
      exact hplaced _
    · have hplaced := hplaced fun s => { s with placement := name.placement }
      generalize o.mapStatus (fun s => { s with placement := name.placement }) = placed at *
      cases placed with
      | tenant _ =>
        cases h
        exact nofun
      | scope s =>
        have hscope : (Object.scope s).Printed := nofun
        dsimp only [Controller.apply] at h
        split at h <;> cases h <;> exact hscope
      | pool p =>
        cases h
        exact Pool.printed_of_apply hplaced rfl
      | claim r =>
        cases h
        exact Claim.printed_of_apply hplaced rfl

/-- However an object develops, it shows no text but those of canonical networks. -/
theorem Printed.develops (h : o.Printed) (hdevelops : o.Develops o') : o'.Printed := by
  cases hdevelops with
  | edited _ hstatus _ =>
    unfold Printed
    rwa [hstatus.texts_eq]
  | judged _ hbefore _ hevaluate =>
    unfold Printed
    rw [Controller.reported_eq, texts_mapStatus]
    refine printed_of_evaluate ?_ hevaluate
    rcases hbefore with rfl | rfl
    · exact h
    · exact h.mapInfo _
  | blocked c e _ =>
    obtain ⟨f, _, hverdict, -⟩ := c.recordVerdict_eq o (.stuck .terminating e)
    unfold Printed
    rwa [hverdict, texts_mapStatus]

end Object

namespace Controller

variable {c c' : Controller} {o o' : Object} {id : ObjectId} {outcome : Outcome}

/-- What is on the status of an object that was found ready has a route in its scope. -/
theorem texts_routed_of_evaluate (h : c.evaluate o = (some .ready, o', c')) :
    ∀ raw ∈ o'.texts, ∃ key n labels, o.id.home? = some key ∧
      c'.indexes.labelsAt key n = some labels ∧ raw = n.text := by
  obtain ⟨name, -, -, happly⟩ := evaluate_eq_ready_iff.1 h
  cases o with
  | tenant _ =>
    obtain ⟨-, rfl, -⟩ := apply_tenant_eq_ok_iff.1 happly
    exact nofun
  | scope _ =>
    obtain ⟨-, rfl, -⟩ := apply_scope_eq_ok_iff.1 happly
    exact nofun
  | pool _ =>
    obtain ⟨_, _, hpool, rfl, rfl⟩ := apply_pool_eq_ok_iff.1 happly
    obtain ⟨key, hhome, hrouted⟩ := Pool.texts_routed_of_apply hpool
    intro raw hraw
    obtain ⟨n, labels, hlabels, rfl⟩ := hrouted raw hraw
    exact ⟨key, n, labels, hhome, hlabels, rfl⟩
  | claim _ =>
    obtain ⟨_, _, hclaim, rfl, rfl⟩ := apply_claim_eq_ok_iff.1 happly
    obtain ⟨key, hhome, hrouted⟩ := Claim.texts_routed_of_apply hclaim
    intro raw hraw
    obtain ⟨n, labels, hlabels, rfl⟩ := hrouted raw hraw
    exact ⟨key, n, labels, hhome, hlabels, rfl⟩

/-- What is on the status of an object after a pass that ends ready has a route in the object's scope. -/
theorem Sound.texts_routed (h : c.Sound) (hpass : c.reconcile id = (.ok outcome, c'))
    (hready : outcome.ready = true) (hget' : c'.access.store.get? id = some o') :
    ∀ raw ∈ o'.texts, ∃ key n labels, id.home? = some key ∧
      c'.indexes.labelsAt key n = some labels ∧ raw = n.text := by
  cases hget : c.access.store.get? id with
  | none =>
    rw [h.reconcile_of_absent hget] at hpass
    cases hpass
    cases hready
  | some o =>
    cases hlive : o.info.deletionRequested with
    | true =>
      rw [h.reconcile_of_deleted hget hlive] at hpass
      rw [ready_of_finalize hpass] at hready
      cases hready
    | false =>
      rw [h.reconcile_of_live hget hlive] at hpass
      obtain ⟨before, after, c₁, c₂, -, hid, -, -, -, hevaluate, hstores, -⟩ :=
        maintain_ready h.rules hget (h.keyed id o hget) hpass hready
      obtain rfl := Option.some.inj (hget'.symm.trans hstores.get?_self)
      rw [reported_eq, Object.texts_mapStatus, hstores.indexes, ← hid]
      exact texts_routed_of_evaluate hevaluate

end Controller

/-! ## What a gateway records -/

namespace Gateway

variable {g g' : Gateway} {indexes indexes' : ScopeIndexes} {access : Access} {q : ClaimRequest}
variable {network : Option String} {text : String}

/-- A request that is granted records the text of a network with a route in the claim's scope. -/
theorem ledger_routed (h : g.request indexes access q network = .ok (text, indexes', g')) :
    ∃ key n labels, (⟨.claim, q.key⟩ : ObjectId).home? = some key ∧
      indexes'.labelsAt key n = some labels ∧ g'.ledger.get? q.key = some n.text := by
  obtain ⟨r, n, hregistration, hregister, rfl⟩ := request_eq_ok h
  obtain ⟨labels, hlabels⟩ := ScopeIndexes.exists_labelsAt_of_register hregister
  exact ⟨r.scopeKey, n, labels, (ClaimRequest.registration_eq_ok hregistration).1, hlabels,
    SortedMap.get?_insert_self _ _ _⟩

/-- The ledger holds no text but those of canonical networks. -/
def Printed (g : Gateway) : Prop := ∀ claim raw, g.ledger.get? claim = some raw → Network.IsPrinted raw

/-- A request that is granted adds the text of a canonical network to the ledger. -/
theorem Printed.request (hprinted : g.Printed)
    (h : g.request indexes access q network = .ok (text, indexes', g')) : g'.Printed := by
  obtain ⟨r, n, -, hregister, rfl⟩ := request_eq_ok h
  intro claim raw hraw
  rcases SortedMap.get?_insert_eq_some_iff.1 hraw with ⟨-, rfl⟩ | ⟨-, hraw⟩
  · exact ⟨n, ScopeIndexes.isCanonical_of_register hregister, rfl⟩
  · exact hprinted claim raw hraw

/-- A release adds nothing to the ledger. -/
theorem Printed.release (hprinted : g.Printed) (h : g.release indexes access q = .ok (indexes', g')) :
    g'.Printed := by
  obtain ⟨r, persisted, -, -, -, rfl⟩ := release_eq_ok h
  exact fun claim raw hraw => hprinted claim raw (SortedMap.get?_of_get?_erase hraw)

end Gateway

namespace Desk

variable {s : Desk} {call : Call}

/-- A call adds nothing to the ledger but the text of a canonical network, and nothing when it fails. -/
theorem printed_act (h : s.gateway.Printed) : (s.act call).gateway.Printed := by
  cases call with
  | request access q network =>
    dsimp only [act]
    split
    · rename_i hrequest
      exact h.request hrequest
    · exact h
  | release access q =>
    dsimp only [act]
    split
    · rename_i hrelease
      exact h.release hrelease
    · exact h
  | change indexes => exact h

/-- The ledger holds no text but those of canonical networks in every run. -/
theorem printed_run (calls : List Call) (h : s.gateway.Printed) : (s.run calls).gateway.Printed := by
  induction calls generalizing s with
  | nil => exact h
  | cons call rest ih => exact ih (printed_act h)

end Desk

/-! ## Reading back -/

/-- **A text on record stands for one network.** What parses is canonical, the text of a canonical network
parses to it, with or without blanks around, and no two networks have one text. The texts on the status of an
object, after a pass that ended ready, and in the ledger, after a request that was granted, parse to networks
with a route in the scope; and at every moment of a course or of a gateway's run each of them is the text of
the canonical network that it parses to. -/
theorem recorded_texts_read_back :
    (∀ raw n, Network.parse raw = .ok n → n.IsCanonical) ∧
    (∀ n : Network, n.IsCanonical → ∀ before after : List Char,
      (∀ c ∈ before, Text.isBlank c = true) → (∀ c ∈ after, Text.isBlank c = true) →
        Network.parse (String.ofList before ++ n.text ++ String.ofList after) = .ok n) ∧
    (∀ n m : Network, n.text = m.text → n = m) ∧
    (∀ (c c' : Controller) (id : ObjectId) (outcome : Outcome) (o' : Object), c.Sound →
      c.reconcile id = (.ok outcome, c') → outcome.ready = true → c'.access.store.get? id = some o' →
        ∀ raw ∈ o'.texts, ∃ key n labels, id.home? = some key ∧ raw = n.text ∧
          Network.parse raw = .ok n ∧ c'.indexes.labelsAt key n = some labels) ∧
    (∀ (g g' : Gateway) (indexes indexes' : ScopeIndexes) (access : Access) (q : ClaimRequest)
      (network : Option String) (text : String), g.request indexes access q network = .ok (text, indexes', g') →
        ∃ key n labels, (⟨.claim, q.key⟩ : ObjectId).home? = some key ∧ g'.ledger.get? q.key = some n.text ∧
          Network.parse n.text = .ok n ∧ indexes'.labelsAt key n = some labels) ∧
    (∀ policy happenings, (∀ happening ∈ happenings, Happening.Proper happening) → ∀ id o,
      ((Controller.fresh policy).course happenings).access.store.get? id = some o → ∀ raw ∈ o.texts,
        ∃ n : Network, n.IsCanonical ∧ raw = n.text ∧ Network.parse raw = .ok n) ∧
    ∀ indexes fansOut calls claim raw,
      (Desk.run ⟨indexes, .fresh fansOut⟩ calls).gateway.ledger.get? claim = some raw →
        ∃ n : Network, n.IsCanonical ∧ raw = n.text ∧ Network.parse raw = .ok n := by
  refine ⟨fun _ _ => Network.parse_isCanonical, fun _ h _ _ => Network.parse_surrounded h,
    fun _ _ h => Network.text_injective h, ?_, ?_, ?_, ?_⟩
  · intro c c' id outcome o' hsound hpass hready hget raw hraw
    obtain ⟨key, n, labels, hhome, hlabels, rfl⟩ := hsound.texts_routed hpass hready hget raw hraw
    exact ⟨key, n, labels, hhome, rfl, Network.parse_text (ScopeIndexes.isCanonical_of_labelsAt hlabels),
      hlabels⟩
  · intro g g' indexes indexes' access q network text hrequest
    obtain ⟨key, n, labels, hhome, hlabels, hledger⟩ := Gateway.ledger_routed hrequest
    exact ⟨key, n, labels, hhome, hledger, Network.parse_text (ScopeIndexes.isCanonical_of_labelsAt hlabels),
      hlabels⟩
  · intro policy happenings hproper id o hget raw hraw
    have hnew : ∀ o : Object, o.IsNew → (Store.created o).Printed := fun o hnew => hnew.printed.mapInfo _
    obtain ⟨-, hprinted⟩ := Controller.course_induction hnew
      (fun _ _ h hdevelops => h.develops hdevelops) policy hproper
    exact (hprinted id o hget raw hraw).parse
  · intro indexes fansOut calls claim raw hraw
    have hfresh : (Gateway.fresh fansOut).Printed := fun _ _ hget => nomatch
      (SortedMap.get?_empty _).symm.trans hget
    exact (Desk.printed_run (s := ⟨indexes, .fresh fansOut⟩) calls hfresh claim raw hraw).parse

/-- A dynamic claim of the sample registry obtains its address. -/
def Lab.serving : List Happening :=
  [.write (.create (.newTenant "default" "acme" .fresh)),
    .write (.create (.newScope Sample.key.space Sample.key.name Sample.spec)), .write (.create Lab.pool),
    .write (.create (Lab.dynamic Lab.edgeId (Lab.site "west"))), .reconcile Lab.tenantId,
    .reconcile Lab.scopeId, .reconcile Lab.poolId, .reconcile Lab.edgeId]

/-- A text with blanks around, the status of a claim after a pass and in a course, and what a gateway hands out. -/
theorem recorded_texts_read_back_lab :
    Network.parse (String.ofList [' '] ++ Sample.firstAddress.text ++ String.ofList ['\t'])
        = .ok Sample.firstAddress ∧
      (∃ outcome c' o', (Lab.after Lab.allocating).reconcile Lab.edgeId = (.ok outcome, c') ∧
        c'.access.store.get? Lab.edgeId = some o' ∧ o'.texts = ["10.0.0.0/32"] ∧
          ∀ raw ∈ o'.texts, ∃ key n labels, Lab.edgeId.home? = some key ∧ raw = n.text ∧
            Network.parse raw = .ok n ∧ c'.indexes.labelsAt key n = some labels) ∧
      (∃ text indexes' g', Sample.desk.gateway.request Sample.desk.indexes Sample.access Sample.edgeRequest none
          = .ok (text, indexes', g') ∧
        ∃ key n labels, g'.ledger.get? Sample.edgeRequest.key = some n.text ∧
          Network.parse n.text = .ok n ∧ indexes'.labelsAt key n = some labels) ∧
      (∀ happening ∈ Lab.serving, happening.Proper) ∧
        ∃ o raw n, ((Controller.fresh Lab.policy).course Lab.serving).access.store.get? Lab.edgeId = some o ∧
          raw ∈ o.texts ∧ n.IsCanonical ∧ raw = n.text ∧ Network.parse raw = .ok n := by
  obtain ⟨-, hblanks, -, hpasses, hrequests, hcourse, -⟩ := recorded_texts_read_back
  have hproper : ∀ happening ∈ Lab.serving, happening.Proper := by decide
  have hcanonical : Sample.firstAddress.IsCanonical := by decide
  refine ⟨hblanks _ hcanonical _ _ (List.forall_mem_singleton.2 rfl) (List.forall_mem_singleton.2 rfl),
    ?_, ?_, hproper, ?_⟩
  · have hready : ((Lab.after Lab.allocating).reconcile Lab.edgeId).1.toOption.map (·.ready) = some true ∧
        (((Lab.after Lab.allocating).reconcile Lab.edgeId).2.access.store.get? Lab.edgeId).map Object.texts
          = some ["10.0.0.0/32"] := by
      decide +kernel
    rcases hpass : (Lab.after Lab.allocating).reconcile Lab.edgeId with ⟨_ | outcome, c'⟩ <;>
      rw [hpass] at hready <;> obtain ⟨hready, htexts⟩ := hready
    · cases hready
    · obtain ⟨o', hget, htexts⟩ := Option.map_eq_some_iff.1 htexts
      have hsound := (Lab.after_reachable Lab.allocating).sound
      exact ⟨outcome, c', o', rfl, hget, htexts,
        hpasses _ c' _ outcome o' hsound hpass (Option.some.inj hready) hget⟩
  · have hgranted : (Sample.desk.gateway.request Sample.desk.indexes Sample.access Sample.edgeRequest
        none).toOption.isSome = true := by
      decide +kernel
    obtain ⟨⟨text, indexes', g'⟩, hrequest⟩ := Option.isSome_iff_exists.1 hgranted
    have hrequest := Except.toOption_eq_some_iff.1 hrequest
    obtain ⟨key, n, labels, -, hledger, hparse, hroute⟩ := hrequests _ g' _ indexes' _ _ _ text hrequest
    exact ⟨text, indexes', g', hrequest, key, n, labels, hledger, hparse, hroute⟩
  · have htexts : (((Controller.fresh Lab.policy).course Lab.serving).access.store.get? Lab.edgeId).map
        Object.texts = some ["10.0.0.0/32"] := by
      decide +kernel
    obtain ⟨o, hget, htexts⟩ := Option.map_eq_some_iff.1 htexts
    have hmem : "10.0.0.0/32" ∈ o.texts := by
      rw [htexts]
      exact List.mem_singleton_self _
    obtain ⟨n, hread⟩ := hcourse Lab.policy Lab.serving hproper Lab.edgeId o hget _ hmem
    exact ⟨o, _, n, hget, hmem, hread⟩

end AddressRegistry
