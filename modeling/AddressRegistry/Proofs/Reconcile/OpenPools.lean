import AddressRegistry.Proofs.Reconcile.Holdings

/-!
# Which pools blocks are carved out of

A pool says whether dynamic claims may carve blocks out of it (`Object.isOpen`), but no pass reads that: a
block is carved out of any wider route that the claim's selector matches (`Controller.CarvedFrom`,
`Controller.Sound.carvedFrom`), also out of a fixed one (`Controller.fixed_block_carved`).

Every route of a scope is described by an object that some pass looked at, as it was then
(`Controller.visits`, `Controller.exists_visit`). So if none of these objects but open pools has a wider
route that the selector matches (`Visit.Cedes`), the block comes out of the declaration of an open pool
(`Controller.carved_from_open_pool`).
-/

namespace AddressRegistry

namespace Object

/-- The object is a pool that dynamic claims may carve blocks out of. -/
def isOpen : Object → Bool
  | pool p => p.spec.pool
  | tenant _ | scope _ | claim _ => false

/-- Only pools are open. -/
theorem exists_pool_of_isOpen {o : Object} (h : o.isOpen = true) :
    ∃ p, o = .pool p ∧ p.spec.pool = true := by
  cases o with
  | pool p => exact ⟨p, rfl, h⟩
  | tenant _ | scope _ | claim _ => cases h

/-- The object is a claim whose selector matches labels. -/
def selects : Object → Labels → Bool
  | claim c, labels => Selector.matchesLabels ⟨c.spec.selector⟩ labels
  | tenant _, _ | scope _, _ | pool _, _ => false

end Object

/-- What a pass over an object of a scope looks at: the object, and the specification of the scope. -/
structure Visit where
  object : Object
  spec? : Option ScopeSpec

namespace Visit

variable {v : Visit} {n : Network} {labels : Labels}

/-- The length of the network that the object names, or that it asks for. -/
def length? (v : Visit) : Option Nat :=
  match v.object.named? with
  | some n => some n.length
  | none => v.spec?.bind fun spec => v.object.askedLength? spec

/-- What describes a route gives its length. -/
theorem length?_of_describes (h : v.object.Describes v.spec? n labels) : v.length? = some n.length := by
  unfold length?
  rcases h.network with hnamed | ⟨hdynamic, hlength⟩
  · rw [hnamed]
  · cases hnamed : v.object.named? with
    | none => exact hlength
    | some m => exact absurd hdynamic (Object.not_isDynamic_of_named? hnamed)

/-- The object cedes the place of a parent to open pools when it comes to a dynamic claim: it is an open pool
itself, or its labels do not match the selector of the claim, or its network is not wider than what the
claim asks for. -/
def Cedes (o : Object) (spec? : Option ScopeSpec) (v : Visit) : Prop :=
  v.object.isOpen = true ∨
    ∀ labels ∈ v.object.ownLabels?, o.selects labels = true →
      ∀ asked ∈ spec?.bind fun spec => o.askedLength? spec, ∀ length ∈ v.length?, asked ≤ length

instance (o : Object) (spec? : Option ScopeSpec) (v : Visit) : Decidable (v.Cedes o spec?) :=
  inferInstanceAs (Decidable (_ ∨ _))

end Visit

namespace Controller

variable {c : Controller} {key : ObjectKey} {id : ObjectId} {a : Action} {actions : List Action}
variable {n : Network} {labels : Labels} {o : Object}

/-- What an action looks at in a scope. -/
def visit? (key : ObjectKey) (c : Controller) : Action → Option Visit
  | .request _ => none
  | .reconcile id =>
    if id.home? = some key then
      (c.access.store.get? id).map fun o => ⟨o, c.access.store.scopeSpec? key⟩
    else
      none

/-- What the actions of a history look at in a scope. -/
def visits (key : ObjectKey) : Controller → List Action → List Visit
  | _, [] => []
  | c, a :: rest => (c.visit? key a).toList ++ visits key (c.act a) rest

/-- A route that is there after an action was there before, or what the action looks at describes it. -/
theorem Sound.labelsAt_act (h : c.Sound) (hget : (c.act a).indexes.labelsAt key n = some labels) :
    c.indexes.labelsAt key n = some labels ∨
      ∃ v ∈ c.visit? key a, v.object.Describes v.spec? n labels := by
  cases a with
  | request q => exact Or.inl hget
  | reconcile id =>
    obtain ⟨-, ready, houtcome⟩ := h.act_reconcile id
    rcases houtcome.labelsAt_cases hget with hbefore | ⟨-, o, _, _, _, ho, -, hhome, -, -, -, hdescribes⟩
    · exact Or.inl hbefore
    · refine Or.inr ⟨⟨o, c.access.store.scopeSpec? key⟩, ?_, hdescribes⟩
      show _ ∈ if id.home? = some key then _ else _
      rw [if_pos hhome, ho]
      rfl

/-- A route that is there after a history was there before, or something that a pass looked at describes
it. -/
theorem Sound.labelsAt_run (h : c.Sound) (hget : (c.run actions).indexes.labelsAt key n = some labels) :
    c.indexes.labelsAt key n = some labels ∨
      ∃ v ∈ visits key c actions, v.object.Describes v.spec? n labels := by
  induction actions generalizing c with
  | nil => exact Or.inl hget
  | cons a rest ih =>
    rcases ih (h.act a) hget with hget | ⟨v, hv, hdescribes⟩
    · rcases h.labelsAt_act hget with hbefore | ⟨v, hv, hdescribes⟩
      · exact Or.inl hbefore
      · exact Or.inr ⟨v, List.mem_append_left _ (Option.mem_toList.2 hv), hdescribes⟩
    · exact Or.inr ⟨v, List.mem_append_right _ hv, hdescribes⟩

/-- Every route of a scope is described by something that a pass looked at. -/
theorem exists_visit (policy : RetryPolicy)
    (hget : ((fresh policy).run actions).indexes.labelsAt key n = some labels) :
    ∃ v ∈ visits key (fresh policy) actions, v.object.Describes v.spec? n labels := by
  refine ((sound_fresh policy).labelsAt_run hget).resolve_left fun hstart => ?_
  cases hstart

/-- A block for a dynamic claim is carved out of a route. -/
structure CarvedFrom (key : ObjectKey) (c : Controller) (o : Object) (n : Network) (parent : Route) :
    Prop where
  present : c.indexes.labelsAt key parent.network = some parent.labels
  selected : o.selects parent.labels = true
  asked : ((c.access.store.scopeSpec? key).bind fun spec => o.askedLength? spec) = some n.length
  wider : parent.network.length < n.length
  around : parent.network.contains n = true
  /-- No other route stands between the block and its parent. -/
  innermost : ∀ m, c.indexes.labelsAt key m ≠ none → m.overlaps n = true →
    m.contains parent.network = true

/-- A network that gets a route in a pass over a dynamic claim is carved out of a route. -/
theorem Sound.carvedFrom (h : c.Sound) (hget : c.access.store.get? id = some o) (hdynamic : o.IsDynamic)
    (hbefore : c.indexes.labelsAt key n = none)
    (hafter : (c.act (.reconcile id)).indexes.labelsAt key n ≠ none) :
    ∃ parent, CarvedFrom key c o n parent := by
  obtain ⟨-, -, o', -, index, index', -, -, hget', -, hindex, -, hobtained⟩ :=
    h.pass_of_inserted hbefore hafter
  obtain rfl := Option.some.inj (hget.symm.trans hget')
  have hroutes := ScopeIndexes.labelsAt_of_get? hindex
  cases hobtained with
  | declared hnamed _ _ _ => exact absurd hdynamic (Object.not_isDynamic_of_named? hnamed)
  | @allocated claim r _ _ _ hclaim hregistration _ hscope hregister =>
    subst hclaim
    have hselector : r.selector = ⟨claim.spec.selector⟩ := by
      obtain ⟨_, -, rfl⟩ := Claim.registration_eq_ok_iff.1 hregistration
      rfl
    cases hregister with
    | owned _ hpresent =>
      rw [hroutes, hpresent] at hbefore
      cases hbefore
    | @inserted _ parent _ hasks _ hparent hlt hfree _ =>
      obtain ⟨hroute, hmatch⟩ := RouteIndex.mem_query_iff.1 hparent
      rw [hselector] at hmatch
      refine ⟨parent, (hroutes _).trans hroute, hmatch, ?_, hlt, hfree.inside, fun m hm hoverlaps => ?_⟩
      · rw [Store.scopeSpec?, hscope]
        exact Object.askedLength?_of_asks hregistration hasks
      · rw [hroutes] at hm
        have hm := RouteIndex.mem_networks_iff.2 (Option.ne_none_iff_exists'.1 hm)
        exact RouteIndex.isClear_iff.1 hfree.clear m hm hoverlaps

/-- In a pass over a dynamic claim, a network gets a route only if it is carved out of the declaration of an
open pool, provided that everything in the scope that a pass looked at before cedes to open pools when it
comes to the claim. -/
theorem carved_from_open_pool (policy : RetryPolicy)
    (hget : ((fresh policy).run actions).access.store.get? id = some o) (hdynamic : o.IsDynamic)
    (hcedes : ∀ v ∈ visits key (fresh policy) actions,
      v.Cedes o (((fresh policy).run actions).access.store.scopeSpec? key))
    (hbefore : ((fresh policy).run actions).indexes.labelsAt key n = none)
    (hafter : (((fresh policy).run actions).act (.reconcile id)).indexes.labelsAt key n ≠ none) :
    ∃ v ∈ visits key (fresh policy) actions, ∃ pool parent, v.object = .pool pool ∧
      pool.spec.pool = true ∧ v.object.named? = some parent.network ∧
        v.object.ownLabels? = some parent.labels ∧
          CarvedFrom key ((fresh policy).run actions) o n parent := by
  obtain ⟨parent, hcarved⟩ :=
    ((sound_fresh policy).run actions).carvedFrom hget hdynamic hbefore hafter
  obtain ⟨v, hv, hdescribes⟩ := exists_visit policy hcarved.present
  rcases hcedes v hv with hopen | hcedes
  · obtain ⟨pool, hpool, hflag⟩ := Object.exists_pool_of_isOpen hopen
    refine ⟨v, hv, pool, parent, hpool, hflag, ?_, hdescribes.labels, hcarved⟩
    refine hdescribes.network.resolve_right fun h => ?_
    rw [hpool] at h
    exact h.1
  · -- what cedes is not wider than the block
    have hlength := hcedes _ hdescribes.labels hcarved.selected _ hcarved.asked _
      (Visit.length?_of_describes hdescribes)
    exact absurd hcarved.wider (Nat.not_lt.2 hlength)

end Controller

/-! ## Sample histories -/

namespace Lab

def fixedId : ObjectId := ⟨.pool, ⟨"default", "acme.lab.fixed"⟩⟩

/-- A fixed block. -/
def fixed (purpose : String) : Object :=
  .newPool "default" "acme.lab.fixed"
    ⟨"10.0.1.0/30", false, .ofList [(Labels.purposeKey, purpose)], none⟩

/-- A fixed block is declared. -/
def fencing (purpose : String) : List Action := [.request (.create (fixed purpose)), .reconcile fixedId]

/-- The network `10.0.1.0/32`. -/
def fixedAddress : Network :=
  ⟨.ipv4, 0x0a000100, 32, Nat.le_of_ble_eq_true rfl, address.length_le⟩

end Lab

namespace Controller

/-- Beside a fixed block for another purpose, an address is carved out of the open pool. -/
theorem carved_from_open_pool_sample :
    let history := Lab.opening ++ Lab.fencing "management" ++ Lab.allocating
    ∃ o, ((fresh Lab.policy).run history).access.store.get? Lab.edgeId = some o ∧ o.IsDynamic ∧
      ∃ v ∈ visits Sample.key (fresh Lab.policy) history, ∃ pool parent, v.object = .pool pool ∧
        pool.spec.pool = true ∧ v.object.named? = some parent.network ∧
          v.object.ownLabels? = some parent.labels ∧
            CarvedFrom Sample.key ((fresh Lab.policy).run history) o Lab.firstAddress parent := by
  intro history
  have hruns : (∃ o ∈ ((fresh Lab.policy).run history).access.store.get? Lab.edgeId, o.IsDynamic ∧
        ∀ v ∈ visits Sample.key (fresh Lab.policy) history,
          v.Cedes o (((fresh Lab.policy).run history).access.store.scopeSpec? Sample.key)) ∧
      ((fresh Lab.policy).run history).indexes.labelsAt Sample.key Lab.firstAddress = none ∧
        (((fresh Lab.policy).run history).act (.reconcile Lab.edgeId)).indexes.labelsAt Sample.key
          Lab.firstAddress ≠ none := by
    decide +kernel
  obtain ⟨⟨o, hget, hdynamic, hcedes⟩, hbefore, hafter⟩ := hruns
  exact ⟨o, hget, hdynamic, carved_from_open_pool Lab.policy hget hdynamic hcedes hbefore hafter⟩

/-- In a registry without an open pool, a dynamic claim is ready with a new address of a fixed block. -/
theorem fixed_block_carved :
    let waiting := Lab.opening ++ Lab.fencing "loopback"
      ++ [.request (.create (Lab.dynamic Lab.edgeId (Lab.site "west")))]
    let allocated := (fresh Lab.policy).run (waiting ++ [.reconcile Lab.edgeId])
    (∀ v ∈ visits Sample.key (fresh Lab.policy) waiting, v.object.isOpen = false) ∧
      (∃ parent ∈ (Lab.fixed "loopback").named?, parent.contains Lab.fixedAddress = true) ∧
        ((fresh Lab.policy).run waiting).indexes.labelsAt Sample.key Lab.fixedAddress = none ∧
          allocated.indexes.labelsAt Sample.key Lab.fixedAddress ≠ none ∧
            ∃ o ∈ allocated.access.store.get? Lab.edgeId, o.isReady = true ∧ o.IsDynamic ∧
              o.recorded? = some Lab.fixedAddress := by
  decide +kernel

end Controller

end AddressRegistry
