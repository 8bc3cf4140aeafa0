import AddressRegistry.Gateway.Basic
import AddressRegistry.Proofs.Reconcile.Effect

/-!
# Calls of a gateway

What a request and a release come to when they succeed: a registration or a deregistration for the claim, and
the new ledger (`Gateway.request_eq_ok`, `Gateway.release_eq_ok`).
-/

namespace AddressRegistry

/-- The scope of a request is the home of its claim. -/
theorem ClaimRequest.registration_eq_ok {q : ClaimRequest} {network persisted : Option String}
    {r : Registration} (h : q.registration network persisted = .ok r) :
    (⟨.claim, q.key⟩ : ObjectId).home? = some r.scopeKey ∧ r.network = network := by
  obtain ⟨found, hparent, h⟩ := Except.bind_eq_ok_iff.1 h
  cases found with
  | none => cases h
  | some scope =>
    obtain ⟨purpose, -, h⟩ := Except.bind_eq_ok_iff.1 h
    obtain ⟨family, -, h⟩ := Except.bind_eq_ok_iff.1 h
    cases h
    refine ⟨?_, rfl⟩
    show (ResourceName.parent .claim q.claim).toOption.join.map _ = _
    rw [hparent]
    rfl

namespace Gateway

variable {g g' : Gateway} {indexes indexes' : ScopeIndexes} {access : Access} {q : ClaimRequest}
variable {network : Option String} {text : String}

/-- A request that succeeds records the network that it answers. -/
theorem request_eq_ok (h : g.request indexes access q network = .ok (text, indexes', g')) :
    ∃ r m, q.registration network (g.ledger.get? q.key) = .ok r ∧
      indexes.register access r = .ok (m, indexes') ∧
        g' = { g with ledger := g.ledger.insert q.key m.text } := by
  obtain ⟨r, hregistration, h⟩ := Except.bind_eq_ok_iff.1 h
  obtain ⟨⟨m, changed⟩, hregister, h⟩ := Except.bind_eq_ok_iff.1 h
  cases h
  exact ⟨r, m, Failure.lift_eq_ok_iff.1 hregistration, hregister, rfl⟩

/-- A release that succeeds gives up the network on record, if there is one, and the record. -/
theorem release_eq_ok (h : g.release indexes access q = .ok (indexes', g')) :
    ∃ r persisted, q.registration none none = .ok r ∧ g.heldNetwork indexes q r = .ok persisted ∧
      indexes.deregister access { r with persisted } = .ok indexes' ∧
        g' = { g with ledger := g.ledger.erase q.key } := by
  obtain ⟨r, hregistration, h⟩ := Except.bind_eq_ok_iff.1 h
  obtain ⟨persisted, hpersisted, h⟩ := Except.bind_eq_ok_iff.1 h
  obtain ⟨changed, hderegister, h⟩ := Except.bind_eq_ok_iff.1 h
  cases h
  exact ⟨r, persisted, Failure.lift_eq_ok_iff.1 hregistration, Failure.lift_eq_ok_iff.1 hpersisted,
    hderegister, rfl⟩

end Gateway

end AddressRegistry
