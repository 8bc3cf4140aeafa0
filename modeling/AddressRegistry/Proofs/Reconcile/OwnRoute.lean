import AddressRegistry.Proofs.Reconcile.History

/-!
# Whose route a ready object has

When a pass over a pool or claim ends ready, the index of its scope has a route of the network that the
object records. The route need not be the object's own: an insertion that finds a route present is taken
for a repetition, whoever inserted that route and under whatever labels. `route_of_ready` says exactly
when the route carries the object's own labels: a dynamic claim's route always does; the route of an
object that names its network does unless, before the pass, the network had a route with other labels
that is not the object's own stale declaration. That happens in two ways: the labels of the object were edited
(`retagged_claim_ready`), or the route is somebody else's.
-/

namespace AddressRegistry

namespace Object

variable {store : Store} {key : ObjectKey} {o : Object} {index index' : RouteIndex} {n : Network}

/-- The route that an object has after it obtained a network, and when it is the object's own. -/
theorem Obtained.exists_route (h : o.Obtained store key index n index') (hcanonical : n.IsCanonical) :
    ∃ own labels, o.ownLabels? = some own ∧ index'.routes.get? n = some labels ∧
      (labels = own ↔ o.IsDynamic ∨ (o.recorded? = some n ∧ o.Relabelled) ∨
        index.routes.get? n = none ∨ index.routes.get? n = some own) := by
  cases h with
  | @declared _ own cleared _ hnamed hlabels hcleared hdeclare =>
    obtain ⟨hself, -⟩ := RouteIndex.get?_of_declare hcanonical hdeclare
    refine ⟨own, _, hlabels, hself, ?_⟩
    have hdynamic : ¬ o.IsDynamic := not_isDynamic_of_named? hnamed
    by_cases hstale : o.recorded? = some n ∧ o.Relabelled
    · -- the stale declaration is taken back, so the new one is inserted
      refine iff_of_true ?_ (Or.inr (Or.inl hstale))
      cases hcleared with
      | unchanged hrecord => exact absurd hstale.2 (hrecord n hstale.1).2
      | takenBack hrecord _ hroutes =>
        obtain rfl := Option.some.inj (hrecord.symm.trans hstale.1)
        rw [(RouteIndex.get?_of_erase hroutes).1]
        rfl
    · have hsame : cleared.routes.get? n = index.routes.get? n := by
        cases hcleared with
        | unchanged _ => rfl
        | takenBack hrecord hedited hroutes =>
          refine (RouteIndex.get?_of_erase hroutes).2 n ?_
          rintro rfl
          exact hstale ⟨hrecord, hedited.resolve_left (fun h => h rfl)⟩
      rw [hsame]
      cases index.routes.get? n with
      | none => simp
      | some labels => simp [hdynamic, hstale]
  | @allocated c r scope _ _ hclaim hregistration hdynamic _ houtcome =>
    subst hclaim
    refine ⟨_, _, Claim.ownLabels?_of_registration hregistration, houtcome.get?_block, ?_⟩
    refine iff_of_true rfl (Or.inl ?_)
    obtain ⟨_, -, rfl⟩ := Claim.registration_eq_ok_iff.1 hregistration
    exact hdynamic

end Object

namespace Controller

variable {c c' : Controller} {id : ObjectId} {outcome : Outcome}

/-- After a pass over a pool or claim that ends ready, the network that the object records has a route in
the index of the scope. Its labels are the object's own exactly if the object is a dynamic claim, or a
pool that declares the network anew under edited labels, or if before the pass the network had no route
or had one with these labels. -/
theorem route_of_ready (hreach : c.Reachable) (hkind : id.kind = .pool ∨ id.kind = .claim)
    (hpass : c.reconcile id = (.ok outcome, c')) (hready : outcome.ready = true) :
    ∃ key o o' n own labels,
      id.home? = some key ∧ c.access.store.get? id = some o ∧ c'.access.store.get? id = some o' ∧
        o'.recorded? = some n ∧ o'.ownLabels? = some own ∧ c'.indexes.labelsAt key n = some labels ∧
          (labels = own ↔ o.IsDynamic ∨ (o.recorded? = some n ∧ o.Relabelled) ∨
            c.indexes.labelsAt key n = none ∨ c.indexes.labelsAt key n = some own) := by
  have hsound := hreach.sound
  obtain ⟨outcome', c'', hpass', -, houtcome⟩ := hsound.pass id
  rw [hpass] at hpass'
  cases hpass'
  rw [hready] at houtcome
  unfold Store.get?
  generalize c'.access.store.objects = objects, c'.indexes = indexes' at *
  cases houtcome with
  | kept hget _ _ hparent _ =>
    have hid := hsound.keyed id _ hget
    rw [← hid] at hkind
    rcases hparent rfl with h | h <;> rcases hkind with h' | h' <;> cases h.symm.trans h'
  | obtained hget htended hhome hindex hcanonical hrecord hobtained =>
    obtain ⟨own, labels, hown, hlabels, hiff⟩ := hobtained.exists_route hcanonical
    rw [← ScopeIndexes.labelsAt_of_get? hindex] at hiff
    refine ⟨_, _, _, _, own, labels, hhome, hget, SortedMap.get?_insert_self _ _ _, hrecord,
      htended.ownLabels?.trans hown, ?_, hiff⟩
    rw [ScopeIndexes.labelsAt_insert_self, hlabels]

/-- A dynamic claim in the sample registry becomes ready. -/
theorem route_of_ready_sample :
    ∃ outcome c', (Lab.after Lab.allocating).reconcile Lab.edgeId = (.ok outcome, c') ∧
      outcome.ready = true ∧
        ∃ key o o' n own labels, Lab.edgeId.home? = some key ∧
          (Lab.after Lab.allocating).access.store.get? Lab.edgeId = some o ∧
            c'.access.store.get? Lab.edgeId = some o' ∧ o'.recorded? = some n ∧
              o'.ownLabels? = some own ∧ c'.indexes.labelsAt key n = some labels ∧
                (labels = own ↔ o.IsDynamic ∨ (o.recorded? = some n ∧ o.Relabelled) ∨
                  (Lab.after Lab.allocating).indexes.labelsAt key n = none ∨
                    (Lab.after Lab.allocating).indexes.labelsAt key n = some own) := by
  have hready : ((Lab.after Lab.allocating).reconcile Lab.edgeId).1.toOption.map (·.ready)
      = some true := by
    decide +kernel
  rcases hpass : (Lab.after Lab.allocating).reconcile Lab.edgeId with ⟨_ | outcome, c'⟩
  · rw [hpass] at hready
    cases hready
  · rw [hpass] at hready
    have hready : outcome.ready = true := Option.some.inj hready
    exact ⟨outcome, c', rfl, hready, route_of_ready (Lab.after_reachable _) (Or.inr rfl) hpass hready⟩

end Controller

/-! ## Ready on a route that is not one's own

A claim whose source tag is edited, and a claim that names the network of another one. -/

namespace Lab

/-- The edge claim holds its address under one tag, is given another one and looked at again. -/
def retagged : Except Failure Outcome × Controller :=
  (after [.request (.create (explicit edgeId "10.0.0.1/32" (site "west"))), .reconcile edgeId,
    .request (.update (explicit edgeId "10.0.0.1/32" (site "east")))]).reconcile edgeId

/-- The core claim names the address of the edge claim. -/
def shadowed : Except Failure Outcome × Controller :=
  (after [.request (.create (explicit edgeId "10.0.0.1/32" (site "west"))), .reconcile edgeId,
    .request (.create (explicit coreId "10.0.0.1/32" (site "east")))]).reconcile coreId

end Lab

/-- The claim is ready, and its route still has the labels from before the edit. -/
theorem Controller.retagged_claim_ready :
    Lab.retagged.1.toOption.map (·.ready) = some true ∧
      (Lab.retagged.2.access.store.get? Lab.edgeId).bind (·.recorded?) = some Lab.address ∧
        (Lab.retagged.2.access.store.get? Lab.edgeId).bind (·.ownLabels?) = some (Lab.site "east") ∧
          Lab.retagged.2.indexes.labelsAt Sample.key Lab.address = some (Lab.site "west") := by
  decide +kernel

-- A claim that names the address of another one is ready as well, and its route is that of the other claim.
example :
    Lab.shadowed.1.toOption.map (·.ready) = some true ∧
      (Lab.shadowed.2.access.store.get? Lab.coreId).bind (·.recorded?) = some Lab.address ∧
        (Lab.shadowed.2.access.store.get? Lab.coreId).bind (·.ownLabels?) = some (Lab.site "east") ∧
          Lab.shadowed.2.indexes.labelsAt Sample.key Lab.address = some (Lab.site "west") := by
  decide +kernel

end AddressRegistry
