import AddressRegistry.Proofs.Resource.Naming

/-!
# Names and their parts

Decoding and composing are inverse to each other. A decoded name has the parts of its kind and no gap
among its placement segments (`ResourceName.OfKind`), and every such one is the decoding of exactly one
name, the one that it composes to (`ResourceName.names_and_parts_correspond`). The parent's name decodes
to the same parts without the last one (`ResourceName.Parts.above`).

Both directions go through the segments of a name: some in front, and those that the kind fixes
(`ResourceName.ofParts`). Composing puts dots between them (`ResourceName.compose_ofParts`), and decoding
takes the dots out again (`ResourceName.Parts`).
-/

namespace AddressRegistry.ResourceName

variable {kind : Kind} {name : String} {n : ResourceName} {lead own : List String}

/-! ## Decoded names of a kind -/

/-- The segments that a decoded name has, from left to right. -/
def present (n : ResourceName) : List String :=
  [n.organization, n.deployment, n.zone, some n.tenant, n.scope, n.resource].filterMap id

/-- A decoded name has exactly the parts of a kind. -/
structure OfKind (kind : Kind) (n : ResourceName) : Prop where
  /-- Every segment can stand between dots. -/
  segments : ∀ s ∈ n.present, s ≠ "" ∧ '.' ∉ s.toList
  deployment : n.deployment.isSome = true → n.organization.isSome = true
  zone : n.zone.isSome = true → n.deployment.isSome = true
  scope : n.scope.isSome = true ↔ kind ≠ .tenant
  resource : n.resource.isSome = true ↔ kind = .pool ∨ kind = .claim

instance (kind : Kind) (n : ResourceName) : Decidable (OfKind kind n) :=
  decidable_of_iff
    ((∀ s ∈ n.present, s ≠ "" ∧ '.' ∉ s.toList) ∧
      (n.deployment.isSome = true → n.organization.isSome = true) ∧
        (n.zone.isSome = true → n.deployment.isSome = true) ∧
          (n.scope.isSome = true ↔ kind ≠ .tenant) ∧
            (n.resource.isSome = true ↔ kind = .pool ∨ kind = .claim))
    ⟨fun h => ⟨h.1, h.2.1, h.2.2.1, h.2.2.2.1, h.2.2.2.2⟩,
      fun h => ⟨h.segments, h.deployment, h.zone, h.scope, h.resource⟩⟩

/-- What composing finds in the parts is what they were made of. -/
theorem present_ofParts (hlead : lead.length ≤ mostPlacement) (hown : own.length = depth kind) :
    (ofParts lead own).present = lead ++ own := by
  have hplaced : [lead[0]?, lead[1]?, lead[2]?].filterMap id = lead := by
    match lead, hlead with
    | [], _ => rfl
    | [_], _ => rfl
    | [_, _], _ => rfl
    | [_, _, _], _ => rfl
  have hfixed : [some (own.headD ""), own[1]?, own[2]?].filterMap id = own := by
    match kind, own, hown with
    | .tenant, [_], _ => rfl
    | .scope, [_, _], _ => rfl
    | .pool, [_, _, _], _ => rfl
    | .claim, [_, _, _], _ => rfl
  calc (ofParts lead own).present
      = ([lead[0]?, lead[1]?, lead[2]?] ++ [some (own.headD ""), own[1]?, own[2]?]).filterMap id := rfl
    _ = [lead[0]?, lead[1]?, lead[2]?].filterMap id
          ++ [some (own.headD ""), own[1]?, own[2]?].filterMap id := List.filterMap_append
    _ = lead ++ own := by rw [hplaced, hfixed]

/-- Segments in front and own ones make a decoded name of the kind that fixes so many. -/
theorem ofKind_ofParts (hlead : lead.length ≤ mostPlacement) (hown : own.length = depth kind)
    (hsegments : ∀ s ∈ lead ++ own, s ≠ "" ∧ '.' ∉ s.toList) : (ofParts lead own).OfKind kind where
  segments := by rwa [present_ofParts hlead hown]
  deployment := by
    simp only [ofParts, isSome_getElem?]
    omega
  zone := by
    simp only [ofParts, isSome_getElem?]
    omega
  scope := by
    simp only [ofParts, isSome_getElem?, hown]
    cases kind <;> decide
  resource := by
    simp only [ofParts, isSome_getElem?, hown]
    cases kind <;> decide

/-- Without a gap the placement segments that are present are the first ones. -/
theorem OfKind.exists_lead (h : n.OfKind kind) :
    ∃ lead : List String, lead.length ≤ mostPlacement ∧ lead[0]? = n.organization ∧
      lead[1]? = n.deployment ∧ lead[2]? = n.zone := by
  have hdeployment : n.organization = none → n.deployment = none := by
    rw [← Option.not_isSome_iff_eq_none, ← Option.not_isSome_iff_eq_none]
    exact mt h.deployment
  have hzone : n.deployment = none → n.zone = none := by
    rw [← Option.not_isSome_iff_eq_none, ← Option.not_isSome_iff_eq_none]
    exact mt h.zone
  cases horganization : n.organization with
  | none =>
    have hdeployment := hdeployment horganization
    exact ⟨[], Nat.zero_le _, rfl, hdeployment.symm, (hzone hdeployment).symm⟩
  | some organization =>
    cases hdeployed : n.deployment with
    | none => exact ⟨[organization], Nat.le_of_ble_eq_true rfl, rfl, rfl, (hzone hdeployed).symm⟩
    | some deployment =>
      cases n.zone with
      | none => exact ⟨[organization, deployment], Nat.le_of_ble_eq_true rfl, rfl, rfl, rfl⟩
      | some zone => exact ⟨[organization, deployment, zone], Nat.le_of_ble_eq_true rfl, rfl, rfl, rfl⟩

/-- The parts of the kind are the segments that the kind fixes. -/
theorem OfKind.exists_own (h : n.OfKind kind) :
    ∃ own : List String, own.length = depth kind ∧ own.headD "" = n.tenant ∧ own[1]? = n.scope ∧
      own[2]? = n.resource := by
  have hscope := h.scope
  have hresource := h.resource
  have hnone : ∀ {part : Option String} {P : Prop}, ¬ P → (part.isSome = true ↔ P) → part = none :=
    fun hP hpart => Option.not_isSome_iff_eq_none.1 fun hsome => hP (hpart.1 hsome)
  have hsome : ∀ {part : Option String} {P : Prop}, P → (part.isSome = true ↔ P) → ∃ s, part = some s :=
    fun hP hpart => Option.isSome_iff_exists.1 (hpart.2 hP)
  cases kind with
  | tenant =>
    exact ⟨[n.tenant], rfl, rfl, (hnone (by decide) hscope).symm, (hnone (by decide) hresource).symm⟩
  | scope =>
    obtain ⟨scope, hscope⟩ := hsome (by decide) hscope
    exact ⟨[n.tenant, scope], rfl, rfl, hscope.symm, (hnone (by decide) hresource).symm⟩
  | pool | claim =>
    obtain ⟨scope, hscope⟩ := hsome (by decide) hscope
    obtain ⟨resource, hresource⟩ := hsome (by decide) hresource
    exact ⟨[n.tenant, scope, resource], rfl, rfl, hscope.symm, hresource.symm⟩

/-- A decoded name of a kind is made of segments. -/
theorem OfKind.exists_parts (h : n.OfKind kind) :
    ∃ lead own, lead.length ≤ mostPlacement ∧ own.length = depth kind ∧ n = ofParts lead own ∧
      ∀ s ∈ lead ++ own, s ≠ "" ∧ '.' ∉ s.toList := by
  obtain ⟨lead, hlead, horganization, hdeployment, hzone⟩ := h.exists_lead
  obtain ⟨own, hown, htenant, hscope, hresource⟩ := h.exists_own
  have hn : n = ofParts lead own := by
    unfold ofParts
    rw [horganization, hdeployment, hzone, htenant, hscope, hresource]
  refine ⟨lead, own, hlead, hown, hn, ?_⟩
  rw [← present_ofParts hlead hown, ← hn]
  exact h.segments

/-! ## Composing -/

/-- Segments in front that leave no gap are found one after the other. -/
theorem placementSegments_getElem? (hlead : lead.length ≤ mostPlacement) :
    placementSegments false [lead[0]?, lead[1]?, lead[2]?] = .ok lead := by
  match lead, hlead with
  | [], _ => rfl
  | [_], _ => rfl
  | [_, _], _ => rfl
  | [_, _, _], _ => rfl

/-- Composing puts dots between the segments. -/
theorem compose_ofParts (hlead : lead.length ≤ mostPlacement) (hown : own.length = depth kind) :
    compose kind (ofParts lead own) = .ok (join (lead ++ own)) := by
  unfold compose
  rw [show placementSegments false [(ofParts lead own).organization, (ofParts lead own).deployment,
    (ofParts lead own).zone] = .ok lead from placementSegments_getElem? hlead]
  match kind, own, hown with
  | .tenant, [_], _ => rfl
  | .scope, [_, _], _ => rfl
  | .pool, [_, _, _], _ => rfl
  | .claim, [_, _, _], _ => rfl

/-- Segments without dots are the parts of what they are joined to. -/
theorem parts_join (hlead : lead.length ≤ mostPlacement) (hown : own.length = depth kind)
    (hsegments : ∀ s ∈ lead ++ own, s ≠ "" ∧ '.' ∉ s.toList) :
    Parts kind (join (lead ++ own)) lead own where
  segments_eq := by
    refine segments_join (fun hnil => ?_) fun s hs => (hsegments s hs).2
    rw [(List.append_eq_nil_iff.1 hnil).2] at hown
    cases kind <;> cases hown
  length_own := hown
  length_lead := hlead
  solid := fun s hs => (hsegments s hs).1

/-- The parts of a name are of its kind. -/
theorem Parts.ofKind (h : Parts kind name lead own) : (ofParts lead own).OfKind kind := by
  refine ofKind_ofParts h.length_lead h.length_own fun s hs => ⟨h.solid s hs, ?_⟩
  exact dot_notMem_of_mem_segments (by rwa [h.segments_eq])

/-- Composing the parts of a name gives the name back. -/
theorem Parts.compose_eq (h : Parts kind name lead own) : compose kind (ofParts lead own) = .ok name := by
  rw [compose_ofParts h.length_lead h.length_own, ← h.segments_eq, join_segments]

/-- A decoded name of a kind composes to a name that decodes to it. -/
theorem OfKind.exists_compose (h : n.OfKind kind) :
    ∃ name, compose kind n = .ok name ∧ parse kind name = .ok n := by
  obtain ⟨lead, own, hlead, hown, rfl, hsegments⟩ := h.exists_parts
  exact ⟨_, compose_ofParts hlead hown, (parts_join hlead hown hsegments).parse_eq_ok⟩

/-- Decoding is composing backwards. -/
theorem parse_eq_ok_iff_compose :
    parse kind name = .ok n ↔ n.OfKind kind ∧ compose kind n = .ok name := by
  constructor
  · intro h
    obtain ⟨lead, own, hparts, rfl⟩ := parse_eq_ok_iff.1 h
    exact ⟨hparts.ofKind, hparts.compose_eq⟩
  · rintro ⟨hkind, hcompose⟩
    obtain ⟨name', hcompose', hparse⟩ := hkind.exists_compose
    cases hcompose.symm.trans hcompose'
    exact hparse

/-! ## Parents -/

/-- The parent of a name consists of the same segments without the last one. -/
theorem Parts.above (h : Parts kind name lead own) (kind' : Kind) (hkind : kind ≠ .tenant)
    (hdepth : depth kind' = depth kind - 1) :
    ∃ above, parent kind name = .ok (some above) ∧ Parts kind' above lead own.dropLast := by
  refine ⟨_, h.parent_eq hkind, parts_join h.length_lead ?_ fun s hs => ?_⟩
  · rw [List.length_dropLast, h.length_own, hdepth]
  · rw [← h.segments_dropLast] at hs
    have hmem := List.dropLast_subset _ hs
    exact ⟨h.solid s (by rwa [← h.segments_eq]), dot_notMem_of_mem_segments hmem⟩

/-- The parent of a scope decodes to the scope's parts without the scope. -/
theorem parent_of_parse_scope (h : parse .scope name = .ok n) :
    ∃ above, parent .scope name = .ok (some above) ∧ parse .tenant above = .ok { n with scope := none } := by
  obtain ⟨lead, own, hparts, rfl⟩ := parse_eq_ok_iff.1 h
  obtain ⟨above, hparent, habove⟩ := hparts.above .tenant (by decide) rfl
  refine ⟨above, hparent, ?_⟩
  rw [habove.parse_eq_ok]
  match own, hparts.length_own with
  | [_, _], _ => rfl

/-- The parent of a pool or claim decodes to its parts without the resource. -/
theorem parent_of_parse_resource (hkind : kind = .pool ∨ kind = .claim) (h : parse kind name = .ok n) :
    ∃ above, parent kind name = .ok (some above) ∧ parse .scope above = .ok { n with resource := none } := by
  obtain ⟨lead, own, hparts, rfl⟩ := parse_eq_ok_iff.1 h
  have hdepth : depth kind = 3 := by rcases hkind with rfl | rfl <;> rfl
  have hne : kind ≠ .tenant := by rcases hkind with rfl | rfl <;> decide
  obtain ⟨above, hparent, habove⟩ := hparts.above .scope hne (by rw [hdepth]; rfl)
  refine ⟨above, hparent, ?_⟩
  rw [habove.parse_eq_ok]
  match own, hparts.length_own.trans hdepth with
  | [_, _, _], _ => rfl

/-- **Names of a kind and decoded names of the kind correspond.** A name decodes to what composes to it
and to nothing else; whatever has exactly the parts of the kind, in segments without dots, composes to a
name and is what that name decodes to; and the parent of a scope, pool or claim decodes, as a tenant or
scope, to the same parts but the last one. -/
theorem names_and_parts_correspond (kind : Kind) :
    (∀ name n, parse kind name = .ok n ↔ n.OfKind kind ∧ compose kind n = .ok name) ∧
      (∀ n : ResourceName, n.OfKind kind → ∃ name, compose kind n = .ok name ∧ parse kind name = .ok n) ∧
        ∀ name n, parse kind name = .ok n →
          (kind = .scope → ∃ above, parent kind name = .ok (some above) ∧
            parse .tenant above = .ok { n with scope := none }) ∧
          (kind = .pool ∨ kind = .claim → ∃ above, parent kind name = .ok (some above) ∧
            parse .scope above = .ok { n with resource := none }) := by
  refine ⟨fun name n => parse_eq_ok_iff_compose, fun n h => h.exists_compose, fun name n h => ⟨?_, ?_⟩⟩
  · rintro rfl
    exact parent_of_parse_scope h
  · exact fun hkind => parent_of_parse_resource hkind h

/-- A pool in an organization and a deployment, and the scope above it. -/
theorem names_and_parts_correspond_placed :
    let n : ResourceName := ⟨some "org1", some "dep1", none, "ipam", some "ni1", some "loopbacks"⟩
    n.OfKind .pool ∧ compose .pool n = .ok "org1.dep1.ipam.ni1.loopbacks" ∧
      parse .pool "org1.dep1.ipam.ni1.loopbacks" = .ok n ∧
        ∃ above, parent .pool "org1.dep1.ipam.ni1.loopbacks" = .ok (some above) ∧
          parse .scope above = .ok { n with resource := none } := by
  intro n
  obtain ⟨hiff, -, hparent⟩ := names_and_parts_correspond .pool
  have hkind : n.OfKind .pool := by decide +kernel
  have hcompose : compose .pool n = .ok "org1.dep1.ipam.ni1.loopbacks" := rfl
  have hparse := (hiff _ n).2 ⟨hkind, hcompose⟩
  exact ⟨hkind, hcompose, hparse, (hparent _ n hparse).2 (Or.inl rfl)⟩

end AddressRegistry.ResourceName
