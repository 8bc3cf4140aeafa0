import AddressRegistry.Proofs.Outcome
import AddressRegistry.Resource.Name

/-!
# What names say about the hierarchy

A name is its segments with dots between: joining the segments of a name gives the name back
(`ResourceName.join_segments`), and segments without dots are the segments of what they are joined to
(`ResourceName.segments_join`). A name that parses consists of at most three segments in front and of those
that its kind fixes (`ResourceName.Parts`, `ResourceName.parse_eq_ok_iff`); no segment is empty, so a placement,
in which absent parts are empty, still tells two names apart. Two names have the same tenant or the same scope
exactly when they begin alike (`ResourceName.sameTenant_iff`, `ResourceName.sameScope_iff`), and the parent's
name is what is left without the last segment (`ResourceName.Parts.parent_eq_ok_iff`).
-/

namespace AddressRegistry.ResourceName

variable {kind kind' : Kind} {name name' : String} {n : ResourceName} {lead lead' own own' : List String}

/-! ## Segments -/

/-- Cutting a name at its dots is splitting it at dots. -/
theorem splitAtDots_eq_splitOn (cs : List Char) : splitAtDots cs = cs.splitOn '.' := by
  induction cs with
  | nil => rfl
  | cons c rest ih =>
    have hne : rest.splitOnP (· == '.') ≠ [] := List.splitOnP_ne_nil _ _
    simp only [splitAtDots, List.splitOn, List.splitOnP_cons_eq_if_modifyHead, beq_iff_eq] at ih ⊢
    rw [ih]
    split
    · rfl
    · cases hrest : rest.splitOnP (· == '.') with
      | nil => exact absurd hrest hne
      | cons first parts => rfl

/-- No part of a name that was cut at its dots has a dot in it. -/
theorem dot_notMem_of_mem_splitAtDots {cs part : List Char} (h : part ∈ splitAtDots cs) : '.' ∉ part := by
  induction cs generalizing part with
  | nil =>
    rw [List.mem_singleton.1 h]
    exact List.not_mem_nil
  | cons c rest ih =>
    simp only [splitAtDots] at h
    split at h
    · rcases List.mem_cons.1 h with rfl | h
      · exact List.not_mem_nil
      · exact ih h
    · rename_i hc
      have hcons : ∀ part, '.' ∉ part → '.' ∉ c :: part := by
        intro part hpart
        simp [hpart, Ne.symm hc]
      split at h
      · rw [List.mem_singleton.1 h]
        exact hcons [] List.not_mem_nil
      · rename_i first parts hsplit
        rcases List.mem_cons.1 h with rfl | h
        · exact hcons first (ih (by rw [hsplit]; exact List.mem_cons_self))
        · exact ih (by rw [hsplit]; exact List.mem_cons_of_mem _ h)

/-- No segment of a name has a dot in it. -/
theorem dot_notMem_of_mem_segments {s : String} (h : s ∈ segments name) : '.' ∉ s.toList := by
  obtain ⟨part, hpart, rfl⟩ := List.mem_map.1 h
  simpa using dot_notMem_of_mem_splitAtDots hpart

/-- The segments of a name, with dots between them, are the name. -/
@[simp] theorem join_segments (name : String) : join (segments name) = name := by
  apply String.toList_inj.1
  have htexts : (segments name).map String.toList = splitAtDots name.toList := by
    simp [segments, Function.comp_def]
  rw [join, String.toList_intercalate, htexts, splitAtDots_eq_splitOn]
  exact List.intercalate_splitOn '.'

/-- What was joined with dots comes apart at the same places, if the parts have no dots of their own. -/
theorem segments_join {parts : List String} (hne : parts ≠ []) (hdot : ∀ s ∈ parts, '.' ∉ s.toList) :
    segments (join parts) = parts := by
  have htexts : splitAtDots (join parts).toList = parts.map String.toList := by
    rw [join, String.toList_intercalate, splitAtDots_eq_splitOn]
    exact List.splitOn_intercalate '.' (by simpa using hdot) (by simpa using hne)
  simp [segments, htexts, Function.comp_def]

/-! ## Names that parse -/

/-- The segments of a name of a kind: some in front, which place it, and those that the kind fixes. -/
structure Parts (kind : Kind) (name : String) (lead own : List String) : Prop where
  segments_eq : segments name = lead ++ own
  length_own : own.length = depth kind
  length_lead : lead.length ≤ mostPlacement
  solid : ∀ s ∈ lead ++ own, s ≠ ""

/-- The name that some segments in front and some own ones make. -/
def ofParts (lead own : List String) : ResourceName where
  organization := lead[0]?
  deployment := lead[1]?
  zone := lead[2]?
  tenant := own.headD ""
  scope := own[1]?
  resource := own[2]?

/-- A name parses exactly when it has the parts of its kind, and what comes out are these parts. -/
theorem parse_eq_ok_iff :
    parse kind name = .ok n ↔ ∃ lead own, Parts kind name lead own ∧ n = ofParts lead own := by
  have hany : (segments name).any (· == "") = false ↔ ∀ s ∈ segments name, s ≠ "" := by
    simp [List.any_eq_false]
  unfold parse
  constructor
  · intro h
    dsimp only at h
    split at h
    · cases h
    · rename_i hsolid
      rw [Bool.not_eq_true, hany] at hsolid
      split at h
      · cases h
      · rename_i hlength
        rw [not_or, Nat.not_lt, Nat.not_lt] at hlength
        cases h
        have hsplit := List.take_append_drop ((segments name).length - depth kind) (segments name)
        refine ⟨_, _, ⟨hsplit.symm, ?_, ?_, ?_⟩, rfl⟩
        · rw [List.length_drop]
          omega
        · rw [List.length_take]
          omega
        · rwa [hsplit]
  · rintro ⟨lead, own, h, rfl⟩
    have hlength := congrArg List.length h.segments_eq
    rw [List.length_append, h.length_own] at hlength
    have hfew := h.length_lead
    have hlead : (segments name).length - depth kind = lead.length := by omega
    have hsolid : (segments name).any (· == "") = false := by
      rw [hany, h.segments_eq]
      exact h.solid
    dsimp only
    rw [hsolid, if_neg Bool.false_ne_true, if_neg (by omega), hlead, h.segments_eq, List.take_left,
      List.drop_left]
    rfl

/-- A name with the parts of its kind parses to them. -/
theorem Parts.parse_eq_ok (h : Parts kind name lead own) : parse kind name = .ok (ofParts lead own) :=
  parse_eq_ok_iff.2 ⟨lead, own, h, rfl⟩

/-- The first of the segments that a kind fixes is the tenant. -/
theorem Parts.exists_tenant (h : Parts kind name lead own) : ∃ tenant rest, own = tenant :: rest := by
  have hlength := h.length_own
  cases own with
  | nil => cases kind <;> cases hlength
  | cons tenant rest => exact ⟨tenant, rest, rfl⟩

/-- The second of them is the scope, for all kinds but that of tenants. -/
theorem Parts.exists_scope (h : Parts kind name lead own) (hkind : kind ≠ .tenant) :
    ∃ tenant scope rest, own = tenant :: scope :: rest := by
  have hlength := h.length_own
  obtain ⟨tenant, rest, rfl⟩ := h.exists_tenant
  cases rest with
  | nil => cases kind <;> first | exact absurd rfl hkind | cases hlength
  | cons scope rest => exact ⟨tenant, scope, rest, rfl⟩

/-- A kind fixes no more segments than it is deep. -/
theorem Parts.take_own (h : Parts kind name lead own) : own.take (depth kind) = own := by
  rw [← h.length_own, List.take_length]

/-- Without the last one, one segment less than the kind fixes is left. -/
theorem Parts.dropLast_own (h : Parts kind name lead own) : own.dropLast = own.take (depth kind - 1) := by
  rw [List.dropLast_eq_take, h.length_own]

/-! ## Parents -/

/-- Only names that parse have parents. -/
theorem exists_parts_of_parent {parent? : Option String} (h : parent kind name = .ok parent?) :
    ∃ lead own, Parts kind name lead own := by
  obtain ⟨n, hparse, -⟩ := Except.bind_eq_ok_iff.1 h
  obtain ⟨lead, own, hparts, -⟩ := parse_eq_ok_iff.1 hparse
  exact ⟨lead, own, hparts⟩

/-- Every part of a kind but a tenant's has something above it. -/
theorem Parts.above_ne_nil (h : Parts kind name lead own) (hkind : kind ≠ .tenant) :
    lead ++ own.dropLast ≠ [] := by
  obtain ⟨tenant, scope, rest, rfl⟩ := h.exists_scope hkind
  simp

/-- Without its last segment a name has the parts in front and all but the last of its own. -/
theorem Parts.segments_dropLast (h : Parts kind name lead own) :
    (segments name).dropLast = lead ++ own.dropLast := by
  obtain ⟨tenant, rest, rfl⟩ := h.exists_tenant
  rw [h.segments_eq, List.dropLast_append_of_ne_nil (List.cons_ne_nil tenant rest)]

/-- The parent's name is what is left without the last segment. -/
theorem Parts.parent_eq (h : Parts kind name lead own) (hkind : kind ≠ .tenant) :
    parent kind name = .ok (some (join (lead ++ own.dropLast))) := by
  unfold parent
  rw [h.parse_eq_ok, h.segments_dropLast]
  have hne := h.above_ne_nil hkind
  generalize lead ++ own.dropLast = rest at hne
  cases rest with
  | nil => exact absurd rfl hne
  | cons s rest => cases kind <;> first | rfl | exact absurd rfl hkind

/-- The parent is the name whose segments are those of the child without the last one. -/
theorem Parts.parent_eq_ok_iff (h : Parts kind name lead own) (hkind : kind ≠ .tenant) :
    parent kind name = .ok (some name') ↔ segments name' = lead ++ own.dropLast := by
  rw [h.parent_eq hkind, Except.ok.injEq, Option.some.injEq]
  constructor
  · rintro rfl
    refine segments_join (h.above_ne_nil hkind) fun s hs => ?_
    rw [← h.segments_dropLast] at hs
    exact dot_notMem_of_mem_segments (List.dropLast_subset _ hs)
  · intro hsegments
    rw [← hsegments, join_segments]

/-- A name is the parent of one of the next kind when the two are alike as far as it goes. -/
theorem Parts.parent_eq_iff_alike (h : Parts kind name lead own) (h' : Parts kind' name' lead' own')
    (hkind' : kind' ≠ .tenant) (hdepth : depth kind = depth kind' - 1) :
    parent kind' name' = .ok (some name) ↔ lead ++ own.take (depth kind) = lead' ++ own'.take (depth kind) := by
  rw [h'.parent_eq_ok_iff hkind', h.segments_eq, h.take_own, h'.dropLast_own, hdepth]

/-- Two names have one parent when they are alike without their last segments. -/
theorem Parts.exists_parent_iff_alike (h : Parts kind name lead own) (h' : Parts kind' name' lead' own')
    (hkind : kind ≠ .tenant) (hkind' : kind' ≠ .tenant) :
    (∃ above, parent kind name = .ok (some above) ∧ parent kind' name' = .ok (some above)) ↔
      lead ++ own.take (depth kind - 1) = lead' ++ own'.take (depth kind' - 1) := by
  rw [← h.dropLast_own, ← h'.dropLast_own]
  constructor
  · rintro ⟨above, habove, habove'⟩
    rw [← (h.parent_eq_ok_iff hkind).1 habove, (h'.parent_eq_ok_iff hkind').1 habove']
  · intro halike
    refine ⟨_, h.parent_eq hkind, ?_⟩
    rw [h'.parent_eq hkind', halike]

/-! ## Placements -/

/-- Segments in front are known by the parts of the placement that they fill. -/
theorem eq_of_getD_eq (hlength : lead.length ≤ mostPlacement) (hlength' : lead'.length ≤ mostPlacement)
    (hsolid : ∀ s ∈ lead, s ≠ "") (hsolid' : ∀ s ∈ lead', s ≠ "")
    (h : ∀ i < mostPlacement, lead[i]?.getD "" = lead'[i]?.getD "") : lead = lead' := by
  apply List.ext_getElem?
  intro i
  by_cases hi : i < mostPlacement
  · have hi := h i hi
    cases hs : lead[i]? with
    | none =>
      cases hs' : lead'[i]? with
      | none => rfl
      | some s' =>
        rw [hs, hs'] at hi
        exact absurd hi.symm (hsolid' s' (List.mem_of_getElem? hs'))
    | some s =>
      cases hs' : lead'[i]? with
      | none =>
        rw [hs, hs'] at hi
        exact absurd hi (hsolid s (List.mem_of_getElem? hs))
      | some s' =>
        rw [hs, hs'] at hi
        exact congrArg some hi
  · rw [List.getElem?_eq_none (by omega), List.getElem?_eq_none (by omega)]

section

variable (h : Parts kind name lead own) (h' : Parts kind' name' lead' own')
include h h'

/-- Two placements have the same tenant if everything in front of the scope is the same; a part that is
absent is empty in both. -/
theorem sameTenant_eq_true_iff :
    (ofParts lead own).placement.sameTenant (ofParts lead' own').placement = true ↔
      lead = lead' ∧ own.headD "" = own'.headD "" := by
  have hlead : lead = lead' ↔ lead[0]?.getD "" = lead'[0]?.getD "" ∧ lead[1]?.getD "" = lead'[1]?.getD "" ∧
      lead[2]?.getD "" = lead'[2]?.getD "" := by
    constructor
    · rintro rfl
      exact ⟨rfl, rfl, rfl⟩
    · rintro ⟨h₀, h₁, h₂⟩
      refine eq_of_getD_eq h.length_lead h'.length_lead (fun s hs => h.solid s (List.mem_append_left _ hs))
        (fun s hs => h'.solid s (List.mem_append_left _ hs)) fun i hi => ?_
      match i, hi with
      | 0, _ => exact h₀
      | 1, _ => exact h₁
      | 2, _ => exact h₂
  rw [hlead]
  simp [Placement.sameTenant, placement, ofParts, and_assoc]

/-- Two names have the same tenant when they are alike up to the tenant. -/
theorem sameTenant_iff :
    (ofParts lead own).placement.sameTenant (ofParts lead' own').placement = true ↔
      lead ++ own.take 1 = lead' ++ own'.take 1 := by
  obtain ⟨t, rest, rfl⟩ := h.exists_tenant
  obtain ⟨t', rest', rfl⟩ := h'.exists_tenant
  rw [sameTenant_eq_true_iff h h']
  constructor
  · rintro ⟨rfl, rfl⟩
    rfl
  · intro heq
    obtain ⟨hlead, htenant⟩ := List.append_inj' heq rfl
    exact ⟨hlead, List.singleton_inj.1 htenant⟩

/-- Two names have the same scope when they are alike up to the scope. -/
theorem sameScope_iff (hkind : kind ≠ .tenant) (hkind' : kind' ≠ .tenant) :
    (ofParts lead own).placement.sameScope (ofParts lead' own').placement = true ↔
      lead ++ own.take 2 = lead' ++ own'.take 2 := by
  obtain ⟨t, s, rest, rfl⟩ := h.exists_scope hkind
  obtain ⟨t', s', rest', rfl⟩ := h'.exists_scope hkind'
  have hscope : (ofParts lead (t :: s :: rest)).placement.sameScope
      (ofParts lead' (t' :: s' :: rest')).placement = true ↔ (lead = lead' ∧ t = t') ∧ s = s' := by
    rw [Placement.sameScope, Bool.and_eq_true, Bool.and_eq_true, sameTenant_eq_true_iff h h']
    simp [placement, ofParts]
  rw [hscope]
  constructor
  · rintro ⟨⟨rfl, rfl⟩, rfl⟩
    rfl
  · intro heq
    obtain ⟨hlead, hown⟩ := List.append_inj' heq rfl
    obtain ⟨htenant, hrest⟩ := List.cons.inj hown
    exact ⟨⟨hlead, htenant⟩, List.singleton_inj.1 hrest⟩

end

end AddressRegistry.ResourceName
