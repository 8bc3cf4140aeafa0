import AddressRegistry.Document.Basic
import AddressRegistry.Resource.Object

/-!
# Objects as documents

The document form of objects. Writing shows every field. Reading fills absent fields with their
defaults, ignores unknown ones and refuses values of a wrong type.
-/

namespace AddressRegistry

open Document

namespace Metadata

/-- The document of metadata. -/
def toDocument (m : Metadata) : Document :=
  record [("namespace", text m.space), ("name", text m.name), ("generation", ofNat m.generation),
    ("finalizers", ofTexts m.finalizers), ("deletion_requested", bool m.deletionRequested)]

/-- Read metadata. -/
def ofDocument? : Reader Metadata := fun d => do
  let fields ← fieldsOf .inner ["namespace", "name", "generation", "finalizers", "deletion_requested"] d
  return {
    space := ← required "namespace" asText fields
    name := ← required "name" asText fields
    generation := ← defaulted "generation" asCount 0 fields
    finalizers := ← defaulted "finalizers" (asList asText) [] fields
    deletionRequested := ← defaulted "deletion_requested" asBool false fields }

end Metadata

namespace Condition

/-- The document of a condition. -/
def toDocument (c : Condition) : Document :=
  record [("ready", bool c.ready), ("reason", text c.reason), ("message", text c.message),
    ("last_transition_time", ofOptionalText (c.since.map Timestamp.text))]

/-- Read a condition. -/
def ofDocument? : Reader Condition := fun d => do
  let fields ← fieldsOf .inner ["ready", "reason", "message", "last_transition_time"] d
  return {
    ready := ← required "ready" asBool fields
    reason := ← defaulted "reason" asText "" fields
    message := ← defaulted "message" asText "" fields
    since := (← defaulted "last_transition_time" (asOptional asText) none fields).map .given }

end Condition

namespace Placement

/-- The document of a placement. -/
def toDocument (p : Placement) : Document :=
  record [("organization", text p.organization), ("deployment", text p.deployment),
    ("availability_zone", text p.zone), ("tenant", text p.tenant), ("scope", ofOptionalText p.scope)]

/-- Read a placement. -/
def ofDocument? : Reader Placement := fun d => do
  let fields ←
    fieldsOf .inner ["organization", "deployment", "availability_zone", "tenant", "scope"] d
  return {
    organization := ← defaulted "organization" asText "" fields
    deployment := ← defaulted "deployment" asText "" fields
    zone := ← defaulted "availability_zone" asText "" fields
    tenant := ← required "tenant" asText fields
    scope := ← defaulted "scope" (asOptional asText) none fields }

end Placement

/-- Read the phase of an object. -/
def Phase.ofDocument? (leniency : Leniency) : Reader Phase := asChoice leniency Phase.ofLabel?

namespace Status

/-- The fields of a status. -/
def toFields (s : Status) : List (String × Document) :=
  [("phase", text s.phase.label), ("condition", s.condition.toDocument),
    ("identity", s.placement.toDocument), ("observed_generation", ofNat s.observedGeneration)]

/-- The document of a status. -/
def toDocument (s : Status) : Document := record s.toFields

/-- Read a status from the fields of a record. -/
def ofFields? (fields : List (String × Document)) : Option Status := do
  return {
    phase := ← defaulted "phase" (Phase.ofDocument? .inner) .pending fields
    condition := ← defaulted "condition" Condition.ofDocument? .unknown fields
    placement := ← defaulted "identity" Placement.ofDocument? .empty fields
    observedGeneration := ← defaulted "observed_generation" asCount 0 fields }

/-- Read a status. -/
def ofDocument? : Reader Status := fun d => do
  ofFields? (← fieldsOf .inner ["phase", "condition", "identity", "observed_generation"] d)

end Status

/-- Read an administrative state. -/
def AdminState.ofDocument? (leniency : Leniency) : Reader AdminState :=
  asChoice leniency AdminState.ofLabel?

/-- Read a placement strategy. -/
def Strategy.ofDocument? (leniency : Leniency) : Reader Strategy :=
  asChoice leniency Strategy.ofLabel?

namespace TenantSpec

/-- The names of the fields, in order. -/
def fieldNames : List String := ["admin_state", "description"]

/-- The fields of a tenant's specification. -/
def toFields (s : TenantSpec) : List (String × Document) :=
  [("admin_state", text s.adminState.label), ("description", ofOptionalText s.description)]

/-- Read a tenant's specification from the fields of a record. -/
def ofFields? (fields : List (String × Document)) : Option TenantSpec := do
  return {
    adminState := ← defaulted "admin_state" (AdminState.ofDocument? .inner) .enable fields
    description := ← defaulted "description" (asOptional asText) none fields }

end TenantSpec

namespace LengthTable

/-- The document of a length table. -/
def toDocument (t : LengthTable) : Document :=
  record (t.entries.map fun (purpose, lengths) =>
    (purpose, record (lengths.entries.map fun (family, n) => (family.label, ofNat n))))

/-- Read a length table. -/
def ofDocument? : Reader LengthTable := asMap some (asMap Family.ofLabel? asByte)

end LengthTable

namespace ScopeSpec

/-- The names of the fields, in order. -/
def fieldNames : List String :=
  ["admin_state", "allocation_strategy", "default_prefix_length", "description"]

/-- The fields of a scope's specification. -/
def toFields (s : ScopeSpec) : List (String × Document) :=
  [("admin_state", text s.adminState.label), ("allocation_strategy", text s.strategy.label),
    ("default_prefix_length", LengthTable.toDocument s.defaultLengths),
    ("description", ofOptionalText s.description)]

/-- Read a scope's specification from the fields of a record. -/
def ofFields? (leniency : Leniency) (fields : List (String × Document)) : Option ScopeSpec := do
  return {
    adminState := ← defaulted "admin_state" (AdminState.ofDocument? leniency) .enable fields
    strategy :=
      ← defaulted "allocation_strategy" (Strategy.ofDocument? leniency) .firstAvailable fields
    defaultLengths := ← defaulted "default_prefix_length" LengthTable.ofDocument? .empty fields
    description := ← defaulted "description" (asOptional asText) none fields }

/-- Read a scope's specification. -/
def ofDocument? : Reader ScopeSpec := fun d => do
  ofFields? .plain (← fieldsOf .plain fieldNames d)

end ScopeSpec

namespace PoolSpec

/-- The names of the fields, in order. -/
def fieldNames : List String := ["prefix", "pool", "labels", "description"]

/-- The fields of a pool's specification. -/
def toFields (s : PoolSpec) : List (String × Document) :=
  [("prefix", text s.network), ("pool", bool s.pool), ("labels", ofLabels s.labels),
    ("description", ofOptionalText s.description)]

/-- Read a pool's specification from the fields of a record. -/
def ofFields? (fields : List (String × Document)) : Option PoolSpec := do
  return {
    network := ← required "prefix" asText fields
    pool := ← defaulted "pool" asBool false fields
    labels := ← defaulted "labels" asLabels .empty fields
    description := ← defaulted "description" (asOptional asText) none fields }

/-- Read a pool's specification. -/
def ofDocument? : Reader PoolSpec := fun d => do
  ofFields? (← fieldsOf .plain fieldNames d)

end PoolSpec

namespace ClaimSpec

/-- The names of the fields, in order. -/
def fieldNames : List String := ["prefix", "selector", "source_tag"]

/-- The fields of a claim's specification. -/
def toFields (s : ClaimSpec) : List (String × Document) :=
  [("prefix", ofOptionalText s.network), ("selector", ofLabels s.selector),
    ("source_tag", ofLabels s.sourceTag)]

/-- Read a claim's specification from the fields of a record. -/
def ofFields? (fields : List (String × Document)) : Option ClaimSpec := do
  return {
    network := ← defaulted "prefix" (asOptional asText) none fields
    selector := ← defaulted "selector" asLabels .empty fields
    sourceTag := ← defaulted "source_tag" asLabels .empty fields }

end ClaimSpec

namespace PoolStatus

/-- The document of a pool's status; the common status stands beside the pool's own fields. -/
def toDocument (s : PoolStatus) : Document :=
  record (s.common.toFields ++
    [("declared", ofOptionalText s.declared), ("labels", ofLabels s.labels),
      ("children", ofTexts s.children), ("parents", ofTexts s.parents),
      ("allocated", ofNat s.allocated)])

/-- Read a pool's status. -/
def ofDocument? : Reader PoolStatus := fun d => do
  let fields ← recordFields d
  return {
    common := ← Status.ofFields? fields
    declared := ← defaulted "declared" (asOptional asText) none fields
    labels := ← defaulted "labels" asLabels .empty fields
    children := ← defaulted "children" (asList asText) [] fields
    parents := ← defaulted "parents" (asList asText) [] fields
    allocated := ← defaulted "allocated" asCount 0 fields }

end PoolStatus

namespace ClaimStatus

/-- The document of a claim's status; the common status stands beside the claim's own field. -/
def toDocument (s : ClaimStatus) : Document :=
  record (s.common.toFields ++ [("prefix", ofOptionalText s.network)])

/-- Read a claim's status. -/
def ofDocument? : Reader ClaimStatus := fun d => do
  let fields ← recordFields d
  return {
    common := ← Status.ofFields? fields
    network := ← defaulted "prefix" (asOptional asText) none fields }

end ClaimStatus

namespace Object

/-- The documents of an object's specification and status. -/
def parts : Object → Document × Document
  | tenant r => (record r.spec.toFields, r.status.toDocument)
  | scope r => (record r.spec.toFields, r.status.toDocument)
  | pool r => (record r.spec.toFields, r.status.toDocument)
  | claim r => (record r.spec.toFields, r.status.toDocument)

/-- The document of an object. -/
def toDocument (o : Object) : Document :=
  record [("kind", text o.kind.label), ("meta", o.info.toDocument), ("spec", o.parts.1),
    ("status", o.parts.2)]

/-- Read an object of a kind from its fields. -/
def ofFields? (kind : Kind) (fields : List (String × Document)) : Option Object := do
  let info ← required "meta" Metadata.ofDocument? fields
  let spec ← lookup "spec" fields
  match kind with
  | .tenant =>
    let spec ← TenantSpec.ofFields? (← fieldsOf .inner TenantSpec.fieldNames spec)
    return tenant ⟨info, spec, ← defaulted "status" Status.ofDocument? .fresh fields⟩
  | .scope =>
    let spec ← ScopeSpec.ofFields? .inner (← fieldsOf .inner ScopeSpec.fieldNames spec)
    return scope ⟨info, spec, ← defaulted "status" Status.ofDocument? .fresh fields⟩
  | .pool =>
    let spec ← PoolSpec.ofFields? (← fieldsOf .inner PoolSpec.fieldNames spec)
    return pool ⟨info, spec, ← defaulted "status" PoolStatus.ofDocument? .fresh fields⟩
  | .claim =>
    let spec ← ClaimSpec.ofFields? (← fieldsOf .inner ClaimSpec.fieldNames spec)
    return claim ⟨info, spec, ← defaulted "status" ClaimStatus.ofDocument? .fresh fields⟩

/-- Read an object: a record with the kind as a field, or a list with the kind in front. -/
def ofDocument? : Reader Object
  | record fields => do
    let kind ← (← required "kind" asText fields) |> Kind.ofLabel?
    ofFields? kind fields
  | list (text kind :: items) => do
    ofFields? (← Kind.ofLabel? kind) (← fieldsOf .inner ["meta", "spec", "status"] (list items))
  | _ => none

end Object

end AddressRegistry
