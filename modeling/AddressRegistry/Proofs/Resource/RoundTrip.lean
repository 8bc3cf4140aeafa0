import AddressRegistry.Proofs.Document.Reading
import AddressRegistry.Resource.Document

/-!
# Objects read back

Each part of an object has a shape, which says what its reader looks at, a lemma that it looks at nothing else
(`reads`), and one that it reads back what was written (`ofDocument?_toDocument`). The four kinds put the parts
together in one way (`Object.assemble`) and differ in the readers of their specifications and statuses. So an
object is read from its document, whatever else stands there (`Object.ofDocument?_of_widens`).

The fields of an object hold numbers of 64 bits and lengths of 8, and readers refuse greater ones
(`Object.Fits`). A document shows a time as its text, and a reading of the clock comes back as the time that
this text gives (`Object.dated`).

A status stands beside the own fields of a pool's or claim's status, so what is shown of its reader is about
fields, not about the record (`Status.reads_ofFields?`, `Status.ofFields?_toFields`).
-/

namespace AddressRegistry

open Document

/-! ## Names of values -/

/-- The name of a kind is read back. -/
@[simp] theorem Kind.ofLabel?_label (kind : Kind) : ofLabel? kind.label = some kind := by
  cases kind <;> rfl

/-- The name of a phase is read back. -/
@[simp] theorem Phase.ofLabel?_label (phase : Phase) : ofLabel? phase.label = some phase := by
  cases phase <;> rfl

/-- The name of an administrative state is read back. -/
@[simp] theorem AdminState.ofLabel?_label (state : AdminState) : ofLabel? state.label = some state := by
  cases state <;> rfl

/-- The name of a strategy is read back. -/
@[simp] theorem Strategy.ofLabel?_label (strategy : Strategy) : ofLabel? strategy.label = some strategy := by
  cases strategy <;> rfl

/-- The name of a family is read back. -/
@[simp] theorem Family.ofLabel?_label (family : Family) : ofLabel? family.label = some family := by
  cases family <;> rfl

/-! ## Metadata -/

namespace Metadata

/-- What reading metadata looks at. -/
def shape : Shape :=
  .record (plainly ["namespace", "name", "generation", "finalizers", "deletion_requested"])

/-- Reading metadata looks at its fields, one by one, and at nothing else. -/
theorem reads : Reads shape ofDocument? := by
  refine ReadsFields.reads_fieldsOf (fun fields fields' h => ?_) _ _
  rw [h.required "namespace" rfl (reads_exact _), h.required "name" rfl (reads_exact _),
    h.defaulted "generation" rfl (reads_exact _), h.defaulted "finalizers" rfl (reads_exact _),
    h.defaulted "deletion_requested" rfl (reads_exact _)]

/-- Metadata is read back when its generation fits in 64 bits. -/
theorem ofDocument?_toDocument {m : Metadata} (h : m.generation < powTwo 64) :
    ofDocument? m.toDocument = some m := by
  simp [ofDocument?, toDocument, fieldsOf, required, defaulted, lookup_cons, asText, asBool, asCount_ofNat h,
    asList_ofTexts]

end Metadata

/-! ## Status -/

namespace Condition

/-- The condition as a document shows it, a reading of the clock by its text. -/
def dated (c : Condition) : Condition := { c with since := c.since.map fun t => .given t.text }

/-- What reading a condition looks at. -/
def shape : Shape := .record (plainly ["ready", "reason", "message", "last_transition_time"])

/-- Reading a condition looks at its fields and at nothing else. -/
theorem reads : Reads shape ofDocument? := by
  refine ReadsFields.reads_fieldsOf (fun fields fields' h => ?_) _ _
  rw [h.required "ready" rfl (reads_exact _), h.defaulted "reason" rfl (reads_exact _),
    h.defaulted "message" rfl (reads_exact _), h.defaulted "last_transition_time" rfl (reads_exact _)]

/-- A condition is read back with its time as a text. -/
theorem ofDocument?_toDocument (c : Condition) : ofDocument? c.toDocument = some c.dated := by
  simp [ofDocument?, toDocument, fieldsOf, required, defaulted, lookup_cons, asText, asBool,
    asOptional_ofOptionalText, dated, Function.comp_def]

end Condition

namespace Placement

/-- What reading a placement looks at. -/
def shape : Shape :=
  .record (plainly ["organization", "deployment", "availability_zone", "tenant", "scope"])

/-- Reading a placement looks at its fields and at nothing else. -/
theorem reads : Reads shape ofDocument? := by
  refine ReadsFields.reads_fieldsOf (fun fields fields' h => ?_) _ _
  rw [h.defaulted "organization" rfl (reads_exact _), h.defaulted "deployment" rfl (reads_exact _),
    h.defaulted "availability_zone" rfl (reads_exact _), h.required "tenant" rfl (reads_exact _),
    h.defaulted "scope" rfl (reads_exact _)]

/-- A placement is read back. -/
theorem ofDocument?_toDocument (p : Placement) : ofDocument? p.toDocument = some p := by
  simp [ofDocument?, toDocument, fieldsOf, required, defaulted, lookup_cons, asText,
    asOptional_ofOptionalText]

end Placement

namespace Status

/-- The status as a document shows it. -/
def dated (s : Status) : Status := { s with condition := s.condition.dated }

/-- The fields of a status. -/
def known : List (String × Shape) :=
  [("phase", .exact), ("condition", Condition.shape), ("identity", Placement.shape),
    ("observed_generation", .exact)]

/-- Reading the fields of a status looks at those that are known and passes over others, such as the own
fields of a pool's or claim's status. -/
theorem reads_ofFields? : ReadsFields known ofFields? := by
  intro fields fields' h
  unfold ofFields?
  rw [h.defaulted "phase" rfl (reads_exact _), h.defaulted "condition" rfl Condition.reads,
    h.defaulted "identity" rfl Placement.reads, h.defaulted "observed_generation" rfl (reads_exact _)]

/-- Reading a status looks at its fields and at nothing else. -/
theorem reads : Reads (.record known) ofDocument? := reads_ofFields?.reads_fieldsOf _ _

/-- The fields of a status may stand in front of others. -/
theorem ofFields?_toFields {s : Status} (h : s.observedGeneration < powTwo 64)
    (fields : List (String × Document)) : ofFields? (s.toFields ++ fields) = some s.dated := by
  simp [ofFields?, toFields, defaulted, lookup_cons, Phase.ofDocument?, asChoice, asCount_ofNat h,
    Condition.ofDocument?_toDocument, Placement.ofDocument?_toDocument, dated]

/-- A status is read back, its condition with its time as a text. -/
theorem ofDocument?_toDocument {s : Status} (h : s.observedGeneration < powTwo 64) :
    ofDocument? s.toDocument = some s.dated := by
  have hfields := ofFields?_toFields h []
  rw [List.append_nil] at hfields
  exact hfields

end Status

namespace PoolStatus

/-- What reading the status of a pool looks at. -/
def known : List (String × Shape) :=
  Status.known ++ plainly ["declared", "labels", "children", "parents", "allocated"]

/-- Reading the status of a pool looks at the fields of a status and at its own ones. -/
theorem reads : Reads (.record known) ofDocument? := by
  refine ReadsFields.reads_recordFields (fun fields fields' h => ?_)
  rw [Status.reads_ofFields? fields fields' h.of_append,
    h.defaulted "declared" rfl (reads_exact _), h.defaulted "labels" rfl (reads_exact _),
    h.defaulted "children" rfl (reads_exact _), h.defaulted "parents" rfl (reads_exact _),
    h.defaulted "allocated" rfl (reads_exact _)]

/-- The status of a pool is read back, its condition with its time as a text. -/
theorem ofDocument?_toDocument {s : PoolStatus} (hgeneration : s.common.observedGeneration < powTwo 64)
    (hallocated : s.allocated < powTwo 64) :
    ofDocument? s.toDocument = some { s with common := s.common.dated } := by
  show (Status.ofFields? (s.common.toFields ++ _)).bind _ = _
  rw [Status.ofFields?_toFields hgeneration]
  simp [Status.toFields, defaulted, lookup_cons, asOptional_ofOptionalText, asLabels_ofLabels, asList_ofTexts,
    asCount_ofNat hallocated]

end PoolStatus

namespace ClaimStatus

/-- What reading the status of a claim looks at. -/
def known : List (String × Shape) := Status.known ++ plainly ["prefix"]

/-- Reading the status of a claim looks at the fields of a status and at its own one. -/
theorem reads : Reads (.record known) ofDocument? := by
  refine ReadsFields.reads_recordFields (fun fields fields' h => ?_)
  rw [Status.reads_ofFields? fields fields' h.of_append,
    h.defaulted "prefix" rfl (reads_exact _)]

/-- The status of a claim is read back, its condition with its time as a text. -/
theorem ofDocument?_toDocument {s : ClaimStatus} (h : s.common.observedGeneration < powTwo 64) :
    ofDocument? s.toDocument = some { s with common := s.common.dated } := by
  show (Status.ofFields? (s.common.toFields ++ _)).bind _ = _
  rw [Status.ofFields?_toFields h]
  simp [Status.toFields, defaulted, lookup_cons, asOptional_ofOptionalText]

end ClaimStatus

/-! ## Specifications -/

namespace TenantSpec

/-- Reading the specification of a tenant looks at its fields and at nothing else. -/
theorem reads_ofFields? : ReadsFields (plainly fieldNames) ofFields? := by
  intro fields fields' h
  unfold ofFields?
  rw [h.defaulted "admin_state" rfl (reads_exact _), h.defaulted "description" rfl (reads_exact _)]

/-- The specification of a tenant is read back. -/
theorem ofFields?_toFields (s : TenantSpec) : ofFields? s.toFields = some s := by
  simp [ofFields?, toFields, defaulted, lookup_cons, AdminState.ofDocument?, asChoice,
    asOptional_ofOptionalText]

end TenantSpec

namespace LengthTable

/-- The lengths are numbers of 8 bits, as everywhere in the registry. -/
def Fits (t : LengthTable) : Prop := ∀ e ∈ t.entries, ∀ e' ∈ e.2.entries, e'.2 < powTwo 8

/-- A table of lengths is read back, level by level, when each length fits in 8 bits. -/
theorem ofDocument?_toDocument {t : LengthTable} (h : Fits t) : ofDocument? (toDocument t) = some t := by
  let write (lengths : SortedMap Family Nat) : Document :=
    record (lengths.entries.map fun e => (e.1.label, ofNat e.2))
  have hlengths : ∀ e ∈ t.entries, asMap Family.ofLabel? asByte (write e.2) = some e.2 := fun e he =>
    asMap_entries Family.label ofNat Family.ofLabel?_label fun e' he' => asByte_ofNat (h e he e' he')
  exact asMap_entries id write (fun _ => rfl) hlengths

end LengthTable

namespace ScopeSpec

/-- Reading the specification of a scope looks at its fields and at nothing else, however lenient it is
inside them. -/
theorem reads_ofFields? (leniency : Leniency) : ReadsFields (plainly fieldNames) (ofFields? leniency) := by
  intro fields fields' h
  unfold ofFields?
  rw [h.defaulted "admin_state" rfl (reads_exact _), h.defaulted "allocation_strategy" rfl (reads_exact _),
    h.defaulted "default_prefix_length" rfl (reads_exact _), h.defaulted "description" rfl (reads_exact _)]

/-- The specification of a scope is read back when its lengths fit. -/
theorem ofFields?_toFields {s : ScopeSpec} (h : LengthTable.Fits s.defaultLengths) (leniency : Leniency) :
    ofFields? leniency s.toFields = some s := by
  simp [ofFields?, toFields, defaulted, lookup_cons, AdminState.ofDocument?, Strategy.ofDocument?, asChoice,
    LengthTable.ofDocument?_toDocument h, asOptional_ofOptionalText]

end ScopeSpec

namespace PoolSpec

/-- Reading the specification of a pool looks at its fields and at nothing else. -/
theorem reads_ofFields? : ReadsFields (plainly fieldNames) ofFields? := by
  intro fields fields' h
  unfold ofFields?
  rw [h.required "prefix" rfl (reads_exact _), h.defaulted "pool" rfl (reads_exact _),
    h.defaulted "labels" rfl (reads_exact _), h.defaulted "description" rfl (reads_exact _)]

/-- The specification of a pool is read back. -/
theorem ofFields?_toFields (s : PoolSpec) : ofFields? s.toFields = some s := by
  simp [ofFields?, toFields, required, defaulted, lookup_cons, asText, asBool, asLabels_ofLabels,
    asOptional_ofOptionalText]

end PoolSpec

namespace ClaimSpec

/-- Reading the specification of a claim looks at its fields and at nothing else. -/
theorem reads_ofFields? : ReadsFields (plainly fieldNames) ofFields? := by
  intro fields fields' h
  unfold ofFields?
  rw [h.defaulted "prefix" rfl (reads_exact _), h.defaulted "selector" rfl (reads_exact _),
    h.defaulted "source_tag" rfl (reads_exact _)]

/-- The specification of a claim is read back. -/
theorem ofFields?_toFields (s : ClaimSpec) : ofFields? s.toFields = some s := by
  simp [ofFields?, toFields, defaulted, lookup_cons, asLabels_ofLabels, asOptional_ofOptionalText]

end ClaimSpec

/-! ## Objects -/

namespace Object

variable {σ τ : Type} {s s' : Shape} {o : Object} {d : Document}

/-- Put an object together from its parts. -/
def assemble (readSpec : Reader σ) (readStatus : Reader τ) (fresh : τ)
    (make : Metadata → σ → τ → Object) (fields : List (String × Document)) : Option Object :=
  (required "meta" Metadata.ofDocument? fields).bind fun info =>
    (required "spec" readSpec fields).bind fun spec =>
      (defaulted "status" readStatus fresh fields).bind fun status => some (make info spec status)

/-- The fields of an object with such a specification and status. -/
def known (s s' : Shape) : List (String × Shape) :=
  [("kind", .exact), ("meta", Metadata.shape), ("spec", s), ("status", s')]

/-- Putting the parts of an object together looks at metadata, specification and status, and at these only
as far as the readers of the parts do. -/
theorem reads_assemble {readSpec : Reader σ} {readStatus : Reader τ} (hspec : Reads s readSpec)
    (hstatus : Reads s' readStatus) (fresh : τ) (make : Metadata → σ → τ → Object) :
    ReadsFields (known s s') (assemble readSpec readStatus fresh make) := by
  intro fields fields' h
  unfold assemble
  rw [h.required "meta" rfl Metadata.reads, h.required "spec" rfl hspec, h.defaulted "status" rfl hstatus]

/-- The parts of an object are put together when each of them is read back. -/
theorem assemble_parts {readSpec : Reader σ} {readStatus : Reader τ} {info : Metadata} {spec : σ}
    {status : τ} {kind dspec dstatus : Document} (hinfo : info.generation < powTwo 64)
    (hspec : readSpec dspec = some spec) (hstatus : readStatus dstatus = some status) (fresh : τ)
    (make : Metadata → σ → τ → Object) :
    assemble readSpec readStatus fresh make
        [("kind", kind), ("meta", info.toDocument), ("spec", dspec), ("status", dstatus)]
      = some (make info spec status) := by
  simp [assemble, required, defaulted, lookup_cons, Metadata.ofDocument?_toDocument hinfo, hspec, hstatus]

/-- Read a specification inside an object. -/
def readSpec (names : List String) (ofFields? : List (String × Document) → Option σ) : Reader σ :=
  fun d => (fieldsOf .inner names d).bind ofFields?

/-- What reading the specification of an object looks at. -/
def specShape : Kind → Shape
  | .tenant => .record (plainly TenantSpec.fieldNames)
  | .scope => .record (plainly ScopeSpec.fieldNames)
  | .pool => .record (plainly PoolSpec.fieldNames)
  | .claim => .record (plainly ClaimSpec.fieldNames)

/-- What reading the status of an object looks at. -/
def statusShape : Kind → Shape
  | .tenant | .scope => .record Status.known
  | .pool => .record PoolStatus.known
  | .claim => .record ClaimStatus.known

/-- What reading an object looks at. -/
def shape (kind : Kind) : Shape := .record (known (specShape kind) (statusShape kind))

/-- The four kinds differ in the readers of their parts. -/
theorem ofFields?_eq (kind : Kind) :
    ofFields? kind = match kind with
      | .tenant => assemble (readSpec TenantSpec.fieldNames TenantSpec.ofFields?) Status.ofDocument? .fresh
          fun info spec status => tenant ⟨info, spec, status⟩
      | .scope => assemble (readSpec ScopeSpec.fieldNames (ScopeSpec.ofFields? .inner)) Status.ofDocument?
          .fresh fun info spec status => scope ⟨info, spec, status⟩
      | .pool => assemble (readSpec PoolSpec.fieldNames PoolSpec.ofFields?) PoolStatus.ofDocument? .fresh
          fun info spec status => pool ⟨info, spec, status⟩
      | .claim => assemble (readSpec ClaimSpec.fieldNames ClaimSpec.ofFields?) ClaimStatus.ofDocument? .fresh
          fun info spec status => claim ⟨info, spec, status⟩ := by
  funext fields
  cases kind <;> simp [ofFields?, assemble, readSpec, required, Option.bind_assoc]

/-- Reading the fields of an object of some kind looks at what the readers of its specification and status
look at. -/
theorem reads_ofFields? (kind : Kind) :
    ReadsFields (known (specShape kind) (statusShape kind)) (ofFields? kind) := by
  rw [ofFields?_eq]
  cases kind with
  | tenant => exact reads_assemble (TenantSpec.reads_ofFields?.reads_fieldsOf _ _) Status.reads _ _
  | scope => exact reads_assemble ((ScopeSpec.reads_ofFields? _).reads_fieldsOf _ _) Status.reads _ _
  | pool => exact reads_assemble (PoolSpec.reads_ofFields?.reads_fieldsOf _ _) PoolStatus.reads _ _
  | claim => exact reads_assemble (ClaimSpec.reads_ofFields?.reads_fieldsOf _ _) ClaimStatus.reads _ _

/-- The numbers of an object have the sizes of their fields: counts of 64 bits, lengths of 8. -/
structure Fits (o : Object) : Prop where
  generation : o.info.generation < powTwo 64
  observed : o.status.observedGeneration < powTwo 64
  own : match o with
    | tenant _ | claim _ => True
    | scope r => LengthTable.Fits r.spec.defaultLengths
    | pool r => r.status.allocated < powTwo 64

/-- The object as a document shows it. -/
def dated (o : Object) : Object := o.mapStatus Status.dated

/-- The field for the kind decides how the other ones are read. -/
theorem ofDocument?_record {fields : List (String × Document)} {kind : Kind}
    (h : required "kind" asText fields = some kind.label) :
    ofDocument? (record fields) = ofFields? kind fields := by
  show (required "kind" asText fields).bind (fun label => (Kind.ofLabel? label).bind fun kind =>
    ofFields? kind fields) = _
  rw [h]
  show (Kind.ofLabel? kind.label).bind _ = _
  rw [Kind.ofLabel?_label]
  rfl

/-- An object that fits is read back from its document, with times as texts. -/
theorem ofDocument?_toDocument (h : o.Fits) : ofDocument? o.toDocument = some o.dated := by
  cases o with
  | tenant r =>
    show ofFields? .tenant _ = _
    rw [ofFields?_eq]
    exact assemble_parts h.generation (TenantSpec.ofFields?_toFields r.spec)
      (Status.ofDocument?_toDocument h.observed) _ _
  | scope r =>
    show ofFields? .scope _ = _
    rw [ofFields?_eq]
    exact assemble_parts h.generation (ScopeSpec.ofFields?_toFields h.own _)
      (Status.ofDocument?_toDocument h.observed) _ _
  | pool r =>
    show ofFields? .pool _ = _
    rw [ofFields?_eq]
    exact assemble_parts h.generation (PoolSpec.ofFields?_toFields r.spec)
      (PoolStatus.ofDocument?_toDocument h.observed h.own) _ _
  | claim r =>
    show ofFields? .claim _ = _
    rw [ofFields?_eq]
    exact assemble_parts h.generation (ClaimSpec.ofFields?_toFields r.spec)
      (ClaimStatus.ofDocument?_toDocument h.observed) _ _

/-- What does not concern the kind of an object is passed over. -/
theorem ofDocument?_of_widens (h : Widens (shape o.kind) o.toDocument d) :
    ofDocument? d = ofDocument? o.toDocument := by
  obtain ⟨fields, rfl, hagree⟩ := h.agree
  rw [ofDocument?_record (hagree.required "kind" rfl (reads_exact asText)),
    reads_ofFields? o.kind _ _ hagree]
  exact (ofDocument?_record rfl).symm

/-- Where the time is given as a text, a document shows the object itself. -/
theorem dated_eq_self (h : ∀ t ∈ o.status.condition.since, t = .given t.text) : o.dated = o := by
  have hsince : o.status.condition.since.map (fun t => .given t.text) = o.status.condition.since := by
    cases hsince : o.status.condition.since with
    | none => rfl
    | some t => exact congrArg some (h t hsince).symm
  have hdated : o.status.dated = o.status := by
    unfold Status.dated Condition.dated
    rw [hsince]
  cases o with
  | tenant r => exact congrArg (fun status => tenant { r with status }) hdated
  | scope r => exact congrArg (fun status => scope { r with status }) hdated
  | pool r => exact congrArg (fun common => pool { r with status := { r.status with common } }) hdated
  | claim r => exact congrArg (fun common => claim { r with status := { r.status with common } }) hdated

end Object

end AddressRegistry
