import AddressRegistry.Config.Document
import AddressRegistry.Proofs.Resource.RoundTrip

/-!
# Configurations read back

The document of a configuration gives the configuration back, whatever else stands in it, as that of an object
gives the object back (`documents_read_back`). The fields of a specification stand beside the name of the object
that the store starts with, so its reader meets a field that it does not know in every document, the name
(`Seed.ofDocument?_toDocument`).
-/

namespace AddressRegistry

open Document

namespace Schedule

/-- What reading a schedule looks at. -/
def shape : Shape :=
  .record (plainly ["concurrency", "poll_interval_seconds", "short_wait_seconds", "very_short_wait_seconds",
    "retry_cap", "reconcile_timeout_seconds"])

/-- Reading a schedule looks at its fields and at nothing else. -/
theorem reads (leniency : Leniency) : Reads shape (ofDocument? leniency) := by
  refine ReadsFields.reads_fieldsOf (fun fields fields' h => ?_) _ _
  rw [h.defaulted "concurrency" rfl (reads_exact _), h.defaulted "poll_interval_seconds" rfl (reads_exact _),
    h.defaulted "short_wait_seconds" rfl (reads_exact _),
    h.defaulted "very_short_wait_seconds" rfl (reads_exact _), h.defaulted "retry_cap" rfl (reads_exact _),
    h.defaulted "reconcile_timeout_seconds" rfl (reads_exact _)]

/-- The numbers of a schedule have the sizes of their fields: 64 bits, the cap of the retries 32. -/
structure Fits (s : Schedule) : Prop where
  concurrency : s.concurrency < powTwo 64
  poll : s.pollSeconds < powTwo 64
  short : s.shortSeconds < powTwo 64
  veryShort : s.veryShortSeconds < powTwo 64
  retryCap : s.retryCap < powTwo 32
  timeout : s.timeoutSeconds < powTwo 64

/-- A schedule is read back when its numbers fit. -/
theorem ofDocument?_toDocument {s : Schedule} (h : s.Fits) (leniency : Leniency) :
    ofDocument? leniency s.toDocument = some s := by
  simp [ofDocument?, toDocument, fieldsOf, defaulted, lookup_cons, asCount_ofNat h.concurrency,
    asCount_ofNat h.poll, asCount_ofNat h.short, asCount_ofNat h.veryShort, asWord_ofNat h.retryCap,
    asCount_ofNat h.timeout]

end Schedule

/-- Reading the log level looks at it and at nothing else. -/
theorem reads_logLevel (leniency : Leniency) :
    Reads (.record (plainly ["log_level"])) (logLevelOfDocument? leniency) := by
  refine ReadsFields.reads_fieldsOf (fun fields fields' h => ?_) _ _
  rw [h.defaulted "log_level" rfl (reads_exact _)]

namespace Seed

variable {σ : Type} {names : List String} {ofFields? : List (String × Document) → Option σ}

/-- What reading an object looks at whose specification has fields with the names. -/
def shape (names : List String) : Shape := .record (plainly ("name" :: names))

/-- Reading a seed looks at the name and at the fields of the specification, and at nothing else. -/
theorem reads (h : ReadsFields (plainly names) ofFields?) : Reads (shape names) (ofDocument? ofFields?) := by
  refine ReadsFields.reads_recordFields (fun fields fields' hagree => ?_)
  have hspec : Agree (plainly names) fields fields' := hagree.mono fun name shape hknown => by
    -- the specification has no part that is not read as a whole, the name neither
    cases eq_exact_of_lookup_plainly hknown
    show List.lookup name (("name", .exact) :: plainly names) = _
    rw [List.lookup_cons, hknown]
    split <;> rfl
  rw [hagree.required "name" rfl (reads_exact _), h fields fields' hspec]

/-- The name stands beside the fields of the specification, none of which has the name `name`. -/
theorem ofDocument?_toDocument {s : Seed σ} {toFields : σ → List (String × Document)}
    (h : ReadsFields (plainly names) ofFields?) (hnames : (plainly names).lookup "name" = none)
    (hspec : ofFields? (toFields s.spec) = some s.spec) :
    ofDocument? ofFields? (toDocument toFields s) = some s := by
  have hfields : ofFields? (("name", text s.name) :: toFields s.spec) = some s.spec :=
    (h _ _ (agree_cons (text s.name) _ hnames)).trans hspec
  simp [ofDocument?, toDocument, recordFields, required, lookup_cons, asText, hfields]

end Seed

namespace Bootstrap

/-- What reading the objects that the store starts with looks at. -/
def shape : Shape :=
  .record [("namespace", .exact), ("tenants", .list (Seed.shape TenantSpec.fieldNames)),
    ("scopes", .list (Seed.shape ScopeSpec.fieldNames)), ("pools", .list (Seed.shape PoolSpec.fieldNames)),
    ("claims", .list (Seed.shape ClaimSpec.fieldNames))]

/-- Reading what a store starts with looks at the lists of seeds and into each seed. -/
theorem reads (leniency : Leniency) : Reads shape (ofDocument? leniency) := by
  refine ReadsFields.reads_fieldsOf (fun fields fields' h => ?_) _ _
  rw [h.defaulted "namespace" rfl (reads_exact _),
    h.defaulted "tenants" rfl (Seed.reads TenantSpec.reads_ofFields?).asList,
    h.defaulted "scopes" rfl (Seed.reads (ScopeSpec.reads_ofFields? _)).asList,
    h.defaulted "pools" rfl (Seed.reads PoolSpec.reads_ofFields?).asList,
    h.defaulted "claims" rfl (Seed.reads ClaimSpec.reads_ofFields?).asList]

/-- The lengths of the scopes are numbers of 8 bits. -/
def Fits (b : Bootstrap) : Prop := ∀ s ∈ b.scopes, LengthTable.Fits s.spec.defaultLengths

/-- What a store starts with is read back when its lengths fit. -/
theorem ofDocument?_toDocument {b : Bootstrap} (h : b.Fits) (leniency : Leniency) :
    ofDocument? leniency b.toDocument = some b := by
  have htenants := asList_map (l := b.tenants) fun s _ =>
    Seed.ofDocument?_toDocument TenantSpec.reads_ofFields? rfl (TenantSpec.ofFields?_toFields s.spec)
  have hscopes := asList_map (l := b.scopes) fun s hs =>
    Seed.ofDocument?_toDocument (ScopeSpec.reads_ofFields? .inner) rfl
      (ScopeSpec.ofFields?_toFields (h s hs) .inner)
  have hpools := asList_map (l := b.pools) fun s _ =>
    Seed.ofDocument?_toDocument PoolSpec.reads_ofFields? rfl (PoolSpec.ofFields?_toFields s.spec)
  have hclaims := asList_map (l := b.claims) fun s _ =>
    Seed.ofDocument?_toDocument ClaimSpec.reads_ofFields? rfl (ClaimSpec.ofFields?_toFields s.spec)
  simp [ofDocument?, toDocument, fieldsOf, defaulted, lookup_cons, asText, htenants, hscopes, hpools, hclaims]

end Bootstrap

namespace Config

/-- What reading a configuration looks at. -/
def shape : Shape :=
  .record [("reconcile", Schedule.shape), ("telemetry", .record (plainly ["log_level"])),
    ("bootstrap", Bootstrap.shape)]

/-- Reading a configuration looks at its sections and into each of them. -/
theorem reads (leniency : Leniency) : Reads shape (ofDocument? leniency) := by
  refine ReadsFields.reads_fieldsOf (fun fields fields' h => ?_) _ _
  rw [h.defaulted "reconcile" rfl (Schedule.reads leniency),
    h.defaulted "telemetry" rfl (reads_logLevel leniency),
    h.defaulted "bootstrap" rfl (Bootstrap.reads leniency)]

/-- The numbers of a configuration have the sizes of their fields. -/
structure Fits (c : Config) : Prop where
  schedule : c.schedule.Fits
  bootstrap : c.bootstrap.Fits

/-- A configuration is read back when its numbers fit. -/
theorem ofDocument?_toDocument {c : Config} (h : c.Fits) (leniency : Leniency) :
    ofDocument? leniency c.toDocument = some c := by
  simp [ofDocument?, toDocument, fieldsOf, defaulted, lookup_cons, logLevelOfDocument?, asText,
    Schedule.ofDocument?_toDocument h.schedule, Bootstrap.ofDocument?_toDocument h.bootstrap]

end Config

/-! ## Both -/

/-- **Documents are read back.** The document of an object of any kind is read as this object, and that of a
configuration as this configuration, also when records in them, at whatever depth, got fields with names that
are not known there, or their fields stand in another order. A time that the registry read from its clock
comes back as the text that the document has for it. -/
theorem documents_read_back :
    (∀ (o : Object) (d : Document), o.Fits → Widens (Object.shape o.kind) o.toDocument d →
      Object.ofDocument? d = some o.dated ∧
        ((∀ t ∈ o.status.condition.since, t = .given t.text) → Object.ofDocument? d = some o)) ∧
      ∀ (leniency : Leniency) (c : Config) (d : Document), c.Fits → Widens Config.shape c.toDocument d →
        Config.ofDocument? leniency d = some c := by
  refine ⟨fun o d hfits hwidens => ?_, fun leniency c d hfits hwidens => ?_⟩
  · have hread : Object.ofDocument? d = some o.dated :=
      (Object.ofDocument?_of_widens hwidens).trans (Object.ofDocument?_toDocument hfits)
    exact ⟨hread, fun hgiven => hread.trans (congrArg some (Object.dated_eq_self hgiven))⟩
  · exact ((Config.reads leniency).widens hwidens).trans (Config.ofDocument?_toDocument hfits leniency)

/-! A pool whose status got a field, and a configuration. -/

namespace Specimen

def pool : Object :=
  .pool ⟨⟨"default", "acme.lab.pool", 3, [finalizerName], false⟩,
    ⟨"10.0.0.0/30", true, .ofList [(Labels.purposeKey, "loopback")], none⟩,
    ⟨⟨.ready, ⟨true, "Ready", "", some (.given "2024-05-01T00:00:00+00:00")⟩, .empty, 3⟩,
      some "10.0.0.0/30", .empty, ["10.0.0.1/32"], [], 1⟩⟩

/-- The numbers of the specimen fit. -/
theorem pool_fits : pool.Fits where
  generation := by decide
  observed := by decide
  own := show 1 < powTwo 64 by decide

/-- The status of the pool with one more field in front. -/
def status : Document :=
  match pool.parts.2 with
  | .record fields => .record (("comment", .null) :: fields)
  | d => d

def noted : Document :=
  .record [("kind", .text "pool"), ("meta", pool.info.toDocument), ("spec", pool.parts.1), ("status", status)]

/-- A note at the end of the document widens it. -/
theorem noted_widens : Widens (Object.shape .pool) pool.toDocument noted :=
  .single (@Widened.field _ [("kind", .text "pool"), ("meta", pool.info.toDocument), ("spec", pool.parts.1)] []
    "status" _ _ _ rfl (@Widened.unknown _ [] _ "comment" .null rfl))

/-- The numbers of the standard configuration fit. -/
theorem config_fits : Config.standard.Fits where
  schedule := ⟨by decide, by decide, by decide, by decide, by decide, by decide⟩
  bootstrap := nofun

end Specimen

/-- The pool of the specimen is read back beside a note, and so is the standard configuration. -/
theorem documents_read_back_specimen :
    Object.ofDocument? Specimen.noted = some Specimen.pool ∧
      Config.ofDocument? .plain Config.standard.toDocument = some Config.standard :=
  ⟨(documents_read_back.1 Specimen.pool Specimen.noted Specimen.pool_fits Specimen.noted_widens).2
      (by rintro t ⟨⟩; rfl),
    documents_read_back.2 .plain .standard _ Specimen.config_fits .refl⟩

end AddressRegistry
