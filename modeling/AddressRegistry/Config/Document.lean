import AddressRegistry.Config.Basic
import AddressRegistry.Resource.Document

/-!
# Configurations as documents

The document form of a configuration has the parts `reconcile`, `telemetry` and `bootstrap`. The
objects that the store starts with are written as records of their name and the fields of their
specification, side by side.
-/

namespace AddressRegistry

open Document

namespace Schedule

/-- The document of a schedule. -/
def toDocument (s : Schedule) : Document :=
  record [("concurrency", ofNat s.concurrency), ("poll_interval_seconds", ofNat s.pollSeconds),
    ("short_wait_seconds", ofNat s.shortSeconds),
    ("very_short_wait_seconds", ofNat s.veryShortSeconds), ("retry_cap", ofNat s.retryCap),
    ("reconcile_timeout_seconds", ofNat s.timeoutSeconds)]

/-- Read a schedule. -/
def ofDocument? (leniency : Leniency) : Reader Schedule := fun d => do
  let fields ← fieldsOf leniency ["concurrency", "poll_interval_seconds", "short_wait_seconds",
    "very_short_wait_seconds", "retry_cap", "reconcile_timeout_seconds"] d
  return {
    concurrency := ← defaulted "concurrency" asCount standard.concurrency fields
    pollSeconds := ← defaulted "poll_interval_seconds" asCount standard.pollSeconds fields
    shortSeconds := ← defaulted "short_wait_seconds" asCount standard.shortSeconds fields
    veryShortSeconds :=
      ← defaulted "very_short_wait_seconds" asCount standard.veryShortSeconds fields
    retryCap := ← defaulted "retry_cap" asWord standard.retryCap fields
    timeoutSeconds :=
      ← defaulted "reconcile_timeout_seconds" asCount standard.timeoutSeconds fields }

end Schedule

/-- Read the log level from its part of a configuration. -/
def logLevelOfDocument? (leniency : Leniency) : Reader String := fun d => do
  defaulted "log_level" asText Config.standard.logLevel (← fieldsOf leniency ["log_level"] d)

namespace Seed

/-- The document of an object that the store starts with. -/
def toDocument {σ : Type} (toFields : σ → List (String × Document)) (s : Seed σ) : Document :=
  record (("name", text s.name) :: toFields s.spec)

/-- Read an object that the store starts with. -/
def ofDocument? {σ : Type} (ofFields? : List (String × Document) → Option σ) : Reader (Seed σ) :=
  fun d => do
    let fields ← recordFields d
    return ⟨← required "name" asText fields, ← ofFields? fields⟩

end Seed

namespace Bootstrap

/-- The document of the objects that the store starts with. -/
def toDocument (b : Bootstrap) : Document :=
  record [("namespace", text b.space),
    ("tenants", list (b.tenants.map (Seed.toDocument TenantSpec.toFields))),
    ("scopes", list (b.scopes.map (Seed.toDocument ScopeSpec.toFields))),
    ("pools", list (b.pools.map (Seed.toDocument PoolSpec.toFields))),
    ("claims", list (b.claims.map (Seed.toDocument ClaimSpec.toFields)))]

/-- Read the objects that the store starts with. -/
def ofDocument? (leniency : Leniency) : Reader Bootstrap := fun d => do
  let fields ← fieldsOf leniency ["namespace", "tenants", "scopes", "pools", "claims"] d
  return {
    space := ← defaulted "namespace" asText standard.space fields
    tenants := ← defaulted "tenants" (asList (Seed.ofDocument? TenantSpec.ofFields?)) [] fields
    scopes := ← defaulted "scopes" (asList (Seed.ofDocument? (ScopeSpec.ofFields? .inner))) [] fields
    pools := ← defaulted "pools" (asList (Seed.ofDocument? PoolSpec.ofFields?)) [] fields
    claims := ← defaulted "claims" (asList (Seed.ofDocument? ClaimSpec.ofFields?)) [] fields }

end Bootstrap

namespace Config

/-- The document of a configuration. -/
def toDocument (c : Config) : Document :=
  record [("reconcile", c.schedule.toDocument),
    ("telemetry", record [("log_level", text c.logLevel)]),
    ("bootstrap", c.bootstrap.toDocument)]

/-- Read a configuration. -/
def ofDocument? (leniency : Leniency) : Reader Config := fun d => do
  let fields ← fieldsOf leniency ["reconcile", "telemetry", "bootstrap"] d
  return {
    schedule := ← defaulted "reconcile" (Schedule.ofDocument? leniency) .standard fields
    logLevel := ← defaulted "telemetry" (logLevelOfDocument? leniency) standard.logLevel fields
    bootstrap := ← defaulted "bootstrap" (Bootstrap.ofDocument? leniency) .standard fields }

end Config

end AddressRegistry
