import AddressRegistry.Network.Parse
import AddressRegistry.Resource.Object
import AddressRegistry.Retry.Ladder

/-!
# Configuration

A configuration says how passes are scheduled, how much is logged and which objects the store starts
with. Every part has a default. A configuration is checked before it is used; the first fault found is
reported.
-/

namespace AddressRegistry

/-- How passes are scheduled. -/
structure Schedule where
  /-- The number of workers for each kind. -/
  concurrency : Nat
  pollSeconds : Nat
  shortSeconds : Nat
  veryShortSeconds : Nat
  retryCap : Nat
  /-- How long one pass may take. -/
  timeoutSeconds : Nat
deriving DecidableEq

namespace Schedule

/-- The schedule of a configuration that says nothing. -/
def standard : Schedule := ⟨1, 60, 5, 1, 3, 60⟩

/-- How long one pass may take, in milliseconds. -/
def timeout (s : Schedule) : Nat := s.timeoutSeconds * 1000

/-- The retry delays, in milliseconds. -/
def policy (s : Schedule) : RetryPolicy :=
  ⟨s.veryShortSeconds * 1000, s.shortSeconds * 1000, s.pollSeconds * 1000, s.retryCap⟩

end Schedule

/-- An object that the store starts with. -/
structure Seed (σ : Type) where
  name : String
  spec : σ
deriving DecidableEq

/-- The objects that the store starts with, all in one namespace. -/
structure Bootstrap where
  space : String
  tenants : List (Seed TenantSpec)
  scopes : List (Seed ScopeSpec)
  pools : List (Seed PoolSpec)
  claims : List (Seed ClaimSpec)
deriving DecidableEq

namespace Bootstrap

/-- No objects. -/
def standard : Bootstrap := ⟨"default", [], [], [], []⟩

/-- Whether there are no objects. -/
def isEmpty (b : Bootstrap) : Bool :=
  b.tenants.isEmpty && b.scopes.isEmpty && b.pools.isEmpty && b.claims.isEmpty

/-- The kinds and names of all objects, parents first. -/
def names (b : Bootstrap) : List (Kind × String) :=
  b.tenants.map (fun s => (.tenant, s.name)) ++ b.scopes.map (fun s => (.scope, s.name))
    ++ b.pools.map (fun s => (.pool, s.name)) ++ b.claims.map (fun s => (.claim, s.name))

/-- The objects, parents first. -/
def objects (b : Bootstrap) : List Object :=
  b.tenants.map (fun s => Object.newTenant b.space s.name s.spec)
    ++ b.scopes.map (fun s => Object.newScope b.space s.name s.spec)
    ++ b.pools.map (fun s => Object.newPool b.space s.name s.spec)
    ++ b.claims.map (fun s => Object.newClaim b.space s.name s.spec)

end Bootstrap

/-- The configuration of a registry. -/
structure Config where
  schedule : Schedule
  logLevel : String
  bootstrap : Bootstrap
deriving DecidableEq

/-- The configuration that says nothing. -/
def Config.standard : Config := ⟨.standard, "info", .standard⟩

/-- Settings from the command line, which stand above the configuration. -/
structure Overrides where
  logLevel : Option String
  concurrency : Option Nat
  pollSeconds : Option Nat
deriving DecidableEq

/-- Apply settings from the command line. -/
def Config.override (c : Config) (o : Overrides) : Config :=
  { c with
    logLevel := o.logLevel.getD c.logLevel
    schedule := { c.schedule with
      concurrency := o.concurrency.getD c.schedule.concurrency
      pollSeconds := o.pollSeconds.getD c.schedule.pollSeconds } }

/-! ## Checking -/

/-- What is wrong with a configuration. -/
inductive ConfigFault where
  | noWorkers
  | noPollInterval
  | noTimeout
  | noRetryCap
  | veryShortAboveShort (veryShort short : Nat)
  | shortAbovePoll (short poll : Nat)
  | unknownLogLevel (name : String)
  | emptyNamespace
  | emptyName (kind : Kind)
  | badSeed (kind : Kind) (name : String) (error : RegistryError)
deriving DecidableEq

/-- The words for a fault of a configuration. -/
def ConfigFault.message : ConfigFault → String
  | .noWorkers => "reconcile.concurrency must be > 0"
  | .noPollInterval => "reconcile.poll_interval_seconds must be > 0"
  | .noTimeout => "reconcile.reconcile_timeout_seconds must be > 0"
  | .noRetryCap => "reconcile.retry_cap must be > 0"
  | .veryShortAboveShort veryShort short =>
    "reconcile.very_short_wait_seconds (" ++ toString veryShort
      ++ ") cannot exceed short_wait_seconds (" ++ toString short ++ ")"
  | .shortAbovePoll short poll =>
    "reconcile.short_wait_seconds (" ++ toString short
      ++ ") cannot exceed poll_interval_seconds (" ++ toString poll ++ ")"
  | .unknownLogLevel name =>
    "telemetry.log_level must be one of [\"trace\", \"debug\", \"info\", \"warn\", \"error\"], got: "
      ++ name
  | .emptyNamespace => "bootstrap.namespace must not be empty"
  | .emptyName kind => "bootstrap " ++ kind.label ++ " name must not be empty"
  | .badSeed kind name error => "bootstrap " ++ kind.label ++ " " ++ name ++ ": " ++ error.message

namespace Schedule

/-- Every count is positive and the delays do not shrink from rung to rung. -/
def check (s : Schedule) : Except ConfigFault Unit := do
  if s.concurrency = 0 then throw .noWorkers
  if s.pollSeconds = 0 then throw .noPollInterval
  if s.timeoutSeconds = 0 then throw .noTimeout
  if s.retryCap = 0 then throw .noRetryCap
  if s.shortSeconds < s.veryShortSeconds then
    throw (.veryShortAboveShort s.veryShortSeconds s.shortSeconds)
  if s.pollSeconds < s.shortSeconds then
    throw (.shortAbovePoll s.shortSeconds s.pollSeconds)

end Schedule

/-- The log levels there are. -/
def logLevels : List String := ["trace", "debug", "info", "warn", "error"]

/-- A check of one object that the store starts with. -/
def Seed.check {σ : Type} (kind : Kind) (inspect : σ → Except RegistryError Unit) (s : Seed σ) :
    Except ConfigFault Unit :=
  (inspect s.spec).mapError (.badSeed kind s.name ·)

/-- A network that can be read. -/
def checkNetwork (raw : String) : Except RegistryError Unit :=
  (Network.parse raw).map fun _ => ()

namespace Bootstrap

/-- Names are not empty, lengths exist in their families, and networks can be read. -/
def check (b : Bootstrap) : Except ConfigFault Unit := do
  if b.space = "" then throw .emptyNamespace
  match b.names.find? fun e => e.2 == "" with
  | some (kind, _) => throw (.emptyName kind)
  | none => pure ()
  b.scopes.forM (Seed.check .scope ScopeSpec.validate)
  b.pools.forM (Seed.check .pool fun spec => checkNetwork spec.network)
  b.claims.forM (Seed.check .claim fun spec =>
    match spec.network with
    | some raw => checkNetwork raw
    | none => .ok ())

end Bootstrap

namespace Config

/-- Check a configuration: schedule, log level, objects. -/
def check (c : Config) : Except ConfigFault Unit := do
  c.schedule.check
  if !logLevels.contains c.logLevel then throw (.unknownLogLevel c.logLevel)
  c.bootstrap.check

/-- A configuration that passes its check. -/
def checked (c : Config) : Except ConfigFault Config := do
  c.check
  return c

end Config

end AddressRegistry
