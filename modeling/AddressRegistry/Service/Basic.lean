import AddressRegistry.Config.Seeding
import AddressRegistry.Service.Engine
import AddressRegistry.Service.Health

/-!
# The registry as a service

A service is started in the order store, controller, gateway, and stopped in the reverse one. Its
store is seeded at the start. Stopping it takes the gateway away at once and lets the controller finish
the work that is waiting.
-/

namespace AddressRegistry

/-- A registry with its configuration. -/
structure Service where
  config : Config
  engine : Engine
  /-- Whether the service was ever started. -/
  hasController : Bool
  gateway : Option Gateway
  health : Health
  isRunning : Bool

namespace Service

/-- A controller over a store, as a configuration wants it. -/
def newController (config : Config) (store : Store) : Controller :=
  .start ⟨store, []⟩ config.schedule.policy

/-- A service that was not started, of a configuration that passes its check. -/
def new (config : Config) : Except ConfigFault Service := do
  let config ← config.checked
  return ⟨config, .initial (newController config .empty), false, none, .initial, false⟩

/-- Seed the store and launch controller and gateway. -/
def start (s : Service) : Service :=
  let (_, store) := s.engine.store.seed s.config
  let controller := newController s.config store
  { s with
    engine := { s.engine with controller, stage := .launched, working := false }
    hasController := true
    gateway := some (.fresh true)
    health := .started
    isRunning := true }

/-- Request the shutdown. -/
def shutdown (s : Service) : Service :=
  { s with engine := { s.engine with signalled := true } }

/-- Stop gateway, controller and store. -/
def stop (s : Service) : Service :=
  let (_, engine) := s.engine.stop
  { s with engine, gateway := none, health := .stopped, isRunning := false }

/-- Start, wait for the requested shutdown, and stop. -/
def run (s : Service) : Service := s.start.stop

/-- Let time pass. -/
def advance (s : Service) (duration : Nat) : Service :=
  { s with engine := s.engine.advance duration }

/-- Take over the controller and the gateway after a request. -/
def answered {α : Type} (s : Service) : α × Controller × Gateway → α × Service
  | (answer, controller, g) =>
    (answer, { s with engine := { s.engine with controller }, gateway := some g })

/-- Hand out a network, if there is a gateway. -/
def request (s : Service) (q : ClaimRequest) (network : Option String) :
    Option (Option Controller.Reply × Service) :=
  s.gateway.map fun g => s.answered (s.engine.controller.request g q network)

/-- Take a network back, if there is a gateway. -/
def release (s : Service) (q : ClaimRequest) : Option (Option Controller.Reply × Service) :=
  s.gateway.map fun g => s.answered (s.engine.controller.release g q)

end Service

end AddressRegistry
