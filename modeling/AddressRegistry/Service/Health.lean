/-!
# Health of a registry

The three components of a registry, its object store, its controller and its gateway, each have a
health. Together they decide whether the registry can serve requests and whether it is alive.
-/

namespace AddressRegistry

/-- The health of a component. -/
inductive ComponentHealth where
  | starting
  | healthy
  /-- Impaired, but at work. -/
  | degraded
  | failed
  | stopping
  | stopped
deriving DecidableEq, Repr

namespace ComponentHealth

/-- Every health. -/
def all : List ComponentHealth := [.starting, .healthy, .degraded, .failed, .stopping, .stopped]

/-- The name of a health. -/
def label : ComponentHealth → String
  | .starting => "Starting"
  | .healthy => "Healthy"
  | .degraded => "Degraded"
  | .failed => "Failed"
  | .stopping => "Stopping"
  | .stopped => "Stopped"

/-- The health with a given name; names are exact. -/
def ofLabel? (text : String) : Option ComponentHealth :=
  all.find? fun h => h.label == text

end ComponentHealth

/-- The health of all components. -/
structure Health where
  store : ComponentHealth
  controller : ComponentHealth
  gateway : ComponentHealth
deriving DecidableEq

namespace Health

/-- Before the start. -/
def initial : Health := ⟨.starting, .starting, .starting⟩

/-- After the start. -/
def started : Health := ⟨.healthy, .healthy, .healthy⟩

/-- After the stop. -/
def stopped : Health := ⟨.stopped, .stopped, .stopped⟩

/-- Whether requests can be served: store and controller are healthy, and the gateway is at work. -/
def isReady (h : Health) : Bool :=
  h.store == .healthy && h.controller == .healthy
    && (h.gateway == .healthy || h.gateway == .degraded)

/-- Whether neither store nor controller has failed. -/
def isAlive (h : Health) : Bool :=
  h.store != .failed && h.controller != .failed

end Health

end AddressRegistry
