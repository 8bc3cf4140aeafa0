import AddressRegistry.Config.Loading
import AddressRegistry.Json.Printer
import AddressRegistry.Service.Basic
import AddressRegistry.Toml.Printer

/-!
# Commands

The command line can check a configuration file, show what a file amounts to with all defaults filled
in, and start a registry. A command answers the text it prints, or why it failed.
-/

namespace AddressRegistry

/-- A configuration file: its path, and its text if it can be read. -/
structure ConfigFile where
  path : String
  text : Option String

/-- A path in quotes. -/
def quotePath (path : String) : String :=
  "\"" ++ String.ofList (path.toList.flatMap fun c =>
    if c = '"' ∨ c = '\\' then ['\\', c] else [c]) ++ "\""

/-- Why a command failed. -/
inductive CommandFault where
  | noFile (path : String)
  | unreadable (path : String)
  | malformed
  | rejected (fault : ConfigFault)
  /-- A fault of the file that a registry was to start with. -/
  | startFile (path : String) (fault : CommandFault)
  | invalid (fault : ConfigFault)
  | unknownFormat (name : String)

/-- The message of a failed command. -/
def CommandFault.message : CommandFault → String
  | .noFile path => "Config file not found: " ++ quotePath path
  | .unreadable path => "failed to read config file: " ++ path
  | .malformed => "failed to parse config file"
  | .rejected fault => fault.message
  | .startFile path fault =>
    "failed to load config from " ++ quotePath path ++ ": " ++ fault.message
  | .invalid fault => "invalid configuration: " ++ fault.message
  | .unknownFormat name => "unknown format: " ++ name ++ " (expected toml or json)"

/-- Load a configuration file. -/
def ConfigFile.load (file : ConfigFile) : Except CommandFault Config :=
  match file.text with
  | none => .error (.unreadable file.path)
  | some text =>
    match Config.loadText text with
    | .ok config => .ok config
    | .error .malformed => .error .malformed
    | .error (.rejected fault) => .error (.rejected fault)

/-- Load a configuration file that has to exist. -/
def ConfigFile.loadExisting (file : ConfigFile) : Except CommandFault Config :=
  match file.text with
  | none => .error (.noFile file.path)
  | some _ => file.load

/-- The text of a configuration in a format. -/
def Config.render (config : Config) (format : String) : Except CommandFault String :=
  if format = "json" then .ok (Json.render config.toDocument)
  else if format = "toml" then .ok (Toml.render config.toDocument)
  else .error (.unknownFormat format)

namespace Command

/-- What a valid configuration amounts to. -/
def summary (b : Bootstrap) : String :=
  "✓ Configuration is valid\n  bootstrap namespace " ++ b.space ++ ": "
    ++ toString b.tenants.length ++ " tenants, " ++ toString b.scopes.length ++ " scopes, "
    ++ toString b.pools.length ++ " pools, " ++ toString b.claims.length ++ " claims\n"
    ++ (if b.isEmpty then
          "  ⚠ Warning: no bootstrap resources; the registry will start empty\n"
        else "")

/-- Check a configuration file. -/
def validate (file : ConfigFile) : Except CommandFault String :=
  file.loadExisting.map fun config => summary config.bootstrap

/-- Show a configuration file with its defaults. -/
def display (file : ConfigFile) (format : String) : Except CommandFault String := do
  let config ← file.loadExisting
  return (← config.render format) ++ "\n"

/-- The registry to start: with a file or without, and with the settings of the command line. -/
def start (file : Option ConfigFile) (overrides : Overrides) : Except CommandFault Service := do
  let config ←
    match file with
    | some file => file.load.mapError (.startFile file.path)
    | none => pure .standard
  (Service.new (config.override overrides)).mapError .invalid

end Command

end AddressRegistry
