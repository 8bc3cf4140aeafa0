import AddressRegistry.Command.Basic

/-!
# The command line

`start` runs a registry until it is interrupted; `config validate` and `config show` work on a
configuration file.
-/

namespace AddressRegistry

/-- The configuration file that is used when none is named. -/
def standardPath : String := "config/ipam-registry.toml"

/-- The value behind an option. -/
def optionValue? (name : String) : List String → Option String
  | flag :: value :: rest => if flag = name then some value else optionValue? name (value :: rest)
  | _ => none

/-- The settings of the command line. -/
def overridesOfArgs (args : List String) : Overrides where
  logLevel := optionValue? "--log-level" args
  concurrency := (optionValue? "--concurrency" args).bind String.toNat?
  pollSeconds := (optionValue? "--poll-interval-seconds" args).bind String.toNat?

/-- Read a configuration file, if it can be read. -/
def readConfigFile (path : String) : IO ConfigFile := do
  try
    let text ← IO.FS.readFile path
    return ⟨path, some text⟩
  catch _ =>
    return ⟨path, none⟩

/-- Print what a command answers; the result is the exit code. -/
def report (answer : Except CommandFault String) : IO UInt32 := do
  match answer with
  | .ok text =>
    (← IO.getStdout).putStr text
    return 0
  | .error fault =>
    (← IO.getStderr).putStrLn ("Error: " ++ fault.message)
    return 1

/-- Keep a service at work, a second at a time. -/
partial def serve (service : Service) : IO Unit := do
  IO.sleep 1000
  serve (service.advance 1000)

/-- Start a registry. -/
def runStart (args : List String) : IO UInt32 := do
  let file ← match optionValue? "--config" args with
    | some path => some <$> readConfigFile path
    | none => pure none
  match Command.start file (overridesOfArgs args) with
  | .error fault => report (.error fault)
  | .ok service =>
    serve service.start
    return 0

/-- Run a command. -/
def runCommand (args : List String) : IO UInt32 := do
  let path := (optionValue? "--config" args).getD standardPath
  if args.contains "start" then
    runStart args
  else if args.contains "validate" then
    report (Command.validate (← readConfigFile path))
  else if args.contains "show" then
    let format := (optionValue? "--format" args).getD "toml"
    report (Command.display (← readConfigFile path) format)
  else
    (← IO.getStderr).putStrLn "usage: start | config validate | config show"
    return 2

end AddressRegistry

/-- The program. -/
def main (args : List String) : IO UInt32 := AddressRegistry.runCommand args
