import AddressRegistry.Config.Document
import AddressRegistry.Toml.Reader

/-!
# Loading configurations

A configuration is loaded from text: the text is read as a document, the document as a configuration,
and the configuration is checked.
-/

namespace AddressRegistry

/-- Why a configuration cannot be loaded. -/
inductive LoadFault where
  /-- The text is no configuration. -/
  | malformed
  /-- The configuration does not pass its check. -/
  | rejected (fault : ConfigFault)
deriving DecidableEq

namespace Config

/-- Load a configuration from a document. -/
def load (leniency : Document.Leniency) (d : Document) : Except LoadFault Config :=
  match ofDocument? leniency d with
  | none => .error .malformed
  | some config => config.checked.mapError .rejected

/-- Load a configuration from a text. -/
def loadText (text : String) : Except LoadFault Config :=
  match Toml.read? text with
  | none => .error .malformed
  | some d => load .sections d

end Config

end AddressRegistry
