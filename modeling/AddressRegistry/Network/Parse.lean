import AddressRegistry.Error
import AddressRegistry.Network.Syntax
import AddressRegistry.Text.Blank

/-!
# Networks from specifications

Specifications write networks with blanks around them and bits beyond the length; both are dropped.
-/

namespace AddressRegistry

/-- The canonical network that a text names. -/
def Network.parse (raw : String) : Except RegistryError Network :=
  match Network.ofChars? (Text.trim raw.toList) with
  | some network => .ok network.truncate
  | none => .error (.invalidInput (.networkSyntax raw))

/-- The network that a text writes exactly, with all its bits. -/
def Network.parseExact (raw : String) : Except RegistryError Network :=
  match Network.ofText? raw with
  | some network => .ok network
  | none => .error (.invalidInput .addressSyntax)

/-- The family that a label names. -/
def Family.parse (name : String) : Except RegistryError Family :=
  match Family.ofLabel? name with
  | some family => .ok family
  | none => .error (.invalidInput (.unknownFamily name))

end AddressRegistry
