import AddressRegistry.Error

/-!
# Status of a gateway reply

A failed request is answered with a status code and a message. The code follows from the category of
the error.
-/

namespace AddressRegistry

/-- The status codes of failed requests. -/
inductive StatusCode where
  | invalidArgument
  | notFound
  | alreadyExists
  | resourceExhausted
  | failedPrecondition
  | internal
  | unavailable
deriving DecidableEq, Repr

namespace StatusCode

/-- The name of a code. -/
def label : StatusCode → String
  | .invalidArgument => "InvalidArgument"
  | .notFound => "NotFound"
  | .alreadyExists => "AlreadyExists"
  | .resourceExhausted => "ResourceExhausted"
  | .failedPrecondition => "FailedPrecondition"
  | .internal => "Internal"
  | .unavailable => "Unavailable"

/-- The number of a code. -/
def number : StatusCode → Nat
  | .invalidArgument => 3
  | .notFound => 5
  | .alreadyExists => 6
  | .resourceExhausted => 8
  | .failedPrecondition => 9
  | .internal => 13
  | .unavailable => 14

end StatusCode

/-- The code of an error's category. -/
def RegistryError.code : RegistryError → StatusCode
  | .invalidInput _ => .invalidArgument
  | .notReady _ => .unavailable
  | .notFound _ => .notFound
  | .conflict _ => .alreadyExists
  | .exhausted _ _ => .resourceExhausted
  | .missingConfiguration _ => .failedPrecondition
  | .noAvailableRoute _ => .failedPrecondition
  | .store _ => .internal

/-- The status of a failed request. -/
structure GatewayStatus where
  code : StatusCode
  message : String
deriving DecidableEq

/-- The status that reports an error. -/
def GatewayStatus.ofError (e : RegistryError) : GatewayStatus :=
  ⟨e.code, "ipam: " ++ e.reason ++ ": " ++ e.message⟩

/-- Code and message on one line. -/
def GatewayStatus.text (s : GatewayStatus) : String := s.code.label ++ ": " ++ s.message

end AddressRegistry
