import AddressRegistry.Network.Printer
import AddressRegistry.Resource.Kind

/-!
# Errors

Every failure on the allocation path is a `RegistryError`: one of eight categories with its cause. The
category decides the reason written to an object's condition, how soon a failed pass is repeated
(`RegistryError.needsOperator`) and the status code of a gateway reply; the cause decides the wording,
which stands in `RegistryError.message` alone.

Each category also has a cause with free wording, for failures that a client or an object store
reports in its own words.
-/

namespace AddressRegistry

/-- Why an input is malformed. -/
inductive InputFault where
  | reported (text : String)
  | addressSyntax
  | networkSyntax (raw : String)
  | unknownFamily (name : String)
  | missingLabel (selector key : String)
  | cannotCarve (length : Nat) (parent : Network)
  | outsideFamily (offset : Nat)
  | emptySegment (kind : Kind) (name : String)
  | segmentCount (kind : Kind) (name : String) (least most : Nat)
  | placementGap (segment : String)
  | needsScope (kind : Kind)
  | needsResource (kind : Kind)
  | noParent (kind : Kind) (name : String) (parent : Kind)
  | lengthBeyond (length : Nat) (purpose : String) (family : Family)
deriving DecidableEq

/-- What an operation is waiting for. -/
inductive Obstacle where
  | reported (text : String)
  | scopeNotFound (scope : ObjectKey)
  | scopeNotReady (scope : ObjectKey)
  | indexMissing (scope : ObjectKey)
  | tenantNotFound (tenant : ObjectKey)
  | tenantTerminating (tenant : ObjectKey)
  | tenantNotReady (tenant : ObjectKey)
  | disabled
deriving DecidableEq

/-- What is missing, or present already. -/
inductive Subject where
  | reported (text : String)
  | route (network : Network)
  | object (id : ObjectId)
deriving DecidableEq

/-- What the configuration lacks. -/
inductive Gap where
  | reported (text : String)
  | noDefaultLength (scope : ObjectKey) (purpose : String) (family : Family)
deriving DecidableEq

/-- How the object store failed. -/
inductive StoreFault where
  | reported (text : String)
  | wrongKind (id : ObjectId)
deriving DecidableEq

/-- A failure on the allocation path. -/
inductive RegistryError where
  /-- Malformed network, missing selector keys or an invalid request. -/
  | invalidInput (fault : InputFault)
  /-- A parent is absent or not ready, or the scope has no index. -/
  | notReady (obstacle : Obstacle)
  /-- A route or object does not exist. -/
  | notFound (subject : Subject)
  /-- A route or object exists already. -/
  | conflict (subject : Subject)
  /-- No free block of the length is left in the parent. -/
  | exhausted (parent : String) (length : Nat)
  /-- The scope has no default length for a purpose and family. -/
  | missingConfiguration (gap : Gap)
  /-- No declared pool matches a selector. -/
  | noAvailableRoute (selector : String)
  /-- The object store rejected or failed an operation. -/
  | store (fault : StoreFault)
deriving DecidableEq

/-! ## Wording -/

/-- The words for a malformed input. -/
def InputFault.words : InputFault → String
  | .reported text => text
  | .addressSyntax => "invalid IP address syntax"
  | .networkSyntax raw => "invalid prefix '" ++ raw ++ "': invalid IP address syntax"
  | .unknownFamily name => "unknown address family '" ++ name ++ "'"
  | .missingLabel selector key => "selector " ++ selector ++ " has no " ++ key ++ " key"
  | .cannotCarve length parent =>
    "cannot carve a /" ++ toString length ++ " out of " ++ parent.text
  | .outsideFamily offset => "offset " ++ toString offset ++ " outside ipv4 space"
  | .emptySegment kind name => kind.label ++ " name '" ++ name ++ "' has an empty segment"
  | .segmentCount kind name least most =>
    kind.label ++ " name '" ++ name ++ "' must have between " ++ toString least ++ " and "
      ++ toString most ++ " segments"
  | .placementGap segment => "placement segment '" ++ segment ++ "' without its predecessors"
  | .needsScope kind => kind.label ++ " name needs a scope"
  | .needsResource kind => kind.label ++ " name needs a resource segment"
  | .noParent kind name parent => kind.label ++ " " ++ name ++ " has no " ++ parent.label
  | .lengthBeyond length purpose family =>
    "default prefix length " ++ toString length ++ " for " ++ purpose ++ "/" ++ family.label
      ++ " exceeds " ++ toString family.width

/-- The words for what an operation is waiting for. -/
def Obstacle.words : Obstacle → String
  | .reported text => text
  | .scopeNotFound scope => "scope " ++ scope.text ++ " not found"
  | .scopeNotReady scope => "scope " ++ scope.text ++ " is not ready"
  | .indexMissing scope => "scope " ++ scope.text ++ " index not initialized"
  | .tenantNotFound tenant => "tenant " ++ tenant.text ++ " not found"
  | .tenantTerminating tenant => "tenant " ++ tenant.text ++ " is terminating"
  | .tenantNotReady tenant => "tenant " ++ tenant.text ++ " is not ready"
  | .disabled => "admin disable"

/-- The words for something that is missing or present. -/
def Subject.words : Subject → String
  | .reported text => text
  | .route network => "route " ++ network.text
  | .object id => id.text

/-- The words for what the configuration lacks. -/
def Gap.words : Gap → String
  | .reported text => text
  | .noDefaultLength scope purpose family =>
    "scope " ++ scope.text ++ " has no default prefix length for " ++ purpose ++ "/" ++ family.label

/-- The words for a failure of the object store. -/
def StoreFault.words : StoreFault → String
  | .reported text => text
  | .wrongKind id => id.text ++ " has the wrong kind"

namespace RegistryError

/-- The message of an error. -/
def message : RegistryError → String
  | invalidInput fault => "invalid input: " ++ fault.words
  | notReady obstacle => "not ready: " ++ obstacle.words
  | notFound subject => "not found: " ++ subject.words
  | conflict subject => "conflict: " ++ subject.words ++ " already exists"
  | exhausted parent length =>
    "address space exhausted: no free /" ++ toString length ++ " left in " ++ parent
  | missingConfiguration gap => "missing configuration: " ++ gap.words
  | noAvailableRoute selector => "no available routes for selector " ++ selector
  | store fault => "store error: " ++ fault.words

/-- The stable reason that conditions and gateway messages carry. -/
def reason : RegistryError → String
  | invalidInput _ => "InvalidInput"
  | notReady _ => "NotReady"
  | notFound _ => "NotFound"
  | conflict _ => "Conflict"
  | exhausted _ _ => "AddressSpaceExhausted"
  | missingConfiguration _ => "MissingConfiguration"
  | noAvailableRoute _ => "NoAvailableRoute"
  | store _ => "StoreError"

/-! ## Categories -/

/-- Whether something exists already. -/
def isConflict : RegistryError → Bool
  | conflict _ => true
  | _ => false

/-- Whether something does not exist. -/
def isNotFound : RegistryError → Bool
  | notFound _ => true
  | _ => false

/-- Whether the operation has to wait. -/
def isNotReady : RegistryError → Bool
  | notReady _ => true
  | _ => false

/-- Whether no block was left. -/
def isExhausted : RegistryError → Bool
  | exhausted _ _ => true
  | _ => false

/-- Whether the error clears up once dependencies catch up. -/
def isTransient : RegistryError → Bool
  | notReady _ | noAvailableRoute _ | store _ => true
  | _ => false

/-- Whether only a corrected specification clears the error. Such failures are repeated at the poll
interval. -/
def needsOperator : RegistryError → Bool
  | exhausted _ _ | missingConfiguration _ => true
  | _ => false

end RegistryError

/-- An insertion that finds its route present has nothing left to do. -/
def tolerateConflict {α : Type} (unchanged : α) :
    Except RegistryError α → Except RegistryError α
  | .error e => if e.isConflict then .ok unchanged else .error e
  | .ok a => .ok a

/-- A removal that finds its route absent has nothing left to do. -/
def tolerateNotFound {α : Type} (unchanged : α) :
    Except RegistryError α → Except RegistryError α
  | .error e => if e.isNotFound then .ok unchanged else .error e
  | .ok a => .ok a

end AddressRegistry
