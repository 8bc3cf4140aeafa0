/-!
# Life cycle phases

An object waits for its parent, is set up, is ready, and falls back when its parent is lost or its
local effect fails. From any of these it can be terminated, and a terminated object is removed.
-/

namespace AddressRegistry

/-- The phase recorded on an object's status. -/
inductive Phase where
  /-- The parent is missing or not ready. -/
  | pending
  /-- The parent is ready, the local effect is not applied. -/
  | initializing
  /-- The local effect is applied. -/
  | ready
  /-- Deletion was requested and cleanup has to run. -/
  | terminating
  /-- Cleanup is done and the object is gone. -/
  | removed
deriving DecidableEq, Repr, Inhabited

namespace Phase

/-- Every phase. -/
def all : List Phase := [.pending, .initializing, .ready, .terminating, .removed]

/-- The name of a phase. -/
def label : Phase → String
  | .pending => "pending"
  | .initializing => "initializing"
  | .ready => "ready"
  | .terminating => "terminating"
  | .removed => "removed"

/-- The phase with a given name; names are exact. -/
def ofLabel? (text : String) : Option Phase :=
  all.find? fun p => p.label == text

/-- Whether deletion has not been requested yet. -/
def isLive : Phase → Bool
  | .pending | .initializing | .ready => true
  | .terminating | .removed => false

/-- Whether one phase may follow another; staying is always allowed. -/
def canFollow : (earlier later : Phase) → Bool
  | .pending, .initializing => true
  | .pending, .ready => true
  | .initializing, .ready => true
  | .initializing, .pending => true
  | .ready, .pending => true
  | .ready, .initializing => true
  | .terminating, .removed => true
  | earlier, .terminating => earlier.isLive || earlier == .terminating
  | earlier, later => earlier == later

end Phase

end AddressRegistry
