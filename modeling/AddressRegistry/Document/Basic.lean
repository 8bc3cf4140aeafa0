import AddressRegistry.Route.Label

/-!
# Documents

A document is structured data as the configuration and object formats share it: scalars, lists and
records. Reading a value from a document is strict about types and lenient about records: unknown
fields are ignored, and a record may also be written as the list of its leading fields in their order.
-/

namespace AddressRegistry

/-- Structured data. Whole numbers and other numbers are told apart as they are written; of the latter
only the text is kept. -/
inductive Document where
  | null
  | bool (value : Bool)
  | int (value : Int)
  | real (text : String)
  | text (value : String)
  | list (items : List Document)
  | record (fields : List (String × Document))
deriving Inhabited

namespace Document

/-- A reader of values of a type. -/
abbrev Reader (α : Type) := Document → Option α

/-- What a reader lets pass beside the plain form of a value. -/
structure Leniency where
  /-- A record written as a list may have more items than fields; the surplus is ignored. -/
  surplusItems : Bool
  /-- A named value may be a record that holds the name with an empty record. -/
  emptyPayload : Bool
deriving DecidableEq

/-- Nothing beside the plain form. -/
def Leniency.plain : Leniency := ⟨false, false⟩

/-- For what stands inside objects, in the store or to start with. -/
def Leniency.inner : Leniency := ⟨false, true⟩

/-- For the sections of a configuration text. -/
def Leniency.sections : Leniency := ⟨true, false⟩

/-- The value of a named field. -/
def lookup (name : String) (fields : List (String × Document)) : Option Document :=
  (fields.find? fun f => f.1 == name).map (·.2)

/-! ## Scalars -/

/-- A text. -/
def asText : Reader String
  | text s => some s
  | _ => none

/-- A truth value. -/
def asBool : Reader Bool
  | bool b => some b
  | _ => none

/-- A whole number that is not negative and below a bound. -/
def asNatBelow (bound : Nat) : Reader Nat
  | int v => if 0 ≤ v ∧ v.toNat < bound then some v.toNat else none
  | _ => none

/-- A number of 8 bits. -/
def asByte : Reader Nat := asNatBelow 256

/-- A number of 32 bits. -/
def asWord : Reader Nat := asNatBelow 4294967296

/-- A number of 64 bits. -/
def asCount : Reader Nat := asNatBelow 18446744073709551616

/-- One of several named values: its name, or a record that holds the name with nothing. -/
def asChoice {α : Type} (leniency : Leniency) (ofLabel? : String → Option α) : Reader α
  | text s => ofLabel? s
  | record [(s, null)] => ofLabel? s
  | record [(s, record [])] => if leniency.emptyPayload then ofLabel? s else none
  | _ => none

/-- A value that may be absent. -/
def asOptional {α : Type} (read : Reader α) : Reader (Option α)
  | null => some none
  | d => (read d).map some

/-! ## Lists and records -/

/-- A list of values. -/
def asList {α : Type} (read : Reader α) : Reader (List α)
  | list items => items.mapM read
  | _ => none

/-- An entry of a map, from a field. -/
def readEntry {κ ν : Type} (readKey : String → Option κ) (read : Reader ν)
    (field : String × Document) : Option (κ × ν) := do
  return (← readKey field.1, ← read field.2)

/-- A map from names to values. -/
def asMap {κ ν : Type} [Ord κ] [Std.TransOrd κ] (readKey : String → Option κ) (read : Reader ν) :
    Reader (SortedMap κ ν)
  | record fields => (fields.mapM (readEntry readKey read)).map SortedMap.ofList
  | _ => none

/-- A set of labels. -/
def asLabels : Reader Labels := asMap some asText

/-- The fields of a record, which may be written as a list of the leading ones. -/
def fieldsOf (leniency : Leniency) (names : List String) : Reader (List (String × Document))
  | record fields => some fields
  | list items =>
    if items.length ≤ names.length || leniency.surplusItems then some (names.zip items) else none
  | _ => none

/-- The fields of a record that has to be written as one. -/
def recordFields : Reader (List (String × Document))
  | record fields => some fields
  | _ => none

/-- A field that must be present. -/
def required {α : Type} (name : String) (read : Reader α) (fields : List (String × Document)) :
    Option α :=
  (lookup name fields).bind read

/-- A field with a value for when it is absent. -/
def defaulted {α : Type} (name : String) (read : Reader α) (absent : α)
    (fields : List (String × Document)) : Option α :=
  match lookup name fields with
  | some d => read d
  | none => some absent

/-! ## Writing -/

/-- The number `n`. -/
def ofNat (n : Nat) : Document := int n

/-- A text or nothing. -/
def ofOptionalText : Option String → Document
  | some s => text s
  | none => null

/-- A list of texts. -/
def ofTexts (texts : List String) : Document := list (texts.map text)

/-- A set of labels. -/
def ofLabels (labels : Labels) : Document :=
  record (labels.entries.map fun e => (e.1, text e.2))

end Document

end AddressRegistry
