/-!
# Kinds and keys of objects

The registry manages four kinds of objects. An object is known by its kind and its key, a name inside
a namespace.
-/

namespace AddressRegistry

/-- The four kinds of objects, parents first. -/
inductive Kind where
  | tenant
  | scope
  | pool
  | claim
deriving DecidableEq, Repr, Inhabited

namespace Kind

/-- Every kind, parents first. -/
def all : List Kind := [.tenant, .scope, .pool, .claim]

/-- The name of a kind in names, documents and messages. -/
def label : Kind → String
  | .tenant => "tenant"
  | .scope => "scope"
  | .pool => "pool"
  | .claim => "claim"

/-- The place of a kind among all kinds. -/
def rank : Kind → Nat
  | .tenant => 0
  | .scope => 1
  | .pool => 2
  | .claim => 3

instance : Ord Kind := ⟨compareOn rank⟩

instance : Std.TransOrd Kind := inferInstanceAs (Std.TransCmp (compareOn rank))

instance : Std.LawfulEqOrd Kind where
  eq_of_compare {a b} h := by cases a <;> cases b <;> first | rfl | exact absurd h (by decide)

/-- The kind with a given name; names are exact. -/
def ofLabel? (text : String) : Option Kind :=
  all.find? fun k => k.label == text

end Kind

/-- The name of an object inside a namespace. -/
structure ObjectKey where
  space : String
  name : String
deriving DecidableEq, Inhabited

namespace ObjectKey

/-- Namespace and name with a slash between. -/
def text (k : ObjectKey) : String := k.space ++ "/" ++ k.name

/-- Compare by namespace, then name. -/
def compareByPath : ObjectKey → ObjectKey → Ordering :=
  compareLex (compareOn space) (compareOn name)

instance : Ord ObjectKey := ⟨compareByPath⟩

instance : Std.TransOrd ObjectKey := inferInstanceAs (Std.TransCmp (compareLex _ _))

instance : Std.LawfulEqOrd ObjectKey where
  eq_of_compare {a b} h := by
    have h : compareByPath a b = .eq := h
    simp only [compareByPath, compareLex_eq_eq, compareOn] at h
    cases a
    cases b
    simp_all

end ObjectKey

/-- The name under which retries of an object are counted. -/
def Kind.retryName (kind : Kind) (key : ObjectKey) : String :=
  kind.label ++ "/" ++ key.text

/-- An object is known by its kind and key. -/
structure ObjectId where
  kind : Kind
  key : ObjectKey
deriving DecidableEq, Inhabited

namespace ObjectId

/-- Kind and key, as messages show an object. -/
def text (i : ObjectId) : String := i.kind.label ++ " " ++ i.key.text

/-- Compare by kind, then key. -/
def compareByKind : ObjectId → ObjectId → Ordering :=
  compareLex (compareOn kind) (compareOn key)

instance : Ord ObjectId := ⟨compareByKind⟩

instance : Std.TransOrd ObjectId := inferInstanceAs (Std.TransCmp (compareLex _ _))

instance : Std.LawfulEqOrd ObjectId where
  eq_of_compare {a b} h := by
    have h : compareByKind a b = .eq := h
    simp only [compareByKind, compareLex_eq_eq, compareOn] at h
    cases a
    cases b
    simp_all

end ObjectId

end AddressRegistry
