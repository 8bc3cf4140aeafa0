import AddressRegistry.Document.Basic

/-!
# Tables under construction

The lines of a TOML text define tables piece by piece: by headers, by headers of table lists, by dotted
keys and by whole values. A table may be completed later only in certain ways, so while a text is read
each table remembers how it came about.

A table that only stands on the way to another one is implicit until a header of its own defines it. A
table made by dotted keys may grow by dotted keys only. Values, inline tables among them, are complete.
-/

namespace AddressRegistry.Toml

/-- What stands under a key. -/
inductive Item where
  /-- A complete value. -/
  | value (value : Document)
  /-- A table; `implied` until a header defines it, `dotted` when dotted keys made it. -/
  | table (implied dotted : Bool) (fields : List (String × Item))
  /-- A list of tables, each of which a header started. -/
  | tables (elements : List (List (String × Item)))

/-- The entries of a table, in the order of their definition. -/
abbrev Fields := List (String × Item)

namespace Fields

/-- The entry of a key. -/
def get? (key : String) (fields : Fields) : Option Item :=
  (fields.find? fun f => f.1 == key).map (·.2)

/-- Put an entry in the place of the one with the same key, or at the end. -/
def put (key : String) (item : Item) : Fields → Fields
  | [] => [(key, item)]
  | f :: rest => if f.1 = key then (key, item) :: rest else f :: put key item rest

/-- Change the entry of a key, present or not, unless the change is refused. -/
def alter (key : String) (change : Option Item → Option Item) (fields : Fields) : Option Fields :=
  (change (fields.get? key)).map fun item => fields.put key item

/-- Change the last one of several tables. -/
def alterLast (change : Fields → Option Fields) : List Fields → Option (List Fields)
  | [] => none
  | [last] => (change last).map fun changed => [changed]
  | first :: rest => (alterLast change rest).map fun changed => first :: changed

/-- Change the table at the end of a path, making the tables on the way. A list of tables stands for
its last one. With `dotted`, the way is one of dotted keys: it makes tables of its own sort and enters
no table that a header defined. The change is told whether dotted keys made the table. -/
def descend (dotted : Bool) (change : Bool → Fields → Option Fields) :
    (path : List String) → (isDotted : Bool) → Fields → Option Fields
  | [], isDotted, fields => change isDotted fields
  | key :: rest, _, fields =>
    fields.alter key fun
      | none => (descend dotted change rest dotted []).map (Item.table true dotted)
      | some (.value _) => none
      | some (.table implied isDotted inner) =>
        if dotted && !implied then none
        else (descend dotted change rest isDotted inner).map (Item.table implied isDotted)
      | some (.tables elements) =>
        (alterLast (descend dotted change rest false) elements).map Item.tables

/-- Define a key once. A table made by dotted keys takes keys with dots only, and only such a table
does. -/
def define (path : List String) (key : String) (value : Document) (isDotted : Bool) (fields : Fields) :
    Option Fields :=
  fields |> descend true
    (fun inDotted inner =>
      if inDotted == path.isEmpty then none
      else
        match inner.get? key with
        | some _ => none
        | none => some (inner ++ [(key, .value value)]))
    path isDotted

/-- Define the table that a header names: a new one, or one that is only implied. -/
def openTable (key : String) (fields : Fields) : Option Fields :=
  fields.alter key fun
    | none => some (.table false false [])
    | some (.table true false inner) => some (.table false false inner)
    | some _ => none

/-- Start the next table of a list that a header names. -/
def openElement (key : String) (fields : Fields) : Option Fields :=
  fields.alter key fun
    | none => some (.tables [[]])
    | some (.tables elements) => some (.tables (elements ++ [[]]))
    | some _ => none

end Fields

mutual

/-- The document of an entry. -/
def Item.toDocument : Item → Document
  | .value d => d
  | .table _ _ fields => .record (Fields.toRecord fields)
  | .tables elements => .list (Fields.toRecords elements)

/-- The fields of a table's document. -/
def Fields.toRecord : List (String × Item) → List (String × Document)
  | [] => []
  | (key, item) :: rest => (key, item.toDocument) :: Fields.toRecord rest

/-- The documents of several tables. -/
def Fields.toRecords : List (List (String × Item)) → List Document
  | [] => []
  | fields :: rest => .record (Fields.toRecord fields) :: Fields.toRecords rest

end

end AddressRegistry.Toml
