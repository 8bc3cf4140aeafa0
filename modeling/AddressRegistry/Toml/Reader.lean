import AddressRegistry.Toml.Moment
import AddressRegistry.Toml.Table

/-!
# Reading TOML

A text is a list of lines: keys with values, headers of tables and headers of table lists. The result
is a record, or nothing when the text breaks a rule of the format. Values and keys are nested less than
eighty deep.
-/

namespace AddressRegistry.Toml

open Text

/-- Nesting has to stay below this depth. -/
def depthLimit : Nat := 80

/-! ## Keys -/

/-- A character of a key without quotes. -/
def isBare (c : Char) : Bool :=
  ('a' ≤ c && c ≤ 'z') || ('A' ≤ c && c ≤ 'Z') || ('0' ≤ c && c ≤ '9') || c == '-' || c == '_'

/-- One key, with quotes or without. -/
def simpleKey? (cs : List Char) : Option (String × List Char) :=
  match quotedLine? cs with
  | some (text, rest) => some (String.ofList text, rest)
  | none =>
    match cs.takeWhile isBare with
    | [] => none
    | text => some (String.ofList text, cs.drop text.length)

/-- Keys with dots between, blanks around each of them. -/
def keys? : (most : Nat) → Scan (List String)
  | 0, _ => none
  | most + 1, cs => do
    let (key, rest) ← simpleKey? (skipBlanks cs)
    match skipBlanks rest with
    | '.' :: rest =>
      let (more, rest) ← keys? most rest
      return (key :: more, rest)
    | rest => return ([key], rest)

/-- A key with dots: the way to a table and the key in it. -/
def key? : Scan (List String × String) := fun cs => do
  let (path, rest) ← keys? cs.length cs
  match path.reverse with
  | [] => none
  | last :: way => if path.length < depthLimit then some ((way.reverse, last), rest) else none

/-! ## Values -/

/-- The field that the record of a moment has. -/
def momentKey : String := "$__toml_private_datetime"

/-- A number or a moment. -/
def numeric? : Scan Document := fun cs =>
  match moment? cs with
  | some (text, rest) => some (.record [(momentKey, .text text)], rest)
  | none =>
    match (fractional? cs).or (namedNumber? cs) with
    | some (text, rest) => some (.real text, rest)
    | none => (integer? cs).map fun (v, rest) => (.int v, rest)

/-- A value that is no list and no inline table. -/
def scalar? : Scan Document
  | 't' :: 'r' :: 'u' :: 'e' :: rest => some (.bool true, rest)
  | 'f' :: 'a' :: 'l' :: 's' :: 'e' :: rest => some (.bool false, rest)
  | c :: rest =>
    if c = '"' ∨ c = '\'' then
      (quoted? (c :: rest)).map fun (text, left) => (.text (String.ofList text), left)
    else
      numeric? (c :: rest)
  | [] => none

/-- The values of a list up to its bracket; a comma may follow the last one. -/
def listBody (value : Scan Document) : (most : Nat) → Scan (List Document)
  | 0, _ => none
  | most + 1, cs => do
    match ← skipGap cs with
    | ']' :: rest => return ([], rest)
    | cs =>
      let (item, rest) ← value cs
      match ← skipGap rest with
      | ',' :: rest =>
        let (items, rest) ← listBody value most rest
        return (item :: items, rest)
      | ']' :: rest => return ([item], rest)
      | _ => none

/-- A key and its value. -/
def pair? (value : Scan Document) : Scan ((List String × String) × Document) := fun cs => do
  let (key, rest) ← key? cs
  let (v, rest) ← value (skipBlanks (← mark? '=' rest))
  return ((key, v), rest)

/-- The pairs of an inline table up to its brace, behind those read before. -/
def inlineBody (value : Scan Document) : (most : Nat) → Fields → Scan Fields
  | 0, _, _ => none
  | most + 1, fields, cs => do
    let (((way, key), v), rest) ← pair? value cs
    let fields ← fields.define way key v false
    match skipBlanks rest with
    | ',' :: rest => inlineBody value most fields rest
    | '\x7d' :: rest => return (fields, rest)
    | _ => none

/-- A value nested at most so deep. -/
def value? : (depth : Nat) → Scan Document
  | 0, '[' :: _ => none
  | 0, '\x7b' :: _ => none
  | depth + 1, '[' :: rest => (listBody (value? depth) rest.length rest).map fun (items, rest) =>
      (.list items, rest)
  | depth + 1, '\x7b' :: rest =>
    match skipBlanks rest with
    | '\x7d' :: rest => some (.record [], rest)
    | rest => (inlineBody (value? depth) rest.length [] rest).map fun (fields, rest) =>
        (.record (Fields.toRecord fields), rest)
  | _, cs => scalar? cs

/-! ## Lines -/

/-- What was read so far: the tables, and the way to the one that the last header opened. -/
structure Draft where
  root : Fields
  current : List String

namespace Draft

/-- Define a key of the current table. -/
def define (d : Draft) (way : List String) (key : String) (v : Document) : Option Draft :=
  (Fields.descend false (fun isDotted fields => fields.define way key v isDotted) d.current false
    d.root).map fun root => { d with root }

/-- Open the table that a header names. -/
def enter (d : Draft) (isElement : Bool) (way : List String) (key : String) : Option Draft :=
  (Fields.descend false
    (fun _ fields => if isElement then fields.openElement key else fields.openTable key) way false
    d.root).map fun root => ⟨root, way ++ [key]⟩

end Draft

/-- A header, between one pair of brackets or two. -/
def header? (d : Draft) : Scan Draft
  | '[' :: '[' :: rest => do
    let ((way, key), rest) ← key? rest
    let rest ← mark? ']' (← mark? ']' rest)
    return (← d.enter true way key, rest)
  | '[' :: rest => do
    let ((way, key), rest) ← key? rest
    let rest ← mark? ']' rest
    return (← d.enter false way key, rest)
  | _ => none

/-- One line, up to its end: blank, a comment, a header or a key with its value. -/
def line? (d : Draft) (cs : List Char) : Option (Draft × List Char) :=
  match lineEnd? cs with
  | some rest => some (d, rest)
  | none => do
    match skipBlanks cs with
    | '[' :: rest =>
      let (d, rest) ← header? d ('[' :: rest)
      return (d, ← lineEnd? rest)
    | cs =>
      let (((way, key), v), rest) ← pair? (value? (depthLimit - 1)) cs
      return (← d.define way key v, ← lineEnd? rest)

/-- All lines. -/
def lines? (d : Draft) : (most : Nat) → List Char → Option Draft
  | _, [] => some d
  | 0, _ :: _ => none
  | most + 1, cs => do
    let (d, rest) ← line? d cs
    lines? d most rest

/-- The record that a text writes. A byte order mark may stand in front. -/
def read? (text : String) : Option Document :=
  let cs := match text.toList with
    | '\ufeff' :: rest => rest
    | cs => cs
  (lines? ⟨[], []⟩ (cs.length + 1) cs).map fun d => .record (Fields.toRecord d.root)

end AddressRegistry.Toml
