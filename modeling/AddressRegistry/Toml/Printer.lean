import AddressRegistry.Document.Basic
import AddressRegistry.Toml.Reader

/-!
# Documents as TOML text

The readable form: a table's values first, then its tables and table lists, each under a header of its
own and behind an empty line. Fields without a value are left out. A table that holds nothing but
tables has no header; an empty one has.
-/

namespace AddressRegistry.Toml

/-! ## Text and keys -/

/-- The length of the longest run of a character; `run` is the length of the run in front. -/
def longestRun (c : Char) : (run : Nat) → List Char → Nat
  | run, [] => run
  | run, x :: rest => if x = c then longestRun c (run + 1) rest else max run (longestRun c 0 rest)

/-- A control character other than tab and line feed. -/
def needsCode (c : Char) : Bool :=
  (c.toNat < 0x20 && c != '\t' && c != '\n') || c.toNat = 0x7F

/-- The escape of a character between double quotes. -/
def escapeCode (c : Char) : List Char :=
  if c = '\\' then ['\\', '\\']
  else if c = '\t' then ['\\', 't']
  else if c = '\n' then ['\\', 'n']
  else if c = '\r' then ['\\', 'r']
  else if c.toNat = 8 then ['\\', 'b']
  else if c.toNat = 12 then ['\\', 'f']
  else if c.toNat < 0x20 || c.toNat = 0x7F then
    ['\\', 'u', '0', '0', Nat.digitChar (c.toNat / 16),
      (Nat.digitChar (c.toNat % 16)).toUpper]
  else [c]

/-- A text between double quotes, with at most `most` double quotes in a row left as they are; line
feeds stay if the text may have several lines. -/
def escaped (long : Bool) (most : Nat) : (run : Nat) → List Char → List Char
  | _, [] => []
  | run, c :: rest =>
    if c = '"' then
      if run < most then '"' :: escaped long most (run + 1) rest
      else '\\' :: '"' :: escaped long most 0 rest
    else if long && c = '\n' then '\n' :: escaped long most 0 rest
    else escapeCode c ++ escaped long most 0 rest

/-- A text in one kind of quotes; a text of several lines starts on a line of its own. -/
def enclose (quotes : String) (long : Bool) (cs body : List Char) : String :=
  quotes ++ (if long && cs.contains '\n' then "\n" else "") ++ String.ofList body ++ quotes

/-- A text, in the first kind of quotes that does without escapes: double, single, three double, three
single. A text that no quotes spare escapes stands between double quotes. -/
def quote (s : String) : String :=
  let cs := s.toList
  let codes := cs.any needsCode
  let backslash := cs.contains '\\'
  let line := cs.contains '\n'
  let doubles := longestRun '"' 0 cs
  let singles := longestRun '\'' 0 cs
  if !codes && !backslash && doubles == 0 && !line then
    enclose "\"" false cs (escaped false 0 0 cs)
  else if !codes && singles == 0 && !line then
    enclose "'" false cs cs
  else if !codes && !backslash && doubles ≤ 2 then
    enclose "\"\"\"" true cs (escaped true 2 0 cs)
  else if !codes && singles ≤ 2 then
    enclose "'''" true cs cs
  else if line then
    enclose "\"\"\"" true cs (escaped true 2 0 cs)
  else
    enclose "\"" false cs (escaped false 0 0 cs)

/-- A key, without quotes if it can do without, in single quotes only to spare escapes. -/
def quoteKey (key : String) : String :=
  let cs := key.toList
  if !cs.isEmpty && cs.all isBare then key
  else if !cs.any (fun c => needsCode c || c == '\n') && longestRun '\'' 0 cs == 0
      && (cs.contains '\\' || cs.contains '"') then
    enclose "'" false cs cs
  else
    enclose "\"" false cs (escaped false 0 0 cs)

/-- The way to a table. -/
def pathText (path : List String) : String := String.intercalate "." (path.map quoteKey)

/-! ## Values -/

/-- The values of a list between brackets; several stand on a line each. -/
def listText : List String → String
  | [] => "[]"
  | [item] => "[" ++ item ++ "]"
  | items => "[" ++ String.join (items.map fun i => "\n    " ++ i ++ ",") ++ "\n]"

/-- The pairs of an inline table between braces. -/
def inlineText : List String → String
  | [] => "\x7b\x7d"
  | pairs => "\x7b " ++ String.intercalate ", " pairs ++ " \x7d"

mutual

/-- A value on the right of its key. -/
def valueText : Document → String
  | .null => ""
  | .bool b => if b then "true" else "false"
  | .int v => toString v
  | .real t => t
  | .text s => quote s
  | .list items => listText (valueTexts items)
  | .record fields => inlineText (pairTexts fields)

/-- The values of a list. -/
def valueTexts : List Document → List String
  | [] => []
  | d :: rest => valueText d :: valueTexts rest

/-- The pairs of an inline table. -/
def pairTexts : List (String × Document) → List String
  | [] => []
  | (_, .null) :: rest => pairTexts rest
  | (key, d) :: rest => (quoteKey key ++ " = " ++ valueText d) :: pairTexts rest

end

/-! ## Tables -/

/-- Whether a document is a record. -/
def isRecord : Document → Bool
  | .record _ => true
  | _ => false

/-- Whether a field is written as tables of its own: a record, or a list of records. -/
def isTabular : Document → Bool
  | .record _ => true
  | .list (d :: rest) => (d :: rest).all isRecord
  | _ => false

/-- Whether a field is written at all. -/
def isPresent : Document → Bool
  | .null => false
  | _ => true

/-- The lines of a table's values. -/
def valueLines (fields : List (String × Document)) : List String :=
  (fields.filter fun f => isPresent f.2 && !isTabular f.2).map fun f =>
    quoteKey f.1 ++ " = " ++ valueText f.2

/-- A header with the lines below it. -/
structure Section where
  header : Option String
  lines : List String

/-- The section of a table, if it is shown. -/
def tableSection (path : List String) (fields : List (String × Document)) : List Section :=
  let lines := valueLines fields
  if lines.isEmpty && fields.any (fun f => isPresent f.2) then []
  else [⟨some ("[" ++ pathText path ++ "]"), lines⟩]

mutual

/-- The sections of a field that is written as tables. -/
def sectionsOf (path : List String) : Document → List Section
  | .record fields => tableSection path fields ++ nested path fields
  | .list items => elements path items
  | _ => []

/-- The sections of the fields of a table that are written as tables. -/
def nested (path : List String) : List (String × Document) → List Section
  | [] => []
  | (key, d) :: rest =>
    (if isTabular d then sectionsOf (path ++ [key]) d else []) ++ nested path rest

/-- The sections of a list of tables. -/
def elements (path : List String) : List Document → List Section
  | [] => []
  | .record fields :: rest =>
    ⟨some ("[[" ++ pathText path ++ "]]"), valueLines fields⟩ :: nested path fields
      ++ elements path rest
  | _ :: rest => elements path rest

end

/-- The sections of a whole text: the values without a header come first. -/
def sections (fields : List (String × Document)) : List Section :=
  let lines := valueLines fields
  (if lines.isEmpty then [] else [⟨none, lines⟩]) ++ nested [] fields

/-- The text of a section. -/
def Section.text (s : Section) : String :=
  String.join ((s.header.toList ++ s.lines).map (· ++ "\n"))

/-- The readable text of a record. -/
def render : Document → String
  | .record fields => String.intercalate "\n" ((sections fields).map Section.text)
  | d => valueText d

end AddressRegistry.Toml
