import AddressRegistry.Document.Basic

/-!
# Documents as JSON text

The readable form: two spaces for each level, a member on each line, and empty lists and records
closed on the spot.
-/

namespace AddressRegistry.Json

/-- A hexadecimal digit, lower case. -/
def hexDigit (n : Nat) : Char := Nat.digitChar (n % 16)

/-- A character inside quotes. Quotes, backslashes and control characters are escaped. -/
def escape (c : Char) : List Char :=
  if c = '"' then ['\\', '"']
  else if c = '\\' then ['\\', '\\']
  else if c = '\n' then ['\\', 'n']
  else if c = '\r' then ['\\', 'r']
  else if c = '\t' then ['\\', 't']
  else if c.toNat = 8 then ['\\', 'b']
  else if c.toNat = 12 then ['\\', 'f']
  else if c.toNat < 32 then
    ['\\', 'u', '0', '0', hexDigit (c.toNat / 16), hexDigit c.toNat]
  else [c]

/-- A text in quotes. -/
def quote (s : String) : String :=
  String.ofList ('"' :: s.toList.flatMap escape ++ ['"'])

/-- A new line with the indentation of a level. -/
def newline (level : Nat) : String :=
  "\n" ++ String.ofList (List.replicate (2 * level) ' ')

/-- Members between an opening and a closing mark, each on a line of its own. -/
def block (level : Nat) (opening closing : String) (members : List String) : String :=
  if members.isEmpty then
    opening ++ closing
  else
    opening ++ String.intercalate "," (members.map fun m => newline (level + 1) ++ m)
      ++ newline level ++ closing

mutual

/-- A document that starts on a given level. -/
def pretty (level : Nat) : Document → String
  | .null => "null"
  | .bool b => if b then "true" else "false"
  | .int v => toString v
  | .real t => t
  | .text s => quote s
  | .list items => block level "[" "]" (prettyItems (level + 1) items)
  | .record fields => block level "\x7b" "\x7d" (prettyFields (level + 1) fields)

/-- The items of a list. -/
def prettyItems (level : Nat) : List Document → List String
  | [] => []
  | d :: rest => pretty level d :: prettyItems level rest

/-- The fields of a record. -/
def prettyFields (level : Nat) : List (String × Document) → List String
  | [] => []
  | (name, d) :: rest => (quote name ++ ": " ++ pretty level d) :: prettyFields level rest

end

/-- The readable text of a document. -/
def render (d : Document) : String := pretty 0 d

end AddressRegistry.Json
