import AddressRegistry.Text.Scan

/-!
# Blanks, comments and line ends in TOML

What may stand between the parts of a text without meaning: spaces and tabs, comments and line ends.
-/

namespace AddressRegistry.Toml

/-- A character beyond ASCII. -/
def isBeyondAscii (c : Char) : Bool := 0x80 ≤ c.toNat

/-- Space or tab. -/
def isBlank (c : Char) : Bool := c == ' ' || c == '\t'

/-- A character that a line may hold: a tab or anything but the control characters. -/
def isInLine (c : Char) : Bool :=
  c == '\t' || (0x20 ≤ c.toNat && c.toNat ≤ 0x7E) || isBeyondAscii c

/-- Skip spaces and tabs. -/
def skipBlanks (cs : List Char) : List Char := cs.dropWhile isBlank

/-- The rest after a line feed, which a carriage return may precede. -/
def newline? : List Char → Option (List Char)
  | '\n' :: rest => some rest
  | '\r' :: '\n' :: rest => some rest
  | _ => none

/-- Skip the text of a comment, if there is one. -/
def skipComment : List Char → List Char
  | '#' :: rest => rest.dropWhile isInLine
  | cs => cs

/-- What may follow on a line: blanks, a comment, and the end of the line or of the text. -/
def lineEnd? (cs : List Char) : Option (List Char) :=
  match skipComment (skipBlanks cs) with
  | [] => some []
  | rest => newline? rest

/-- Skip blanks, lines and comments inside an array; a comment has to end with its line. -/
def skipLines : (most : Nat) → List Char → Option (List Char)
  | 0, cs => some cs
  | most + 1, cs =>
    match skipBlanks cs with
    | '#' :: rest => (newline? (rest.dropWhile isInLine)).bind (skipLines most)
    | '\n' :: rest => skipLines most rest
    | '\r' :: rest => (newline? ('\r' :: rest)).bind (skipLines most)
    | rest => some rest

/-- Skip everything between the values of an array. -/
def skipGap (cs : List Char) : Option (List Char) := skipLines cs.length cs

end AddressRegistry.Toml
