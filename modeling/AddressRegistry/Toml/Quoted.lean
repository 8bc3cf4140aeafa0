import AddressRegistry.Toml.Trivia

/-!
# Quoted text in TOML

Text stands between double quotes, with escapes, or between single quotes, without. Three quotes
enclose text of several lines: a line end directly after the opening quotes is dropped, other line
ends become line feeds, and up to two quotes may stand before the closing ones.
-/

namespace AddressRegistry.Toml

open Text

/-- The character with a number written in hexadecimal digits. -/
def charOfHex? (digits : List Char) : Option Char := do
  let n := positional 16 (← digits.mapM hexValue?)
  if n.isValidChar then some (Char.ofNat n) else none

/-- The character that a one-letter escape stands for. -/
def simpleEscape? : Char → Option Char
  | 'b' => some '\x08'
  | 't' => some '\t'
  | 'n' => some '\n'
  | 'f' => some '\x0c'
  | 'r' => some '\r'
  | '"' => some '"'
  | '\\' => some '\\'
  | _ => none

/-- Text up to the closing double quote. -/
def basicBody : Scan (List Char)
  | [] => none
  | '"' :: rest => some ([], rest)
  | '\\' :: 'u' :: a :: b :: c :: d :: rest =>
    (charOfHex? [a, b, c, d]).bind fun x => prepend x (basicBody rest)
  | '\\' :: 'U' :: a :: b :: c :: d :: e :: f :: g :: h :: rest =>
    (charOfHex? [a, b, c, d, e, f, g, h]).bind fun x => prepend x (basicBody rest)
  | '\\' :: e :: rest => (simpleEscape? e).bind fun x => prepend x (basicBody rest)
  | '\\' :: [] => none
  | c :: rest => if isInLine c then prepend c (basicBody rest) else none

/-- Text up to the closing single quote. -/
def literalBody : Scan (List Char)
  | [] => none
  | '\'' :: rest => some ([], rest)
  | c :: rest => if isInLine c then prepend c (literalBody rest) else none

/-- Whether a line ends after blanks. -/
def endsLine (cs : List Char) : Bool := (newline? (skipBlanks cs)).isSome

/-- Text of several lines up to three closing double quotes. A backslash at the end of a line drops
everything up to the next character that is no blank; `dropping` says that this is going on. -/
def longBasicBody (dropping : Bool) : Scan (List Char)
  | [] => none
  | '"' :: '"' :: '"' :: '"' :: '"' :: rest => some (['"', '"'], rest)
  | '"' :: '"' :: '"' :: '"' :: rest => some (['"'], rest)
  | '"' :: '"' :: '"' :: rest => some ([], rest)
  | '\r' :: '\n' :: rest =>
    if dropping then longBasicBody true rest else prepend '\n' (longBasicBody false rest)
  | '\n' :: rest =>
    if dropping then longBasicBody true rest else prepend '\n' (longBasicBody false rest)
  | '\\' :: 'u' :: a :: b :: c :: d :: rest =>
    (charOfHex? [a, b, c, d]).bind fun x => prepend x (longBasicBody false rest)
  | '\\' :: 'U' :: a :: b :: c :: d :: e :: f :: g :: h :: rest =>
    (charOfHex? [a, b, c, d, e, f, g, h]).bind fun x => prepend x (longBasicBody false rest)
  | '\\' :: e :: rest =>
    if endsLine (e :: rest) then
      longBasicBody true (e :: rest)
    else
      (simpleEscape? e).bind fun x => prepend x (longBasicBody false rest)
  | '\\' :: [] => none
  | c :: rest =>
    if dropping && isBlank c then
      longBasicBody true rest
    else if isInLine c then
      prepend c (longBasicBody false rest)
    else
      none

/-- Text of several lines up to three closing single quotes. -/
def longLiteralBody : Scan (List Char)
  | [] => none
  | '\'' :: '\'' :: '\'' :: '\'' :: '\'' :: rest => some (['\'', '\''], rest)
  | '\'' :: '\'' :: '\'' :: '\'' :: rest => some (['\''], rest)
  | '\'' :: '\'' :: '\'' :: rest => some ([], rest)
  | '\r' :: '\n' :: rest => prepend '\n' (longLiteralBody rest)
  | '\n' :: rest => prepend '\n' (longLiteralBody rest)
  | c :: rest => if isInLine c then prepend c (longLiteralBody rest) else none

/-- Drop a line end directly after opening quotes. -/
def dropFirstNewline (cs : List Char) : List Char := (newline? cs).getD cs

/-- Text in quotes, on one line. -/
def quotedLine? : Scan (List Char)
  | '"' :: rest => basicBody rest
  | '\'' :: rest => literalBody rest
  | _ => none

/-- Text in quotes. -/
def quoted? : Scan (List Char)
  | '"' :: '"' :: '"' :: rest => longBasicBody false (dropFirstNewline rest)
  | '\'' :: '\'' :: '\'' :: rest => longLiteralBody (dropFirstNewline rest)
  | cs => quotedLine? cs

end AddressRegistry.Toml
