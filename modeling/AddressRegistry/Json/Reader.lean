import AddressRegistry.Document.Basic
import AddressRegistry.Text.Scan

/-!
# Reading JSON

A text is one value with blanks around it. Lists and records are nested less than 128 deep, and of the
fields of a record that share a name the last one stands.

A number is whole when it is written with digits alone. One with a fraction or an exponent is not,
whatever it amounts to, and neither is a zero with a minus.
-/

namespace AddressRegistry.Json

open Text

/-- Nesting has to stay below this depth. -/
def depthLimit : Nat := 128

/-- A blank between the parts of a text. -/
def isBlank (c : Char) : Bool := c == ' ' || c == '\t' || c == '\n' || c == '\r'

/-- Skip blanks. -/
def skipBlanks (cs : List Char) : List Char := cs.dropWhile isBlank

/-! ## Texts -/

/-- Four hexadecimal digits. -/
def unit? : Scan Nat
  | a :: b :: c :: d :: rest =>
    ([a, b, c, d].mapM hexValue?).map fun digits => (positional 16 digits, rest)
  | _ => none

/-- The first half of a character beyond the first 65536. -/
def isLeading (n : Nat) : Bool := 0xD800 ≤ n && n < 0xDC00

/-- The second half of such a character. -/
def isTrailing (n : Nat) : Bool := 0xDC00 ≤ n && n < 0xE000

/-- The character written by its number, or by two halves; a half alone is none. -/
def coded? : Scan Char := fun cs => do
  let (n, rest) ← unit? cs
  if isLeading n then
    match rest with
    | '\\' :: 'u' :: rest =>
      let (m, rest) ← unit? rest
      if isTrailing m then
        some (Char.ofNat (0x10000 + (n - 0xD800) * 0x400 + (m - 0xDC00)), rest)
      else
        none
    | _ => none
  else if isTrailing n then
    none
  else
    some (Char.ofNat n, rest)

/-- The character behind a backslash. -/
def escaped? : Scan Char
  | 'u' :: rest => coded? rest
  | '"' :: rest => some ('"', rest)
  | '\\' :: rest => some ('\\', rest)
  | '/' :: rest => some ('/', rest)
  | 'b' :: rest => some ('\x08', rest)
  | 'f' :: rest => some ('\x0c', rest)
  | 'n' :: rest => some ('\n', rest)
  | 'r' :: rest => some ('\r', rest)
  | 't' :: rest => some ('\t', rest)
  | _ => none

/-- The text up to the closing quote; control characters have to be escaped. -/
def textBody : (most : Nat) → Scan (List Char)
  | _, '"' :: rest => some ([], rest)
  | most + 1, '\\' :: rest => do
    let (c, rest) ← escaped? rest
    prepend c (textBody most rest)
  | most + 1, c :: rest => if c.toNat < 0x20 then none else prepend c (textBody most rest)
  | _, _ => none

/-- A text in quotes. -/
def text? : Scan String
  | '"' :: rest => (textBody rest.length rest).map fun (text, rest) => (String.ofList text, rest)
  | _ => none

/-! ## Numbers -/

/-- One or more digits. -/
def digits? : Scan (List Char) := fun cs =>
  match cs.takeWhile fun c => (digitValue? c).isSome with
  | [] => none
  | digits => some (digits, cs.drop digits.length)

/-- A whole number without sign: zero, or digits that do not start with zero. -/
def whole? : Scan (List Char)
  | '0' :: rest => some (['0'], rest)
  | cs => digits? cs

/-- The rest behind a fraction, if there is one. -/
def skipFraction? : List Char → Option (List Char)
  | '.' :: rest => (digits? rest).map (·.2)
  | cs => some cs

/-- The rest behind the sign of an exponent, if there is one. -/
def skipSign : List Char → List Char
  | '+' :: rest => rest
  | '-' :: rest => rest
  | cs => cs

/-- The rest behind an exponent, if there is one. -/
def skipExponent? : List Char → Option (List Char)
  | 'e' :: rest => (digits? (skipSign rest)).map (·.2)
  | 'E' :: rest => (digits? (skipSign rest)).map (·.2)
  | cs => some cs

/-- A minus, if there is one. -/
def minus : List Char → Bool × List Char
  | '-' :: rest => (true, rest)
  | cs => (false, cs)

/-- A number. -/
def number? : Scan Document := fun cs => do
  let (negative, body) := minus cs
  let (digits, behind) ← whole? body
  let rest ← skipExponent? (← skipFraction? behind)
  let n := positional 10 (digits.filterMap digitValue?)
  if rest.length < behind.length || (negative && n == 0) then
    return (.real (String.ofList (cs.take (cs.length - rest.length))), rest)
  else
    return (.int (if negative then -n else n), rest)

/-! ## Values -/

/-- Put a field in the place of the one with the same name, or at the end. -/
def putField (name : String) (d : Document) : List (String × Document) → List (String × Document)
  | [] => [(name, d)]
  | f :: rest => if f.1 = name then (name, d) :: rest else f :: putField name d rest

/-- The items of a list up to its bracket, from one item on. -/
def itemsBody (value : Scan Document) : (most : Nat) → Scan (List Document)
  | 0, _ => none
  | most + 1, cs => do
    let (item, rest) ← value (skipBlanks cs)
    match skipBlanks rest with
    | ',' :: rest =>
      let (items, rest) ← itemsBody value most rest
      return (item :: items, rest)
    | ']' :: rest => return ([item], rest)
    | _ => none

/-- A name, a colon and a value. -/
def field? (value : Scan Document) : Scan (String × Document) := fun cs => do
  let (name, rest) ← text? (skipBlanks cs)
  match skipBlanks rest with
  | ':' :: rest =>
    let (d, rest) ← value (skipBlanks rest)
    return ((name, d), rest)
  | _ => none

/-- The fields of a record up to its brace, from one field on, behind those read before. -/
def fieldsBody (value : Scan Document) :
    (most : Nat) → List (String × Document) → Scan (List (String × Document))
  | 0, _, _ => none
  | most + 1, fields, cs => do
    let ((name, d), rest) ← field? value cs
    let fields := putField name d fields
    match skipBlanks rest with
    | ',' :: rest => fieldsBody value most fields rest
    | '\x7d' :: rest => return (fields, rest)
    | _ => none

/-- A value nested at most so deep. -/
def value? : (depth : Nat) → Scan Document
  | _, 'n' :: 'u' :: 'l' :: 'l' :: rest => some (.null, rest)
  | _, 't' :: 'r' :: 'u' :: 'e' :: rest => some (.bool true, rest)
  | _, 'f' :: 'a' :: 'l' :: 's' :: 'e' :: rest => some (.bool false, rest)
  | _, '"' :: rest => (text? ('"' :: rest)).map fun (text, rest) => (.text text, rest)
  | 0, '[' :: _ => none
  | 0, '\x7b' :: _ => none
  | depth + 1, '[' :: rest =>
    match skipBlanks rest with
    | ']' :: rest => some (.list [], rest)
    | rest => (itemsBody (value? depth) rest.length rest).map fun (items, rest) =>
        (.list items, rest)
  | depth + 1, '\x7b' :: rest =>
    match skipBlanks rest with
    | '\x7d' :: rest => some (.record [], rest)
    | rest => (fieldsBody (value? depth) rest.length [] rest).map fun (fields, rest) =>
        (.record fields, rest)
  | _, cs => number? cs

/-- The document that a text writes. -/
def read? (text : String) : Option Document := do
  let (d, rest) ← value? (depthLimit - 1) (skipBlanks text.toList)
  if (skipBlanks rest).isEmpty then some d else none

end AddressRegistry.Json
