import QuantumCompiler.Json.Basic

/-!
# Writing JSON

There are two layouts. The compact one has no blanks. The indented one gives
every item and field a line of its own, two spaces deeper than its container;
empty containers stay on one line.

In strings the quotation mark, the backslash and the control characters below
U+0020 are escaped, and nothing else.
-/

namespace QuantumCompiler.Json

/-- A lower-case hexadecimal digit. -/
def hexDigit (n : Nat) : Char :=
  if n < 10 then Char.ofNat ('0'.toNat + n) else Char.ofNat ('a'.toNat + (n - 10))

/-- An escape by four hexadecimal digits. -/
def hexEscape (n : Nat) : List Char :=
  '\\' :: 'u' :: [hexDigit (n / 0x1000 % 16), hexDigit (n / 0x100 % 16), hexDigit (n / 0x10 % 16),
    hexDigit (n % 16)]

/-- One code point inside a string. -/
def escapePoint (n : Nat) : List Char :=
  if n = 0x22 then ['\\', '"']
  else if n = 0x5C then ['\\', '\\']
  else if n = 0x08 then ['\\', 'b']
  else if n = 0x09 then ['\\', 't']
  else if n = 0x0A then ['\\', 'n']
  else if n = 0x0C then ['\\', 'f']
  else if n = 0x0D then ['\\', 'r']
  else if n < 0x20 || isHighSurrogate n || isLowSurrogate n then hexEscape n
  else [Char.ofNat n]

/-- A string in quotation marks. -/
def quote (points : List Nat) : List Char :=
  '"' :: (points.flatMap escapePoint ++ ['"'])

mutual

/-- The compact layout. -/
def compact : Json → List Char
  | .null => ['n', 'u', 'l', 'l']
  | .bool true => ['t', 'r', 'u', 'e']
  | .bool false => ['f', 'a', 'l', 's', 'e']
  | .number literal => literal
  | .string points => quote points
  | .array items => '[' :: ([','].intercalate (compactItems items) ++ [']'])
  | .object fields => '{' :: ([','].intercalate (compactFields fields) ++ ['}'])

/-- The items of an array in the compact layout. -/
def compactItems : List Json → List (List Char)
  | [] => []
  | v :: vs => compact v :: compactItems vs

/-- The fields of an object in the compact layout. -/
def compactFields : List (List Nat × Json) → List (List Char)
  | [] => []
  | (name, v) :: fs => (quote name ++ ':' :: compact v) :: compactFields fs

end

/-- A line break and the indentation of a nesting depth. -/
def newline (depth : Nat) : List Char :=
  '\n' :: List.replicate (2 * depth) ' '

/-- A container in the indented layout, from the texts of what it contains. -/
def block (depth : Nat) (opening closing : Char) (parts : List (List Char)) : List Char :=
  if parts.isEmpty then [opening, closing]
  else
    opening :: (newline (depth + 1) ++ (',' :: newline (depth + 1)).intercalate parts ++
      newline depth ++ [closing])

mutual

/-- The indented layout at a nesting depth. -/
def indented (depth : Nat) : Json → List Char
  | .null => ['n', 'u', 'l', 'l']
  | .bool true => ['t', 'r', 'u', 'e']
  | .bool false => ['f', 'a', 'l', 's', 'e']
  | .number literal => literal
  | .string points => quote points
  | .array items => block depth '[' ']' (indentedItems (depth + 1) items)
  | .object fields => block depth '{' '}' (indentedFields (depth + 1) fields)

/-- The items of an array in the indented layout. -/
def indentedItems (depth : Nat) : List Json → List (List Char)
  | [] => []
  | v :: vs => indented depth v :: indentedItems depth vs

/-- The fields of an object in the indented layout. -/
def indentedFields (depth : Nat) : List (List Nat × Json) → List (List Char)
  | [] => []
  | (name, v) :: fs => (quote name ++ ':' :: ' ' :: indented depth v) :: indentedFields depth fs

end

end QuantumCompiler.Json
