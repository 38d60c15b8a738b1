import QuantumCompiler.Yaml.Literal

/-!
# Writing text as a YAML scalar

Text is written in the first of these forms that reads back as the same text:

* plain, unless that would read as another type or as structure;
* in apostrophes, with apostrophes doubled;
* in quotation marks, with escapes.

Text with a line feed is written line by line under a bar instead, if it has no
trailing space and no character that needs an escape.
-/

namespace QuantumCompiler.Yaml

-- ---------------------------------------------------------------------------
-- What a text holds
-- ---------------------------------------------------------------------------

/-- A character that can be written as itself. -/
def isPrintable (c : Char) : Bool :=
  let n := c.toNat
  n == 0x0A || (0x20 ≤ n && n ≤ 0x7E) || (0xA0 ≤ n && n ≤ 0xD7FF) ||
    (0xE000 ≤ n && n ≤ 0xFFFD && n != 0xFEFF) || 0x10000 ≤ n

/-- Whether some character is followed at once by another, by the given tests. -/
def hasPair (p q : Char → Bool) : List Char → Bool
  | a :: b :: cs => (p a && q b) || hasPair p q (b :: cs)
  | _ => false

/-- A space. -/
def isSpace (c : Char) : Bool :=
  c == ' '

/-- Whether a text can only be written with escapes. -/
def needsEscapes (cs : List Char) : Bool :=
  !cs.all isPrintable || hasPair isSpace isBreak cs

/-- Whether a text reads as another type than text. -/
def isTyped (cs : List Char) : Bool :=
  cs.isEmpty || isNull cs || (readBool? cs).isSome || isInteger cs ||
    (readNumberValue? cs).isSome || isPadded cs

/-- Marks that give a plain scalar another meaning when they come first. -/
def isLeadingMark (c : Char) : Bool :=
  c == '#' || c == ',' || c == '[' || c == ']' || c == '{' || c == '}' || c == '&' || c == '*' ||
    c == '!' || c == '|' || c == '>' || c == '\'' || c == '"' || c == '%' || c == '@' ||
    c.toNat == 0x60

/-- Whether the first characters give a plain scalar another meaning. -/
def startsAsStructure : List Char → Bool
  | '-' :: '-' :: '-' :: _ => true
  | '.' :: '.' :: '.' :: _ => true
  | c :: cs =>
    isLeadingMark c || ((c == '?' || c == ':' || c == '-') && isBoundary cs.head?)
  | [] => false

/-- Whether a later character gives a plain scalar another meaning: a colon before a
boundary, a hash sign after one. -/
def holdsStructure : List Char → Bool
  | a :: b :: cs =>
    (b == ':' && isBoundary cs.head?) || (b == '#' && isBoundary (some a)) ||
      holdsStructure (b :: cs)
  | _ => false

/-- Whether a text can be written plain. -/
def isPlainSafe (cs : List Char) : Bool :=
  let isOuter := fun c => isSpace c || isBreak c
  !(cs.head?.any isOuter || cs.getLast?.any isOuter || cs.any isBreak || needsEscapes cs ||
    startsAsStructure cs || holdsStructure cs)

-- ---------------------------------------------------------------------------
-- Forms
-- ---------------------------------------------------------------------------

/-- Lines below the first are indented by `depth` spaces. -/
def indentation (depth : Nat) : List Char :=
  List.replicate depth ' '

/-- The inside of a text in apostrophes. After a line break comes the indentation;
`broken` tells whether the last character was one. -/
def apostrophed (depth : Nat) (broken : Bool) : List Char → List Char
  | [] => if broken then indentation depth else []
  | c :: cs =>
    if isBreak c then
      (if c == '\n' && !broken then ['\n'] else []) ++ c :: apostrophed depth true cs
    else if isSpace c then c :: apostrophed depth broken cs
    else
      (if broken then indentation depth else []) ++ (if c == '\'' then ['\'', '\''] else [c]) ++
        apostrophed depth false cs

/-- An upper-case hexadecimal digit. -/
def upperHexDigit (n : Nat) : Char :=
  if n < 10 then Char.ofNat ('0'.toNat + n) else Char.ofNat ('A'.toNat + (n - 10))

/-- The last `width` hexadecimal digits of a number. -/
def upperHex : Nat → Nat → List Char
  | 0, _ => []
  | width + 1, n => upperHex width (n / 16) ++ [upperHexDigit (n % 16)]

/-- An escape by code point, with as few digits as a form allows. -/
def pointEscape (n : Nat) : List Char :=
  if n ≤ 0xFF then 'x' :: upperHex 2 n
  else if n ≤ 0xFFFF then 'u' :: upperHex 4 n
  else 'U' :: upperHex 8 n

/-- What follows the backslash in an escape. -/
def escapeBody (c : Char) : List Char :=
  match c.toNat with
  | 0x00 => ['0']
  | 0x07 => ['a']
  | 0x08 => ['b']
  | 0x09 => ['t']
  | 0x0A => ['n']
  | 0x0B => ['v']
  | 0x0C => ['f']
  | 0x0D => ['r']
  | 0x1B => ['e']
  | 0x22 => ['"']
  | 0x5C => ['\\']
  | 0x85 => ['N']
  | 0xA0 => ['_']
  | 0x2028 => ['L']
  | 0x2029 => ['P']
  | n => pointEscape n

/-- One character in quotation marks. -/
def escapeChar (c : Char) : List Char :=
  if !isPrintable c || isBreak c || c == '"' || c == '\\' then '\\' :: escapeBody c else [c]

/-- A text in quotation marks. -/
def quotation (cs : List Char) : List Char :=
  '"' :: (cs.flatMap escapeChar ++ ['"'])

/-- The mark after the bar that says how the text ends: without a line break, with
one, or with more. -/
def endMark (cs : List Char) : List Char :=
  match cs.reverse with
  | [] => ['-']
  | [c] => if isBreak c then ['+'] else ['-']
  | c :: d :: _ => if !isBreak c then ['-'] else if isBreak d then ['+'] else []

/-- The lines of a text under a bar. -/
def barred (depth : Nat) (broken : Bool) : List Char → List Char
  | [] => []
  | c :: cs =>
    if isBreak c then c :: barred depth true cs
    else (if broken then indentation depth else []) ++ c :: barred depth false cs

/-- A text under a bar. One that starts with a space or a line break needs the width of
the indentation, `2`. -/
def barText (depth : Nat) (cs : List Char) : List Char :=
  let hint := if cs.head?.any fun c => isSpace c || isBreak c then ['2'] else []
  '|' :: (hint ++ endMark cs ++ '\n' :: barred depth true cs)

/-- A text in apostrophes, or in quotation marks if it needs escapes. -/
def quoteText (depth : Nat) (cs : List Char) : List Char :=
  if needsEscapes cs || hasPair isBreak isSpace cs then quotation cs
  else '\'' :: (apostrophed depth false cs ++ ['\''])

/-- A text as a scalar whose further lines are indented by `depth` spaces. -/
def textScalar (depth : Nat) (cs : List Char) : List Char :=
  if cs.contains '\n' then
    if needsEscapes cs || cs.getLast? == some ' ' then quotation cs else barText depth cs
  else if isTyped cs then quoteText depth cs
  else if isPlainSafe cs then cs
  else quoteText depth cs

end QuantumCompiler.Yaml
