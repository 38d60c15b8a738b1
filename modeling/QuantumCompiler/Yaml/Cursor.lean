/-!
# Positions in a YAML text

A `Cursor` is the text that remains to be read together with the line and the
column where it starts. Columns decide nesting in YAML, so they are counted in
characters from the last line break.

The line breaks of YAML are the carriage return, the line feed, both together,
and the three separators of Unicode. All but the last two are read as a line
feed.
-/

namespace QuantumCompiler.Yaml

/-- Why a YAML text was refused. -/
inductive Fault where
  | forbiddenCharacter
  | strayCharacter
  | misplacedTab
  | misplacedKey
  | misplacedValue
  | misplacedEntry
  | missingColon
  | strayColon
  | unfinishedScalar
  | badEscape
  | badBlockHeader
  | badDirective
  | unsupportedProperty
  | missingNode
  | missingKey
  | missingSeparator
  | secondDocument
  | unexpectedContent
  | duplicateField
  deriving DecidableEq, Repr

/-- The wording of a fault. -/
def Fault.message : Fault → String
  | .forbiddenCharacter => "control characters are not allowed"
  | .strayCharacter => "found character that cannot start any token"
  | .misplacedTab => "found a tab where indentation is expected"
  | .misplacedKey => "mapping keys are not allowed in this context"
  | .misplacedValue => "mapping values are not allowed in this context"
  | .misplacedEntry => "sequence entries are not allowed in this context"
  | .missingColon => "could not find expected ':'"
  | .strayColon => "found unexpected ':'"
  | .unfinishedScalar => "found unexpected end of a quoted scalar"
  | .badEscape => "found unknown escape"
  | .badBlockHeader => "did not find expected comment or line break"
  | .badDirective => "found incompatible directive"
  | .unsupportedProperty => "anchors, aliases and tags are not supported"
  | .missingNode => "did not find expected node content"
  | .missingKey => "did not find expected key"
  | .missingSeparator => "did not find expected ',' or closing bracket"
  | .secondDocument => "expected a single document"
  | .unexpectedContent => "found a value of an unexpected type"
  | .duplicateField => "found a field twice"

-- ---------------------------------------------------------------------------
-- Characters
-- ---------------------------------------------------------------------------

/-- The byte order mark. -/
def byteOrderMark : Char := Char.ofNat 0xFEFF

/-- A character that can stand in a YAML text. -/
def isAllowed (c : Char) : Bool :=
  let n := c.toNat
  n == 0x09 || n == 0x0A || n == 0x0D || (0x20 ≤ n && n ≤ 0x7E) || n == 0x85 ||
    (0xA0 ≤ n && n ≤ 0xD7FF) || (0xE000 ≤ n && n ≤ 0xFFFD) || 0x10000 ≤ n

/-- A character that ends a line. -/
def isBreak (c : Char) : Bool :=
  let n := c.toNat
  n == 0x0A || n == 0x0D || n == 0x85 || n == 0x2028 || n == 0x2029

/-- A space or a tab. -/
def isGap (c : Char) : Bool :=
  c == ' ' || c == '\t'

/-- A space, a tab, a line break, or the end of the text. -/
def isBoundary : Option Char → Bool
  | none => true
  | some c => isGap c || isBreak c

-- ---------------------------------------------------------------------------
-- Cursors
-- ---------------------------------------------------------------------------

/-- The rest of a text and its position. -/
structure Cursor where
  /-- What remains to be read. -/
  rest : List Char
  /-- The number of bytes read, as the text is encoded in UTF-8. -/
  index : Nat := 0
  /-- The number of lines read. -/
  line : Nat := 0
  /-- The number of characters read on this line. -/
  column : Nat := 0

namespace Cursor

/-- The character `n` places ahead. -/
def peek? (c : Cursor) (n : Nat) : Option Char :=
  c.rest[n]?

/-- The next character. -/
def head? (c : Cursor) : Option Char :=
  c.rest.head?

/-- Whether a given character is next. -/
def at? (c : Cursor) (ch : Char) : Bool :=
  c.rest.head? == some ch

/-- The number of bytes of a text in UTF-8. -/
def byteSize (cs : List Char) : Nat :=
  cs.foldl (fun n ch => n + ch.utf8Size) 0

/-- Pass characters on the same line. -/
def advance (c : Cursor) (n : Nat) : Cursor :=
  { c with
    rest := c.rest.drop n
    index := c.index + byteSize (c.rest.take n)
    column := c.column + n }

/-- Pass characters on the same line as long as they satisfy `p`. -/
def skipWhile (c : Cursor) (p : Char → Bool) : Cursor :=
  c.advance (c.rest.takeWhile p).length

/-- Pass a line break; a carriage return and a line feed are one. -/
def skipBreak (c : Cursor) : Cursor :=
  match c.rest with
  | '\r' :: '\n' :: rest => { rest := rest, index := c.index + 2, line := c.line + 1 }
  | ch :: rest => { rest := rest, index := c.index + ch.utf8Size, line := c.line + 1 }
  | [] => c

/-- What the line break at the cursor adds to a scalar. -/
def breakText (c : Cursor) : List Char :=
  match c.rest with
  | ch :: _ =>
    if isBreak ch then (if ch.toNat == 0x2028 || ch.toNat == 0x2029 then [ch] else ['\n']) else []
  | [] => []

/-- Whether a document mark stands at the start of this line: three equal marks and
a boundary. -/
def atMark (c : Cursor) (mark : Char) : Bool :=
  c.column == 0 && c.peek? 0 == some mark && c.peek? 1 == some mark && c.peek? 2 == some mark &&
    isBoundary (c.peek? 3)

/-- Whether a document starts or ends here. -/
def atDocumentMark (c : Cursor) : Bool :=
  c.atMark '-' || c.atMark '.'

end Cursor

end QuantumCompiler.Yaml
