import QuantumCompiler.Yaml.Directive

/-!
# Tokens of a YAML text

`Token.scan` cuts a text into tokens. Indentation becomes explicit on the way:
a block collection starts and ends with a token of its own.

A mapping key is only known to be one when its colon is found. Until then its
place among the tokens is remembered as a `Candidate`, one for each level of
brackets; the colon then puts the key token, and the start of the mapping if
the key opens one, back at that place. A candidate does not outlive its line.

Anchors, aliases and tags are refused.
-/

namespace QuantumCompiler.Yaml

/-- A token. -/
inductive Token where
  | directive (d : Directive)
  | documentStart
  | documentEnd
  | blockSequenceStart
  | blockMappingStart
  | blockEnd
  | flowSequenceStart
  | flowSequenceEnd
  | flowMappingStart
  | flowMappingEnd
  | blockEntry
  | flowEntry
  | key
  | value
  /-- a scalar and whether it was written plain -/
  | scalar (text : List Char) (plain : Bool)
  deriving DecidableEq, Repr

namespace Token

/-- A place where a mapping key may start. -/
structure Candidate where
  /-- Whether nothing but a key can stand there. -/
  required : Bool
  /-- The number of places for tokens before it. -/
  place : Nat
  /-- Its position in the text. -/
  index : Nat
  /-- Its line. -/
  line : Nat
  /-- Its column. -/
  column : Nat

/-- The state of the cutting. -/
structure Scan where
  /-- What remains to be read. -/
  cursor : Cursor
  /-- More than the number of characters that remain. -/
  bound : Nat
  /-- The tokens so far, each after those that were put back before it. -/
  tokens : Array (List Token) := #[]
  /-- The column of the innermost open block collection. -/
  indent : Int := -1
  /-- The columns of the block collections around it. -/
  indents : List Int := []
  /-- The candidates of the open brackets, innermost first. -/
  outer : List (Option Candidate) := []
  /-- The candidate at this level. -/
  candidate : Option Candidate := none
  /-- Whether a key may start here. -/
  keyAllowed : Bool := true

namespace Scan

/-- Whether any bracket is open. -/
def inFlow (s : Scan) : Bool :=
  !s.outer.isEmpty

/-- Add a token. -/
def push (s : Scan) (t : Token) : Scan :=
  { s with tokens := s.tokens.push [t] }

/-- Add a token that stands for the next `n` characters. -/
def pushMark (s : Scan) (t : Token) (n : Nat) : Scan :=
  { s with tokens := s.tokens.push [t], cursor := s.cursor.advance n }

/-- Put a token back at a remembered place. -/
def insertAt (s : Scan) (place : Nat) (t : Token) : Scan :=
  if place < s.tokens.size then { s with tokens := s.tokens.modify place (t :: ·) }
  else s.push t

-- ---------------------------------------------------------------------------
-- Indentation
-- ---------------------------------------------------------------------------

/-- Open a block collection at a column, unless one is open there. -/
def openBlock (s : Scan) (column : Nat) (place : Nat) (t : Token) : Scan :=
  if s.inFlow || decide ((column : Int) ≤ s.indent) then s
  else { s.insertAt place t with indent := column, indents := s.indent :: s.indents }

/-- Close the block collections right of a column, at most `fuel` of them. -/
def closeBlocksUpTo (column : Int) : Nat → Scan → Scan
  | 0, s => s
  | fuel + 1, s =>
    if s.indent ≤ column then s
    else
      match s.indents with
      | [] => s
      | i :: is => closeBlocksUpTo column fuel { s.push .blockEnd with indent := i, indents := is }

/-- Close the block collections right of a column. -/
def closeBlocks (s : Scan) (column : Int) : Scan :=
  if s.inFlow then s else closeBlocksUpTo column s.indents.length s

-- ---------------------------------------------------------------------------
-- Candidates
-- ---------------------------------------------------------------------------

/-- Give up the candidate at this level; a required one cannot be given up. -/
def dropCandidate (s : Scan) : Except Fault Scan :=
  if s.candidate.any (·.required) then .error .missingColon
  else .ok { s with candidate := none }

/-- Remember this place as a candidate, if a key may start here. -/
def saveCandidate (s : Scan) : Except Fault Scan :=
  if !s.keyAllowed then .ok s
  else do
    let s ← s.dropCandidate
    let c := s.cursor
    return { s with candidate := some {
      required := !s.inFlow && decide (s.indent = c.column)
      place := s.tokens.size
      index := c.index
      line := c.line
      column := c.column } }

/-- The candidate at this level if the cursor is still on its line and within 1024
bytes; a required one must be. -/
def freshCandidate (s : Scan) : Except Fault (Option Candidate) :=
  match s.candidate with
  | none => .ok none
  | some k =>
    if k.line < s.cursor.line || k.index + 1024 < s.cursor.index then
      if k.required then .error .missingColon else .ok none
    else .ok (some k)

-- ---------------------------------------------------------------------------
-- Marks
-- ---------------------------------------------------------------------------

/-- A document mark closes everything. -/
def documentMark (s : Scan) (t : Token) : Except Fault Scan := do
  let s ← (s.closeBlocks (-1)).dropCandidate
  return { s.pushMark t 3 with keyAllowed := false }

/-- An opening bracket may itself be a key. -/
def openFlow (s : Scan) (t : Token) : Except Fault Scan := do
  let s ← s.saveCandidate
  let outer := s.candidate :: s.outer
  return { s.pushMark t 1 with outer := outer, candidate := none, keyAllowed := true }

/-- A closing bracket returns to the level around it. -/
def closeFlow (s : Scan) (t : Token) : Except Fault Scan := do
  let s ← s.dropCandidate
  let s := match s.outer with
    | [] => s
    | k :: ks => { s with outer := ks, candidate := k }
  return { s.pushMark t 1 with keyAllowed := false }

/-- A comma between brackets. -/
def flowEntry (s : Scan) : Except Fault Scan := do
  let s ← s.dropCandidate
  return { s.pushMark .flowEntry 1 with keyAllowed := true }

/-- A dash before an entry of a block sequence. -/
def blockEntry (s : Scan) : Except Fault Scan := do
  if !s.inFlow && !s.keyAllowed then throw .misplacedEntry
  let s ← (s.openBlock s.cursor.column s.tokens.size .blockSequenceStart).dropCandidate
  return { s.pushMark .blockEntry 1 with keyAllowed := true }

/-- A question mark before a key. -/
def explicitKey (s : Scan) : Except Fault Scan := do
  if !s.inFlow && !s.keyAllowed then throw .misplacedKey
  let s ← (s.openBlock s.cursor.column s.tokens.size .blockMappingStart).dropCandidate
  return { s.pushMark .key 1 with keyAllowed := !s.inFlow }

/-- A colon before a value: the candidate turns out to be a key, or an explicit key
came before. -/
def value (s : Scan) : Except Fault Scan := do
  match ← s.freshCandidate with
  | some k =>
    let s := (s.insertAt k.place .key).openBlock k.column k.place .blockMappingStart
    return { s.pushMark .value 1 with candidate := none, keyAllowed := false }
  | none =>
    if !s.inFlow && !s.keyAllowed then throw .misplacedValue
    let s := s.openBlock s.cursor.column s.tokens.size .blockMappingStart
    return { s.pushMark .value 1 with candidate := none, keyAllowed := !s.inFlow }

-- ---------------------------------------------------------------------------
-- Scalars
-- ---------------------------------------------------------------------------

/-- A block scalar. -/
def block (s : Scan) (literal : Bool) : Except Fault Scan := do
  let s ← s.dropCandidate
  let (text, c) ← readBlock literal s.indent (s.cursor.advance 1)
  return { s.push (.scalar text false) with cursor := c, keyAllowed := true }

/-- A quoted scalar. -/
def quoted (s : Scan) (single : Bool) : Except Fault Scan := do
  let s ← s.saveCandidate
  let (text, c) ← readQuoted single s.bound [] (s.cursor.advance 1)
  return { s.push (.scalar text false) with cursor := c, keyAllowed := false }

/-- A plain scalar. If it ran over a line break, a key may follow it. -/
def plain (s : Scan) : Except Fault Scan := do
  let s ← s.saveCandidate
  let (text, broken, c) ← readPlain s.inFlow s.indent s.bound [] {} s.cursor
  return { s.push (.scalar text.reverse true) with cursor := c, keyAllowed := broken }

-- ---------------------------------------------------------------------------
-- Directives
-- ---------------------------------------------------------------------------

/-- A directive closes everything, as a document mark does. -/
def directive (s : Scan) : Except Fault Scan := do
  let s ← (s.closeBlocks (-1)).dropCandidate
  let (d, c) ← Directive.read (s.cursor.advance 1)
  return { s.push (.directive d) with cursor := c, keyAllowed := false }

-- ---------------------------------------------------------------------------
-- The loop
-- ---------------------------------------------------------------------------

/-- Pass spaces, comments and line breaks. A line may start with a byte order mark. A tab
is passed only where no key may start. In block context a key may start after a line
break. -/
def skipGaps : Nat → Scan → Scan
  | 0, s => s
  | fuel + 1, s =>
    let c := s.cursor
    let c := if c.column == 0 && c.at? byteOrderMark then c.advance 1 else c
    let c := c.skipWhile fun ch => ch == ' ' || (ch == '\t' && (s.inFlow || !s.keyAllowed))
    let c := if c.at? '#' then c.skipWhile (fun ch => !isBreak ch) else c
    if c.head?.any isBreak then
      skipGaps fuel { s with cursor := c.skipBreak, keyAllowed := s.keyAllowed || !s.inFlow }
    else { s with cursor := c }

/-- Characters that cannot start a plain scalar, at least not everywhere. -/
def isIndicator (c : Char) : Bool :=
  c == '-' || c == '?' || c == ':' || c == ',' || c == '[' || c == ']' || c == '{' || c == '}' ||
    c == '#' || c == '&' || c == '*' || c == '!' || c == '|' || c == '>' || c == '\'' ||
    c == '"' || c == '%' || c == '@' || c.toNat == 0x60

/-- Whether a plain scalar can start with `c`, followed by `next`. -/
def startsPlain (inFlow : Bool) (c : Char) (next : Option Char) : Bool :=
  !(isGap c || isBreak c || isIndicator c) ||
    (c == '-' && !next.any isGap) ||
    (!inFlow && (c == '?' || c == ':') && !isBoundary next)

/-- Cut off the token that starts with `c`, followed by `next`. -/
def token (s : Scan) (c : Char) (next : Option Char) : Except Fault Scan :=
  if s.cursor.column == 0 && c == '%' then s.directive
  else if s.cursor.atMark '-' then s.documentMark .documentStart
  else if s.cursor.atMark '.' then s.documentMark .documentEnd
  else if c == '[' then s.openFlow .flowSequenceStart
  else if c == '{' then s.openFlow .flowMappingStart
  else if c == ']' then s.closeFlow .flowSequenceEnd
  else if c == '}' then s.closeFlow .flowMappingEnd
  else if c == ',' then s.flowEntry
  else if c == '-' && isBoundary next then s.blockEntry
  else if c == '?' && (s.inFlow || isBoundary next) then s.explicitKey
  else if c == ':' && (s.inFlow || isBoundary next) then s.value
  else if c == '*' || c == '&' || c == '!' then .error .unsupportedProperty
  else if c == '|' && !s.inFlow then s.block true
  else if c == '>' && !s.inFlow then s.block false
  else if c == '\'' then s.quoted true
  else if c == '"' then s.quoted false
  else if startsPlain s.inFlow c next then s.plain
  else .error .strayCharacter

/-- Cut the rest of the text. Every round but the last reads a character. -/
def run : Nat → Scan → Except Fault Scan
  | 0, s => .ok s
  | fuel + 1, s => do
    let s := skipGaps s.bound s
    match s.cursor.rest with
    | [] => (s.closeBlocks (-1)).dropCandidate
    | c :: rest =>
      let s ← (s.closeBlocks s.cursor.column).token c rest.head?
      run fuel s

end Scan

/-- The tokens of a text. -/
def scan (text : List Char) : Except Fault (List Token) :=
  if text.all isAllowed then
    (Scan.run (text.length + 1) { cursor := { rest := text }, bound := text.length + 1 }).map
      (·.tokens.toList.flatten)
  else .error .forbiddenCharacter

end Token

end QuantumCompiler.Yaml
