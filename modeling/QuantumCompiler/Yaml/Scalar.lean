import QuantumCompiler.Yaml.Cursor

/-!
# Scalars in a YAML text

A scalar is written plain, in single or double quotation marks, or as a block.
The functions here read one scalar at a cursor and give its text and the cursor
after it.

Line breaks inside plain and quoted scalars are folded: a single one becomes a
space, and of several the first is dropped. In a literal block all line breaks
stay; in a folded block those between two lines that are not indented are
folded.
-/

namespace QuantumCompiler.Yaml

-- ---------------------------------------------------------------------------
-- Gaps
-- ---------------------------------------------------------------------------

/-- The spaces and line breaks between two words of a scalar. -/
structure Gap where
  /-- Spaces and tabs before the first line break. -/
  spaces : List Char := []
  /-- Whether there was a line break. -/
  broken : Bool := false
  /-- The first line break. -/
  firstBreak : List Char := []
  /-- The line breaks after it. -/
  laterBreaks : List Char := []

/-- What a gap contributes to the text of the scalar. -/
def Gap.folded (g : Gap) : List Char :=
  if !g.broken then g.spaces
  else if g.firstBreak == ['\n'] then
    if g.laterBreaks.isEmpty then [' '] else g.laterBreaks
  else g.firstBreak ++ g.laterBreaks

/-- Read the gap at the cursor. After a line break a tab left of column `indent` is
refused. -/
def readGap (indent : Int) : Nat → Gap → Cursor → Except Fault (Gap × Cursor)
  | 0, g, c => .ok (g, c)
  | fuel + 1, g, c =>
    match c.rest with
    | [] => .ok (g, c)
    | ch :: _ =>
      if isBreak ch then
        let g :=
          if g.broken then { g with laterBreaks := g.laterBreaks ++ c.breakText }
          else { g with spaces := [], broken := true, firstBreak := c.breakText }
        readGap indent fuel g c.skipBreak
      else if isGap ch then
        if g.broken then
          if ch == '\t' && decide ((c.column : Int) < indent) then .error .misplacedTab
          else readGap indent fuel g (c.advance 1)
        else readGap indent fuel { g with spaces := g.spaces ++ [ch] } (c.advance 1)
      else .ok (g, c)

-- ---------------------------------------------------------------------------
-- Plain scalars
-- ---------------------------------------------------------------------------

/-- A character with a meaning of its own inside brackets. -/
def isFlowMark (c : Char) : Bool :=
  c == ',' || c == '[' || c == ']' || c == '{' || c == '}'

/-- The length of the run of characters that continue a plain scalar, added to `n`. -/
def plainRun (inFlow : Bool) (n : Nat) : List Char → Except Fault Nat
  | [] => .ok n
  | c :: cs =>
    if isGap c || isBreak c then .ok n
    else if inFlow && c == ':' && cs.head?.any fun next => isFlowMark next || next == '?' then
      .error .strayColon
    else if c == ':' && isBoundary cs.head? then .ok n
    else if inFlow && isFlowMark c then .ok n
    else plainRun inFlow (n + 1) cs

/-- The text of a plain scalar, the cursor after it, and whether a line break was
passed to get there. The text goes in and comes out with its last character first. -/
def readPlain (inFlow : Bool) (indent : Int) :
    Nat → List Char → Gap → Cursor → Except Fault (List Char × Bool × Cursor)
  | 0, text, gap, c => .ok (text, gap.broken, c)
  | fuel + 1, text, gap, c =>
    if c.atDocumentMark || c.at? '#' then .ok (text, gap.broken, c)
    else do
      let n ← plainRun inFlow 0 c.rest
      let (text, gap) :=
        if n = 0 then (text, gap)
        else ((c.rest.take n).reverse ++ (gap.folded.reverse ++ text), {})
      let c := c.advance n
      match c.head? with
      | none => return (text, gap.broken, c)
      | some ch =>
        if !(isGap ch || isBreak ch) then return (text, gap.broken, c)
        else
          let (gap, c) ← readGap (indent + 1) fuel gap c
          if !inFlow && decide ((c.column : Int) < indent + 1) then return (text, gap.broken, c)
          else readPlain inFlow indent fuel text gap c

-- ---------------------------------------------------------------------------
-- Quoted scalars
-- ---------------------------------------------------------------------------

/-- The value of a hexadecimal digit. -/
def hexValue? (c : Char) : Option Nat :=
  if '0' ≤ c && c ≤ '9' then some (c.toNat - '0'.toNat)
  else if 'a' ≤ c && c ≤ 'f' then some (c.toNat - 'a'.toNat + 10)
  else if 'A' ≤ c && c ≤ 'F' then some (c.toNat - 'A'.toNat + 10)
  else none

/-- The character that a one-letter escape stands for. -/
def simpleEscape? : Char → Option Char
  | '0' => some (Char.ofNat 0x00)
  | 'a' => some (Char.ofNat 0x07)
  | 'b' => some (Char.ofNat 0x08)
  | 't' => some '\t'
  | '\t' => some '\t'
  | 'n' => some '\n'
  | 'v' => some (Char.ofNat 0x0B)
  | 'f' => some (Char.ofNat 0x0C)
  | 'r' => some '\r'
  | 'e' => some (Char.ofNat 0x1B)
  | ' ' => some ' '
  | '"' => some '"'
  | '/' => some '/'
  | '\\' => some '\\'
  | 'N' => some (Char.ofNat 0x85)
  | '_' => some (Char.ofNat 0xA0)
  | 'L' => some (Char.ofNat 0x2028)
  | 'P' => some (Char.ofNat 0x2029)
  | _ => none

/-- The number of hexadecimal digits after an escape letter. -/
def hexWidth? : Char → Option Nat
  | 'x' => some 2
  | 'u' => some 4
  | 'U' => some 8
  | _ => none

/-- The character at a code point, if it is one. -/
def charAt? (n : Nat) : Option Char :=
  if n < 0xD800 || (0xDFFF < n && n < 0x110000) then some (Char.ofNat n) else none

/-- The character of an escape after its backslash, and the escape's length. -/
def readEscape? (cs : List Char) : Option (Char × Nat) :=
  match cs with
  | [] => none
  | c :: rest =>
    match hexWidth? c with
    | none => (simpleEscape? c).map (·, 1)
    | some width => do
      let digits ← (rest.take width).mapM hexValue?
      if digits.length = width then
        let ch ← charAt? (digits.foldl (fun v d => 16 * v + d) 0)
        return (ch, width + 1)
      else none

/-- Where a run of characters in a quoted scalar stopped. -/
inductive RunEnd where
  /-- at the closing mark or at a gap -/
  | boundary
  /-- after an escaped line break -/
  | joined

/-- Read characters of a quoted scalar up to its closing mark, a gap or an escaped
line break. The text has its last character first. -/
def readQuotedRun (single : Bool) :
    Nat → List Char → Cursor → Except Fault (List Char × RunEnd × Cursor)
  | 0, text, c => .ok (text, .boundary, c)
  | fuel + 1, text, c =>
    match c.rest with
    | [] => .ok (text, .boundary, c)
    | ch :: rest =>
      if isGap ch || isBreak ch then .ok (text, .boundary, c)
      else if single then
        if ch == '\'' then
          if rest.head? == some '\'' then readQuotedRun single fuel ('\'' :: text) (c.advance 2)
          else .ok (text, .boundary, c)
        else readQuotedRun single fuel (ch :: text) (c.advance 1)
      else if ch == '"' then .ok (text, .boundary, c)
      else if ch == '\\' then
        if rest.head?.any isBreak then .ok (text, .joined, (c.advance 1).skipBreak)
        else
          match readEscape? rest with
          | some (e, n) => readQuotedRun single fuel (e :: text) (c.advance (n + 1))
          | none => .error .badEscape
      else readQuotedRun single fuel (ch :: text) (c.advance 1)

/-- Read a quoted scalar after its opening mark. The text so far has its last character
first. -/
def readQuoted (single : Bool) : Nat → List Char → Cursor → Except Fault (List Char × Cursor)
  | 0, _, _ => .error .unfinishedScalar
  | fuel + 1, text, c =>
    if c.atDocumentMark || c.rest.isEmpty then .error .unfinishedScalar
    else do
      let (text, stop, c) ← readQuotedRun single fuel text c
      if c.at? (if single then '\'' else '"') then return (text.reverse, c.advance 1)
      else
        let joined := match stop with
          | .joined => true
          | .boundary => false
        let (gap, c) ← readGap 0 fuel { broken := joined } c
        -- an escaped line break leaves no first break behind: later ones all count
        readQuoted single fuel (gap.folded.reverse ++ text) c

-- ---------------------------------------------------------------------------
-- Block scalars
-- ---------------------------------------------------------------------------

/-- What becomes of the line breaks at the end of a block. -/
inductive Chomping where
  /-- none is kept -/
  | strip
  /-- one is kept -/
  | clip
  /-- all are kept -/
  | keep
  deriving DecidableEq

/-- The chomping that a mark asks for. -/
def chomping? : Option Char → Option Chomping
  | some '-' => some .strip
  | some '+' => some .keep
  | _ => none

/-- The header of a block: chomping and, if given, the indentation. -/
def readBlockHeader (c : Cursor) : Except Fault (Chomping × Option Nat × Cursor) :=
  let digit? (c : Cursor) : Option Nat :=
    c.head?.bind fun ch => if '0' ≤ ch && ch ≤ '9' then some (ch.toNat - '0'.toNat) else none
  let finish (chomp : Chomping) (indent : Option Nat) (c : Cursor) :=
    if indent == some 0 then .error .badBlockHeader else .ok (chomp, indent, c)
  match chomping? c.head? with
  | some chomp =>
    let c := c.advance 1
    match digit? c with
    | some n => finish chomp (some n) (c.advance 1)
    | none => finish chomp none c
  | none =>
    match digit? c with
    | some n =>
      let c := c.advance 1
      match chomping? c.head? with
      | some chomp => finish chomp (some n) (c.advance 1)
      | none => finish .clip (some n) c
    | none => finish .clip none c

/-- Pass the indentation and the empty lines before a line of a block. An indentation
of zero stands for one that is not known yet. Gives the widest indentation seen. -/
def readBlockBreaks (indent : Nat) :
    Nat → Nat → List Char → Cursor → Except Fault (Nat × List Char × Cursor)
  | 0, widest, breaks, c => .ok (widest, breaks, c)
  | fuel + 1, widest, breaks, c =>
    let spaces := (c.rest.takeWhile (· == ' ')).length
    let c := c.advance (if indent = 0 then spaces else min spaces (indent - c.column))
    let widest := max widest c.column
    if (indent = 0 || c.column < indent) && c.at? '\t' then .error .misplacedTab
    else if c.head?.any isBreak then
      readBlockBreaks indent fuel widest (breaks ++ c.breakText) c.skipBreak
    else .ok (widest, breaks, c)

/-- The part of a block that has been read. -/
structure BlockText where
  /-- The text without the last line break, its last character first. -/
  text : List Char := []
  /-- The line break after the last line. -/
  lineBreak : List Char := []
  /-- Whether the last line started with a gap. -/
  indented : Bool := false
  /-- The empty lines after it. -/
  emptyLines : List Char := []

/-- Read the lines of a block at its indentation. -/
def readBlockLines (literal : Bool) (indent : Nat) :
    Nat → BlockText → Cursor → Except Fault (BlockText × Cursor)
  | 0, b, c => .ok (b, c)
  | fuel + 1, b, c =>
    if c.column ≠ indent || c.rest.isEmpty then .ok (b, c)
    else do
      let indented := c.head?.any isGap
      let joint :=
        if !literal && b.lineBreak == ['\n'] && !b.indented && !indented then
          if b.emptyLines.isEmpty then [' '] else []
        else b.lineBreak
      let line := c.rest.takeWhile fun ch => !isBreak ch
      let c := c.advance line.length
      let lineBreak := c.breakText
      let c := if c.rest.isEmpty then c else c.skipBreak
      let (_, emptyLines, c) ← readBlockBreaks indent fuel 0 [] c
      readBlockLines literal indent fuel
        ⟨(joint ++ b.emptyLines ++ line).reverse ++ b.text, lineBreak, indented, emptyLines⟩ c

/-- Read a block after its mark. `parent` is the indentation of the collection that
holds it, negative if there is none. -/
def readBlock (literal : Bool) (parent : Int) (c : Cursor) :
    Except Fault (List Char × Cursor) := do
  let (chomp, given, c) ← readBlockHeader c
  let c := c.skipWhile isGap
  let c := if c.at? '#' then c.skipWhile (fun ch => !isBreak ch) else c
  if !(c.rest.isEmpty || c.head?.any isBreak) then throw .badBlockHeader
  let c := if c.rest.isEmpty then c else c.skipBreak
  let known := match given with
    | some n => (max parent 0).toNat + n
    | none => 0
  let (widest, emptyLines, c) ← readBlockBreaks known c.rest.length 0 [] c
  let indent := if known = 0 then max widest (max (parent + 1).toNat 1) else known
  let (b, c) ← readBlockLines literal indent c.rest.length { emptyLines := emptyLines } c
  let tail := match chomp with
    | .strip => []
    | .clip => b.lineBreak
    | .keep => b.lineBreak ++ b.emptyLines
  return (b.text.reverse ++ tail, c)

end QuantumCompiler.Yaml
