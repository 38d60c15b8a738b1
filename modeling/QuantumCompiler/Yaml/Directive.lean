import QuantumCompiler.Text.Numeral
import QuantumCompiler.Yaml.Scalar

/-!
# Directives

A line that starts with a percent sign instructs the reader of the document after
it. There are two directives:

* `%YAML` and a version, which must be 1.1 or 1.2;
* `%TAG`, a handle and what it stands for. It has no effect, as tags are refused.
-/

namespace QuantumCompiler.Yaml

open QuantumCompiler.Text

/-- A directive. -/
inductive Directive where
  | version
  | tag (handle : List Char)
  deriving DecidableEq, Repr

namespace Directive

/-- A character of a name. -/
def isNameChar (c : Char) : Bool :=
  c.isAlphanum || c == '_' || c == '-'

-- ---------------------------------------------------------------------------
-- Versions
-- ---------------------------------------------------------------------------

/-- The longest run of digits in a version. -/
def maxVersionDigits : Nat := 9

/-- Pass one number of a version, leading zeros included. -/
def readVersionNumber (c : Cursor) : Except Fault (Nat × Cursor) :=
  let digits := c.rest.takeWhile Char.isDigit
  if digits.isEmpty || maxVersionDigits < digits.length then .error .badDirective
  else .ok (numeralValue digits, c.advance digits.length)

/-- Pass a version that is supported. -/
def readVersion (c : Cursor) : Except Fault Cursor := do
  let (major, c) ← readVersionNumber c
  if !c.at? '.' then throw .badDirective
  let (minor, c) ← readVersionNumber (c.advance 1)
  if major = 1 ∧ (minor = 1 ∨ minor = 2) then return c else throw .badDirective

-- ---------------------------------------------------------------------------
-- Tags
-- ---------------------------------------------------------------------------

/-- Pass the handle of a tag: an exclamation mark, or a name between two. -/
def readHandle (c : Cursor) : Except Fault (List Char × Cursor) :=
  if !c.at? '!' then .error .badDirective
  else
    let name := (c.rest.drop 1).takeWhile isNameChar
    let after := c.advance (1 + name.length)
    if after.at? '!' then .ok ('!' :: (name ++ ['!']), after.advance 1)
    else if name.isEmpty then .ok (['!'], after)
    else .error .badDirective

/-- A character of what a handle stands for, the escape mark apart. -/
def isTagChar (c : Char) : Bool :=
  isNameChar c || [';', '/', '?', ':', '@', '&', '=', '+', '$', '.', '!', '~', '*', '\'', '(',
    ')', ',', '[', ']'].contains c

/-- The byte that an escape at the head of a text stands for. -/
def escapedByte? : List Char → Option Nat
  | '%' :: a :: b :: _ => do return 16 * (← hexValue? a) + (← hexValue? b)
  | _ => none

/-- The number of bytes of a character, by the first of them. -/
def byteCount? (first : Nat) : Option Nat :=
  if first < 0x80 then some 1
  else if 0xC0 ≤ first && first < 0xE0 then some 2
  else if 0xE0 ≤ first && first < 0xF0 then some 3
  else if 0xF0 ≤ first && first < 0xF8 then some 4
  else none

/-- The length of an escaped character, byte by byte, at the head of a text. -/
def escapeLength? (cs : List Char) : Option Nat := do
  let count ← byteCount? (← escapedByte? cs)
  let later := (List.range (count - 1)).map fun i => escapedByte? (cs.drop (3 * (i + 1)))
  if later.all fun b => b.any fun n => 0x80 ≤ n && n < 0xC0 then return 3 * count else none

/-- The length of what a handle stands for, at the head of a text. -/
def tagLength? : Nat → List Char → Option Nat
  | 0, _ => some 0
  | _, [] => some 0
  | fuel + 1, c :: cs =>
    if c == '%' then do
      let n ← escapeLength? (c :: cs)
      return n + (← tagLength? fuel ((c :: cs).drop n))
    else if isTagChar c then (tagLength? fuel cs).map (· + 1)
    else some 0

/-- Pass a handle and what it stands for. -/
def readTag (c : Cursor) : Except Fault (List Char × Cursor) := do
  let (handle, c) ← readHandle c
  if !c.head?.any isGap then throw .badDirective
  let c := c.skipWhile isGap
  match tagLength? c.rest.length c.rest with
  | some n =>
    let after := c.advance n
    if n = 0 || !isBoundary after.head? then throw .badDirective
    return (handle, after)
  | none => throw .badDirective

-- ---------------------------------------------------------------------------
-- Directives
-- ---------------------------------------------------------------------------

/-- Pass the rest of the line of a directive: gaps, a comment, the line break. -/
def finishLine (c : Cursor) : Except Fault Cursor :=
  let c := c.skipWhile isGap
  let c := if c.at? '#' then c.skipWhile (fun ch => !isBreak ch) else c
  if c.rest.isEmpty then .ok c
  else if c.head?.any isBreak then .ok c.skipBreak
  else .error .badDirective

/-- Read a directive after its percent sign. -/
def read (c : Cursor) : Except Fault (Directive × Cursor) := do
  let name := c.rest.takeWhile isNameChar
  let c := c.advance name.length
  if !isBoundary c.head? then throw .badDirective
  let c := c.skipWhile isGap
  if name == ['Y', 'A', 'M', 'L'] then
    return (.version, ← finishLine (← readVersion c))
  else if name == ['T', 'A', 'G'] then
    let (handle, c) ← readTag c
    return (.tag handle, ← finishLine c)
  else throw .badDirective

end Directive

end QuantumCompiler.Yaml
