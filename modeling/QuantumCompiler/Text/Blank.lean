/-!
# Blank characters, words and lines

Program text is cut in three ways, all of them on lists of characters:

* `trim` drops the blanks at both ends of a text;
* `words` are the maximal runs of characters that are not blank;
* `lines` are ended by a line feed, or by a carriage return and a line feed.

A character is blank if Unicode gives it the property `White_Space`. Only the
line feed ends a line: the other line separators of Unicode are mere blanks.
-/

namespace QuantumCompiler.Text

-- ---------------------------------------------------------------------------
-- Blanks
-- ---------------------------------------------------------------------------

/-- Membership in the 25 characters with the Unicode property `White_Space`. -/
def isBlank (c : Char) : Bool :=
  let n := c.toNat
  (0x09 ≤ n && n ≤ 0x0D) || n == 0x20 || n == 0x85 || n == 0xA0 || n == 0x1680 ||
    (0x2000 ≤ n && n ≤ 0x200A) || n == 0x2028 || n == 0x2029 || n == 0x202F ||
    n == 0x205F || n == 0x3000

/-- The text without its leading blanks. -/
def trimLeft (cs : List Char) : List Char :=
  cs.dropWhile isBlank

/-- The text without its trailing blanks. -/
def trimRight (cs : List Char) : List Char :=
  (trimLeft cs.reverse).reverse

/-- The text without the blanks at either end. -/
def trim (cs : List Char) : List Char :=
  trimRight (trimLeft cs)

-- ---------------------------------------------------------------------------
-- Words and lines
-- ---------------------------------------------------------------------------

/-- The maximal runs of characters that are not blank. -/
def words (cs : List Char) : List (List Char) :=
  (cs.splitOnP isBlank).filter fun w => !w.isEmpty

/-- A line without the carriage return that precedes its line feed. -/
def dropReturn (cs : List Char) : List Char :=
  if cs.getLast? = some '\r' then cs.dropLast else cs

/-- The lines of a text. A final line without a line feed counts unless it is
empty, and keeps a carriage return at its end. -/
def lines (cs : List Char) : List (List Char) :=
  let ps := cs.splitOn '\n'
  ps.dropLast.map dropReturn ++ (ps.getLast?.toList.filter fun l => !l.isEmpty)

end QuantumCompiler.Text
