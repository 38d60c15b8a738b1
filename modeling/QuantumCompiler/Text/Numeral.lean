/-!
# Natural numbers as decimal numerals

`numeral` writes a number in base ten, `numeralValue` reads a run of digits.
Qubit indices, counts and limits are machine words: `readWord?` accepts a
non-empty run of digits, leading zeros included, whose value is below `2 ^ 64`.
-/

namespace QuantumCompiler.Text

/-- The number of values of a machine word; indices and limits are below it. -/
def wordSize : Nat := Nat.pow 2 64

/-- The decimal digits of a number, most significant first. -/
def numeral (n : Nat) : List Char :=
  Nat.toDigits 10 n

/-- The value of a run of digits read in base ten. -/
def numeralValue (cs : List Char) : Nat :=
  Nat.ofDigitChars 10 cs 0

/-- A non-empty run of digits and nothing else. -/
def isNumeral (cs : List Char) : Bool :=
  !cs.isEmpty && cs.all Char.isDigit

/-- The machine word that a numeral denotes, if it fits. -/
def readWord? (cs : List Char) : Option Nat :=
  if isNumeral cs && decide (numeralValue cs < wordSize) then some (numeralValue cs) else none

end QuantumCompiler.Text
