import QuantumCompiler.Decimal.Binary
import QuantumCompiler.Text.Numeral

/-!
# Decimal literals

A literal is an optional sign followed by one of

* `inf`, `infinity` or `nan`, in any case;
* digits with an optional point, at least one digit in all, and an optional
  exponent `e` or `E` with an optional sign and at least one digit.

`readFloat?` gives the double nearest to what the literal says.
-/

namespace QuantumCompiler.Decimal

open QuantumCompiler.Text

/-- The number `digits * 10 ^ exponent`. -/
structure Scaled where
  /-- The digits, read as one number. -/
  digits : Nat
  /-- The power of ten that scales them. -/
  exponent : Int
  deriving DecidableEq, Repr

/-- The rank of the nearest double. The first tests keep the powers of ten small:
beyond them the number is zero, too large or too small whatever the digits are. -/
def Scaled.rank (d : Scaled) : Nat :=
  if d.digits = 0 then 0
  else if 400 < d.exponent then infinityRank
  else if d.exponent < -(400 + (d.digits.log2 : Int)) then 0
  else if 0 ≤ d.exponent then nearestRank (d.digits * Nat.pow 10 d.exponent.toNat) 1
  else nearestRank d.digits (Nat.pow 10 (-d.exponent).toNat)

/-- Digits with an optional sign in front, nothing else. -/
def readExponent? : List Char → Option Int
  | '+' :: cs => if isNumeral cs then some (numeralValue cs) else none
  | '-' :: cs => if isNumeral cs then some (-(numeralValue cs : Int)) else none
  | cs => if isNumeral cs then some (numeralValue cs) else none

/-- The power of ten after the digits: none, or a mark and an exponent. -/
def readScale? : List Char → Option Int
  | [] => some 0
  | c :: cs => if c == 'e' || c == 'E' then readExponent? cs else none

/-- An unsigned number: whole digits, an optional point with more digits, an
optional exponent. -/
def readDecimal? (cs : List Char) : Option Scaled :=
  let whole := cs.takeWhile Char.isDigit
  let rest := cs.dropWhile Char.isDigit
  let (fraction, scale) :=
    match rest with
    | '.' :: r => (r.takeWhile Char.isDigit, r.dropWhile Char.isDigit)
    | r => ([], r)
  if (whole ++ fraction).isEmpty then none
  else (readScale? scale).map fun e => ⟨numeralValue (whole ++ fraction), e - fraction.length⟩

/-- The value of an unsigned literal under the given sign. -/
def readMagnitude? (negative : Bool) (cs : List Char) : Option Value :=
  let word := cs.map Char.toLower
  if word == ['i', 'n', 'f'] || word == ['i', 'n', 'f', 'i', 'n', 'i', 't', 'y'] then
    some (.infinite negative)
  else if word == ['n', 'a', 'n'] then some .nan
  else (readDecimal? cs).map fun d => Value.ofRank negative d.rank

/-- The value of a literal. -/
def readValue? : List Char → Option Value
  | '-' :: cs => readMagnitude? true cs
  | '+' :: cs => readMagnitude? false cs
  | cs => readMagnitude? false cs

/-- The double that a literal denotes. -/
def readFloat? (cs : List Char) : Option Float :=
  (readValue? cs).map Value.toFloat

end QuantumCompiler.Decimal
