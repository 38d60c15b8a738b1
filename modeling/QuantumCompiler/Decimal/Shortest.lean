import QuantumCompiler.Decimal.Reader

/-!
# The fewest digits that read back

`shortest` finds, for a positive finite double, a decimal with as few digits as
possible that the reader takes back to the same double. For one digit, two, and
so on it tries the two neighbours of the exact value among the decimals with
that many digits. If both read back the nearer one is taken, and a `Tie` says
what happens when neither is nearer.

Seventeen digits identify every double. The search is bounded by that number
and ends with the exact value, which always reads back.
-/

namespace QuantumCompiler.Decimal

/-- Which of two equally near decimals is chosen. -/
inductive Tie where
  /-- the larger one -/
  | up
  /-- the one with an even last digit -/
  | even
  deriving DecidableEq, Repr

/-- The decimal without trailing zeros, at most `fuel` of them. -/
def stripZeros : Nat → Scaled → Scaled
  | 0, d => d
  | fuel + 1, d =>
    if d.digits ≠ 0 ∧ d.digits % 10 = 0 then stripZeros fuel ⟨d.digits / 10, d.exponent + 1⟩
    else d

/-- The exact value of a magnitude as a decimal. -/
def Magnitude.exact (m : Magnitude) : Scaled :=
  if unitBits ≤ m.shift then ⟨m.mantissa * Nat.pow 2 (m.shift - unitBits), 0⟩
  else ⟨m.mantissa * Nat.pow 5 (unitBits - m.shift), -((unitBits - m.shift : Nat) : Int)⟩

/-- All positive doubles exceed `10 ^ (-guardDigits)`. -/
def guardDigits : Nat := 400

/-- The number of decimal places before the point: the least `k` with
`m < 10 ^ k`, which is negative or zero for values below one tenth. -/
def Magnitude.places (m : Magnitude) : Int :=
  let whole := m.units * Nat.pow 10 guardDigits / Nat.pow 2 unitBits
  (Text.numeral whole).length - (guardDigits : Int)

/-- The value divided by `10 ^ e`, as a fraction of naturals. -/
def Magnitude.over (m : Magnitude) (e : Int) : Nat × Nat :=
  (m.units * Nat.pow 10 (-e).toNat, Nat.pow 2 unitBits * Nat.pow 10 e.toNat)

/-- The decimal with its last digit in place `e` that is nearest to the double of
rank `rank` and reads back as that double, if either neighbour does. -/
def candidate? (tie : Tie) (rank : Nat) (e : Int) : Option Scaled :=
  let (num, den) := (Magnitude.ofRank rank).over e
  let below := num / den
  let lower := stripZeros 17 ⟨below, e⟩
  let upper := stripZeros 17 ⟨below + 1, e⟩
  let twice := 2 * num
  let middle := (2 * below + 1) * den
  let preferLower :=
    decide (twice < middle) ||
      (twice == middle && tie == .even && below % 2 == 0)
  if lower.rank = rank ∧ (upper.rank ≠ rank ∨ preferLower) then some lower
  else if upper.rank = rank then some upper
  else none

/-- A shortest decimal that reads back as the double of rank `rank`. -/
def shortest (tie : Tie) (rank : Nat) : Scaled :=
  let m := Magnitude.ofRank rank
  let k := m.places
  let found := (List.range 17).findSome? fun n => candidate? tie rank (k - (n + 1 : Nat))
  found.getD m.exact

end QuantumCompiler.Decimal
