/-!
# Doubles and exact rounding

A finite double is identified, up to its sign, by its *rank*: its position
among the non-negative doubles in increasing order, which is also its bit
pattern without the sign bit. The rank of infinity follows that of the largest
finite double.

* `Magnitude` is the exact value behind a rank: `mantissa * 2 ^ shift`, in units
  of the least positive double `2 ^ (-1074)`.
* `nearestRank num den` is the rank of the double nearest to `num / den`, ties
  going to the even rank. It is computed in exact arithmetic on naturals.
* `Value` tells apart what a `Float` can be; `valueOf` and `Value.toFloat` go
  between the two.
-/

namespace QuantumCompiler.Decimal

-- ---------------------------------------------------------------------------
-- Ranks and magnitudes
-- ---------------------------------------------------------------------------

/-- The width of the fraction field: ranks `k * 2 ^ 52` are powers of two. -/
def fractionBits : Nat := 52

/-- The unit of magnitudes is `2 ^ (-unitBits)`, the least positive double. -/
def unitBits : Nat := 1074

/-- The rank of infinity. -/
def infinityRank : Nat := 2047 * Nat.pow 2 fractionBits

/-- The value `mantissa * 2 ^ shift` in units of `2 ^ (-unitBits)`. -/
structure Magnitude where
  /-- The significant bits. -/
  mantissa : Nat
  /-- The binary exponent above the least one. -/
  shift : Nat
  deriving DecidableEq, Repr

/-- The exact value of the double with a given rank. -/
def Magnitude.ofRank (rank : Nat) : Magnitude :=
  let exponent := rank / Nat.pow 2 fractionBits
  let fraction := rank % Nat.pow 2 fractionBits
  if exponent = 0 then ⟨fraction, 0⟩ else ⟨Nat.pow 2 fractionBits + fraction, exponent - 1⟩

/-- The value as a multiple of the unit. -/
def Magnitude.units (m : Magnitude) : Nat :=
  m.mantissa * Nat.pow 2 m.shift

-- ---------------------------------------------------------------------------
-- Rounding
-- ---------------------------------------------------------------------------

/-- The integer nearest to `num / den`, a half going to the even one. -/
def roundDiv (num den : Nat) : Nat :=
  let q := num / den
  let r := num % den
  if 2 * r < den then q
  else if den < 2 * r then q + 1
  else q + q % 2

/-- The rank of the double nearest to `num / den`.

The shift is chosen so that the mantissa has 53 bits, or fewer at the lower end
of the range. A mantissa that rounds up to `2 ^ 53` needs no care: adding it to
the shifted field carries into the exponent. -/
def nearestRank (num den : Nat) : Nat :=
  let scaled := num * Nat.pow 2 unitBits
  let shift := (scaled / den).log2 - fractionBits
  min infinityRank (shift * Nat.pow 2 fractionBits + roundDiv scaled (den * Nat.pow 2 shift))

-- ---------------------------------------------------------------------------
-- Values
-- ---------------------------------------------------------------------------

/-- What a double can be. A rank of a finite value is below `infinityRank`. -/
inductive Value where
  | nan
  | infinite (negative : Bool)
  | finite (negative : Bool) (rank : Nat)
  deriving DecidableEq, Repr

/-- The weight of the sign bit. -/
def signBit : Nat := Nat.pow 2 63

/-- The value of a bit pattern. -/
def Value.ofBits (bits : Nat) : Value :=
  let negative := decide (signBit ≤ bits)
  let rank := bits % signBit
  if rank < infinityRank then .finite negative rank
  else if rank = infinityRank then .infinite negative
  else .nan

/-- The bit pattern of a value; there is one pattern for all that is not a number. -/
def Value.bits : Value → Nat
  | .nan => infinityRank + Nat.pow 2 (fractionBits - 1)
  | .infinite negative => (if negative then signBit else 0) + infinityRank
  | .finite negative rank => (if negative then signBit else 0) + rank

/-- The value of a double. -/
def valueOf (x : Float) : Value :=
  Value.ofBits x.toBits.toNat

/-- The double with a given value. -/
def Value.toFloat (v : Value) : Float :=
  Float.ofBits v.bits.toUInt64

/-- A value of the given sign from a rank, infinity included. -/
def Value.ofRank (negative : Bool) (rank : Nat) : Value :=
  if rank < infinityRank then .finite negative rank else .infinite negative

/-- Neither infinite nor undefined. -/
def isFinite (x : Float) : Bool :=
  match valueOf x with
  | .finite _ _ => true
  | _ => false

end QuantumCompiler.Decimal
