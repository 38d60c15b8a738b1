import QuantumCompiler.Decimal.Shortest

/-!
# How numbers are written

Three layouts are in use:

* `plain` — parameters in program text and annealer weights: the fewest digits,
  never an exponent, no point after a whole number;
* `sixPlaces` — parameters of native gates: six decimal places, the exact value
  rounded with a half going to the even neighbour;
* `scientific` — numbers in a settings file: the fewest digits, always with a
  point or an exponent; positional from `0.00001` up to `10 ^ 16`.

The sign of zero is kept in all three.
-/

namespace QuantumCompiler.Decimal

open QuantumCompiler.Text

/-- A minus sign where one is due. -/
def signText (negative : Bool) : List Char :=
  if negative then ['-'] else []

/-- Digits scaled by a power of ten, without an exponent. -/
def positional (digits : List Char) (e : Int) : List Char :=
  if 0 ≤ e then digits ++ List.replicate e.toNat '0'
  else
    let places := (-e).toNat
    if places < digits.length then
      digits.take (digits.length - places) ++ '.' :: digits.drop (digits.length - places)
    else '0' :: '.' :: (List.replicate (places - digits.length) '0' ++ digits)

/-- The shortest decimal of a rank, zero included. -/
def decimalOfRank (tie : Tie) (rank : Nat) : Scaled :=
  if rank = 0 then ⟨0, 0⟩ else shortest tie rank

-- ---------------------------------------------------------------------------
-- Program text
-- ---------------------------------------------------------------------------

/-- A finite magnitude in program text. Of two equally near shortest decimals the
larger is written. -/
def plainMagnitude (rank : Nat) : List Char :=
  let d := decimalOfRank .up rank
  positional (numeral d.digits) d.exponent

/-- A value in program text. -/
def plainValue : Value → List Char
  | .nan => ['N', 'a', 'N']
  | .infinite negative => signText negative ++ ['i', 'n', 'f']
  | .finite negative rank => signText negative ++ plainMagnitude rank

/-- A number in program text. -/
def plain (x : Float) : List Char :=
  plainValue (valueOf x)

-- ---------------------------------------------------------------------------
-- Native gate parameters
-- ---------------------------------------------------------------------------

/-- Six decimal places of a finite magnitude. -/
def sixPlacesMagnitude (rank : Nat) : List Char :=
  let millionths := roundDiv ((Magnitude.ofRank rank).units * Nat.pow 10 6) (Nat.pow 2 unitBits)
  let fraction := numeral (millionths % Nat.pow 10 6)
  numeral (millionths / Nat.pow 10 6) ++ '.' :: (List.replicate (6 - fraction.length) '0' ++ fraction)

/-- A value with six decimal places. -/
def sixPlacesValue : Value → List Char
  | .nan => ['N', 'a', 'N']
  | .infinite negative => signText negative ++ ['i', 'n', 'f']
  | .finite negative rank => signText negative ++ sixPlacesMagnitude rank

/-- A number with six decimal places. -/
def sixPlaces (x : Float) : List Char :=
  sixPlacesValue (valueOf x)

-- ---------------------------------------------------------------------------
-- Settings
-- ---------------------------------------------------------------------------

/-- An integer in decimal. -/
def integerText (n : Int) : List Char :=
  signText (decide (n < 0)) ++ numeral n.natAbs

/-- A finite magnitude in a settings file. Of two equally near shortest decimals
the one with an even last digit is written. -/
def scientificMagnitude (rank : Nat) : List Char :=
  let d := decimalOfRank .even rank
  let digits := numeral d.digits
  let point := (digits.length : Int) + d.exponent
  if 0 ≤ d.exponent ∧ point ≤ 16 then positional digits d.exponent ++ ['.', '0']
  else if -5 < point ∧ point ≤ 16 then positional digits d.exponent
  else
    match digits with
    | [] => []
    | [c] => c :: 'e' :: integerText (point - 1)
    | c :: cs => c :: '.' :: (cs ++ 'e' :: integerText (point - 1))

/-- A number in a settings file. -/
def scientific (x : Float) : List Char :=
  match valueOf x with
  | .nan => ['.', 'n', 'a', 'n']
  | .infinite negative => signText negative ++ ['.', 'i', 'n', 'f']
  | .finite negative rank => signText negative ++ scientificMagnitude rank

end QuantumCompiler.Decimal
