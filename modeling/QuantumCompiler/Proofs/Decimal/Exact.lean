import QuantumCompiler.Proofs.Decimal.Bits

/-!
# The numbers that doubles stand for

A finite double stands for a rational number. Arithmetic in doubles is arithmetic in these
numbers followed by rounding, so a computation in doubles gives the exact result as long as
none of its steps has to round.

* `exactNumber` — the rational number of a double;
* `Unrounded.exactNumber_foldl` — a computation without rounding ends at the exact result.
-/

namespace QuantumCompiler.Decimal

/-- The rational number that a finite double stands for. -/
def exactNumber (x : Float) : ℚ :=
  match valueOf x with
  | .finite negative rank =>
    (if negative then -1 else 1) * ((Magnitude.ofRank rank).units / (Nat.pow 2 unitBits : Nat))
  | _ => 0

example : exactNumber (-0.75) = -3 / 4 := by decide +kernel

theorem exactNumber_of_finite {x : Float} {negative : Bool} {rank : Nat}
    (h : valueOf x = .finite negative rank) :
    exactNumber x = (if negative then -1 else 1) *
      ((Magnitude.ofRank rank).units / (Nat.pow 2 unitBits : Nat)) := by
  rw [exactNumber, h]

theorem exactNumber_zero : exactNumber 0.0 = 0 := by decide +kernel

theorem exactNumber_neg_zero : exactNumber (-0.0) = 0 := by decide +kernel

theorem exactNumber_one : exactNumber 1.0 = 1 := by decide +kernel

/-- A computation in doubles and one in rational numbers take the same steps, from the first
value on: no step rounds. -/
def Unrounded (step : Float → Float → Float) (exactStep : ℚ → ℚ → ℚ) : Float → List Float → Prop
  | _, [] => True
  | x, y :: ys => exactNumber (step x y) = exactStep (exactNumber x) (exactNumber y) ∧
      Unrounded step exactStep (step x y) ys

instance Unrounded.decidable (step : Float → Float → Float) (exactStep : ℚ → ℚ → ℚ) :
    ∀ (x : Float) (ys : List Float), Decidable (Unrounded step exactStep x ys)
  | _, [] => isTrue trivial
  | x, y :: ys =>
    have : Decidable (Unrounded step exactStep (step x y) ys) := decidable step exactStep _ ys
    inferInstanceAs (Decidable (_ ∧ _))

theorem Unrounded.exactNumber_foldl {step : Float → Float → Float} {exactStep : ℚ → ℚ → ℚ}
    {x : Float} {ys : List Float} (h : Unrounded step exactStep x ys) :
    exactNumber (ys.foldl step x) = (ys.map exactNumber).foldl exactStep (exactNumber x) := by
  induction ys generalizing x with
  | nil => rfl
  | cons y ys ih =>
    obtain ⟨hstep, hrest⟩ := h
    rw [List.foldl_cons, ih hrest, hstep, List.map_cons, List.foldl_cons]

end QuantumCompiler.Decimal
