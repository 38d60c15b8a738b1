import Mathlib.Analysis.SpecialFunctions.Trigonometric.Basic
import Mathlib.Data.Complex.Basic
import Mathlib.LinearAlgebra.UnitaryGroup
import Mathlib.Tactic.LinearCombination
import Mathlib.Tactic.Module

/-!
# Operators on qubits

An operator on `n` qubits is a complex matrix whose rows and columns are the
assignments of a bit to each qubit. A gate acts on one qubit and may look at the
others without changing them: `acting q U` applies to qubit `q` the one-qubit
gate that `U` chooses from the assignment. Single-qubit gates and controlled
gates are both of this form, so one product law (`acting_mul`) serves for both.

* `onQubit`, `controlled`, `exchange` — the textbook gates on chosen qubits;
* `rotation` — rotations about an axis;
* `SameUpToPhase` — equality up to a global phase, kept by products;
* `signedString` — signed Pauli strings, on which operators act by conjugation.
-/

namespace QuantumCompiler.Circuit

open Matrix Complex

/-- A bit for each of `n` qubits. -/
abbrev Assignment (n : Nat) := Fin n → Fin 2

/-- An operator on `n` qubits. -/
abbrev Operator (n : Nat) := Matrix (Assignment n) (Assignment n) ℂ

/-- A one-qubit gate. -/
abbrev Gate := Matrix (Fin 2) (Fin 2) ℂ

variable {n : Nat}

-- ---------------------------------------------------------------------------
-- Gates
-- ---------------------------------------------------------------------------

/-- The Pauli matrices, the identity included. -/
inductive Pauli where
  | id | x | y | z
  deriving DecidableEq, Repr

/-- A Pauli matrix as a gate. -/
def Pauli.gate : Pauli → Gate
  | id => 1
  | x => !![0, 1; 1, 0]
  | y => !![0, -I; I, 0]
  | z => !![1, 0; 0, -1]

/-- The Hadamard gate. -/
noncomputable def hadamard : Gate := ((√2 / 2 : ℝ) : ℂ) • !![1, 1; 1, -1]

/-- The phase gate. -/
def phaseGate : Gate := !![1, 0; 0, I]

/-- The rotation by `angle` about the axis of a Pauli matrix. -/
noncomputable def rotation (axis : Pauli) (angle : ℝ) : Gate :=
  (Real.cos (angle / 2) : ℂ) • (1 : Gate) - (I * Real.sin (angle / 2)) • axis.gate

/-- The angle of a quarter of a full turn. -/
noncomputable def quarterTurn : ℝ := Real.pi / 2

-- ---------------------------------------------------------------------------
-- Gates on chosen qubits
-- ---------------------------------------------------------------------------

/-- The operator that applies to qubit `q` the gate chosen by the assignment. -/
def acting (q : Fin n) (U : Assignment n → Gate) : Operator n :=
  Matrix.of fun r c => if r = Function.update c q (r q) then U c (r q) (c q) else 0

/-- A gate on one qubit. -/
def onQubit (q : Fin n) (U : Gate) : Operator n :=
  acting q fun _ => U

/-- A gate on the qubit `target`, applied where the qubit `control` is set. -/
def controlled (control target : Fin n) (U : Gate) : Operator n :=
  acting target fun c => if c control = 1 then U else 1

/-- The operator that moves each assignment of bits to another. -/
def moving (f : Assignment n → Assignment n) : Operator n :=
  Matrix.of fun r c => if r = f c then 1 else 0

/-- The exchange of two qubits. -/
def exchange (a b : Fin n) : Operator n :=
  moving fun c => c ∘ Equiv.swap a b

/-- The choice of a gate for qubit `q` does not look at that qubit. -/
def Blind (q : Fin n) (U : Assignment n → Gate) : Prop :=
  ∀ c x, U (Function.update c q x) = U c

theorem blind_const (q : Fin n) (U : Gate) : Blind q fun _ => U :=
  fun _ _ => rfl

theorem blind_control {control target : Fin n} (h : control ≠ target) (U : Gate) :
    Blind target fun c => if c control = 1 then U else 1 := by
  intro c x
  dsimp only
  rw [Function.update_of_ne h]

theorem acting_apply {q : Fin n} {U : Assignment n → Gate} {r c : Assignment n}
    (h : r = Function.update c q (r q)) : acting q U r c = U c (r q) (c q) :=
  if_pos h

theorem acting_apply_eq_zero {q : Fin n} {U : Assignment n → Gate} {r c : Assignment n}
    (h : ¬ r = Function.update c q (r q)) : acting q U r c = 0 :=
  if_neg h

/-- Two assignments that agree off a qubit do so in either order. -/
theorem eq_update_comm {q : Fin n} {r c : Assignment n} (h : r = Function.update c q (r q)) :
    c = Function.update r q (c q) := by
  rw [h, Function.update_idem, Function.update_eq_self]

/-- Operators on one qubit multiply like the gates they choose. -/
theorem acting_mul {q : Fin n} {U : Assignment n → Gate} (hU : Blind q U)
    (V : Assignment n → Gate) : acting q U * acting q V = acting q fun c => U c * V c := by
  ext r c
  -- only assignments that agree with the column off the qubit contribute
  have hsum : (acting q U * acting q V) r c =
      ∑ x : Fin 2, acting q U r (Function.update c q x) * acting q V (Function.update c q x) c := by
    rw [Matrix.mul_apply]
    symm
    apply Fintype.sum_of_injective (Function.update c q) (Function.update_injective c q)
    · intro m hm
      rw [acting_apply_eq_zero (fun h => hm ⟨m q, h.symm⟩), mul_zero]
    · intro x
      rfl
  rw [hsum]
  by_cases hrow : r = Function.update c q (r q)
  · rw [acting_apply hrow, Matrix.mul_apply]
    apply Finset.sum_congr rfl
    intro x _
    have hleft : r = Function.update (Function.update c q x) q (r q) := by
      rw [Function.update_idem]
      exact hrow
    have hright : Function.update c q x =
        Function.update c q (Function.update c q x q) := by
      rw [Function.update_self]
    rw [acting_apply hleft, acting_apply hright, hU, Function.update_self]
  · rw [acting_apply_eq_zero hrow]
    apply Finset.sum_eq_zero
    intro x _
    rw [acting_apply_eq_zero (by rwa [Function.update_idem]), zero_mul]

theorem acting_one (q : Fin n) : acting q (fun _ => 1) = 1 := by
  ext r c
  by_cases hrow : r = Function.update c q (r q)
  · rw [acting_apply hrow]
    by_cases hbit : r q = c q
    · have hrc : r = c := by rw [hrow, hbit, Function.update_eq_self]
      rw [hrc, Matrix.one_apply_eq, Matrix.one_apply_eq]
    · rw [Matrix.one_apply_ne hbit, Matrix.one_apply_ne fun h => hbit (congrFun h q)]
  · have hrc : r ≠ c := by
      rintro rfl
      exact hrow (Function.update_eq_self q r).symm
    rw [acting_apply_eq_zero hrow, Matrix.one_apply_ne hrc]

theorem acting_smul (q : Fin n) (z : ℂ) (U : Assignment n → Gate) :
    acting q (fun c => z • U c) = z • acting q U := by
  ext r c
  simp [acting]

theorem acting_conjTranspose {q : Fin n} {U : Assignment n → Gate} (hU : Blind q U) :
    (acting q U)ᴴ = acting q fun c => (U c)ᴴ := by
  ext r c
  rw [Matrix.conjTranspose_apply]
  by_cases hrow : r = Function.update c q (r q)
  · have hsame : U r = U c := by rw [hrow, hU]
    rw [acting_apply hrow, acting_apply (eq_update_comm hrow), Matrix.conjTranspose_apply, hsame]
  · rw [acting_apply_eq_zero hrow, acting_apply_eq_zero fun h => hrow (eq_update_comm h), star_zero]

/-- An operator that chooses unitary gates is unitary. -/
theorem acting_unitary {q : Fin n} {U : Assignment n → Gate} (hU : Blind q U)
    (h : ∀ c, U c ∈ unitaryGroup (Fin 2) ℂ) : acting q U ∈ unitaryGroup (Assignment n) ℂ := by
  rw [mem_unitaryGroup_iff, star_eq_conjTranspose, acting_conjTranspose hU, acting_mul hU,
    ← acting_one q]
  congr 1
  funext c
  exact mem_unitaryGroup_iff.mp (h c)

theorem onQubit_mul (q : Fin n) (U V : Gate) : onQubit q U * onQubit q V = onQubit q (U * V) :=
  acting_mul (blind_const q U) _

theorem onQubit_smul (q : Fin n) (z : ℂ) (U : Gate) : onQubit q (z • U) = z • onQubit q U :=
  acting_smul q z _

/-- A controlled gate between two gates on its target. -/
theorem onQubit_mul_controlled_mul_onQubit {control target : Fin n} (h : control ≠ target)
    {A B U V : Gate} (hset : A * U * B = V) (hclear : A * B = 1) :
    onQubit target A * (controlled control target U * onQubit target B) =
      controlled control target V := by
  rw [onQubit, onQubit, controlled, acting_mul (blind_control h U),
    acting_mul (blind_const target A), controlled]
  congr 1
  funext c
  by_cases hc : c control = 1
  · rw [if_pos hc, if_pos hc, ← mul_assoc, hset]
  · rw [if_neg hc, if_neg hc, one_mul, hclear]

-- ---------------------------------------------------------------------------
-- Moving bits
-- ---------------------------------------------------------------------------

theorem moving_mul (f g : Assignment n → Assignment n) :
    moving f * moving g = moving (f ∘ g) := by
  ext r c
  simp [moving, Matrix.mul_apply]

/-- The controlled X gate adds the control to the target. -/
theorem controlled_x (control target : Fin n) :
    controlled control target Pauli.x.gate =
      moving fun c => Function.update c target (c target + c control) := by
  have hbit : ∀ x y z : Fin 2, (if z = 1 then Pauli.x.gate else 1) x y = if x = y + z then 1 else 0 := by
    intro x y z
    fin_cases x <;> fin_cases y <;> fin_cases z <;> simp [Pauli.gate]
  ext r c
  simp only [moving, Matrix.of_apply]
  by_cases hrow : r = Function.update c target (r target)
  · rw [controlled, acting_apply hrow, hbit]
    congr 1
    apply propext
    constructor
    · intro heq
      rw [← heq]
      exact hrow
    · intro heq
      rw [heq, Function.update_self]
  · have hne : ¬ r = Function.update c target (c target + c control) := by
      intro heq
      apply hrow
      conv_rhs => rw [heq, Function.update_self]
      exact heq
    rw [controlled, acting_apply_eq_zero hrow, if_neg hne]

/-- Three controlled X gates in alternating directions exchange two qubits. -/
theorem controlled_x_alternating {a b : Fin n} (h : a ≠ b) :
    controlled a b Pauli.x.gate *
        (controlled b a Pauli.x.gate * controlled a b Pauli.x.gate) = exchange a b := by
  rw [controlled_x, controlled_x, moving_mul, moving_mul, exchange]
  congr 1
  funext c k
  have hbit : ∀ x y : Fin 2, x + (y + x) = y ∧ y + x + y = x := by decide
  by_cases hka : k = a
  · subst hka
    simp [hbit, h]
  · by_cases hkb : k = b
    · subst hkb
      simp [hbit, h, hka]
    · simp [hka, hkb, Equiv.swap_apply_of_ne_of_ne hka hkb]

-- ---------------------------------------------------------------------------
-- Unitary gates
-- ---------------------------------------------------------------------------

theorem onQubit_unitary (q : Fin n) {U : Gate} (h : U ∈ unitaryGroup (Fin 2) ℂ) :
    onQubit q U ∈ unitaryGroup (Assignment n) ℂ :=
  acting_unitary (blind_const q U) fun _ => h

theorem controlled_unitary {control target : Fin n} (hne : control ≠ target) {U : Gate}
    (h : U ∈ unitaryGroup (Fin 2) ℂ) :
    controlled control target U ∈ unitaryGroup (Assignment n) ℂ := by
  apply acting_unitary (blind_control hne U)
  intro c
  split
  · exact h
  · exact one_mem _

theorem Pauli.gate_mul_self (P : Pauli) : P.gate * P.gate = 1 := by
  cases P <;> ext r c <;> fin_cases r <;> fin_cases c <;> simp [Pauli.gate, Matrix.mul_apply]

theorem Pauli.gate_unitary (P : Pauli) : P.gate ∈ unitaryGroup (Fin 2) ℂ := by
  have hself : star P.gate = P.gate := by
    cases P <;> ext r c <;> fin_cases r <;> fin_cases c <;> simp [Pauli.gate]
  rw [mem_unitaryGroup_iff, hself, P.gate_mul_self]

theorem phaseGate_unitary : phaseGate ∈ unitaryGroup (Fin 2) ℂ := by
  rw [mem_unitaryGroup_iff]
  ext r c
  fin_cases r <;> fin_cases c <;> simp [phaseGate, Matrix.mul_apply]

theorem half_sqrt_two_sq : ((√2 / 2 : ℝ) : ℂ) * ((√2 / 2 : ℝ) : ℂ) = 1 / 2 := by
  rw [← Complex.ofReal_mul]
  have h : (√2 / 2) * (√2 / 2) = (1 / 2 : ℝ) := by
    rw [div_mul_div_comm, Real.mul_self_sqrt (by norm_num)]
    norm_num
  rw [h]
  norm_num

theorem hadamard_unitary : hadamard ∈ unitaryGroup (Fin 2) ℂ := by
  have hself : (!![1, 1; 1, -1] : Gate)ᴴ = !![1, 1; 1, -1] := by
    ext r c
    fin_cases r <;> fin_cases c <;> simp
  rw [mem_unitaryGroup_iff, star_eq_conjTranspose, hadamard, conjTranspose_smul, hself,
    Complex.star_def, Complex.conj_ofReal, smul_mul_smul_comm, half_sqrt_two_sq]
  ext r c
  fin_cases r <;> fin_cases c <;> norm_num [Matrix.mul_apply]

theorem exchange_unitary {a b : Fin n} (h : a ≠ b) :
    exchange a b ∈ unitaryGroup (Assignment n) ℂ := by
  rw [← controlled_x_alternating h]
  have hab := controlled_unitary h Pauli.x.gate_unitary
  have hba := controlled_unitary h.symm Pauli.x.gate_unitary
  exact mul_mem hab (mul_mem hba hab)

-- ---------------------------------------------------------------------------
-- Rotations
-- ---------------------------------------------------------------------------

/-- Rotations about one axis add their angles. -/
theorem rotation_mul (P : Pauli) (a b : ℝ) :
    rotation P a * rotation P b = rotation P (a + b) := by
  have hcos : (Real.cos ((a + b) / 2) : ℂ) =
      Real.cos (a / 2) * Real.cos (b / 2) - Real.sin (a / 2) * Real.sin (b / 2) := by
    rw [add_div, Real.cos_add]
    push_cast
    ring
  have hsin : (Real.sin ((a + b) / 2) : ℂ) =
      Real.sin (a / 2) * Real.cos (b / 2) + Real.cos (a / 2) * Real.sin (b / 2) := by
    rw [add_div, Real.sin_add]
    push_cast
    ring
  unfold rotation
  rw [hcos, hsin, sub_mul, mul_sub, mul_sub]
  simp only [smul_mul_smul_comm, one_mul, mul_one, P.gate_mul_self]
  rw [show I * (Real.sin (a / 2) : ℂ) * (I * Real.sin (b / 2)) =
    -(Real.sin (a / 2) * Real.sin (b / 2)) by
      linear_combination (Real.sin (a / 2) : ℂ) * Real.sin (b / 2) * Complex.I_mul_I]
  module

theorem rotation_zero (P : Pauli) : rotation P 0 = 1 := by
  simp [rotation]

/-- A half turn is the Pauli matrix of its axis, up to a phase. -/
theorem rotation_pi (P : Pauli) : rotation P Real.pi = (-I) • P.gate := by
  rw [rotation, Real.cos_pi_div_two, Real.sin_pi_div_two]
  simp

/-- A quarter turn. -/
theorem rotation_half_pi (P : Pauli) :
    rotation P (Real.pi / 2) = ((√2 / 2 : ℝ) : ℂ) • (1 - I • P.gate) := by
  rw [rotation, show Real.pi / 2 / 2 = Real.pi / 4 by ring, Real.cos_pi_div_four,
    Real.sin_pi_div_four]
  module

/-- A quarter turn back. -/
theorem rotation_neg_half_pi (P : Pauli) :
    rotation P (-(Real.pi / 2)) = ((√2 / 2 : ℝ) : ℂ) • (1 + I • P.gate) := by
  rw [rotation, show -(Real.pi / 2) / 2 = -(Real.pi / 4) by ring, Real.cos_neg, Real.sin_neg,
    Real.cos_pi_div_four, Real.sin_pi_div_four, Complex.ofReal_neg]
  module

/-- A quarter turn about Y and a half turn about X make a Hadamard gate. -/
theorem rotation_hadamard :
    rotation .x Real.pi * rotation .y (Real.pi / 2) = (-I) • hadamard := by
  rw [rotation_pi, rotation_half_pi, hadamard, smul_mul_smul_comm, smul_smul]
  congr 1
  ext r c
  fin_cases r <;> fin_cases c <;> simp [Pauli.gate, Matrix.mul_apply]

/-- A quarter turn about Z is the phase gate, up to a phase. -/
theorem rotation_phaseGate :
    rotation .z (Real.pi / 2) = (((√2 / 2 : ℝ) : ℂ) * (1 - I)) • phaseGate := by
  rw [rotation_half_pi, mul_smul]
  congr 1
  ext r c
  fin_cases r <;> fin_cases c <;> simp [Pauli.gate, phaseGate, sub_mul, add_comm]

/-- Quarter turns about Y in opposite directions carry Z to X. -/
theorem rotation_conjugate_z :
    rotation .y (Real.pi / 2) * Pauli.z.gate * rotation .y (-(Real.pi / 2)) = Pauli.x.gate := by
  rw [rotation_half_pi, rotation_neg_half_pi, smul_mul_assoc, smul_mul_smul_comm, half_sqrt_two_sq]
  ext r c
  fin_cases r <;> fin_cases c <;> norm_num [Pauli.gate, Matrix.mul_apply]

-- ---------------------------------------------------------------------------
-- Global phase
-- ---------------------------------------------------------------------------

/-- Two operators differ by a global phase at most. -/
def SameUpToPhase (V U : Operator n) : Prop :=
  ∃ z : ℂ, ‖z‖ = 1 ∧ V = z • U

namespace SameUpToPhase

theorem refl (U : Operator n) : SameUpToPhase U U :=
  ⟨1, norm_one, (one_smul ℂ U).symm⟩

theorem mul {V U V' U' : Operator n} (h : SameUpToPhase V U) (h' : SameUpToPhase V' U') :
    SameUpToPhase (V * V') (U * U') := by
  obtain ⟨z, hz, rfl⟩ := h
  obtain ⟨z', hz', rfl⟩ := h'
  refine ⟨z * z', by rw [norm_mul, hz, hz', one_mul], ?_⟩
  rw [smul_mul_smul_comm]

theorem onQubit {V U : Gate} {z : ℂ} (hz : ‖z‖ = 1) (h : V = z • U) (q : Fin n) :
    SameUpToPhase (onQubit q V) (onQubit q U) :=
  ⟨z, hz, by rw [h, onQubit_smul]⟩

/-- A global phase cancels in a conjugation. -/
theorem conjugate {V U : Operator n} (h : SameUpToPhase V U) (A : Operator n) :
    V * A * Vᴴ = U * A * Uᴴ := by
  obtain ⟨z, hz, rfl⟩ := h
  have hphase : z * star z = 1 := by
    rw [Complex.star_def, Complex.mul_conj, Complex.normSq_eq_norm_sq, hz]
    norm_num
  rw [conjTranspose_smul, smul_mul_assoc, smul_mul_smul_comm, hphase, one_smul]

theorem unitary {V U : Operator n} (h : SameUpToPhase V U)
    (hU : U ∈ unitaryGroup (Assignment n) ℂ) : V ∈ unitaryGroup (Assignment n) ℂ := by
  have hconj := h.conjugate 1
  rw [mul_one, mul_one, ← star_eq_conjTranspose, ← star_eq_conjTranspose,
    mem_unitaryGroup_iff.mp hU] at hconj
  exact mem_unitaryGroup_iff.mpr hconj

end SameUpToPhase

-- ---------------------------------------------------------------------------
-- Pauli strings
-- ---------------------------------------------------------------------------

/-- A sign and a Pauli matrix on each qubit. -/
def signedString (negative : Bool) (P : Fin n → Pauli) : Operator n :=
  (if negative then (-1 : ℂ) else 1) • Matrix.of fun r c => ∏ k, (P k).gate (r k) (c k)

end QuantumCompiler.Circuit
