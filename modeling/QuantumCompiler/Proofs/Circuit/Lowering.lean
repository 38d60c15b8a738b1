import QuantumCompiler.Proofs.Backend.Outcome
import QuantumCompiler.Proofs.Circuit.Operator

/-!
# Lowering keeps the meaning of a circuit

A program over the Clifford gates and the sequence of native gates it lowers to are
both read as operators on `n` qubits, the first gate applied first. The doubles that
the machine uses for its fixed turns stand for the exact angles.

* `instructionOperator?` — the textbook action of an instruction;
* `nativeOperator?` — the action of a native gate;
* `inOrder?` — the action of a list, one after the other;
* `lower_sameUpToPhase` — both readings differ by a global phase at most, so they act
  alike by conjugation on every signed Pauli string.
-/

namespace QuantumCompiler.Circuit

open Matrix

variable {n : Nat}

-- ---------------------------------------------------------------------------
-- Readings
-- ---------------------------------------------------------------------------

/-- An operand as one of `n` qubits. -/
def qubit? (n : Nat) (q : Nat) : Option (Fin n) :=
  if h : q < n then some ⟨q, h⟩ else none

/-- The axis of a rotation, by the name of the native gate. -/
def axis? (name : String) : Option Pauli :=
  match name with
  | "rx" => some .x
  | "ry" => some .y
  | "rz" => some .z
  | _ => none

/-- The exact angle that one of the machine's fixed turns stands for. -/
noncomputable def exactAngle? (angle : Float) : Option ℝ :=
  if angle = QmiTarget.pi then some Real.pi
  else if angle = QmiTarget.halfPi then some quarterTurn
  else if angle = -QmiTarget.halfPi then some (-quarterTurn)
  else none

/-- The operator of a native gate: a rotation by an exact angle, or the controlled Z. -/
noncomputable def nativeOperator? (n : Nat) (g : NativeGate) : Option (Operator n) :=
  match g.qubits, g.parameters with
  | [q], [angle] => do
    let axis ← axis? g.name
    let q ← qubit? n q
    let angle ← exactAngle? angle
    return onQubit q (rotation axis angle)
  | [a, b], [] => do
    guard (g.name = "cz")
    let a ← qubit? n a
    let b ← qubit? n b
    return controlled a b Pauli.z.gate
  | _, _ => none

/-- The one-qubit gate of a kind. -/
noncomputable def singleGate? : Kind → Option Gate
  | .h => some hadamard
  | .x => some Pauli.x.gate
  | .y => some Pauli.y.gate
  | .z => some Pauli.z.gate
  | .s => some phaseGate
  | _ => none

/-- The two-qubit operator of a kind, by its operands in order. -/
def pairOperator? : Kind → Option (Fin n → Fin n → Operator n)
  | .cnot => some fun control target => controlled control target Pauli.x.gate
  | .cz => some fun a b => controlled a b Pauli.z.gate
  | .swap => some exchange
  | _ => none

/-- The operator of an instruction, by the textbook action of its kind. -/
noncomputable def instructionOperator? (n : Nat) (i : Instruction) : Option (Operator n) :=
  match i.bits, i.params with
  | [q], [] => do
    let gate ← (Kind.ofName? i.name).bind singleGate?
    let q ← qubit? n q
    return onQubit q gate
  | [a, b], [] => do
    let operator ← (Kind.ofName? i.name).bind pairOperator?
    let a ← qubit? n a
    let b ← qubit? n b
    return operator a b
  | _, _ => none

/-- The operator of a list whose items act one after the other. -/
def inOrder? {α : Type} (operator? : α → Option (Operator n)) : List α → Option (Operator n)
  | [] => some 1
  | a :: rest => do
    let first ← operator? a
    let last ← inOrder? operator? rest
    return last * first

theorem inOrder?_cons {α : Type} {operator? : α → Option (Operator n)} {a : α} {l : List α}
    {U U' : Operator n} (h : operator? a = some U) (h' : inOrder? operator? l = some U') :
    inOrder? operator? (a :: l) = some (U' * U) := by
  rw [inOrder?, h, h']
  rfl

theorem inOrder?_append {α : Type} {operator? : α → Option (Operator n)} {l l' : List α}
    {U U' : Operator n} (h : inOrder? operator? l = some U) (h' : inOrder? operator? l' = some U') :
    inOrder? operator? (l ++ l') = some (U' * U) := by
  induction l generalizing U with
  | nil =>
    cases h
    rw [List.nil_append, h', mul_one]
  | cons a l ih =>
    rw [inOrder?] at h
    obtain ⟨first, hfirst, h⟩ := Option.bind_eq_some_iff.mp h
    obtain ⟨last, hlast, h⟩ := Option.bind_eq_some_iff.mp h
    cases h
    rw [List.cons_append, inOrder?_cons hfirst (ih hlast), mul_assoc]

-- ---------------------------------------------------------------------------
-- Gates of the machine
-- ---------------------------------------------------------------------------

theorem qubit?_of_lt {q : Nat} (h : q < n) : qubit? n q = some ⟨q, h⟩ :=
  dif_pos h

theorem exactAngle?_pi : exactAngle? QmiTarget.pi = some Real.pi :=
  if_pos rfl

theorem exactAngle?_halfPi : exactAngle? QmiTarget.halfPi = some (Real.pi / 2) := by
  have hne : QmiTarget.halfPi ≠ QmiTarget.pi := by decide +kernel
  rw [exactAngle?, if_neg hne, if_pos rfl, quarterTurn]

theorem exactAngle?_neg_halfPi : exactAngle? (-QmiTarget.halfPi) = some (-(Real.pi / 2)) := by
  have hne : -QmiTarget.halfPi ≠ QmiTarget.pi := by decide +kernel
  have hne' : -QmiTarget.halfPi ≠ QmiTarget.halfPi := by decide +kernel
  rw [exactAngle?, if_neg hne, if_neg hne', if_pos rfl, quarterTurn]

theorem nativeOperator?_rotation {g : NativeGate} {axis : Pauli} {q : Nat} {angle : Float}
    {exact : ℝ} (haxis : axis? g.name = some axis) (hqubits : g.qubits = [q])
    (hparameters : g.parameters = [angle]) (hq : q < n) (hangle : exactAngle? angle = some exact) :
    nativeOperator? n g = some (onQubit ⟨q, hq⟩ (rotation axis exact)) := by
  unfold nativeOperator?
  rw [hqubits, hparameters]
  simp only [haxis, qubit?_of_lt hq, hangle]
  rfl

theorem nativeOperator?_cz (t : QmiTarget) {a b : Nat} (ha : a < n) (hb : b < n) :
    nativeOperator? n (t.cz a b) = some (controlled ⟨a, ha⟩ ⟨b, hb⟩ Pauli.z.gate) := by
  simp only [nativeOperator?, QmiTarget.cz, qubit?_of_lt ha, qubit?_of_lt hb]
  rfl

/-- The quarter turns around a controlled Z gate make it a controlled X gate. -/
theorem inOrder?_cnot (t : QmiTarget) {a b : Nat} (ha : a < n) (hb : b < n) (hne : a ≠ b) :
    inOrder? (nativeOperator? n) (t.cnot a b) =
      some (controlled ⟨a, ha⟩ ⟨b, hb⟩ Pauli.x.gate) := by
  have hback : nativeOperator? n (t.ry b (-QmiTarget.halfPi)) =
      some (onQubit ⟨b, hb⟩ (rotation .y (-(Real.pi / 2)))) :=
    nativeOperator?_rotation rfl rfl rfl hb exactAngle?_neg_halfPi
  have hforth : nativeOperator? n (t.ry b QmiTarget.halfPi) =
      some (onQubit ⟨b, hb⟩ (rotation .y (Real.pi / 2))) :=
    nativeOperator?_rotation rfl rfl rfl hb exactAngle?_halfPi
  have hqubits : (⟨a, ha⟩ : Fin n) ≠ ⟨b, hb⟩ := by
    intro heq
    exact hne (Fin.mk.inj heq)
  have hclear : rotation .y (Real.pi / 2) * rotation .y (-(Real.pi / 2)) = 1 := by
    rw [rotation_mul, add_neg_cancel, rotation_zero]
  rw [QmiTarget.cnot, inOrder?_cons hback
    (inOrder?_cons (nativeOperator?_cz t ha hb) (inOrder?_cons hforth rfl)), one_mul, mul_assoc,
    onQubit_mul_controlled_mul_onQubit hqubits rotation_conjugate_z hclear]

-- ---------------------------------------------------------------------------
-- Instructions and the gates they expand to
-- ---------------------------------------------------------------------------

/-- Native gates realize instructions on `n` qubits: both have an operator, that of the
instructions is unitary, and the two differ by a global phase at most. -/
def Realizes (n : Nat) (gates : List NativeGate) (is : List Instruction) : Prop :=
  ∃ U V : Operator n, inOrder? (instructionOperator? n) is = some U ∧
    inOrder? (nativeOperator? n) gates = some V ∧
      U ∈ unitaryGroup (Assignment n) ℂ ∧ SameUpToPhase V U

theorem realizes_nil (n : Nat) : Realizes n [] [] :=
  ⟨1, 1, rfl, rfl, one_mem _, SameUpToPhase.refl 1⟩

theorem Realizes.append {gates gates' : List NativeGate} {is is' : List Instruction}
    (h : Realizes n gates is) (h' : Realizes n gates' is') :
    Realizes n (gates ++ gates') (is ++ is') := by
  obtain ⟨U, V, hU, hV, hunitary, hphase⟩ := h
  obtain ⟨U', V', hU', hV', hunitary', hphase'⟩ := h'
  exact ⟨U' * U, V' * V, inOrder?_append hU hU', inOrder?_append hV hV',
    mul_mem hunitary' hunitary, hphase'.mul hphase⟩

/-- An instruction on one qubit, by a gate that differs from its own by a phase. -/
theorem realizes_single {i : Instruction} {kind : Kind} {gates : List NativeGate} {q : Nat}
    {U V : Gate} {z : ℂ} (hq : q < n) (hname : kind.name = i.name) (hbits : i.bits = [q])
    (hparams : i.params = []) (hgate : singleGate? kind = some U)
    (hunitary : U ∈ unitaryGroup (Fin 2) ℂ) (hz : ‖z‖ = 1) (hphase : V = z • U)
    (hnative : inOrder? (nativeOperator? n) gates = some (onQubit ⟨q, hq⟩ V)) :
    Realizes n gates [i] := by
  have hoperator : instructionOperator? n i = some (onQubit ⟨q, hq⟩ U) := by
    unfold instructionOperator?
    rw [hbits, hparams]
    simp only [← hname, Kind.ofName?_name, Option.bind_some, hgate, qubit?_of_lt hq]
    rfl
  refine ⟨_, _, inOrder?_cons hoperator rfl, hnative, ?_, ?_⟩
  · rw [one_mul]
    exact onQubit_unitary _ hunitary
  · rw [one_mul]
    exact SameUpToPhase.onQubit hz hphase _

/-- An instruction on two qubits, by gates with the same operator. -/
theorem realizes_pair {i : Instruction} {kind : Kind} {gates : List NativeGate} {a b : Nat}
    {operator : Fin n → Fin n → Operator n} (ha : a < n) (hb : b < n)
    (hname : kind.name = i.name) (hbits : i.bits = [a, b]) (hparams : i.params = [])
    (hpair : pairOperator? kind = some operator)
    (hunitary : operator ⟨a, ha⟩ ⟨b, hb⟩ ∈ unitaryGroup (Assignment n) ℂ)
    (hnative : inOrder? (nativeOperator? n) gates = some (operator ⟨a, ha⟩ ⟨b, hb⟩)) :
    Realizes n gates [i] := by
  have hoperator : instructionOperator? n i = some (operator ⟨a, ha⟩ ⟨b, hb⟩) := by
    unfold instructionOperator?
    rw [hbits, hparams]
    simp only [← hname, Kind.ofName?_name, Option.bind_some, hpair, qubit?_of_lt ha,
      qubit?_of_lt hb]
    rfl
  refine ⟨_, _, inOrder?_cons hoperator rfl, hnative, ?_, ?_⟩
  · rw [one_mul]
    exact hunitary
  · rw [one_mul]
    exact SameUpToPhase.refl _

theorem norm_neg_I : ‖-Complex.I‖ = 1 := by
  rw [norm_neg, Complex.norm_I]

theorem norm_eighth_turn : ‖((√2 / 2 : ℝ) : ℂ) * (1 - Complex.I)‖ = 1 := by
  have hreal : ‖((√2 / 2 : ℝ) : ℂ)‖ = √2 / 2 := by
    rw [Complex.norm_real, Real.norm_of_nonneg (by positivity)]
  have hdiagonal : ‖1 - Complex.I‖ = √2 := by
    rw [Complex.norm_eq_sqrt_sq_add_sq]
    norm_num
  rw [norm_mul, hreal, hdiagonal, div_mul_eq_mul_div, Real.mul_self_sqrt (by norm_num)]
  norm_num

/-- The turns of a one-qubit instruction make its gate, up to a phase. -/
theorem exists_expand_single (t : QmiTarget) {kind : Kind} (hkind : kind ∈ [Kind.h, .x, .y, .z, .s])
    {q : Nat} (hq : q < n) :
    ∃ gates U V, ∃ z : ℂ, t.expand? kind.name [q] [] = some gates ∧ singleGate? kind = some U ∧
      U ∈ unitaryGroup (Fin 2) ℂ ∧ ‖z‖ = 1 ∧ V = z • U ∧
        inOrder? (nativeOperator? n) gates = some (onQubit ⟨q, hq⟩ V) := by
  have hx : nativeOperator? n (t.rx q QmiTarget.pi) = _ :=
    nativeOperator?_rotation rfl rfl rfl hq exactAngle?_pi
  cases kind with
  | t | rx | ry | rz | cnot | cz | swap | measure | bias | coupler => exact absurd hkind (by decide)
  | x =>
    refine ⟨_, _, _, _, rfl, rfl, Pauli.x.gate_unitary, norm_neg_I, rotation_pi .x, ?_⟩
    rw [inOrder?_cons hx rfl, one_mul]
  | y =>
    refine ⟨_, _, _, _, rfl, rfl, Pauli.y.gate_unitary, norm_neg_I, rotation_pi .y, ?_⟩
    rw [inOrder?_cons (nativeOperator?_rotation rfl rfl rfl hq exactAngle?_pi) rfl, one_mul]
  | z =>
    refine ⟨_, _, _, _, rfl, rfl, Pauli.z.gate_unitary, norm_neg_I, rotation_pi .z, ?_⟩
    rw [inOrder?_cons (nativeOperator?_rotation rfl rfl rfl hq exactAngle?_pi) rfl, one_mul]
  | s =>
    refine ⟨_, _, _, _, rfl, rfl, phaseGate_unitary, norm_eighth_turn, rotation_phaseGate, ?_⟩
    rw [inOrder?_cons (nativeOperator?_rotation rfl rfl rfl hq exactAngle?_halfPi) rfl, one_mul]
  | h =>
    refine ⟨_, _, _, _, rfl, rfl, hadamard_unitary, norm_neg_I, rotation_hadamard, ?_⟩
    have hy : nativeOperator? n (t.ry q QmiTarget.halfPi) = _ :=
      nativeOperator?_rotation rfl rfl rfl hq exactAngle?_halfPi
    rw [inOrder?_cons hy (inOrder?_cons hx rfl), one_mul, onQubit_mul]

/-- The gates of a two-qubit instruction have exactly its operator. -/
theorem exists_expand_pair (t : QmiTarget) {kind : Kind} (hkind : kind ∈ [Kind.cnot, .cz, .swap])
    {a b : Nat} (ha : a < n) (hb : b < n) (hne : a ≠ b) :
    ∃ gates, ∃ operator : Fin n → Fin n → Operator n,
      t.expand? kind.name [a, b] [] = some gates ∧ pairOperator? kind = some operator ∧
        operator ⟨a, ha⟩ ⟨b, hb⟩ ∈ unitaryGroup (Assignment n) ℂ ∧
          inOrder? (nativeOperator? n) gates = some (operator ⟨a, ha⟩ ⟨b, hb⟩) := by
  have hqubits : (⟨a, ha⟩ : Fin n) ≠ ⟨b, hb⟩ := by
    intro heq
    exact hne (Fin.mk.inj heq)
  cases kind with
  | h | x | y | z | s | t | rx | ry | rz | measure | bias | coupler => exact absurd hkind (by decide)
  | cnot =>
    exact ⟨_, _, rfl, rfl, controlled_unitary hqubits Pauli.x.gate_unitary,
      inOrder?_cnot t ha hb hne⟩
  | cz =>
    refine ⟨_, _, rfl, rfl, controlled_unitary hqubits Pauli.z.gate_unitary, ?_⟩
    rw [inOrder?_cons (nativeOperator?_cz t ha hb) rfl, one_mul]
  | swap =>
    refine ⟨_, _, rfl, rfl, exchange_unitary hqubits, ?_⟩
    have hab := inOrder?_cnot t ha hb hne
    have hba := inOrder?_cnot t hb ha hne.symm
    rw [inOrder?_append (inOrder?_append hab hba) hab, controlled_x_alternating hqubits]

/-- The kinds whose gates are made of quarter turns, half turns and controlled Z gates. -/
def cliffords : List Kind :=
  [.h, .x, .y, .z, .s, .cnot, .cz, .swap]

/-- Every Clifford instruction that expands is realized by the gates it expands to. -/
theorem realizes_expand {t : QmiTarget} {i : Instruction} {kind : Kind} {gates : List NativeGate}
    (hkind : kind ∈ cliffords) (hname : kind.name = i.name)
    (hexpand : t.expand? i.name i.bits i.params = some gates) (hnodup : i.bits.Nodup)
    (hlt : ∀ bit ∈ i.bits, bit < n) : Realizes n gates [i] := by
  -- the operands and parameters have the counts of the kind
  obtain ⟨kind', -, hname', hlength, hnone⟩ :=
    (t.expand?_isSome_iff i).mp (by rw [hexpand]; rfl)
  obtain rfl : kind = kind' := Kind.name_injective (hname.trans hname'.symm)
  have hcount : kind.numParams = 0 ∧
      (kind.arity = 1 ∧ kind ∈ [Kind.h, .x, .y, .z, .s] ∨
        kind.arity = 2 ∧ kind ∈ [Kind.cnot, .cz, .swap]) := by
    revert hkind
    cases kind <;> decide
  obtain ⟨hzero, ⟨harity, hsingle⟩ | ⟨harity, hpair⟩⟩ := hcount
  · have hparams := List.length_eq_zero_iff.mp (hnone.trans hzero)
    obtain ⟨q, hq⟩ := List.length_eq_one_iff.mp (hlength.trans harity)
    rw [hq] at hlt
    obtain ⟨gates', U, V, z, hexpand', hgate, hunitary, hz, hphase, hnative⟩ :=
      exists_expand_single t hsingle (hlt q (List.mem_singleton_self q))
    rw [← hname, hq, hparams, hexpand'] at hexpand
    cases hexpand
    exact realizes_single _ hname hq hparams hgate hunitary hz hphase hnative
  · have hparams := List.length_eq_zero_iff.mp (hnone.trans hzero)
    obtain ⟨a, b, hab⟩ := List.length_eq_two.mp (hlength.trans harity)
    rw [hab] at hlt hnodup
    obtain ⟨gates', operator, hexpand', hoperator, hunitary, hnative⟩ :=
      exists_expand_pair t hpair (hlt a (by simp)) (hlt b (by simp)) (by simpa using hnodup)
    rw [← hname, hab, hparams, hexpand'] at hexpand
    cases hexpand
    exact realizes_pair _ _ hname hab hparams hoperator hunitary hnative

-- ---------------------------------------------------------------------------
-- Programs
-- ---------------------------------------------------------------------------

/-- Lowering realizes every program of Clifford instructions that it accepts. -/
theorem realizes_lower {q : Qmi} {p : Program} {s : Sequence} (h : q.lower p = .ok s)
    (hkinds : ∀ i ∈ p.instructions, ∃ kind ∈ cliffords, kind.name = i.name)
    (hbits : ∀ i ∈ p.instructions, i.bits.Nodup ∧ ∀ bit ∈ i.bits, bit < n) :
    Realizes n s.gates p.instructions := by
  obtain ⟨-, -, gates, rfl, hexpand⟩ := Qmi.lower_eq_ok_iff.mp h
  clear h
  show Realizes n gates.flatten p.instructions
  generalize p.instructions = is at hkinds hbits hexpand
  induction hexpand with
  | nil => exact realizes_nil n
  | @cons i gs rest gates hgs _ ih =>
    obtain ⟨⟨kind, hkind, hname⟩, hkinds⟩ := List.forall_mem_cons.mp hkinds
    obtain ⟨⟨hnodup, hlt⟩, hbits⟩ := List.forall_mem_cons.mp hbits
    exact (realizes_expand hkind hname hgs hnodup hlt).append (ih hkinds hbits)

/-- A program of Clifford instructions and the native gates it lowers to have unitary
operators on `n` qubits that differ by a global phase at most; by conjugation both act
alike on every signed Pauli string. -/
theorem lower_sameUpToPhase (n : Nat) {q : Qmi} {p : Program} {s : Sequence}
    (h : q.lower p = .ok s)
    (hkinds : ∀ i ∈ p.instructions, ∃ kind ∈ cliffords, kind.name = i.name)
    (hbits : ∀ i ∈ p.instructions, i.bits.Nodup ∧ ∀ bit ∈ i.bits, bit < n) :
    ∃ U V : Operator n, inOrder? (instructionOperator? n) p.instructions = some U ∧
      inOrder? (nativeOperator? n) s.gates = some V ∧
        U ∈ unitaryGroup (Assignment n) ℂ ∧ V ∈ unitaryGroup (Assignment n) ℂ ∧
          SameUpToPhase V U ∧
            ∀ (negative : Bool) (P : Fin n → Pauli),
              V * signedString negative P * Vᴴ = U * signedString negative P * Uᴴ := by
  obtain ⟨U, V, hU, hV, hunitary, hphase⟩ := realizes_lower h hkinds hbits
  exact ⟨U, V, hU, hV, hunitary, hphase.unitary hunitary, hphase,
    fun negative P => hphase.conjugate (signedString negative P)⟩

/-- A program with a Hadamard gate, a controlled X gate between distant qubits and an
exchange. -/
def sampleCircuit : Program :=
  ⟨"q", [⟨.builtin .h, [0], []⟩, ⟨.builtin .cnot, [0, 2], []⟩, ⟨.builtin .swap, [2, 1], []⟩]⟩

theorem lower_sampleCircuit_sameUpToPhase :
    ∃ s, ({} : Qmi).lower sampleCircuit = .ok s ∧ ∃ U V : Operator 3,
      inOrder? (instructionOperator? 3) sampleCircuit.instructions = some U ∧
        inOrder? (nativeOperator? 3) s.gates = some V ∧ SameUpToPhase V U ∧
          ∀ (negative : Bool) (P : Fin 3 → Pauli),
            V * signedString negative P * Vᴴ = U * signedString negative P * Uᴴ := by
  obtain ⟨s, hs⟩ : ∃ s, ({} : Qmi).lower sampleCircuit = .ok s := ⟨_, rfl⟩
  obtain ⟨U, V, hU, hV, -, -, hphase, hconj⟩ := lower_sameUpToPhase 3 hs (by decide) (by decide)
  exact ⟨s, hs, U, V, hU, hV, hphase, hconj⟩

end QuantumCompiler.Circuit
