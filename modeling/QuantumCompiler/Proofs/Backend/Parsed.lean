import QuantumCompiler.Proofs.Backend.Outcome
import QuantumCompiler.Proofs.Program.Limits
import QuantumCompiler.Proofs.Program.RoundTrip

/-!
# Programs that were read and then compiled

How many operands and parameters an instruction has is laid down in two places: by its
kind, which the reader of program text goes by, and again by each back end, which lowers an
instruction only if the counts suit it. For what the reader makes, the two agree for every
kind, so the shape of an instruction is a matter of its kind alone (`Expressible.shaped_iff`).

A program that was read is therefore compiled unless there is one of a few reasons against
it: its sizes, the sort of its instructions, and for the annealer a weight that is not
finite. `compile_parsed_iff` says so for both back ends.
-/

namespace QuantumCompiler

/-- A term of an annealing problem. -/
def Instruction.IsTerm (i : Instruction) : Prop :=
  i.opcode = .builtin .bias ∨ i.opcode = .builtin .coupler

/-- The sizes that a program must keep: it is not too long, and its operands exist and stay
below the limit. -/
structure Program.Fits (p : Program) (limits : Limits) (numQubits : Nat) : Prop where
  length : p.length ≤ limits.maxInstructions
  operands : ∀ bit ∈ p.operands, bit < limits.maxQubits ∧ bit < numQubits

-- ---------------------------------------------------------------------------
-- Shapes
-- ---------------------------------------------------------------------------

theorem Kind.mem_gates_iff (kind : Kind) : kind ∈ gates ↔ ¬ (kind = .bias ∨ kind = .coupler) := by
  cases kind <;> decide

theorem Kind.mem_annealing_iff {kind : Kind} : kind ∈ annealing ↔ kind = .bias ∨ kind = .coupler :=
  List.mem_pair

namespace Instruction.Expressible

variable {i : Instruction}

/-- The counts are right for the kind, so only the kind is left to ask for. -/
theorem shaped_iff (hi : i.Expressible) {kinds : List Kind} :
    i.Shaped kinds ↔ ∃ kind ∈ kinds, i.opcode = .builtin kind := by
  obtain ⟨kind, hi, hlen, -, hparams⟩ := hi.exists_kind
  have hopcode : i.opcode = .builtin kind := by rw [hi]
  have hname : i.name = kind.name := by rw [name, hopcode]; rfl
  constructor
  · rintro ⟨kind', hmem, hname', -, -⟩
    rw [hname] at hname'
    exact ⟨kind, Kind.name_injective hname' ▸ hmem, hopcode⟩
  · rintro ⟨kind', hmem, hopcode'⟩
    rw [hopcode] at hopcode'
    cases hopcode'
    exact ⟨kind, hmem, hname.symm, hlen, hparams⟩

theorem shaped_gates_iff (hi : i.Expressible) : i.Shaped Kind.gates ↔ ¬ i.IsTerm := by
  obtain ⟨kind, hopcode⟩ := hi.1
  rw [hi.shaped_iff, IsTerm, hopcode]
  simp [Kind.mem_gates_iff]

theorem shaped_annealing_iff (hi : i.Expressible) : i.Shaped Kind.annealing ↔ i.IsTerm := by
  obtain ⟨kind, hopcode⟩ := hi.1
  rw [hi.shaped_iff, IsTerm, hopcode]
  simp [Kind.mem_annealing_iff]

/-- A term has one weight. -/
theorem exists_weight (hi : i.Expressible) (hterm : i.IsTerm) : ∃ w, i.params = [w] := by
  obtain ⟨kind, hi, -, -, hparams⟩ := hi.exists_kind
  have hopcode : i.opcode = .builtin kind := by rw [hi]
  have hone : kind.numParams = 1 := by
    rcases hterm with hterm | hterm
    · rw [hopcode] at hterm
      cases hterm
      rfl
    · rw [hopcode] at hterm
      cases hterm
      rfl
  exact List.length_eq_one_iff.mp (hparams.trans hone)

end Instruction.Expressible

-- ---------------------------------------------------------------------------
-- Compilations
-- ---------------------------------------------------------------------------

section Outcome

variable {r : Rules} {backend : String} {lines : Instruction → List String} {limits : Limits}
  {p : Program} {result : Except CompileFault CompiledProgram}

/-- A program with a proper register is compiled if it fits and each instruction has a known
shape and, where that counts, finite weights. -/
theorem Rules.Outcome.exists_ok_iff (h : r.Outcome backend lines limits p result)
    (hregister : checkRegisterName p.register = .ok ()) :
    (∃ c, result = .ok c) ↔
      p.Fits limits r.numQubits ∧
        ∀ i ∈ p.instructions, i.Shaped r.kinds ∧
          (r.finite = true → ∀ w ∈ i.params, Decimal.isFinite w = true) := by
  have hok : (∃ c, result = .ok c) ↔
      p.validate limits = .ok () ∧ ∀ i ∈ p.instructions, r.Lowerable i := by
    simp [h.ok_iff]
  rw [hok, Program.validate_eq_ok_iff]
  constructor
  · rintro ⟨⟨-, hlength, hlimit⟩, hall⟩
    refine ⟨⟨hlength, ?_⟩, fun i hi => ⟨(hall i hi).shaped, (hall i hi).finite⟩⟩
    intro bit hbit
    obtain ⟨i, hi, hmem⟩ := Program.mem_operands_iff.mp hbit
    exact ⟨hlimit bit hbit, (hall i hi).inRange bit hmem⟩
  · rintro ⟨hfits, hall⟩
    refine ⟨⟨hregister, hfits.length, fun bit hbit => (hfits.operands bit hbit).1⟩, ?_⟩
    intro i hi
    refine ⟨(hall i hi).1, ?_, (hall i hi).2⟩
    intro bit hbit
    exact (hfits.operands bit (Program.mem_operands_iff.mpr ⟨i, hi, hbit⟩)).2

/-- An instruction that is called unsupported has a shape that the rules do not know. -/
theorem Rules.Outcome.not_shaped (h : r.Outcome backend lines limits p result) {name : String}
    {index : Nat} (hresult : result = .error (.unsupported name index)) :
    ∃ i, p.instructions[index]? = some i ∧ i.name = name ∧ ¬ i.Shaped r.kinds := by
  rcases (h.error_iff _).mp hresult with ⟨invalid, -, hfault⟩ | ⟨-, index', i, hi, -, hrefuses⟩
  · cases hfault
  · cases hrefuses with
    | unsupported hshape => exact ⟨i, hi, rfl, hshape⟩

end Outcome

/-- **A program that was read is compiled unless there is a reason against it.** For every
machine and all limits, the gate-model back end compiles it exactly if it fits and none of
its instructions is a term of an annealing problem, and the annealer exactly if it fits, all
its instructions are terms and their weights are finite. If the gate-model back end calls an
instruction unsupported, it is such a term, so no gate is refused for its counts. -/
theorem compile_parsed_iff {register source : String} {p : Program}
    (hparse : Program.parse .builtins register source = .ok p) :
    (∀ q : Qmi, (∃ c, q.compile p = .ok c) ↔
      p.Fits q.limits q.target.numQubits ∧ ∀ i ∈ p.instructions, ¬ i.IsTerm) ∧
    (∀ a : Annealer, (∃ c, a.compile p = .ok c) ↔
      p.Fits a.limits a.target.numQubits ∧
        ∀ i ∈ p.instructions, i.IsTerm ∧ ∃ w, i.params = [w] ∧ Decimal.isFinite w = true) ∧
    (∀ (q : Qmi) (name : String) (index : Nat), q.compile p = .error (.unsupported name index) →
      ∃ i, p.instructions[index]? = some i ∧ i.name = name ∧ i.IsTerm) := by
  obtain ⟨rfl, hregister, hexpressible⟩ := expressible_of_parse hparse
  refine ⟨?_, ?_, ?_⟩
  · intro q
    rw [(q.outcome_compile p).exists_ok_iff hregister]
    apply and_congr_right
    intro _
    apply forall₂_congr
    intro i hi
    rw [← (hexpressible i hi).shaped_gates_iff]
    exact and_iff_left fun hrule => absurd hrule Bool.false_ne_true
  · intro a
    rw [(a.outcome_compile p).exists_ok_iff hregister]
    apply and_congr_right
    intro _
    apply forall₂_congr
    intro i hi
    rw [← (hexpressible i hi).shaped_annealing_iff]
    apply and_congr_right
    intro hshaped
    -- the one parameter is the weight
    obtain ⟨w, hw⟩ := (hexpressible i hi).exists_weight
      ((hexpressible i hi).shaped_annealing_iff.mp hshaped)
    simp [hw, Annealer.rules]
  · intro q name index hresult
    obtain ⟨i, hi, hname, hshape⟩ := (q.outcome_compile p).not_shaped hresult
    refine ⟨i, hi, hname, ?_⟩
    have hmem : i ∈ p.instructions := List.mem_of_getElem? hi
    by_contra hterm
    exact hshape ((hexpressible i hmem).shaped_gates_iff.mpr hterm)

/-- A program that needs two qubits, on machines with enough of them and with too few. -/
theorem compile_parsed_iff_pair :
    Program.parse .builtins "q" "# pair
H q0
CNOT q0 q1" =
        .ok ⟨"q", [⟨.builtin .h, [0], []⟩, ⟨.builtin .cnot, [0, 1], []⟩]⟩ ∧
      (∃ c, ({} : Qmi).compile
        ⟨"q", [⟨.builtin .h, [0], []⟩, ⟨.builtin .cnot, [0, 1], []⟩]⟩ = .ok c) ∧
      ¬ (∃ c, ({ target := { numQubits := 1 } } : Qmi).compile
        ⟨"q", [⟨.builtin .h, [0], []⟩, ⟨.builtin .cnot, [0, 1], []⟩]⟩ = .ok c) ∧
      ¬ (∃ c, ({} : Annealer).compile
        ⟨"q", [⟨.builtin .h, [0], []⟩, ⟨.builtin .cnot, [0, 1], []⟩]⟩ = .ok c) := by
  have hparse : Program.parse .builtins "q" "# pair
H q0
CNOT q0 q1" =
      .ok ⟨"q", [⟨.builtin .h, [0], []⟩, ⟨.builtin .cnot, [0, 1], []⟩]⟩ := rfl
  obtain ⟨hqmi, hannealer, -⟩ := compile_parsed_iff hparse
  refine ⟨hparse, (hqmi _).mpr ⟨⟨by decide, by decide⟩, ?_⟩, ?_, ?_⟩
  · simp [Instruction.IsTerm]
  · rw [hqmi]
    rintro ⟨hfits, -⟩
    exact absurd (hfits.operands 1 (by decide)).2 (by decide)
  · rw [hannealer]
    rintro ⟨-, hterms⟩
    exact absurd (hterms _ List.mem_cons_self).1 (by simp [Instruction.IsTerm])

end QuantumCompiler
