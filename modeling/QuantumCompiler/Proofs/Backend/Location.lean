import Mathlib.Order.Bounds.Defs
import QuantumCompiler.Proofs.Backend.Concat

/-!
# Where a compilation fails

A program that passes the validation and is refused all the same has a first instruction that
the back end cannot lower. The fault leads to it. For a shape that is not known and for an
operand that does not exist the fault holds the position as a number. A weight that is not
finite is reported as a field that is not valid: there the position stands in the name of the
field, and the fault gives no number.

* `Rules.refused` — the positions of instructions that cannot be lowered;
* `Rules.Refuses.located` — what a single fault says about the position;
* `compile_error_located` — the faults of both back ends.
-/

namespace QuantumCompiler

namespace Rules

variable {r : Rules} {is : List Instruction} {i : Instruction} {index : Nat} {fault : CompileFault}

/-- The positions of the instructions that cannot be lowered. -/
def refused (r : Rules) (is : List Instruction) : Set Nat :=
  {k | ∃ i, is[k]? = some i ∧ ¬ r.Lowerable i}

/-- All that is wrong with an instruction is its weight. -/
structure WeightOnly (r : Rules) (i : Instruction) : Prop where
  shaped : i.Shaped r.kinds
  inRange : ∀ bit ∈ i.bits, bit < r.numQubits
  refused : ¬ r.Lowerable i

theorem Reaches.isLeast (h : r.Reaches is index i) (hi : ¬ r.Lowerable i) :
    IsLeast (r.refused is) index := by
  obtain ⟨hget, hbefore⟩ := h
  refine ⟨⟨i, hget, hi⟩, ?_⟩
  rintro k ⟨i', hget', hi'⟩
  by_contra hlt
  exact hi' (hbefore k (by omega) i' hget')

/-- What the fault of an instruction says about its position. -/
structure Located (r : Rules) (i : Instruction) (index : Nat) (fault : CompileFault) : Prop where
  /-- It gives the position, unless the weight is all that is wrong. -/
  number : ¬ r.WeightOnly i → fault.instructionIndex? = some index
  /-- Where it is, the position is in the name of a field. -/
  field : r.WeightOnly i → fault.instructionIndex? = none ∧ ∃ w, i.params = [w] ∧
    Decimal.isFinite w = false ∧ fault = .validation (.field s!"instructions[{index}].weight"
      s!"must be finite, got {String.ofList (Decimal.plain w)}")

theorem Refuses.located (h : r.Refuses i index fault) : r.Located i index fault := by
  cases h with
  | unsupported hshape => exact ⟨fun _ => rfl, fun hweight => absurd hweight.shaped hshape⟩
  | @outOfRange before after bit hshape hbits hbefore hbit =>
    refine ⟨fun _ => rfl, fun hweight => ?_⟩
    have hlt := hweight.inRange bit (by rw [hbits]; simp)
    omega
  | @weight w hshape hrange hrule hparams hw =>
    have hrefuses : r.Refuses i index _ := .weight hshape hrange hrule hparams hw
    have hrefused : ¬ r.Lowerable i := hrefuses.not_lowerable
    exact ⟨fun hother => absurd ⟨hshape, hrange, hrefused⟩ hother,
      fun _ => ⟨rfl, w, hparams, hw, rfl⟩⟩

/-- By the rules, the fault of a program that passed the validation is that of the first
instruction that cannot be lowered. -/
theorem Outcome.exists_located {backend : String} {lines : Instruction → List String}
    {limits : Limits} {p : Program} {result : Except CompileFault CompiledProgram}
    (h : r.Outcome backend lines limits p result) (hvalid : p.validate limits = .ok ())
    (hfault : result = .error fault) :
    ∃ index i, IsLeast (r.refused p.instructions) index ∧ p.instructions[index]? = some i ∧
      r.Located i index fault := by
  obtain ⟨index, i, hreaches, hrefuses⟩ := (h.error_iff_of_valid hvalid).mp hfault
  exact ⟨index, i, hreaches.isLeast hrefuses.not_lowerable, hreaches.1, hrefuses.located⟩

/-- Where weights do not count, no instruction is refused for its weight. -/
theorem not_weightOnly (hrule : r.finite = false) : ¬ r.WeightOnly i := by
  intro h
  refine h.refused ⟨h.shaped, h.inRange, fun hfinite => ?_⟩
  rw [hrule] at hfinite
  cases hfinite

end Rules

/-- **The fault of a compilation leads to the first instruction that cannot be lowered**, for
every program that passes the validation. The fault of the gate-model back end gives the
position as a number. So does that of the annealer back end, unless the weight is all that is
wrong with the instruction: then it gives no number, and the field that it names holds the
position. -/
theorem compile_error_located (p : Program) :
    (∀ q : Qmi, p.validate q.limits = .ok () → ∀ fault, q.compile p = .error fault →
      ∃ index, IsLeast (q.rules.refused p.instructions) index ∧
        fault.instructionIndex? = some index) ∧
    (∀ a : Annealer, p.validate a.limits = .ok () → ∀ fault, a.compile p = .error fault →
      ∃ index i, IsLeast (a.rules.refused p.instructions) index ∧
        p.instructions[index]? = some i ∧ a.rules.Located i index fault) := by
  constructor
  · intro q hvalid fault hfault
    obtain ⟨index, i, hleast, -, hlocated⟩ := (q.outcome_compile p).exists_located hvalid hfault
    exact ⟨index, hleast, hlocated.number (Rules.not_weightOnly rfl)⟩
  · intro a hvalid fault hfault
    exact (a.outcome_compile p).exists_located hvalid hfault

/-- Two biases, the second with a weight that is not a number. -/
def weightlessProblem : Program :=
  ⟨"q", [⟨.builtin .bias, [0], [1.0]⟩, ⟨.builtin .bias, [1], [0.0 / 0.0]⟩]⟩

theorem compile_weightlessProblem :
    ({} : Annealer).compile weightlessProblem =
      .error (.validation (.field "instructions[1].weight" "must be finite, got NaN")) := by
  decide +kernel

/-- The biases are refused by the gate-model back end at the first position, with its number,
and by the annealer back end at the second, with a field. -/
theorem compile_error_located_weightless :
    weightlessProblem.validate {} = .ok () ∧
      (∃ fault, ({} : Qmi).compile weightlessProblem = .error fault ∧
        ∃ index, IsLeast (({} : Qmi).rules.refused weightlessProblem.instructions) index ∧
          fault.instructionIndex? = some index) ∧
      ∃ index i, IsLeast (({} : Annealer).rules.refused weightlessProblem.instructions) index ∧
        weightlessProblem.instructions[index]? = some i ∧
          ({} : Annealer).rules.Located i index
            (.validation (.field "instructions[1].weight" "must be finite, got NaN")) := by
  have hvalid : weightlessProblem.validate {} = .ok () := by decide
  have hqmi : ({} : Qmi).compile weightlessProblem = .error (.unsupported Kind.bias.name 0) := rfl
  obtain ⟨hgates, hterms⟩ := compile_error_located weightlessProblem
  exact ⟨hvalid, ⟨_, hqmi, hgates {} hvalid _ hqmi⟩, hterms {} hvalid _ compile_weightlessProblem⟩

/-- The position of the weight that is not a number is not given as a number: the first
instruction that cannot be lowered is the second one, and the fault gives no position. -/
theorem weight_fault_without_index :
    weightlessProblem.validate {} = .ok () ∧
      ∃ fault, ({} : Annealer).compile weightlessProblem = .error fault ∧
        IsLeast (({} : Annealer).rules.refused weightlessProblem.instructions) 1 ∧
          fault.instructionIndex? ≠ some 1 := by
  have hfirst : ({} : Annealer).rules.Lowerable ⟨.builtin .bias, [0], [1.0]⟩ := by
    refine ⟨⟨.bias, by decide, rfl, rfl, rfl⟩, by decide, fun _ w hw => ?_⟩
    rw [List.mem_singleton.mp hw]
    decide +kernel
  have hsecond : ¬ ({} : Annealer).rules.Lowerable ⟨.builtin .bias, [1], [0.0 / 0.0]⟩ := by
    intro hlow
    have hfinite := hlow.finite rfl _ (List.mem_singleton_self _)
    exact absurd hfinite (by decide +kernel)
  have hreaches : ({} : Annealer).rules.Reaches weightlessProblem.instructions 1
      ⟨.builtin .bias, [1], [0.0 / 0.0]⟩ := by
    refine ⟨rfl, fun j hj i' hi' => ?_⟩
    obtain rfl : j = 0 := by omega
    cases hi'
    exact hfirst
  exact ⟨by decide, _, compile_weightlessProblem, hreaches.isLeast hsecond, by decide⟩

end QuantumCompiler
