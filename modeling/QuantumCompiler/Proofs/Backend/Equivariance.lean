import QuantumCompiler.Proofs.Backend.Recipe
import QuantumCompiler.Proofs.Program.Relabel

/-!
# Lowering and relabelling

A recipe gives its qubits by position, so it cannot tell one qubit from another: to relabel
the operands of an instruction is to relabel the qubits of its native gates. Which qubits
exist is the only thing that lowering asks of their numbers.

* `Step.read?_map`, `Recipe.read?_map` — recipes at relabelled operands;
* `expand?_relabel`, `lower_relabel` — the same of instructions and of programs;
* `lower_remap` — lowering a remapped program.
-/

namespace QuantumCompiler

/-- The gate with every qubit `b` called `f b`. -/
def NativeGate.relabel (f : Nat → Nat) (g : NativeGate) : NativeGate :=
  { g with qubits := g.qubits.map f }

/-- The gates with every qubit `b` called `f b`. -/
def Sequence.relabel (f : Nat → Nat) (s : Sequence) : Sequence :=
  { s with gates := s.gates.map (NativeGate.relabel f) }

namespace Sequence

variable (f : Nat → Nat) (s : Sequence)

theorem length_relabel : (s.relabel f).gates.length = s.gates.length :=
  List.length_map _

theorem totalDurationNs_relabel : (s.relabel f).totalDurationNs = s.totalDurationNs :=
  List.foldl_map

theorem totalInfidelity_relabel : (s.relabel f).totalInfidelity = s.totalInfidelity :=
  List.foldl_map

theorem estimatedFidelity_relabel : (s.relabel f).estimatedFidelity = s.estimatedFidelity :=
  List.foldl_map

end Sequence

-- ---------------------------------------------------------------------------
-- Instructions
-- ---------------------------------------------------------------------------

/-- A step at relabelled operands is the relabelled gate, for positions that are not there
as well. -/
theorem Step.read?_map (t : QmiTarget) (f : Nat → Nat) (bits : List Nat) (params : List Float)
    (s : Step) :
    s.read? t (bits.map f) params = (s.read? t bits params).map (NativeGate.relabel f) := by
  cases s with
  | rx k angle | ry k angle | rz k angle =>
    simp only [Step.read?, List.getElem?_map]
    cases bits[k]? with
    | none => rfl
    | some q =>
      cases angle.read? params with
      | none => rfl
      | some x => rfl
  | cz a b =>
    simp only [Step.read?, List.getElem?_map]
    cases bits[a]? with
    | none => rfl
    | some q =>
      cases bits[b]? with
      | none => rfl
      | some q' => rfl
  | measure k =>
    simp only [Step.read?, List.getElem?_map]
    cases bits[k]? with
    | none => rfl
    | some q => rfl

theorem Recipe.read?_map (t : QmiTarget) (f : Nat → Nat) (bits : List Nat) (params : List Float)
    (r : Recipe) :
    r.read? t (bits.map f) params =
      (r.read? t bits params).map (List.map (NativeGate.relabel f)) := by
  have hstep : Step.read? t (bits.map f) params =
      fun s => (s.read? t bits params).map (NativeGate.relabel f) :=
    funext (Step.read?_map t f bits params)
  rw [Recipe.read?, hstep, mapM_optionMap, Recipe.read?]

/-- A recipe goes with the counts of operands, not with the operands. -/
theorem Instruction.recipe?_relabel (f : Nat → Nat) (i : Instruction) :
    (i.relabel f).recipe? = i.recipe? := by
  have hlength : (i.relabel f).bits.length = i.bits.length := List.length_map _
  rw [Instruction.recipe?, hlength]
  rfl

/-- To relabel an instruction is to relabel the gates it expands to. -/
theorem QmiTarget.expand?_relabel (t : QmiTarget) (f : Nat → Nat) (i : Instruction) :
    t.expand? (i.relabel f).name (i.relabel f).bits (i.relabel f).params =
      (t.expand? i.name i.bits i.params).map (List.map (NativeGate.relabel f)) := by
  rw [t.expand?_eq_read, t.expand?_eq_read, i.recipe?_relabel f]
  cases i.recipe? with
  | none => rfl
  | some r => exact r.read?_map t f i.bits i.params

-- ---------------------------------------------------------------------------
-- Programs
-- ---------------------------------------------------------------------------

namespace Qmi

variable {q : Qmi} {p : Program} {f : Nat → Nat} {s : Sequence}

/-- A program that is accepted is still accepted after relabelling if the limits allow it and
its new qubits exist, and its gates are the relabelled ones. -/
theorem lower_relabel (hs : q.lower p = .ok s) (hvalid : (p.relabel f).validate q.limits = .ok ())
    (hrange : ∀ b ∈ p.operands, f b < q.target.numQubits) :
    q.lower (p.relabel f) = .ok (s.relabel f) := by
  obtain ⟨-, -, groups, rfl, hgroups⟩ := lower_eq_ok_iff.mp hs
  refine lower_eq_ok_iff.mpr ⟨hvalid, ?_, groups.map (List.map (NativeGate.relabel f)), ?_, ?_⟩
  · intro i' hi' bit hbit
    obtain ⟨i, hi, rfl⟩ := Program.mem_relabel_instructions_iff.mp hi'
    obtain ⟨b, hb, rfl⟩ := List.mem_map.mp hbit
    exact hrange b (Program.mem_operands_iff.mpr ⟨i, hi, hb⟩)
  · rw [Sequence.relabel, List.map_flatten]
  · show List.Forall₂ _ (p.instructions.map (Instruction.relabel f)) _
    rw [List.forall₂_map_left_iff, List.forall₂_map_right_iff]
    refine hgroups.imp fun i gates hexpand => ?_
    rw [q.target.expand?_relabel, hexpand, Option.map_some]

/-- What a relabelled program that is accepted takes. -/
theorem valid_of_lower_relabel {s' : Sequence} (h : q.lower (p.relabel f) = .ok s') :
    (p.relabel f).validate q.limits = .ok () ∧ ∀ b ∈ p.operands, f b < q.target.numQubits := by
  obtain ⟨hvalid, hrange, -⟩ := lower_eq_ok_iff.mp h
  refine ⟨hvalid, fun b hb => ?_⟩
  obtain ⟨i, hi, hb⟩ := Program.mem_operands_iff.mp hb
  exact hrange (i.relabel f) (Program.mem_relabel_instructions_iff.mpr ⟨i, hi, rfl⟩) (f b)
    (List.mem_map_of_mem hb)

/-- **Lowering does not tell qubits apart.** A program that is accepted and has been remapped
is accepted again exactly if it keeps to the limits and its new operands exist. Its gates are
then those of the program as it was, in their order, with the mapping applied to every qubit
and nothing else changed, and they cost what those cost. -/
theorem lower_remap (hremap : (p.remap f).2 = .ok ()) (hs : q.lower p = .ok s) :
    ((∃ s', q.lower (p.remap f).1 = .ok s') ↔
      (p.remap f).1.validate q.limits = .ok () ∧
        ∀ b ∈ p.operands, f b < q.target.numQubits) ∧
    ∀ s', q.lower (p.remap f).1 = .ok s' →
      s'.gates = s.gates.map (NativeGate.relabel f) ∧ s'.gates.length = s.gates.length ∧
        s'.totalDurationNs = s.totalDurationNs ∧ s'.totalInfidelity = s.totalInfidelity ∧
          s'.estimatedFidelity = s.estimatedFidelity := by
  rw [Program.remap_eq_of_ok hremap]
  constructor
  · constructor
    · rintro ⟨s', hs'⟩
      exact valid_of_lower_relabel hs'
    · rintro ⟨hvalid, hrange⟩
      exact ⟨s.relabel f, lower_relabel hs hvalid hrange⟩
  · intro s' hs'
    obtain ⟨hvalid, hrange⟩ := valid_of_lower_relabel hs'
    have heq : s' = s.relabel f := by
      have hrelabel := lower_relabel hs hvalid hrange
      rw [hs'] at hrelabel
      exact Except.ok.inj hrelabel
    subst heq
    exact ⟨rfl, s.length_relabel f, s.totalDurationNs_relabel f, s.totalInfidelity_relabel f,
      s.estimatedFidelity_relabel f⟩

/-- The mapping turns the order of the qubits around. -/
theorem lower_remap_reversed :
    ∃ s s', ({} : Qmi).lower Program.sampleProgram = .ok s ∧
      (Program.sampleProgram.remap fun b => 9 - b).2 = .ok () ∧
      ({} : Qmi).lower (Program.sampleProgram.remap fun b => 9 - b).1 = .ok s' ∧
      s.gates.map NativeGate.qubits = [[3], [1], [0, 1], [1], [2]] ∧
      s'.gates.map NativeGate.qubits = [[6], [8], [9, 8], [8], [7]] ∧
      s'.gates = s.gates.map (NativeGate.relabel fun b => 9 - b) ∧
      s'.estimatedFidelity = s.estimatedFidelity := by
  have hremap : (Program.sampleProgram.remap fun b => 9 - b).2 = .ok () := rfl
  obtain ⟨s, hs⟩ : ∃ s, ({} : Qmi).lower Program.sampleProgram = .ok s := ⟨_, rfl⟩
  obtain ⟨haccepted, hequal⟩ := lower_remap hremap hs
  obtain ⟨s', hs'⟩ := haccepted.mpr ⟨rfl, by decide⟩
  obtain ⟨hgates, -, -, -, hfidelity⟩ := hequal s' hs'
  refine ⟨s, s', hs, hremap, hs', ?_, ?_, hgates, hfidelity⟩
  · cases hs
    rfl
  · rw [hgates]
    cases hs
    rfl

end Qmi

end QuantumCompiler
