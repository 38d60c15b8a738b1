import Mathlib.Data.List.Nodup
import Mathlib.Data.Set.Function
import QuantumCompiler.Proofs.Program.Limits
import QuantumCompiler.Proofs.Program.Remap

/-!
# Relabelling the qubits of a program

Remapping works in place and in order. On a program of built-in instructions it relabels
every instruction whose operands stay apart, and it stops at the first one whose operands
collide: what stands before is relabelled by then, and nothing else has changed.

* `remapOne_of_injOn`, `remapOne_of_collision` — one instruction;
* `remapAll_of_forall`, `remapAll_append_of_error` — a run to the end, and one that stops;
* `Remapping` — the two ways in which remapping a program can end, and `remapping_remap`;
* `remap_exact` — when it succeeds, where it stops, with which fault and in which state;
* `remap_comp` — two remappings are one by the composed mapping, and an inverse on the
  operands takes a remapping back.
-/

namespace QuantumCompiler

-- ---------------------------------------------------------------------------
-- One instruction
-- ---------------------------------------------------------------------------

theorem Kind.arity_le_two (kind : Kind) : kind.arity ≤ 2 := by
  cases kind <;> decide

namespace Instruction

/-- A built-in instruction with the operands and parameters that its kind demands. -/
def Checked (i : Instruction) : Prop :=
  (∃ kind, i.opcode = .builtin kind) ∧ i.WellFormed

/-- The qubits that an instruction addresses, without their order. -/
def operandSet (i : Instruction) : Set Nat :=
  {b | b ∈ i.bits}

/-- The instruction with every operand `b` called `f b`. -/
def relabel (f : Nat → Nat) (i : Instruction) : Instruction :=
  { i with bits := i.bits.map f }

variable {f g : Nat → Nat} {i : Instruction}

theorem operandSet_relabel (f : Nat → Nat) (i : Instruction) :
    (i.relabel f).operandSet = f '' i.operandSet := by
  ext b
  simp [operandSet, relabel]

theorem relabel_relabel (f g : Nat → Nat) (i : Instruction) :
    (i.relabel f).relabel g = i.relabel (g ∘ f) := by
  simp [relabel]

theorem relabel_eq_self (h : ∀ b ∈ i.bits, f b = b) : i.relabel f = i := by
  have hbits : i.bits.map f = i.bits := by
    rw [List.map_congr_left h, List.map_id']
  rw [relabel, hbits]

theorem Checked.length_le_two (hi : i.Checked) : i.bits.length ≤ 2 := by
  obtain ⟨⟨kind, hkind⟩, hwell⟩ := hi
  have hlen := (wellFormed_iff.mp hwell kind hkind).1
  have harity := kind.arity_le_two
  omega

end Instruction

namespace Program

open Instruction (Checked relabel label)

variable {f g : Nat → Nat} {i : Instruction} {is : List Instruction} {p : Program}

theorem eq_relabel_of_remapOne {i' : Instruction} (h : remapOne f i = .ok i') :
    i' = i.relabel f :=
  Instruction.eq_of_setBits h

/-- An instruction is relabelled if its operands stay apart. -/
theorem remapOne_of_injOn (hi : i.Checked) (hinj : Set.InjOn f i.operandSet) :
    remapOne f i = .ok (i.relabel f) := by
  obtain ⟨⟨kind, hkind⟩, hwell⟩ := hi
  obtain ⟨hlen, hnodup, -⟩ := Instruction.wellFormed_iff.mp hwell kind hkind
  have hlen' : (i.bits.map f).length = kind.arity := by rw [List.length_map, hlen]
  have hnodup' : (i.bits.map f).Nodup := hnodup.map_on hinj
  exact (Instruction.setBits_eq_ok_iff hkind).mpr ⟨hlen', hnodup', rfl⟩

/-- An instruction whose operands collide is refused, and the fault names the qubit on
which they do. -/
theorem remapOne_of_collision (hi : i.Checked) {a b : Nat} (ha : a ∈ i.bits) (hb : b ∈ i.bits)
    (hne : a ≠ b) (heq : f a = f b) :
    remapOne f i = .error (.duplicateOperand i.name (f b)) := by
  -- there are two operands at most, so these two are all of them
  have hbits : i.bits.map f = [f b, f b] := by
    have hle := hi.length_le_two
    rcases hi : i.bits with _ | ⟨c, _ | ⟨d, _ | ⟨e, rest⟩⟩⟩
    · rw [hi] at ha
      cases ha
    · rw [hi, List.mem_singleton] at ha hb
      exact absurd (ha.trans hb.symm) hne
    · rw [hi, List.mem_pair] at ha hb
      rcases ha with rfl | rfl <;> rcases hb with rfl | rfl
      · exact absurd rfl hne
      · simp [heq]
      · simp [heq]
      · exact absurd rfl hne
    · rw [hi] at hle
      simp at hle
  obtain ⟨⟨kind, hkind⟩, hwell⟩ := hi
  have hlen := (Instruction.wellFormed_iff.mp hwell kind hkind).1
  have hname : i.name = kind.name := by rw [Instruction.name, hkind, Opcode.name]
  have harity : kind.arity = 2 := by
    rw [← hlen, ← List.length_map f, hbits]
    rfl
  rw [remapOne, Instruction.setBits_of_builtin hkind, hbits, harity, hname]
  simp [checkOperands, firstRepeat, bind, Except.bind]

theorem checked_relabel (hi : i.Checked) (hinj : Set.InjOn f i.operandSet) :
    (i.relabel f).Checked :=
  ⟨hi.1, hi.2.setBits (remapOne_of_injOn hi hinj)⟩

-- ---------------------------------------------------------------------------
-- A list of instructions
-- ---------------------------------------------------------------------------

/-- Instructions that all accept are all relabelled. -/
theorem remapAll_of_forall (h : ∀ i ∈ is, remapOne f i = .ok (i.relabel f)) :
    remapAll f is = (is.map (relabel f), .ok ()) := by
  induction is with
  | nil => rfl
  | cons i is ih =>
    obtain ⟨hi, hrest⟩ := List.forall_mem_cons.mp h
    rw [remapAll_cons_of_ok hi, ih hrest, List.map_cons]

/-- The first instruction that refuses ends the run. -/
theorem remapAll_append_of_error {before after : List Instruction} {fault : InstructionFault}
    (hbefore : ∀ i ∈ before, remapOne f i = .ok (i.relabel f))
    (hi : remapOne f i = .error fault) :
    remapAll f (before ++ i :: after) =
      (before.map (relabel f) ++ i :: after, .error fault) := by
  induction before with
  | nil => exact remapAll_cons_of_error hi
  | cons first before ih =>
    obtain ⟨hfirst, hrest⟩ := List.forall_mem_cons.mp hbefore
    rw [List.cons_append, remapAll_cons_of_ok hfirst, ih hrest]
    rfl

/-- A run to the end has relabelled every instruction, free-form ones included. -/
theorem remapAll_eq_of_ok (h : (remapAll f is).2 = .ok ()) :
    (remapAll f is).1 = is.map (relabel f) := by
  induction is with
  | nil => rfl
  | cons i is ih =>
    cases hone : remapOne f i with
    | error fault =>
      rw [remapAll_cons_of_error hone] at h
      cases h
    | ok i' =>
      rw [remapAll_cons_of_ok hone] at h
      rw [remapAll_cons_of_ok hone, List.map_cons, ← eq_relabel_of_remapOne hone, ih h]

/-- Wherever the run ends, an instruction keeps its operation and its parameters, and its
operands are the old ones or the new ones, in the same order. -/
theorem forall₂_remapAll (f : Nat → Nat) (is : List Instruction) :
    List.Forall₂ (fun i i' => i'.label = i.label ∧ (i'.bits = i.bits ∨ i'.bits = i.bits.map f))
      is (remapAll f is).1 := by
  induction is with
  | nil => exact List.Forall₂.nil
  | cons i is ih =>
    cases hone : remapOne f i with
    | error fault =>
      rw [remapAll_cons_of_error hone, List.forall₂_same]
      exact fun i' _ => ⟨rfl, Or.inl rfl⟩
    | ok i' =>
      rw [remapAll_cons_of_ok hone]
      obtain rfl := eq_relabel_of_remapOne hone
      exact List.Forall₂.cons ⟨rfl, Or.inr rfl⟩ ih

-- ---------------------------------------------------------------------------
-- Programs
-- ---------------------------------------------------------------------------

/-- The program with every operand `b` called `f b`. -/
def relabel (p : Program) (f : Nat → Nat) : Program :=
  { p with instructions := p.instructions.map (Instruction.relabel f) }

/-- How remapping a program ends: all of it is relabelled, or its first instruction with
operands that collide is refused and stands where it stood, with those before it relabelled. -/
inductive Remapping (f : Nat → Nat) (p : Program) :
    Program × Except InstructionFault Unit → Prop
  | complete (hall : ∀ i ∈ p.instructions, Set.InjOn f i.operandSet) :
      Remapping f p (p.relabel f, .ok ())
  | stopped {before after : List Instruction} {i : Instruction} {a b : Nat}
      (hsplit : p.instructions = before ++ i :: after)
      (hbefore : ∀ i' ∈ before, Set.InjOn f i'.operandSet)
      (ha : a ∈ i.bits) (hb : b ∈ i.bits) (hne : a ≠ b) (heq : f a = f b) :
      Remapping f p ({ p with instructions := before.map (Instruction.relabel f) ++ i :: after },
        .error (.duplicateOperand i.name (f b)))

/-- Either the operands of all instructions stay apart, or there is a first instruction with
two that collide. -/
theorem forall_injOn_or_exists_first (f : Nat → Nat) (is : List Instruction) :
    (∀ i ∈ is, Set.InjOn f i.operandSet) ∨
      ∃ before i after a b, is = before ++ i :: after ∧
        (∀ i' ∈ before, Set.InjOn f i'.operandSet) ∧
          a ∈ i.bits ∧ b ∈ i.bits ∧ a ≠ b ∧ f a = f b := by
  induction is with
  | nil => exact Or.inl (List.forall_mem_nil _)
  | cons i is ih =>
    by_cases hinj : Set.InjOn f i.operandSet
    · rcases ih with hall | ⟨before, i', after, a, b, rfl, hbefore, hcollision⟩
      · exact Or.inl (List.forall_mem_cons.mpr ⟨hinj, hall⟩)
      · exact Or.inr ⟨i :: before, i', after, a, b, rfl,
          List.forall_mem_cons.mpr ⟨hinj, hbefore⟩, hcollision⟩
    · obtain ⟨a, ha, b, hb, heq, hne⟩ : ∃ a ∈ i.operandSet, ∃ b ∈ i.operandSet,
          f a = f b ∧ a ≠ b := by
        simpa [Set.InjOn] using hinj
      exact Or.inr ⟨[], i, is, a, b, rfl, List.forall_mem_nil _, ha, hb, hne, heq⟩

theorem remapping_remap (hp : ∀ i ∈ p.instructions, i.Checked) (f : Nat → Nat) :
    Remapping f p (p.remap f) := by
  rcases forall_injOn_or_exists_first f p.instructions with
    hall | ⟨before, i, after, a, b, hsplit, hbefore, ha, hb, hne, heq⟩
  · have hremap : p.remap f = (p.relabel f, .ok ()) := by
      rw [remap, remapAll_of_forall fun i hi => remapOne_of_injOn (hp i hi) (hall i hi)]
      rfl
    rw [hremap]
    exact .complete hall
  · rw [hsplit] at hp
    have hi : i.Checked := hp i (by simp)
    have hones : ∀ i' ∈ before, remapOne f i' = .ok (i'.relabel f) := by
      intro i' hi'
      exact remapOne_of_injOn (hp i' (by simp [hi'])) (hbefore i' hi')
    rw [remap, hsplit, remapAll_append_of_error hones (remapOne_of_collision hi ha hb hne heq)]
    exact .stopped hsplit hbefore ha hb hne heq

theorem remap_eq_ok_iff (hp : ∀ i ∈ p.instructions, i.Checked) :
    (p.remap f).2 = .ok () ↔ ∀ i ∈ p.instructions, Set.InjOn f i.operandSet := by
  have hend := remapping_remap hp f
  generalize p.remap f = result at hend
  cases hend with
  | complete hall => exact iff_of_true rfl hall
  | @stopped before after i a b hsplit hbefore ha hb hne heq =>
    simp only [reduceCtorEq, false_iff]
    intro hall
    exact hne (hall i (by simp [hsplit]) ha hb heq)

theorem remap_eq_of_ok (h : (p.remap f).2 = .ok ()) : (p.remap f).1 = p.relabel f := by
  show { p with instructions := (remapAll f p.instructions).1 } = p.relabel f
  rw [remapAll_eq_of_ok h, relabel]

/-- **What remapping does to a program of built-in instructions.** It succeeds exactly if the
mapping is injective on the operands of each single instruction, and then every operand `b`
has become `f b`. Otherwise it reports the first instruction with two operands that collide,
by name and with the qubit they both became; those in front have their new operands, that one
and the rest have their old ones. Whatever happens, the register, the number of instructions,
their operations with their names, the parameters and the order of operands stay. -/
theorem remap_exact (p : Program) (hp : ∀ i ∈ p.instructions, i.Checked) (f : Nat → Nat) :
    ((p.remap f).2 = .ok () ↔ ∀ i ∈ p.instructions, Set.InjOn f i.operandSet) ∧
    ((p.remap f).2 = .ok () → (p.remap f).1 = p.relabel f) ∧
    (∀ fault, (p.remap f).2 = .error fault →
      ∃ before i after, p.instructions = before ++ i :: after ∧
        (∀ i' ∈ before, Set.InjOn f i'.operandSet) ∧ ¬ Set.InjOn f i.operandSet ∧
        (∀ a ∈ i.bits, ∀ b ∈ i.bits, a ≠ b → f a = f b →
          fault = .duplicateOperand i.name (f b)) ∧
        (p.remap f).1 =
          { p with instructions := before.map (Instruction.relabel f) ++ i :: after }) ∧
    (p.remap f).1.register = p.register ∧ (p.remap f).1.length = p.length ∧
    List.Forall₂ (fun i i' => i'.opcode = i.opcode ∧ i'.name = i.name ∧ i'.params = i.params ∧
      (i'.bits = i.bits ∨ i'.bits = i.bits.map f)) p.instructions (p.remap f).1.instructions := by
  have hkept := forall₂_remapAll f p.instructions
  refine ⟨remap_eq_ok_iff hp, remap_eq_of_ok, ?_, rfl, hkept.length_eq.symm, hkept.imp ?_⟩
  · intro fault hfault
    have hend := remapping_remap hp f
    generalize p.remap f = result at hend hfault
    cases hend with
    | complete hall => cases hfault
    | @stopped before after i a b hsplit hbefore ha hb hne heq =>
      have hi : i.Checked := hp i (by simp [hsplit])
      refine ⟨before, i, after, hsplit, hbefore, fun hinj => hne (hinj ha hb heq), ?_, rfl⟩
      -- another pair that collides does so on the same qubit, or the instruction would have
      -- been refused with two faults
      intro a' ha' b' hb' hne' heq'
      have hone := remapOne_of_collision hi ha hb hne heq
      rw [remapOne_of_collision hi ha' hb' hne' heq'] at hone
      cases hfault
      exact (Except.error.inj hone).symm
  · rintro i i' ⟨hlabel, hbits⟩
    have hopcode : i'.opcode = i.opcode := congrArg Prod.fst hlabel
    have hparams : i'.params = i.params := congrArg Prod.snd hlabel
    exact ⟨hopcode, by rw [Instruction.name, hopcode, Instruction.name], hparams, hbits⟩

/-- Three instructions. A mapping to one qubit lets the rotation pass and makes the operands of
the controlled gate collide. -/
def sampleProgram : Program :=
  ⟨"q", [⟨.builtin .rz, [3], [0.5]⟩, ⟨.builtin .cnot, [0, 1], []⟩, ⟨.builtin .x, [2], []⟩]⟩

theorem checked_sampleProgram : ∀ i ∈ sampleProgram.instructions, i.Checked := by
  simp [sampleProgram, Instruction.Checked, Instruction.WellFormed, Kind.arity, Kind.numParams]

theorem remap_exact_stopped :
    (∀ i ∈ sampleProgram.instructions, i.Checked) ∧
      ¬ (∀ i ∈ sampleProgram.instructions, Set.InjOn (fun _ => 7) i.operandSet) ∧
      (sampleProgram.remap fun _ => 7).2 = .error (.duplicateOperand "CNOT" 7) ∧
      (sampleProgram.remap fun _ => 7).1 = ⟨"q", [⟨.builtin .rz, [7], [0.5]⟩,
        ⟨.builtin .cnot, [0, 1], []⟩, ⟨.builtin .x, [2], []⟩]⟩ := by
  have hfault : (sampleProgram.remap fun _ => 7).2 = .error (.duplicateOperand "CNOT" 7) := rfl
  refine ⟨checked_sampleProgram, ?_, hfault, rfl⟩
  rw [← (remap_exact sampleProgram checked_sampleProgram fun _ => 7).1, hfault]
  simp

-- ---------------------------------------------------------------------------
-- Composition
-- ---------------------------------------------------------------------------

theorem mem_relabel_instructions_iff {i' : Instruction} :
    i' ∈ (p.relabel f).instructions ↔ ∃ i ∈ p.instructions, i.relabel f = i' :=
  List.mem_map

theorem relabel_relabel (f g : Nat → Nat) (p : Program) :
    (p.relabel f).relabel g = p.relabel (g ∘ f) := by
  simp [relabel, Instruction.relabel_relabel]

theorem relabel_eq_self (h : ∀ b ∈ p.operands, f b = b) : p.relabel f = p := by
  have hinstructions : p.instructions.map (Instruction.relabel f) = p.instructions := by
    refine (List.map_congr_left fun i hi => ?_).trans (List.map_id' _)
    exact Instruction.relabel_eq_self fun b hb => h b (mem_operands_iff.mpr ⟨i, hi, hb⟩)
  rw [relabel, hinstructions]

theorem injOn_operandSet_of_operands (h : Set.InjOn f {b | b ∈ p.operands}) :
    ∀ i ∈ p.instructions, Set.InjOn f i.operandSet := by
  intro i hi
  exact h.mono fun b hb => mem_operands_iff.mpr ⟨i, hi, hb⟩

/-- A program that was relabelled without a collision can be relabelled again exactly if the
second mapping keeps apart what the first has made of each instruction's operands. -/
theorem remap_relabel_eq_ok_iff (hp : ∀ i ∈ p.instructions, i.Checked)
    (hf : ∀ i ∈ p.instructions, Set.InjOn f i.operandSet) :
    ((p.relabel f).remap g).2 = .ok () ↔
      ∀ i ∈ p.instructions, Set.InjOn (g ∘ f) i.operandSet := by
  have hchecked : ∀ i' ∈ (p.relabel f).instructions, i'.Checked := by
    intro i' hi'
    obtain ⟨i, hi, rfl⟩ := mem_relabel_instructions_iff.mp hi'
    exact checked_relabel (hp i hi) (hf i hi)
  rw [remap_eq_ok_iff hchecked]
  constructor
  · intro hg i hi
    have himage := hg (i.relabel f) (mem_relabel_instructions_iff.mpr ⟨i, hi, rfl⟩)
    rw [Instruction.operandSet_relabel] at himage
    exact (hf i hi).comp_iff.mpr himage
  · intro hgf i' hi'
    obtain ⟨i, hi, rfl⟩ := mem_relabel_instructions_iff.mp hi'
    rw [Instruction.operandSet_relabel]
    exact (hf i hi).comp_iff.mp (hgf i hi)

/-- Two remappings one after the other succeed exactly if that by the composed mapping does. -/
theorem remap_comp_eq_ok_iff (hp : ∀ i ∈ p.instructions, i.Checked) :
    (p.remap f).2 = .ok () ∧ ((p.remap f).1.remap g).2 = .ok () ↔
      (p.remap (g ∘ f)).2 = .ok () := by
  constructor
  · rintro ⟨hf, hg⟩
    rw [remap_eq_of_ok hf, remap_relabel_eq_ok_iff hp ((remap_eq_ok_iff hp).mp hf)] at hg
    exact (remap_eq_ok_iff hp).mpr hg
  · intro hgf
    have hall := (remap_eq_ok_iff hp).mp hgf
    have hf : ∀ i ∈ p.instructions, Set.InjOn f i.operandSet := fun i hi => (hall i hi).of_comp
    have hok : (p.remap f).2 = .ok () := (remap_eq_ok_iff hp).mpr hf
    refine ⟨hok, ?_⟩
    rw [remap_eq_of_ok hok]
    exact (remap_relabel_eq_ok_iff hp hf).mpr hall

theorem remap_comp_eq (hp : ∀ i ∈ p.instructions, i.Checked)
    (h : (p.remap (g ∘ f)).2 = .ok ()) : (p.remap f).1.remap g = p.remap (g ∘ f) := by
  obtain ⟨hf, hg⟩ := (remap_comp_eq_ok_iff hp).mpr h
  refine Prod.ext ?_ (hg.trans h.symm)
  calc ((p.remap f).1.remap g).1 = (p.remap f).1.relabel g := remap_eq_of_ok hg
    _ = (p.relabel f).relabel g := by rw [remap_eq_of_ok hf]
    _ = p.relabel (g ∘ f) := relabel_relabel f g p
    _ = (p.remap (g ∘ f)).1 := (remap_eq_of_ok h).symm

/-- **Remapping composes.** On a program of built-in instructions, remapping by `f` and then
by `g` both succeed exactly if remapping by the composition does, and then the programs are
the same. So a mapping that is injective on the operands always succeeds, and one that has an
inverse on them is taken back by it. -/
theorem remap_comp (p : Program) (hp : ∀ i ∈ p.instructions, i.Checked) (f g : Nat → Nat) :
    ((p.remap f).2 = .ok () ∧ ((p.remap f).1.remap g).2 = .ok () ↔
      (p.remap (g ∘ f)).2 = .ok ()) ∧
    ((p.remap (g ∘ f)).2 = .ok () → ((p.remap f).1.remap g).1 = (p.remap (g ∘ f)).1) ∧
    (Set.InjOn f {b | b ∈ p.operands} → (p.remap f).2 = .ok ()) ∧
    ((∀ b ∈ p.operands, g (f b) = b) →
      (p.remap f).2 = .ok () ∧ (p.remap f).1.remap g = (p, .ok ())) := by
  refine ⟨remap_comp_eq_ok_iff hp, fun h => by rw [remap_comp_eq hp h], ?_, ?_⟩
  · intro hinj
    exact (remap_eq_ok_iff hp).mpr (injOn_operandSet_of_operands hinj)
  · intro hinverse
    -- the composition is the identity on the operands
    have hinj : Set.InjOn (g ∘ f) {b | b ∈ p.operands} := by
      intro a ha b hb heq
      rw [← hinverse a ha, ← hinverse b hb]
      exact heq
    have hok : (p.remap (g ∘ f)).2 = .ok () :=
      (remap_eq_ok_iff hp).mpr (injOn_operandSet_of_operands hinj)
    refine ⟨((remap_comp_eq_ok_iff hp).mpr hok).1, ?_⟩
    rw [remap_comp_eq hp hok]
    exact Prod.ext ((remap_eq_of_ok hok).trans (relabel_eq_self hinverse)) hok

/-- A mapping that is not injective, as it sends both 3 and 4 to 13, and an inverse of it on
the operands of three instructions. -/
theorem remap_comp_inverse :
    (∀ i ∈ sampleProgram.instructions, i.Checked) ∧
      (sampleProgram.remap fun b => 10 + min b 3).2 = .ok () ∧
      (sampleProgram.remap fun b => 10 + min b 3).1.remap (fun b => b - 10) =
        (sampleProgram, .ok ()) := by
  have hinverse : ∀ b ∈ sampleProgram.operands, 10 + min b 3 - 10 = b := by decide
  obtain ⟨-, -, -, hrestored⟩ := remap_comp sampleProgram checked_sampleProgram
    (fun b => 10 + min b 3) (fun b => b - 10)
  exact ⟨checked_sampleProgram, hrestored hinverse⟩

end Program

end QuantumCompiler
