import QuantumCompiler.Program.Basic
import QuantumCompiler.Proofs.Instruction

/-!
# New operands

An instruction accepts new operands if its construction would have accepted them, and
nothing else about it changes. Remapping a program does this to its instructions in
order and stops at the first that refuses, so it may leave a program half done; the
equations `remapAll_cons_of_ok` and `remapAll_cons_of_error` say how it proceeds.

* `setBits_eq_ok_iff`    — what a built-in instruction accepts;
* `WellFormed.setBits`   — a well-formed instruction stays one;
* `map_label_remapAll`   — operations and parameters stay, also where remapping stops;
* `wellFormed_remapAll`  — so do the counts and the distinctness of operands.
-/

namespace QuantumCompiler

namespace Instruction

/-- All of an instruction except its operands: the operation, which gives the name, and
the parameters. -/
def label (i : Instruction) : Opcode × List Float :=
  (i.opcode, i.params)

theorem wellFormed_iff {i : Instruction} :
    i.WellFormed ↔ ∀ kind, i.opcode = .builtin kind →
      i.bits.length = kind.arity ∧ i.bits.Nodup ∧ i.params.length = kind.numParams := by
  unfold WellFormed
  cases i.opcode with
  | builtin kind => simp
  | free name => simp

theorem setBits_of_builtin {i : Instruction} {kind : Kind} (hkind : i.opcode = .builtin kind)
    (bits : List Nat) :
    i.setBits bits =
      checkOperands kind.name kind.arity bits >>= fun _ => .ok { i with bits := bits } := by
  unfold setBits
  rw [hkind]
  rfl

theorem setBits_of_free {i : Instruction} {name : String} (hname : i.opcode = .free name)
    (bits : List Nat) : i.setBits bits = .ok { i with bits := bits } := by
  unfold setBits
  rw [hname]

/-- A built-in instruction accepts operands by the rule of its construction. -/
theorem setBits_eq_ok_iff {i : Instruction} {kind : Kind} (hkind : i.opcode = .builtin kind)
    {bits : List Nat} {i' : Instruction} :
    i.setBits bits = .ok i' ↔
      bits.length = kind.arity ∧ bits.Nodup ∧ i' = { i with bits := bits } := by
  rw [setBits_of_builtin hkind, bind_eq_ok_iff]
  constructor
  · rintro ⟨⟨⟩, hcheck, h⟩
    obtain ⟨hlen, hnodup⟩ := checkOperands_eq_ok_iff.mp hcheck
    exact ⟨hlen, hnodup, (Except.ok.inj h).symm⟩
  · rintro ⟨hlen, hnodup, rfl⟩
    exact ⟨(), checkOperands_eq_ok_iff.mpr ⟨hlen, hnodup⟩, rfl⟩

theorem eq_of_setBits {i i' : Instruction} {bits : List Nat} (h : i.setBits bits = .ok i') :
    i' = { i with bits := bits } := by
  rcases hopcode : i.opcode with kind | name
  · rw [← hopcode]
    exact ((setBits_eq_ok_iff hopcode).mp h).2.2
  · rw [setBits_of_free hopcode] at h
    rw [← hopcode]
    exact (Except.ok.inj h).symm

theorem WellFormed.setBits {i i' : Instruction} {bits : List Nat} (hi : i.WellFormed)
    (h : i.setBits bits = .ok i') : i'.WellFormed := by
  rw [wellFormed_iff]
  intro kind hkind
  have heq := eq_of_setBits h
  have hopcode : i.opcode = .builtin kind := by rw [heq] at hkind; exact hkind
  obtain ⟨hlen, hnodup, -⟩ := (setBits_eq_ok_iff hopcode).mp h
  have hparams := (wellFormed_iff.mp hi kind hopcode).2.2
  rw [heq]
  exact ⟨hlen, hnodup, hparams⟩

end Instruction

-- ---------------------------------------------------------------------------
-- Remapping
-- ---------------------------------------------------------------------------

namespace Program

open Instruction (label)

variable {f : Nat → Nat} {i : Instruction} {is : List Instruction}

theorem remapAll_cons_of_ok {i' : Instruction} (h : remapOne f i = .ok i') :
    remapAll f (i :: is) = (i' :: (remapAll f is).1, (remapAll f is).2) := by
  have hok : (remapOne f i).isOk = true := by rw [h]; rfl
  have hsome : (remapOne f i).toOption = some i' := by rw [h]; rfl
  simp only [remapAll, List.takeWhile_cons, List.dropWhile_cons, hok, if_true,
    List.filterMap_cons, hsome, List.cons_append]

theorem remapAll_cons_of_error {fault : InstructionFault} (h : remapOne f i = .error fault) :
    remapAll f (i :: is) = (i :: is, .error fault) := by
  have hok : (remapOne f i).isOk = false := by rw [h]; rfl
  have hfault : (remapOne f i).map (fun _ => ()) = .error fault := by rw [h]; rfl
  simp only [remapAll, List.takeWhile_cons, List.dropWhile_cons, hok, Bool.false_eq_true, if_false,
    List.filterMap_nil, List.nil_append, hfault]

theorem map_label_remapAll (f : Nat → Nat) (is : List Instruction) :
    (remapAll f is).1.map label = is.map label := by
  induction is with
  | nil => rfl
  | cons i is ih =>
    cases hone : remapOne f i with
    | error fault => rw [remapAll_cons_of_error hone]
    | ok i' =>
      have hlabel : i'.label = i.label := by rw [Instruction.eq_of_setBits hone]; rfl
      rw [remapAll_cons_of_ok hone, List.map_cons, List.map_cons, hlabel, ih]

theorem wellFormed_remapAll (f : Nat → Nat) {is : List Instruction}
    (his : ∀ i ∈ is, i.WellFormed) : ∀ i ∈ (remapAll f is).1, i.WellFormed := by
  induction is with
  | nil => exact his
  | cons i is ih =>
    obtain ⟨hi, hrest⟩ := List.forall_mem_cons.mp his
    cases hone : remapOne f i with
    | error fault =>
      -- nothing from here on has changed
      rw [remapAll_cons_of_error hone]
      exact his
    | ok i' =>
      rw [remapAll_cons_of_ok hone]
      exact List.forall_mem_cons.mpr ⟨hi.setBits hone, ih hrest⟩

end Program

end QuantumCompiler
