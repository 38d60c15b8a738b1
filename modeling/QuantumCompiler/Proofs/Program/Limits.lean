import Mathlib.Order.Bounds.Basic
import QuantumCompiler.Program.Limits
import QuantumCompiler.Proofs.Traversal

/-!
# Programs within their limits

Three things are asked of a program: its register has a proper name, it has no more
instructions than the limit, and every operand is below the limit of qubits. They are said
here without the functions that check them. The validation accepts a program exactly if all
three hold. Otherwise its fault is that of the first one that does not (`Violation`): what is
wrong with the name (`NameComplaint`), the number of instructions, or the least number of
qubits that the operands fit in.

* `checkRegisterName_eq_ok_iff`, `checkRegisterName_eq_error_iff` — names;
* `numQubits_le_iff`, `isLeast_numQubits` — the number of qubits is a bound on single operands,
  and the least one;
* `validate_eq_ok_iff`, `validate_eq_error_iff` — acceptance and faults;
* `validate_exact` — both at once.
-/

namespace QuantumCompiler

-- ---------------------------------------------------------------------------
-- Register names
-- ---------------------------------------------------------------------------

/-- A letter of ASCII or an underscore. -/
def NameStart (c : Char) : Prop :=
  c.isAlpha = true ∨ c = '_'

/-- A letter or a digit of ASCII or an underscore. -/
def NameLater (c : Char) : Prop :=
  c.isAlphanum = true ∨ c = '_'

/-- A proper name of a register. -/
inductive RegisterName : List Char → Prop
  | intro {c : Char} {cs : List Char} (hstart : NameStart c) (hlater : ∀ d ∈ cs, NameLater d) :
      RegisterName (c :: cs)

/-- What is said of a name that is not proper. Of the characters after a good start, the first
that cannot stand there is named. -/
inductive NameComplaint (name : String) : String → Prop
  | empty (hname : name.toList = []) : NameComplaint name "must not be empty"
  | start {c : Char} {cs : List Char} (hname : name.toList = c :: cs) (hstart : ¬ NameStart c) :
      NameComplaint name s!"'{name}' must start with a letter or '_'"
  | later {c d : Char} {before after : List Char}
      (hname : name.toList = c :: (before ++ d :: after)) (hstart : NameStart c)
      (hbefore : ∀ e ∈ before, NameLater e) (hd : ¬ NameLater d) :
      NameComplaint name s!"'{name}' contains invalid character '{d}'"

theorem NameStart.later {c : Char} (h : NameStart c) : NameLater c :=
  h.imp_left fun halpha => by rw [Char.isAlphanum, halpha, Bool.true_or]

theorem isNameStart_iff {c : Char} : isNameStart c = true ↔ NameStart c := by
  rw [isNameStart, NameStart, Bool.or_eq_true, beq_iff_eq]

theorem isNameRest_iff {c : Char} : isNameRest c = true ↔ NameLater c := by
  rw [isNameRest, NameLater, Bool.or_eq_true, beq_iff_eq]

/-- A name is proper or there is something to say of it. -/
theorem registerName_or_complaint (name : String) :
    RegisterName name.toList ∨ ∃ message, NameComplaint name message := by
  cases hname : name.toList with
  | nil => exact Or.inr ⟨_, .empty hname⟩
  | cons c cs =>
    by_cases hstart : NameStart c
    · cases hfind : cs.find? fun d => !isNameRest d with
      | none =>
        refine Or.inl (.intro hstart ?_)
        intro d hd
        have hkept := List.find?_eq_none.mp hfind d hd
        exact isNameRest_iff.mp (by simpa using hkept)
      | some d =>
        obtain ⟨hd, before, after, rfl, hbefore⟩ := List.find?_eq_some_iff_append.mp hfind
        refine Or.inr ⟨_, .later hname hstart ?_ ?_⟩
        · intro e he
          exact isNameRest_iff.mp (by simpa using hbefore e he)
        · rw [← isNameRest_iff]
          simpa using hd
    · exact Or.inr ⟨_, .start hname hstart⟩

theorem checkRegisterName_of_proper {name : String} (h : RegisterName name.toList) :
    checkRegisterName name = .ok () := by
  unfold checkRegisterName
  cases hname : name.toList with
  | nil =>
    rw [hname] at h
    cases h
  | cons c cs =>
    rw [hname] at h
    cases h with
    | intro hstart hlater =>
      have hfind : (cs.find? fun d => !isNameRest d) = none := by
        rw [List.find?_eq_none]
        intro d hd
        simp [isNameRest_iff.mpr (hlater d hd)]
      simp only [isNameStart_iff.mpr hstart, hfind]
      rfl

theorem checkRegisterName_of_complaint {name message : String} (h : NameComplaint name message) :
    checkRegisterName name = .error (.field "register" message) := by
  unfold checkRegisterName
  cases h with
  | empty hname => simp only [hname]
  | start hname hstart =>
    simp only [hname]
    rw [if_pos]
    simpa [← isNameStart_iff] using hstart
  | @later c d before after hname hstart hbefore hd =>
    have hfind : (before ++ d :: after).find? (fun e => !isNameRest e) = some d := by
      rw [List.find?_eq_some_iff_append]
      refine ⟨by simpa [← isNameRest_iff] using hd, before, after, rfl, ?_⟩
      intro e he
      simp [isNameRest_iff.mpr (hbefore e he)]
    simp only [hname, hfind, isNameStart_iff.mpr hstart]
    rfl

theorem checkRegisterName_eq_ok_iff {name : String} :
    checkRegisterName name = .ok () ↔ RegisterName name.toList := by
  constructor
  · intro h
    refine (registerName_or_complaint name).resolve_right ?_
    rintro ⟨message, hcomplaint⟩
    rw [checkRegisterName_of_complaint hcomplaint] at h
    cases h
  · exact checkRegisterName_of_proper

theorem checkRegisterName_eq_error_iff {name : String} {fault : ValidationFault} :
    checkRegisterName name = .error fault ↔
      ∃ message, NameComplaint name message ∧ fault = .field "register" message := by
  constructor
  · intro h
    rcases registerName_or_complaint name with hproper | ⟨message, hcomplaint⟩
    · rw [checkRegisterName_of_proper hproper] at h
      cases h
    · rw [checkRegisterName_of_complaint hcomplaint] at h
      exact ⟨message, hcomplaint, (Except.error.inj h).symm⟩
  · rintro ⟨message, hcomplaint, rfl⟩
    exact checkRegisterName_of_complaint hcomplaint

-- ---------------------------------------------------------------------------
-- Numbers of qubits
-- ---------------------------------------------------------------------------

namespace Program

theorem foldl_max_succ_le_iff (bits : List Nat) (first n : Nat) :
    bits.foldl (fun n bit => max n (bit + 1)) first ≤ n ↔ first ≤ n ∧ ∀ bit ∈ bits, bit < n := by
  induction bits generalizing first with
  | nil => simp
  | cons bit bits ih =>
    rw [List.foldl_cons, ih, List.forall_mem_cons, Nat.max_le, Nat.succ_le_iff, and_assoc]

theorem numQubits_le_iff (p : Program) (n : Nat) :
    p.numQubits ≤ n ↔ ∀ bit ∈ p.operands, bit < n := by
  rw [numQubits, foldl_max_succ_le_iff]
  simp

theorem mem_operands_iff {p : Program} {bit : Nat} :
    bit ∈ p.operands ↔ ∃ i ∈ p.instructions, bit ∈ i.bits :=
  List.mem_flatMap

/-- The numbers of qubits that the operands of a program fit in. -/
def widths (p : Program) : Set Nat :=
  {n | ∀ i ∈ p.instructions, ∀ bit ∈ i.bits, bit < n}

theorem numQubits_le_iff_mem_widths (p : Program) (n : Nat) : p.numQubits ≤ n ↔ n ∈ p.widths := by
  rw [numQubits_le_iff]
  constructor
  · intro h i hi bit hbit
    exact h bit (mem_operands_iff.mpr ⟨i, hi, hbit⟩)
  · intro h bit hbit
    obtain ⟨i, hi, hmem⟩ := mem_operands_iff.mp hbit
    exact h i hi bit hmem

/-- One past the greatest operand, and none without operands, is the least number of qubits. -/
theorem isLeast_numQubits (p : Program) : IsLeast p.widths p.numQubits :=
  ⟨(numQubits_le_iff_mem_widths p _).mp (Nat.le_refl _),
    fun n hn => (numQubits_le_iff_mem_widths p n).mpr hn⟩

theorem lt_numQubits_iff (p : Program) (n : Nat) :
    n < p.numQubits ↔ ∃ i ∈ p.instructions, ∃ bit ∈ i.bits, n ≤ bit := by
  rw [← Nat.not_le, numQubits_le_iff_mem_widths]
  simp [widths]

-- ---------------------------------------------------------------------------
-- Validation
-- ---------------------------------------------------------------------------

/-- The validation as a chain of checks. -/
theorem validate_eq (p : Program) (limits : Limits) :
    p.validate limits = checkRegisterName p.register >>= fun _ =>
      if limits.maxInstructions < p.length then
        .error (.resourceLimit "instructions" limits.maxInstructions p.length)
      else if limits.maxQubits < p.numQubits then
        .error (.resourceLimit "qubits" limits.maxQubits p.numQubits)
      else .ok () :=
  rfl

theorem validate_eq_ok_iff (p : Program) (limits : Limits) :
    p.validate limits = .ok () ↔
      checkRegisterName p.register = .ok () ∧ p.length ≤ limits.maxInstructions ∧
        ∀ bit ∈ p.operands, bit < limits.maxQubits := by
  rw [← numQubits_le_iff, validate_eq, bind_eq_ok_iff]
  constructor
  · rintro ⟨⟨⟩, hregister, h⟩
    refine ⟨hregister, ?_⟩
    split_ifs at h with hlength hqubits
    omega
  · rintro ⟨hregister, hlength, hqubits⟩
    refine ⟨(), hregister, ?_⟩
    rw [if_neg (by omega), if_neg (by omega)]

/-- The first thing that is wrong with a program, and the fault that reports it. -/
inductive Violation (p : Program) (limits : Limits) : ValidationFault → Prop
  | register {message : String} (hname : NameComplaint p.register message) :
      Violation p limits (.field "register" message)
  | instructions (hname : RegisterName p.register.toList)
      (hlong : limits.maxInstructions < p.instructions.length) :
      Violation p limits
        (.resourceLimit "instructions" limits.maxInstructions p.instructions.length)
  | qubits {n : Nat} (hname : RegisterName p.register.toList)
      (hlength : p.instructions.length ≤ limits.maxInstructions)
      (hwide : ∃ i ∈ p.instructions, ∃ bit ∈ i.bits, limits.maxQubits ≤ bit)
      (hleast : IsLeast p.widths n) :
      Violation p limits (.resourceLimit "qubits" limits.maxQubits n)

theorem validate_eq_error_iff (p : Program) (limits : Limits) (fault : ValidationFault) :
    p.validate limits = .error fault ↔ p.Violation limits fault := by
  rw [validate_eq, bind_eq_error_iff, checkRegisterName_eq_error_iff]
  constructor
  · rintro (⟨message, hcomplaint, rfl⟩ | ⟨⟨⟩, hok, h⟩)
    · exact .register hcomplaint
    · have hname := checkRegisterName_eq_ok_iff.mp hok
      split_ifs at h with hlong hwide
      · obtain rfl := Except.error.inj h
        exact .instructions hname hlong
      · obtain rfl := Except.error.inj h
        exact .qubits hname (Nat.not_lt.mp hlong) ((p.lt_numQubits_iff _).mp hwide)
          p.isLeast_numQubits
  · intro h
    cases h with
    | register hcomplaint => exact Or.inl ⟨_, hcomplaint, rfl⟩
    | instructions hname hlong =>
      exact Or.inr ⟨(), checkRegisterName_eq_ok_iff.mpr hname, if_pos hlong⟩
    | qubits hname hlength hwide hleast =>
      obtain rfl := hleast.unique p.isLeast_numQubits
      have hshort : ¬ limits.maxInstructions < p.length := Nat.not_lt.mpr hlength
      refine Or.inr ⟨(), checkRegisterName_eq_ok_iff.mpr hname, ?_⟩
      rw [if_neg hshort, if_pos ((p.lt_numQubits_iff _).mpr hwide)]

/-- **The validation is exact.** A program is accepted if and only if its register has a
proper name, it has at most as many instructions as the limit allows and each operand of each
instruction is below the limit of qubits. The fault of any other program reports the first of
these that fails. Operands that have a successor among the machine words fit in a number of
qubits that is a machine word, so this number is counted without overflow. -/
theorem validate_exact (p : Program) (limits : Limits)
    (hwords : ∀ i ∈ p.instructions, ∀ bit ∈ i.bits, bit < Text.wordSize - 1) :
    (p.validate limits = .ok () ↔
      RegisterName p.register.toList ∧ p.instructions.length ≤ limits.maxInstructions ∧
        ∀ i ∈ p.instructions, ∀ bit ∈ i.bits, bit < limits.maxQubits) ∧
    (∀ fault, p.validate limits = .error fault ↔ p.Violation limits fault) ∧
    ∃ n < Text.wordSize, IsLeast p.widths n := by
  refine ⟨?_, p.validate_eq_error_iff limits, p.numQubits, ?_, p.isLeast_numQubits⟩
  · rw [validate_eq_ok_iff, checkRegisterName_eq_ok_iff, ← numQubits_le_iff,
      numQubits_le_iff_mem_widths]
    exact Iff.rfl
  · have hfit : p.numQubits ≤ Text.wordSize - 1 := (p.numQubits_le_iff_mem_widths _).mpr hwords
    have hpos : 0 < Text.wordSize := by decide
    omega

/-- An instruction without operands and one on the last qubit whose successor is a word. -/
def widestProgram : Program :=
  ⟨"_q1", [⟨.free "Barrier", [], []⟩, ⟨.builtin .measure, [18446744073709551614], []⟩]⟩

theorem registerName_widestProgram : RegisterName widestProgram.register.toList :=
  checkRegisterName_eq_ok_iff.mp rfl

theorem validate_exact_widest :
    (∀ i ∈ widestProgram.instructions, ∀ bit ∈ i.bits, bit < Text.wordSize - 1) ∧
      widestProgram.validate ⟨2, 18446744073709551615⟩ = .ok () ∧
      widestProgram.validate ⟨2, 18446744073709551614⟩ =
        .error (.resourceLimit "qubits" 18446744073709551614 18446744073709551615) ∧
      widestProgram.validate ⟨1, 0⟩ = .error (.resourceLimit "instructions" 1 2) ∧
      { widestProgram with register := "q é!" }.validate ⟨1, 0⟩ =
        .error (.field "register" "'q é!' contains invalid character ' '") := by
  have hwords : ∀ i ∈ widestProgram.instructions, ∀ bit ∈ i.bits, bit < Text.wordSize - 1 := by
    simp [widestProgram, Text.wordSize]
  refine ⟨hwords, ?_, ?_, ?_, ?_⟩
  · exact (validate_exact widestProgram _ hwords).1.mpr
      ⟨registerName_widestProgram, by decide, by simp [widestProgram]⟩
  · refine ((validate_exact widestProgram _ hwords).2.1 _).mpr ?_
    exact .qubits registerName_widestProgram (by decide)
      ⟨⟨.builtin .measure, [18446744073709551614], []⟩, by simp [widestProgram], _,
        List.mem_singleton_self _, Nat.le_refl _⟩ widestProgram.isLeast_numQubits
  · exact ((validate_exact widestProgram _ hwords).2.1 _).mpr
      (.instructions registerName_widestProgram (by decide))
  · refine ((validate_exact { widestProgram with register := "q é!" } _ hwords).2.1 _).mpr ?_
    exact .register (@NameComplaint.later "q é!" 'q' ' ' [] ['é', '!'] rfl (Or.inl rfl) (by simp)
      (by simp [NameLater]))

end Program

end QuantumCompiler
