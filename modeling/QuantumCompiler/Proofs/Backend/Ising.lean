import QuantumCompiler.Proofs.Backend.Outcome
import QuantumCompiler.Proofs.Decimal.Exact
import QuantumCompiler.Proofs.Program.Limits
import QuantumCompiler.Proofs.Program.Line

/-!
# The Ising problem in the annealer's output

A program of biases and couplers is an Ising problem: a bias weighs one spin, a coupler the
product of two. The annealer's output is one line `i j w` for each instruction. It is read
here without the back end (`Term.read?`): two numbers in decimal digits and a literal.

What is read is the term that the instruction stands for (`Denotes`). A line with equal
numbers is a bias and any other one a coupler, which is why the operands of a coupler have
to be distinct: on the diagonal its weight would be taken for that of one spin. Energies
are taken in exact arithmetic, on the rational numbers that doubles stand for.

* `Term.read?_render` — a term's line reads back as the term;
* `Denotes.energy_eq` — a term has the energy of its instruction;
* `compile_eq_of_swaps` — the order of a coupler's operands does not show;
* `compile_encodes` — the lines are the problem of the program.
-/

namespace QuantumCompiler

open QuantumCompiler.Text

-- ---------------------------------------------------------------------------
-- Lines
-- ---------------------------------------------------------------------------

/-- A number in decimal digits. -/
def readNumber? (cs : List Char) : Option Nat :=
  if isNumeral cs then some (numeralValue cs) else none

namespace Annealer

/-- The term on a line: two numbers and a literal, with one space between them. -/
def Term.read? (line : String) : Option Term :=
  match line.toList.splitOn ' ' with
  | [row, column, weight] => do
    let row ← readNumber? row
    let column ← readNumber? column
    let weight ← Decimal.readFloat? weight
    return ⟨row, column, weight⟩
  | _ => none

theorem readNumber?_numeral (n : Nat) : readNumber? (numeral n) = some n := by
  rw [readNumber?, if_pos (isNumeral_numeral n), numeralValue_numeral]

theorem Term.read?_render (t : Term) : Term.read? t.render = some t := by
  have hspace : isMark ' ' = true := by decide
  have hnumeral : ∀ n, ' ' ∉ numeral n := by
    intro n hmem
    rw [isMark_of_isDigit (isDigit_of_mem_numeral hmem)] at hspace
    cases hspace
  have hweight : ' ' ∉ Decimal.plain t.weight := by
    intro hmem
    rw [isMark_of_mem_plain hmem] at hspace
    cases hspace
  have hline : t.render.toList.splitOn ' ' =
      [numeral t.row, numeral t.column, Decimal.plain t.weight] := by
    rw [Term.render, String.toList_ofList, Term.renderChars,
      List.splitOn_append_cons_self_of_not_mem (hnumeral _),
      List.splitOn_append_cons_self_of_not_mem (hnumeral _), List.splitOn_eq_singleton hweight]
  rw [Term.read?, hline]
  dsimp only
  rw [readNumber?_numeral, readNumber?_numeral, Decimal.readFloat?_plain]
  rfl

-- ---------------------------------------------------------------------------
-- Terms of instructions
-- ---------------------------------------------------------------------------

/-- The instruction stands for this term: a bias on the diagonal, or a coupler above it
whose row and column are the two operands in one order or the other. -/
inductive Denotes (i : Instruction) : Term → Prop
  | bias {q : Nat} {w : Float} (hname : i.name = "Bias") (hbits : i.bits = [q])
      (hparams : i.params = [w]) : Denotes i ⟨q, q, w⟩
  | coupler {x y row column : Nat} {w : Float} (hname : i.name = "Coupler")
      (hbits : i.bits = [x, y]) (hparams : i.params = [w]) (hlt : row < column)
      (hpair : row = x ∧ column = y ∨ row = y ∧ column = x) : Denotes i ⟨row, column, w⟩

theorem term?_eq_some {i : Instruction} {t : Term} (h : term? i = some t) :
    (∃ q w, i.name = "Bias" ∧ i.bits = [q] ∧ i.params = [w] ∧ t = ⟨q, q, w⟩) ∨
      ∃ x y w, i.name = "Coupler" ∧ i.bits = [x, y] ∧ i.params = [w] ∧
        t = ⟨min x y, max x y, w⟩ := by
  unfold term? at h
  split at h
  · rename_i q w hname hbits hparams
    have hkind := Kind.ofName?_eq_some_iff.mp hname
    exact Or.inl ⟨q, w, hkind.symm, hbits, hparams, (Option.some.inj h).symm⟩
  · rename_i x y w hname hbits hparams
    have hkind := Kind.ofName?_eq_some_iff.mp hname
    exact Or.inr ⟨x, y, w, hkind.symm, hbits, hparams, (Option.some.inj h).symm⟩
  · cases h

theorem denotes_of_term? {i : Instruction} {t : Term} (h : term? i = some t)
    (hdistinct : i.bits.Nodup) : Denotes i t := by
  rcases term?_eq_some h with
    ⟨q, w, hname, hbits, hparams, rfl⟩ | ⟨x, y, w, hname, hbits, hparams, rfl⟩
  · exact .bias hname hbits hparams
  · have hne : x ≠ y := by
      rw [hbits] at hdistinct
      simpa using hdistinct
    refine .coupler hname hbits hparams (by omega) ?_
    omega

/-- Row and column are operands of the instruction. -/
theorem mem_bits_of_term? {i : Instruction} {t : Term} (h : term? i = some t) :
    t.row ∈ i.bits ∧ t.column ∈ i.bits := by
  rcases term?_eq_some h with ⟨q, w, -, hbits, -, rfl⟩ | ⟨x, y, w, -, hbits, -, rfl⟩
  · simp [hbits]
  · rw [hbits]
    simp only [List.mem_cons, List.not_mem_nil, or_false]
    omega

-- ---------------------------------------------------------------------------
-- Energies
-- ---------------------------------------------------------------------------

/-- The energy of a term: linear on the diagonal, quadratic elsewhere. -/
def Term.energy (spin : Nat → ℚ) (t : Term) : ℚ :=
  if t.row = t.column then Decimal.exactNumber t.weight * spin t.row
  else Decimal.exactNumber t.weight * spin t.row * spin t.column

/-- The energy read from lines, if all of them can be read. -/
def energyOfLines? (spin : Nat → ℚ) (lines : List String) : Option ℚ :=
  (lines.mapM Term.read?).map fun terms => (terms.map (Term.energy spin)).sum

/-- The energy of an instruction: a bias weighs a spin, a coupler the product of two. -/
def instructionEnergy (spin : Nat → ℚ) (i : Instruction) : ℚ :=
  match Kind.ofName? i.name, i.bits, i.params with
  | some .bias, [q], [w] => Decimal.exactNumber w * spin q
  | some .coupler, [x, y], [w] => Decimal.exactNumber w * spin x * spin y
  | _, _, _ => 0

/-- The energy of a program. -/
def programEnergy (spin : Nat → ℚ) (p : Program) : ℚ :=
  (p.instructions.map (instructionEnergy spin)).sum

theorem Denotes.energy_eq {i : Instruction} {t : Term} (h : Denotes i t) (spin : Nat → ℚ) :
    t.energy spin = instructionEnergy spin i := by
  unfold Term.energy instructionEnergy
  cases h with
  | @bias q w hname hbits hparams =>
    have hkind : Kind.ofName? i.name = some .bias := Kind.ofName?_eq_some_iff.mpr hname.symm
    rw [hkind, hbits, hparams, if_pos rfl]
  | @coupler x y row column w hname hbits hparams hlt hpair =>
    have hkind : Kind.ofName? i.name = some .coupler := Kind.ofName?_eq_some_iff.mpr hname.symm
    rw [hkind, hbits, hparams, if_neg (by simpa using hlt.ne)]
    rcases hpair with ⟨rfl, rfl⟩ | ⟨rfl, rfl⟩
    · rfl
    · ring

-- ---------------------------------------------------------------------------
-- The lines of a program
-- ---------------------------------------------------------------------------

/-- What a line says of its instruction. -/
structure Encodes (numQubits : Nat) (line : String) (i : Instruction) (t : Term) : Prop where
  read : Term.read? line = some t
  denotes : Denotes i t
  row : t.row < numQubits
  column : t.column < numQubits
  finite : Decimal.isFinite t.weight = true

/-- An instruction that can be lowered has one line, which is that of its term. -/
theorem lines_of_lowerable {a : Annealer} {i : Instruction} (hi : a.rules.Lowerable i)
    (hdistinct : i.bits.Nodup) :
    ∃ line t, instructionLines i = [line] ∧ Encodes a.target.numQubits line i t := by
  obtain ⟨t, ht⟩ := Option.isSome_iff_exists.mp ((term?_isSome_iff i).mpr hi.shaped)
  obtain ⟨hrow, hcolumn⟩ := mem_bits_of_term? ht
  have hweight : t.weight ∈ i.params := by rw [params_of_term? ht]; exact List.mem_singleton_self _
  refine ⟨t.render, t, ?_, t.read?_render, denotes_of_term? ht hdistinct, hi.inRange _ hrow,
    hi.inRange _ hcolumn, hi.finite rfl _ hweight⟩
  rw [instructionLines, ht]
  rfl

theorem forall₂_encodes {a : Annealer} {is : List Instruction}
    (his : ∀ i ∈ is, a.rules.Lowerable i) (hdistinct : ∀ i ∈ is, i.bits.Nodup) :
    List.Forall₂ (fun line i => ∃ t, Encodes a.target.numQubits line i t)
      (is.flatMap instructionLines) is := by
  induction is with
  | nil => exact .nil
  | cons i is ih =>
    obtain ⟨hi, his⟩ := List.forall_mem_cons.mp his
    obtain ⟨hfirst, hdistinct⟩ := List.forall_mem_cons.mp hdistinct
    obtain ⟨line, t, hline, ht⟩ := lines_of_lowerable hi hfirst
    rw [List.flatMap_cons, hline]
    exact .cons ⟨t, ht⟩ (ih his hdistinct)

theorem energyOfLines?_cons {spin : Nat → ℚ} {line : String} {lines : List String} {t : Term}
    {e : ℚ} (ht : Term.read? line = some t) (he : energyOfLines? spin lines = some e) :
    energyOfLines? spin (line :: lines) = some (t.energy spin + e) := by
  obtain ⟨terms, hterms, rfl⟩ := Option.map_eq_some_iff.mp he
  rw [energyOfLines?, List.mapM_cons, ht, hterms]
  rfl

/-- Lines that encode instructions have their energy. -/
theorem energyOfLines?_eq {numQubits : Nat} {lines : List String} {is : List Instruction}
    (h : List.Forall₂ (fun line i => ∃ t, Encodes numQubits line i t) lines is)
    (spin : Nat → ℚ) :
    energyOfLines? spin lines = some (is.map (instructionEnergy spin)).sum := by
  induction h with
  | nil => rfl
  | @cons line i lines is hline _ ih =>
    obtain ⟨t, ht⟩ := hline
    rw [energyOfLines?_cons ht.read ih, ht.denotes.energy_eq, List.map_cons, List.sum_cons]

-- ---------------------------------------------------------------------------
-- The order of a coupler's operands
-- ---------------------------------------------------------------------------

/-- The same instruction, or a coupler with its operands the other way round. -/
def Swaps (i i' : Instruction) : Prop :=
  i' = i ∨ i.name = "Coupler" ∧ ∃ x y, i.bits = [x, y] ∧ i' = { i with bits := [y, x] }

section Swaps

variable {i i' : Instruction}

theorem Swaps.name_eq (h : Swaps i i') : i'.name = i.name := by
  rcases h with rfl | ⟨-, x, y, -, rfl⟩ <;> rfl

theorem Swaps.params_eq (h : Swaps i i') : i'.params = i.params := by
  rcases h with rfl | ⟨-, x, y, -, rfl⟩ <;> rfl

theorem Swaps.perm (h : Swaps i i') : i'.bits.Perm i.bits := by
  rcases h with rfl | ⟨-, x, y, hbits, rfl⟩
  · exact List.Perm.refl _
  · rw [hbits]
    exact List.Perm.swap x y []

theorem Swaps.term?_eq (h : Swaps i i') : term? i' = term? i := by
  rcases h with rfl | ⟨hname, x, y, hbits, rfl⟩
  · rfl
  · have hkind : Kind.ofName? i.name = some .coupler := Kind.ofName?_eq_some_iff.mpr hname.symm
    have hkind' : Kind.ofName? { i with bits := [y, x] }.name = some .coupler := hkind
    unfold term?
    rw [hkind, hkind', hbits]
    cases i.params with
    | nil => rfl
    | cons w ws =>
      cases ws with
      | nil =>
        dsimp only
        rw [Nat.min_comm, Nat.max_comm]
      | cons w' ws => rfl

theorem Swaps.lowerable (h : Swaps i i') {r : Rules} (hi : r.Lowerable i) : r.Lowerable i' := by
  obtain ⟨⟨kind, hkind, hname, hbits, hparams⟩, hrange, hfinite⟩ := hi
  refine ⟨⟨kind, hkind, ?_, ?_, ?_⟩, ?_, ?_⟩
  · rw [h.name_eq, hname]
  · rw [h.perm.length_eq, hbits]
  · rw [h.params_eq, hparams]
  · exact fun bit hbit => hrange bit (h.perm.mem_iff.mp hbit)
  · rwa [h.params_eq]

theorem flatMap_instructionLines_of_swaps {is is' : List Instruction}
    (h : List.Forall₂ Swaps is is') :
    is'.flatMap instructionLines = is.flatMap instructionLines := by
  induction h with
  | nil => rfl
  | cons hswap _ ih =>
    rw [List.flatMap_cons, List.flatMap_cons, ih, instructionLines, hswap.term?_eq,
      instructionLines]

end Swaps

/-- A program is compiled to the same lines whatever the order of operands in its couplers. -/
theorem compile_eq_of_swaps {a : Annealer} {p p' : Program} {c : CompiledProgram}
    (hcompile : a.compile p = .ok c) (hregister : p'.register = p.register)
    (hswaps : List.Forall₂ Swaps p.instructions p'.instructions) : a.compile p' = .ok c := by
  obtain ⟨hvalid, hlow, rfl⟩ := ((a.outcome_compile p).ok_iff c).mp hcompile
  obtain ⟨hname, hlength, hoperands⟩ := (p.validate_eq_ok_iff a.limits).mp hvalid
  have hfrom : ∀ i' ∈ p'.instructions, ∃ i ∈ p.instructions, Swaps i i' :=
    fun i' hi' => exists_of_mem_forall₂ hswaps hi'
  have hvalid' : p'.validate a.limits = .ok () := by
    rw [Program.validate_eq_ok_iff]
    refine ⟨by rw [hregister, hname], ?_, ?_⟩
    · rw [Program.length, ← hswaps.length_eq]
      exact hlength
    · intro bit hbit
      obtain ⟨i', hi', hmem⟩ := Program.mem_operands_iff.mp hbit
      obtain ⟨i, hi, hswap⟩ := hfrom i' hi'
      exact hoperands bit (Program.mem_operands_iff.mpr ⟨i, hi, hswap.perm.mem_iff.mp hmem⟩)
  have hlow' : ∀ i' ∈ p'.instructions, a.rules.Lowerable i' := by
    intro i' hi'
    obtain ⟨i, hi, hswap⟩ := hfrom i' hi'
    exact hswap.lowerable (hlow i hi)
  rw [(a.outcome_compile p').ok_iff]
  exact ⟨hvalid', hlow', by rw [hregister, flatMap_instructionLines_of_swaps hswaps]⟩

/-- **The annealer's output is the Ising problem of the program.** Let the operands of each
instruction be distinct. The lines correspond to the instructions in order. Each of them is
read as the term that its instruction stands for, within the machine and with the very
weight of the instruction, which is finite. So for every assignment of spins the energy
read from the lines is that of the program. The output does not depend on the order of the
operands in couplers. -/
theorem compile_encodes {a : Annealer} {p : Program} {c : CompiledProgram}
    (hcompile : a.compile p = .ok c) (hdistinct : ∀ i ∈ p.instructions, i.bits.Nodup) :
    List.Forall₂ (fun line i => ∃ t, Encodes a.target.numQubits line i t) c.lines p.instructions ∧
    (∀ spin : Nat → ℚ, energyOfLines? spin c.lines = some (programEnergy spin p)) ∧
    (∀ p' : Program, p'.register = p.register →
      List.Forall₂ Swaps p.instructions p'.instructions → a.compile p' = .ok c) := by
  obtain ⟨-, hlow, rfl⟩ := ((a.outcome_compile p).ok_iff c).mp hcompile
  have hlines := forall₂_encodes hlow hdistinct
  refine ⟨hlines, energyOfLines?_eq hlines, ?_⟩
  intro p' hregister hswaps
  exact compile_eq_of_swaps hcompile hregister hswaps

/-- A coupler with the larger operand first, and a bias that is known by its name only. -/
def sampleProblem (x y : Nat) : Program :=
  ⟨"q", [⟨.builtin .coupler, [x, y], [-0.5]⟩, ⟨.free "Bias", [3], [0.1]⟩]⟩

/-- The lines of the sample problem, with the coupler either way round. -/
theorem compile_encodes_sample :
    ({} : Annealer).compile (sampleProblem 3 1) = .ok ⟨"annealer", "q", ["1 3 -0.5", "3 3 0.1"]⟩ ∧
      (∀ i ∈ (sampleProblem 3 1).instructions, i.bits.Nodup) ∧
      (∃ t, Encodes 2048 "1 3 -0.5" ⟨.builtin .coupler, [3, 1], [-0.5]⟩ t) ∧
      (∀ spin : Nat → ℚ, energyOfLines? spin ["1 3 -0.5", "3 3 0.1"] =
        some (programEnergy spin (sampleProblem 3 1))) ∧
      ({} : Annealer).compile (sampleProblem 1 3) =
        .ok ⟨"annealer", "q", ["1 3 -0.5", "3 3 0.1"]⟩ := by
  have hcompile : ({} : Annealer).compile (sampleProblem 3 1) =
      .ok ⟨"annealer", "q", ["1 3 -0.5", "3 3 0.1"]⟩ := by decide +kernel
  have hdistinct : ∀ i ∈ (sampleProblem 3 1).instructions, i.bits.Nodup := by
    simp [sampleProblem]
  obtain ⟨hlines, henergy, hswaps⟩ := compile_encodes hcompile hdistinct
  have hswap : Swaps ⟨.builtin .coupler, [3, 1], [-0.5]⟩ ⟨.builtin .coupler, [1, 3], [-0.5]⟩ :=
    Or.inr ⟨rfl, 3, 1, rfl, rfl⟩
  refine ⟨hcompile, hdistinct, ?_, henergy, ?_⟩
  · cases hlines with
    | cons hfirst _ => exact hfirst
  · exact hswaps (sampleProblem 1 3) rfl (.cons hswap (.cons (Or.inl rfl) .nil))

end Annealer

end QuantumCompiler
