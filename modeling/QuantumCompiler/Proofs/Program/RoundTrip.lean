import QuantumCompiler.Proofs.Program.Line

/-!
# Program text reads back

A program of well-formed built-in instructions is written as text that denotes
this program again: the same register and, in the same order, the same
instructions with the same operands and the same parameters. Doubles are compared
by bit pattern, where all that is not a number has one pattern.

* `readLine_renderChars` — one line;
* `parse_render_eq` — all lines;
* `expressible_of_parse` — a program that was read has a text of this kind;
* `parse_render` — the round trip, from programs and from sources.
-/

namespace QuantumCompiler

open QuantumCompiler.Text

namespace Instruction

/-- A well-formed built-in instruction whose operands are machine words. -/
def Expressible (i : Instruction) : Prop :=
  (∃ kind, i.opcode = .builtin kind) ∧ i.WellFormed ∧ ∀ bit ∈ i.bits, bit < wordSize

/-- What is behind a built-in instruction. -/
theorem Expressible.exists_kind {i : Instruction} (h : i.Expressible) :
    ∃ kind : Kind, i = ⟨.builtin kind, i.bits, i.params⟩ ∧ i.bits.length = kind.arity ∧
      i.bits.Nodup ∧ i.params.length = kind.numParams := by
  obtain ⟨⟨kind, hkind⟩, hwell, -⟩ := h
  obtain ⟨opcode, bits, params⟩ := i
  dsimp only at hkind
  subst hkind
  exact ⟨kind, rfl, hwell⟩

end Instruction

theorem Kind.arity_pos (kind : Kind) : 0 < kind.arity := by
  cases kind <;> decide

/-- What `create` returns is well-formed. -/
theorem Kind.wellFormed_of_create {kind : Kind} {bits : List Nat} {params : List Float}
    {i : Instruction} (h : kind.create bits params = .ok i) :
    i.opcode = .builtin kind ∧ i.bits = bits ∧ i.WellFormed := by
  obtain ⟨hlen, hnodup, ⟨-, rfl⟩ | ⟨-, hparams, rfl⟩⟩ := Kind.create_eq_ok_iff.mp h
  · exact ⟨rfl, rfl, hlen, hnodup, List.length_replicate⟩
  · exact ⟨rfl, rfl, hlen, hnodup, hparams⟩

/-- A well-formed instruction is what `create` makes of its parts. -/
theorem Kind.create_self {kind : Kind} {bits : List Nat} {params : List Float}
    (hlen : bits.length = kind.arity) (hnodup : bits.Nodup)
    (hparams : params.length = kind.numParams) :
    kind.create bits params = .ok ⟨.builtin kind, bits, params⟩ := by
  rw [Kind.create_eq_ok_iff]
  refine ⟨hlen, hnodup, ?_⟩
  by_cases hnil : params = []
  · -- no parameters are demanded, so the zeros that stand for them are none
    subst hnil
    rw [List.length_nil] at hparams
    exact Or.inl ⟨rfl, by rw [Kind.defaultParams, ← hparams]; rfl⟩
  · exact Or.inr ⟨hnil, hparams, rfl⟩

-- ---------------------------------------------------------------------------
-- One line
-- ---------------------------------------------------------------------------

section Line

variable {register : List Char} {i : Instruction}

/-- A line starts with a letter and ends in a digit. -/
theorem renderChars_ends (hi : i.Expressible) :
    (∃ c, (i.renderChars register).head? = some c ∧ c.isAlpha = true) ∧
      ∃ c, (i.renderChars register).getLast? = some c ∧ c.isDigit = true := by
  obtain ⟨kind, hkind, hlen, -, -⟩ := hi.exists_kind
  have hname : i.name = kind.name := by rw [hkind]; rfl
  constructor
  · obtain ⟨c, cs, hc⟩ := List.exists_cons_of_ne_nil kind.name_ne_nil
    refine ⟨c, ?_, kind.name_letters c (hc ▸ List.mem_cons_self)⟩
    rw [Instruction.renderChars, hname, hc]
    rfl
  · have hbits : i.bits ≠ [] := by
      intro hnil
      rw [hnil] at hlen
      exact absurd hlen.symm kind.arity_pos.ne'
    obtain hnil | ⟨bits, bit, hconcat⟩ := i.bits.eq_nil_or_concat
    · exact absurd hnil hbits
    · obtain ⟨digits, c, hdigits⟩ := (numeral bit).eq_nil_or_concat.resolve_left (numeral_ne_nil bit)
      rw [List.concat_eq_append] at hdigits hconcat
      refine ⟨c, ?_, isDigit_of_mem_numeral (n := bit) (by rw [hdigits]; simp)⟩
      rw [Instruction.renderChars, hconcat, List.flatMap_append, List.flatMap_singleton,
        Instruction.renderOperand, hdigits, ← List.append_assoc, ← List.cons_append,
        ← List.append_assoc, ← List.append_assoc, List.getLast?_concat]

/-- The only blank in a line is the space. -/
theorem eq_space_of_mem_renderChars (hregister : ∀ c ∈ register, isNameRest c = true)
    (hi : i.Expressible) {c : Char} (hc : c ∈ i.renderChars register) (hblank : isBlank c = true) :
    c = ' ' := by
  obtain ⟨kind, hkind, -⟩ := hi.exists_kind
  have hname : i.name = kind.name := by rw [hkind]; rfl
  have hfree : isMark c = false → c = ' ' := by
    intro hmark
    rw [(isMark_eq_false hmark).1] at hblank
    cases hblank
  rw [Instruction.renderChars, hname] at hc
  rcases List.mem_append.mp hc with hc | hc
  · rcases List.mem_append.mp hc with hc | hc
    · exact hfree (isMark_of_isAlpha (kind.name_letters c hc))
    · rw [Instruction.renderParams] at hc
      split at hc
      · cases hc
      · rcases List.mem_cons.mp hc with rfl | hc
        · exact absurd hblank (by decide)
        · rcases List.mem_append.mp hc with hc | hc
          · rcases mem_intercalate_plain hc with hc | rfl | rfl
            · exact hfree hc
            · exact absurd hblank (by decide)
            · rfl
          · rw [List.mem_singleton.mp hc] at hblank
            exact absurd hblank (by decide)
  · obtain ⟨bit, -, hc⟩ := List.mem_flatMap.mp hc
    rcases List.mem_cons.mp hc with rfl | hc
    · rfl
    · exact hfree (isMark_of_mem_renderOperand hregister hc)

/-- A written line falls into its name, its parameters and its operands. -/
theorem splitLine_renderChars (hregister : ∀ c ∈ register, isNameRest c = true)
    (hi : i.Expressible) :
    splitLine (i.renderChars register) =
      .ok ⟨i.name.toList, i.params, i.bits.map (Instruction.renderOperand register)⟩ := by
  obtain ⟨kind, hkind, hlen, -, -⟩ := hi.exists_kind
  have hname : i.name = kind.name := by rw [hkind]; rfl
  have hmarks : ∀ c ∈ i.name.toList, isMark c = false := fun c hc =>
    isMark_of_isAlpha (kind.name_letters c (hname ▸ hc))
  have hne : i.name.toList ≠ [] := hname ▸ kind.name_ne_nil
  have hwords := words_renderOperands hregister i.bits
  rw [splitLine_eq_ok_iff_head hne]
  by_cases hparams : i.params = []
  · obtain ⟨bit, bits, hbits⟩ : ∃ bit bits, i.bits = bit :: bits := by
      apply List.exists_cons_of_ne_nil
      rintro hnil
      rw [hnil] at hlen
      exact absurd hlen.symm kind.arity_pos.ne'
    -- the first operand's blank ends the name
    have hline : i.renderChars register = i.name.toList ++ ' ' ::
        (Instruction.renderOperand register bit ++
          bits.flatMap fun bit => ' ' :: Instruction.renderOperand register bit) := by
      rw [Instruction.renderChars, hparams, hbits, List.flatMap_cons]
      simp [Instruction.renderParams]
    have hafter : words (Instruction.renderOperand register bit ++
        bits.flatMap fun bit => ' ' :: Instruction.renderOperand register bit) =
          i.bits.map (Instruction.renderOperand register) := by
      rw [← hwords, hbits, List.flatMap_cons, List.cons_append, words_cons_blank rfl]
    rw [hline, splitHead_blank hmarks rfl, hparams]
    exact ⟨_, rfl, hafter⟩
  · have hline : i.renderChars register = i.name.toList ++ '(' ::
        ([',', ' '].intercalate (i.params.map Decimal.plain) ++ ')' ::
          i.bits.flatMap fun bit => ' ' :: Instruction.renderOperand register bit) := by
      rw [Instruction.renderChars, Instruction.renderParams, if_neg (by simpa using hparams)]
      simp
    rw [hline, splitHead_of_list hmarks (notMem_intercalate_plain _)
      (readParams_intercalate hparams)]
    exact ⟨_, rfl, hwords⟩

/-- The instruction on a written line. -/
theorem readInstruction_renderChars (hregister : ∀ c ∈ register, isNameRest c = true)
    (hi : i.Expressible) :
    readInstruction .builtins register (i.renderChars register) = .ok i := by
  obtain ⟨kind, hkind, hlen, hnodup, hparams⟩ := hi.exists_kind
  have hname : i.name = kind.name := by rw [hkind]; rfl
  have hbits : (i.bits.map (Instruction.renderOperand register)).mapM (readOperand register) =
      .ok i.bits :=
    mapM_map_eq_ok fun bit hbit => readOperand_renderOperand register (hi.2.2 bit hbit)
  have hcreate : kind.create i.bits i.params = .ok i := by
    rw [Kind.create_self hlen hnodup hparams, ← hkind]
  have hparts := splitLine_renderChars hregister hi
  rw [hname] at hparts
  exact readInstruction_builtins_eq_ok_iff.mpr ⟨kind, _, _, _, hparts, hbits, hcreate⟩

/-- A written line is neither skipped nor refused, whatever its number. -/
theorem readLine_renderChars (hregister : ∀ c ∈ register, isNameRest c = true)
    (hi : i.Expressible) (number : Nat) :
    readLine .builtins register (i.renderChars register, number) = .ok (some i) := by
  obtain ⟨⟨first, hfirst, hletter⟩, last, hlast, hdigit⟩ :=
    @renderChars_ends register i hi
  have htrim : trim (i.renderChars register) = i.renderChars register := by
    apply trim_eq_self
    · intro c hc
      rw [hfirst] at hc
      rw [← Option.some.inj hc]
      exact (isMark_eq_false (isMark_of_isAlpha hletter)).1
    · intro c hc
      rw [hlast] at hc
      rw [← Option.some.inj hc]
      exact (isMark_eq_false (isMark_of_isDigit hdigit)).1
  have hskip : isSkipped (i.renderChars register) = false := by
    cases hline : i.renderChars register with
    | nil =>
      rw [hline] at hfirst
      cases hfirst
    | cons c cs =>
      rw [hline, List.head?_cons] at hfirst
      rw [Option.some.inj hfirst]
      unfold isSkipped
      split
      · rename_i heq
        cases heq
      · rename_i heq
        rw [(List.cons.inj heq).1] at hletter
        exact absurd hletter (by decide)
      · rename_i heq
        rw [(List.cons.inj heq).1] at hletter
        exact absurd hletter (by decide)
      · rfl
  unfold readLine
  dsimp only
  rw [htrim, hskip, readInstruction_renderChars hregister hi]
  rfl

end Line

-- ---------------------------------------------------------------------------
-- All lines
-- ---------------------------------------------------------------------------

/-- The lines of a program's text are those of its instructions. -/
theorem lines_render {p : Program} (hregister : ∀ c ∈ p.register.toList, isNameRest c = true)
    (hp : ∀ i ∈ p.instructions, i.Expressible) :
    lines p.render.toList = p.instructions.map fun i => i.renderChars p.register.toList := by
  rw [Program.render, String.toList_ofList]
  apply lines_intercalate
  · intro l hl hnil
    obtain ⟨i, hi, rfl⟩ := List.mem_map.mp hl
    obtain ⟨⟨c, hc, -⟩, -⟩ := @renderChars_ends p.register.toList i (hp i hi)
    rw [hnil] at hc
    cases hc
  · intro l hl hfeed
    obtain ⟨i, hi, rfl⟩ := List.mem_map.mp hl
    exact absurd (eq_space_of_mem_renderChars hregister (hp i hi) hfeed (by decide)) (by decide)
  · intro l hl hreturn
    obtain ⟨i, hi, rfl⟩ := List.mem_map.mp hl
    have hmem := List.mem_of_getLast? hreturn
    exact absurd (eq_space_of_mem_renderChars hregister (hp i hi) hmem (by decide)) (by decide)

/-- The text of a program denotes the program. -/
theorem parse_render_eq {p : Program} (hregister : checkRegisterName p.register = .ok ())
    (hp : ∀ i ∈ p.instructions, i.Expressible) :
    Program.parse .builtins p.register p.render = .ok p := by
  have hchars := isNameRest_of_checkRegisterName hregister
  have hread : ∀ (is : List Instruction) (start : Nat), (∀ i ∈ is, i.Expressible) →
      ((is.map fun i => i.renderChars p.register.toList).zipIdx start).mapM
        (readLine .builtins p.register.toList) = .ok (is.map some) := by
    intro is
    induction is with
    | nil =>
      intro start _
      rfl
    | cons i is ih =>
      intro start his
      rw [mapM_eq_ok_iff, List.map_cons, List.map_cons, List.zipIdx_cons]
      exact List.Forall₂.cons (readLine_renderChars hchars (his i List.mem_cons_self) start)
        (mapM_eq_ok_iff.mp (ih (start + 1) fun j hj => his j (List.mem_cons_of_mem i hj)))
  unfold Program.parse
  rw [hregister]
  dsimp only
  rw [lines_render hchars hp, hread _ _ hp]
  change Except.ok (Program.mk p.register ((p.instructions.map some).filterMap id)) = .ok p
  rw [List.filterMap_map, Function.id_comp, List.filterMap_some]

-- ---------------------------------------------------------------------------
-- Programs that were read
-- ---------------------------------------------------------------------------

/-- The built-in registry reads expressible instructions only. -/
theorem expressible_of_readInstruction {register line : List Char} {i : Instruction}
    (h : readInstruction .builtins register line = .ok i) : i.Expressible := by
  obtain ⟨kind, params, ws, bits, -, hbits, hcreate⟩ := readInstruction_builtins_eq_ok_iff.mp h
  obtain ⟨hopcode, rfl, hwell⟩ := Kind.wellFormed_of_create hcreate
  refine ⟨⟨kind, hopcode⟩, hwell, ?_⟩
  intro bit hbit
  obtain ⟨operand, -, hoperand⟩ := exists_of_mem_mapM hbits hbit
  exact readOperand_lt hoperand

/-- A program that was read has a proper register and expressible instructions. -/
theorem expressible_of_parse {register source : String} {p : Program}
    (h : Program.parse .builtins register source = .ok p) :
    p.register = register ∧ checkRegisterName register = .ok () ∧
      ∀ i ∈ p.instructions, i.Expressible := by
  unfold Program.parse at h
  split at h
  · cases h
  · rename_i hregister
    obtain ⟨found, hfound, h⟩ := bind_eq_ok_iff.mp h
    obtain rfl := Except.ok.inj h
    refine ⟨rfl, hregister, ?_⟩
    intro i hi
    obtain ⟨found', hmem, rfl⟩ := List.mem_filterMap.mp hi
    obtain ⟨line, -, hline⟩ := exists_of_mem_mapM hfound hmem
    unfold readLine at hline
    dsimp only at hline
    split at hline
    · cases hline
    · split at hline
      · rename_i i' hread
        obtain rfl : i' = i := by simpa using hline
        exact expressible_of_readInstruction hread
      · cases hline

-- ---------------------------------------------------------------------------
-- The round trip
-- ---------------------------------------------------------------------------

/-- **Round trip of program text.** Over a proper register, the text of a program of
well-formed built-in instructions denotes the program; in particular the text of
any program that was read from a source does. -/
theorem parse_render (register : String) :
    (checkRegisterName register = .ok () →
      ∀ is : List Instruction, (∀ i ∈ is, i.Expressible) →
        Program.parse .builtins register (Program.mk register is).render = .ok ⟨register, is⟩) ∧
      ∀ (source : String) (p : Program), Program.parse .builtins register source = .ok p →
        Program.parse .builtins register p.render = .ok p := by
  constructor
  · intro hregister is his
    exact parse_render_eq (p := ⟨register, is⟩) hregister his
  · intro source p h
    obtain ⟨rfl, hregister, hp⟩ := expressible_of_parse h
    exact parse_render_eq hregister hp

/-- A register that ends in a digit, before an index that starts with one. -/
theorem parse_render_digit_register :
    checkRegisterName "q1" = .ok () ∧
      Program.parse .builtins "q1"
        (Program.mk "q1" [⟨.builtin .rz, [12], [-0.0]⟩, ⟨.builtin .swap, [1, 12], []⟩]).render =
          .ok ⟨"q1", [⟨.builtin .rz, [12], [-0.0]⟩, ⟨.builtin .swap, [1, 12], []⟩]⟩ := by
  refine ⟨rfl, (parse_render "q1").1 rfl _ ?_⟩
  intro i hi
  simp only [List.mem_cons, List.not_mem_nil, or_false] at hi
  obtain rfl | rfl := hi
  · exact ⟨⟨.rz, rfl⟩, ⟨rfl, by decide, rfl⟩, by decide⟩
  · exact ⟨⟨.swap, rfl⟩, ⟨rfl, by decide, rfl⟩, by decide⟩

end QuantumCompiler
