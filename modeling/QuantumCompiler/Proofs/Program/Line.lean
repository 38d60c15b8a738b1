import Mathlib.Data.List.TakeWhile
import QuantumCompiler.Program.Parser
import QuantumCompiler.Proofs.Decimal.ReadBack
import QuantumCompiler.Proofs.Instruction.Builtins
import QuantumCompiler.Proofs.Program.Limits
import QuantumCompiler.Proofs.Text.Numeral
import QuantumCompiler.Proofs.Text.Words

/-!
# Lines of program text

What the parts of a line look like, character by character, and how a line that
was written is taken apart again: the name up to the parenthesis or the first
blank, the list between the parentheses, the words after it.

* `cutAt?_append`, `cutAt?_eq_some_iff`, `cutAt?_eq_none_iff` — a text is cut at the first
  character of a class;
* `readParams_intercalate` — a written parameter list reads back;
* `readOperand_eq_ok_iff` — what an operand is; `readOperand_renderOperand` — a written one
  reads back;
* `splitHead_of_list`, `splitHead_blank`, `splitHead_name` — how the head of a line falls
  into name, list and rest;
* `readInstruction_builtins_eq_ok_iff` — what the reader of a line does, step by step.
-/

namespace QuantumCompiler

open QuantumCompiler.Text

-- ---------------------------------------------------------------------------
-- Characters
-- ---------------------------------------------------------------------------

/-- Characters that the grammar of a line gives a meaning of their own. -/
def isMark (c : Char) : Bool :=
  isBlank c || c == '(' || c == ')' || c == ','

theorem isMark_eq_false {c : Char} (h : isMark c = false) :
    isBlank c = false ∧ c ≠ '(' ∧ c ≠ ')' ∧ c ≠ ',' := by
  simpa [isMark, and_assoc] using h

/-- The marks lie outside the range of codes that digits, letters, points, minus
signs and underscores share. -/
theorem isMark_of_code {c : Char} (h : 45 ≤ c.toNat ∧ c.toNat ≤ 122) : isMark c = false := by
  have hne : ∀ d : Char, d.toNat < 45 → (c == d) = false := by
    intro d hd
    rw [beq_eq_false_iff_ne]
    rintro rfl
    omega
  have hblank : isBlank c = false := by
    simp only [isBlank, Bool.or_eq_false_iff, Bool.and_eq_false_iff, beq_eq_false_iff_ne,
      decide_eq_false_iff_not]
    omega
  rw [isMark, hblank, hne _ (by decide), hne _ (by decide), hne _ (by decide)]
  rfl

theorem isMark_of_isDigit {c : Char} (h : c.isDigit = true) : isMark c = false := by
  have hrange : 48 ≤ c.toNat ∧ c.toNat ≤ 57 := Char.isDigit_iff_toNat.mp h
  exact isMark_of_code (by omega)

theorem isMark_of_isAlpha {c : Char} (h : c.isAlpha = true) : isMark c = false := by
  have hrange : (65 ≤ c.toNat ∧ c.toNat ≤ 90) ∨ (97 ≤ c.toNat ∧ c.toNat ≤ 122) := by
    rcases (Bool.or_eq_true _ _).mp h with hupper | hlower
    · obtain ⟨hge, hle⟩ := of_decide_eq_true hupper
      exact Or.inl ⟨UInt32.le_iff_toNat_le.mp hge, UInt32.le_iff_toNat_le.mp hle⟩
    · obtain ⟨hge, hle⟩ := (Bool.and_eq_true _ _).mp hlower
      exact Or.inr ⟨UInt32.le_iff_toNat_le.mp (of_decide_eq_true hge),
        UInt32.le_iff_toNat_le.mp (of_decide_eq_true hle)⟩
  exact isMark_of_code (by omega)

theorem isMark_of_isNameRest {c : Char} (h : isNameRest c = true) : isMark c = false := by
  rcases isNameRest_iff.mp h with h | rfl
  · rcases (Bool.or_eq_true _ _).mp h with h | h
    · exact isMark_of_isAlpha h
    · exact isMark_of_isDigit h
  · decide

/-- Numbers are written without marks. -/
theorem isMark_of_digit_or_word {c : Char}
    (h : c.isDigit = true ∨ c ∈ ['.', '-', 'i', 'n', 'f', 'N', 'a']) : isMark c = false := by
  have hwords : ['.', '-', 'i', 'n', 'f', 'N', 'a'].all (!isMark ·) = true := by decide
  rcases h with h | h
  · exact isMark_of_isDigit h
  · simpa using List.all_eq_true.mp hwords c h

theorem isMark_of_mem_plain {x : Float} {c : Char} (h : c ∈ Decimal.plain x) :
    isMark c = false :=
  isMark_of_digit_or_word (Decimal.mem_plain h)

/-- Names of kinds are made of letters. -/
theorem Kind.name_letters (kind : Kind) : ∀ c ∈ kind.name.toList, c.isAlpha = true := by
  have hall : kind.name.toList.all Char.isAlpha = true := by cases kind <;> decide
  exact List.all_eq_true.mp hall

theorem Kind.name_ne_nil (kind : Kind) : kind.name.toList ≠ [] := by
  cases kind <;> decide

/-- A register name that passes the check holds name characters only. -/
theorem isNameRest_of_checkRegisterName {name : String} (h : checkRegisterName name = .ok ()) :
    ∀ c ∈ name.toList, isNameRest c = true := by
  have hproper := checkRegisterName_eq_ok_iff.mp h
  intro c hc
  generalize name.toList = cs at hproper hc
  cases hproper with
  | intro hstart hlater =>
    rcases List.mem_cons.mp hc with rfl | hc
    · exact isNameRest_iff.mpr hstart.later
    · exact isNameRest_iff.mpr (hlater c hc)

-- ---------------------------------------------------------------------------
-- Cutting
-- ---------------------------------------------------------------------------

theorem cutAt?_append {p : Char → Bool} {w : List Char} (hw : ∀ d ∈ w, p d = false) {c : Char}
    (hc : p c = true) (rest : List Char) : cutAt? p (w ++ c :: rest) = some (w, rest) := by
  have hall : ∀ d ∈ w, (!p d) = true := fun d hd => by simp [hw d hd]
  unfold cutAt?
  rw [List.dropWhile_append_of_pos hall, List.takeWhile_append_of_pos hall]
  simp [hc]

theorem cutAt?_eq_none_iff {p : Char → Bool} {cs : List Char} :
    cutAt? p cs = none ↔ ∀ d ∈ cs, p d = false := by
  have hnil : cutAt? p cs = none ↔ cs.dropWhile (fun c => !p c) = [] := by
    unfold cutAt?
    split <;> simp_all
  rw [hnil, List.dropWhile_eq_nil_iff]
  simp only [Bool.not_eq_true']

theorem cutAt?_eq_some_iff {p : Char → Bool} {cs w rest : List Char} :
    cutAt? p cs = some (w, rest) ↔
      ∃ c, p c = true ∧ (∀ d ∈ w, p d = false) ∧ cs = w ++ c :: rest := by
  constructor
  · intro h
    unfold cutAt? at h
    split at h
    · cases h
    · rename_i c rest' hdrop
      obtain ⟨rfl, rfl⟩ := Prod.mk.inj (Option.some.inj h)
      refine ⟨c, ?_, ?_, ?_⟩
      · have hhead := List.head?_dropWhile_not (fun c => !p c) cs
        rw [hdrop] at hhead
        simpa using hhead
      · intro d hd
        simpa using List.mem_takeWhile_imp hd
      · rw [← hdrop, List.takeWhile_append_dropWhile]
  · rintro ⟨c, hc, hw, rfl⟩
    exact cutAt?_append hw hc rest

-- ---------------------------------------------------------------------------
-- Parameters
-- ---------------------------------------------------------------------------

theorem readParam_plain (x : Float) : readParam (Decimal.plain x) = .ok x := by
  have htrim : trim (Decimal.plain x) = Decimal.plain x :=
    trim_eq_self_of_free fun c hc => (isMark_eq_false (isMark_of_mem_plain hc)).1
  unfold readParam
  dsimp only
  rw [htrim, if_neg (by simpa using Decimal.plain_ne_nil x), Decimal.readFloat?_plain]

theorem readParam_blank_plain (x : Float) : readParam (' ' :: Decimal.plain x) = .ok x := by
  rw [← readParam_plain x, readParam, readParam, trim_cons_blank rfl]

/-- Items without marks, with a comma and a space between them: these are the only marks. -/
theorem mem_intercalate_of_free {xs : List (List Char)}
    (hxs : ∀ x ∈ xs, ∀ c ∈ x, isMark c = false) {c : Char} (h : c ∈ [',', ' '].intercalate xs) :
    isMark c = false ∨ c = ',' ∨ c = ' ' := by
  cases xs with
  | nil => cases h
  | cons x xs =>
    rw [List.forall_mem_cons] at hxs
    rw [intercalate_cons] at h
    rcases List.mem_append.mp h with h | h
    · exact Or.inl (hxs.1 c h)
    · obtain ⟨y, hy, hc⟩ := List.mem_flatMap.mp h
      simp only [List.cons_append, List.nil_append, List.mem_cons] at hc
      rcases hc with rfl | rfl | hc
      · exact Or.inr (Or.inl rfl)
      · exact Or.inr (Or.inr rfl)
      · exact Or.inl (hxs.2 y hy c hc)

/-- The characters of a parameter list: those of its numbers, commas and spaces. -/
theorem mem_intercalate_plain {params : List Float} {c : Char}
    (h : c ∈ [',', ' '].intercalate (params.map Decimal.plain)) :
    isMark c = false ∨ c = ',' ∨ c = ' ' := by
  refine mem_intercalate_of_free ?_ h
  rw [List.forall_mem_map]
  exact fun x _ c hc => isMark_of_mem_plain hc

/-- A parameter list has no blank at its end. -/
theorem getLast?_intercalate_plain {x : Float} {xs : List Float} {c : Char}
    (h : ([',', ' '].intercalate ((x :: xs).map Decimal.plain)).getLast? = some c) :
    isBlank c = false := by
  have hlast : ∃ y, c ∈ Decimal.plain y := by
    rw [List.map_cons, intercalate_cons] at h
    obtain rfl | ⟨ys, y, rfl⟩ := xs.eq_nil_or_concat
    · exact ⟨x, List.mem_of_getLast? (by simpa using h)⟩
    · refine ⟨y, List.mem_of_getLast? ?_⟩
      rw [List.concat_eq_append, List.map_append, List.flatMap_append, List.map_singleton,
        List.flatMap_singleton, ← List.append_assoc, ← List.append_assoc,
        List.getLast?_append_of_ne_nil _ (Decimal.plain_ne_nil y)] at h
      exact h
  obtain ⟨y, hy⟩ := hlast
  exact (isMark_eq_false (isMark_of_mem_plain hy)).1

/-- A written parameter list reads back. -/
theorem readParams_intercalate {params : List Float} (hne : params ≠ []) :
    readParams ([',', ' '].intercalate (params.map Decimal.plain)) = .ok params := by
  obtain ⟨x, xs, rfl⟩ := List.exists_cons_of_ne_nil hne
  obtain ⟨c, cs, hx⟩ := List.exists_cons_of_ne_nil (Decimal.plain_ne_nil x)
  have hfirst : isBlank c = false :=
    (isMark_eq_false (isMark_of_mem_plain (hx ▸ List.mem_cons_self))).1
  have htrim : trim ([',', ' '].intercalate ((x :: xs).map Decimal.plain)) =
      [',', ' '].intercalate ((x :: xs).map Decimal.plain) := by
    apply trim_eq_self
    · intro d hd
      rw [List.map_cons, intercalate_cons, hx, List.cons_append, List.head?_cons] at hd
      rwa [← Option.some.inj hd]
    · exact fun d => getLast?_intercalate_plain
  have hitems : ∀ y ∈ Decimal.plain x :: xs.map Decimal.plain, ',' ∉ y := by
    rw [← List.map_cons, List.forall_mem_map]
    intro z _ hcomma
    exact (isMark_eq_false (isMark_of_mem_plain hcomma)).2.2.2 rfl
  have hcut : ([',', ' '].intercalate ((x :: xs).map Decimal.plain)).splitOn ',' =
      Decimal.plain x :: (xs.map Decimal.plain).map ([' '] ++ ·) :=
    splitOn_intercalate_cons (by simp) hitems
  unfold readParams
  dsimp only
  rw [htrim, if_neg (by rw [List.map_cons, intercalate_cons, hx]; simp), hcut, mapM_eq_ok_iff]
  refine List.Forall₂.cons (readParam_plain x) ?_
  rw [List.map_map, List.forall₂_map_left_iff, List.forall₂_same]
  exact fun y _ => readParam_blank_plain y

-- ---------------------------------------------------------------------------
-- Operands
-- ---------------------------------------------------------------------------

/-- One operand: the register and the digits of a machine word, with any number of zeros
in front. -/
def Operand (register word : List Char) (bit : Nat) : Prop :=
  ∃ digits, word = register ++ digits ∧ digits ≠ [] ∧ (∀ c ∈ digits, c.isDigit = true) ∧
    numeralValue digits = bit ∧ bit < wordSize

theorem readOperand_eq_ok_iff {register word : List Char} {bit : Nat} :
    readOperand register word = .ok bit ↔ Operand register word bit := by
  constructor
  · intro h
    unfold readOperand at h
    dsimp only at h
    split at h
    · cases h
    · rename_i haddressed
      obtain ⟨digits, rfl⟩ : register <+: word := by simpa using haddressed
      rw [List.drop_left] at h
      split at h
      · cases h
      · split at h
        · rename_i n hword
          obtain rfl := Except.ok.inj h
          obtain ⟨hnumeral, hvalue, hlt⟩ := readWord?_eq_some_iff.mp hword
          obtain ⟨hne, hdigits⟩ := isNumeral_iff.mp hnumeral
          exact ⟨digits, rfl, hne, hdigits, hvalue, hlt⟩
        · cases h
  · rintro ⟨digits, rfl, hne, hdigits, hvalue, hlt⟩
    have hnumeral : isNumeral digits = true := isNumeral_iff.mpr ⟨hne, hdigits⟩
    have hword : readWord? digits = some bit :=
      readWord?_eq_some_iff.mpr ⟨hnumeral, hvalue, hlt⟩
    unfold readOperand
    dsimp only
    rw [if_neg (by simp), List.drop_left, if_neg (by simp [hnumeral]), hword]

/-- A written operand reads back. The register is cut off as a whole, so it does
not matter whether its name ends in digits. -/
theorem readOperand_renderOperand (register : List Char) {bit : Nat} (h : bit < wordSize) :
    readOperand register (Instruction.renderOperand register bit) = .ok bit := by
  obtain ⟨hne, hdigits⟩ := isNumeral_iff.mp (isNumeral_numeral bit)
  exact readOperand_eq_ok_iff.mpr
    ⟨numeral bit, rfl, hne, hdigits, numeralValue_numeral bit, h⟩

theorem readOperand_lt {register operand : List Char} {bit : Nat}
    (h : readOperand register operand = .ok bit) : bit < wordSize := by
  obtain ⟨digits, -, -, -, -, hlt⟩ := readOperand_eq_ok_iff.mp h
  exact hlt

/-- The characters of a written operand. -/
theorem isMark_of_mem_renderOperand {register : List Char}
    (hregister : ∀ c ∈ register, isNameRest c = true) {bit : Nat} {c : Char}
    (h : c ∈ Instruction.renderOperand register bit) : isMark c = false := by
  rcases List.mem_append.mp h with h | h
  · exact isMark_of_isNameRest (hregister c h)
  · exact isMark_of_isDigit (isDigit_of_mem_numeral h)

theorem renderOperand_ne_nil (register : List Char) (bit : Nat) :
    Instruction.renderOperand register bit ≠ [] := by
  simp [Instruction.renderOperand, numeral_ne_nil]

/-- The operands of a line as its words. -/
theorem words_renderOperands {register : List Char}
    (hregister : ∀ c ∈ register, isNameRest c = true) (bits : List Nat) :
    words (bits.flatMap fun bit => ' ' :: Instruction.renderOperand register bit) =
      bits.map (Instruction.renderOperand register) := by
  have hflat : (bits.flatMap fun bit => ' ' :: Instruction.renderOperand register bit) =
      (bits.map (Instruction.renderOperand register)).flatMap fun w => ' ' :: w := by
    rw [List.flatMap_map]
  rw [hflat]
  apply words_flatMap rfl
  · intro w hw
    obtain ⟨bit, -, rfl⟩ := List.mem_map.mp hw
    exact renderOperand_ne_nil register bit
  · intro w hw d hd
    obtain ⟨bit, -, rfl⟩ := List.mem_map.mp hw
    exact (isMark_eq_false (isMark_of_mem_renderOperand hregister hd)).1

-- ---------------------------------------------------------------------------
-- Lines
-- ---------------------------------------------------------------------------

section Head

variable {name : List Char} (hname : ∀ c ∈ name, isMark c = false)

include hname

/-- A line with a parenthesis after its name falls into the name, the list up to the
first closing parenthesis and the rest. -/
theorem splitHead_of_list {list : List Char} (hlist : ')' ∉ list) {params : List Float}
    (hparams : readParams list = .ok params) (rest : List Char) :
    splitHead (name ++ '(' :: (list ++ ')' :: rest)) = .ok (name, params, rest) := by
  have hopen : cutAt? (· == '(') (name ++ '(' :: (list ++ ')' :: rest)) =
      some (name, list ++ ')' :: rest) :=
    cutAt?_append (fun d hd => beq_eq_false_iff_ne.mpr (isMark_eq_false (hname d hd)).2.1) rfl _
  have hclose : cutAt? (· == ')') (list ++ ')' :: rest) = some (list, rest) := by
    refine cutAt?_append (fun d hd => beq_eq_false_iff_ne.mpr ?_) rfl rest
    rintro rfl
    exact hlist hd
  have hany : name.any isBlank = false := by
    rw [List.any_eq_false]
    exact fun d hd => by simp [(isMark_eq_false (hname d hd)).1]
  unfold splitHead
  simp only [hopen, hany, hclose, hparams]
  rfl

/-- A line with a blank after its name falls into the name and what follows the blank, also
if a parenthesis follows. -/
theorem splitHead_blank {b : Char} (hb : isBlank b = true) (rest : List Char) :
    splitHead (name ++ b :: rest) = .ok (name, [], rest) := by
  have hplain : plainHead (name ++ b :: rest) = (name, [], rest) := by
    rw [plainHead, cutAt?_append (fun d hd => (isMark_eq_false (hname d hd)).1) hb rest]
  unfold splitHead
  rw [hplain]
  split
  · rfl
  · rename_i before after hopen
    obtain ⟨c, hc, -, hline⟩ := cutAt?_eq_some_iff.mp hopen
    obtain rfl : c = '(' := beq_iff_eq.mp hc
    -- the parenthesis is neither in the name nor the blank, so it comes after that
    have hmem : b ∈ before := by
      rcases List.append_eq_append_iff.mp hline with ⟨as, rfl, has⟩ | ⟨bs, rfl, hbs⟩
      · cases as with
        | nil =>
          rw [(List.cons.inj has).1] at hb
          cases hb
        | cons a as =>
          rw [(List.cons.inj has).1]
          simp
      · cases bs with
        | nil =>
          rw [← (List.cons.inj hbs).1] at hb
          cases hb
        | cons d bs =>
          have hparen := hname d (by simp)
          rw [← (List.cons.inj hbs).1] at hparen
          cases hparen
    rw [if_pos (List.any_eq_true.mpr ⟨b, hmem, hb⟩)]

/-- A line may be a name only. -/
theorem splitHead_name : splitHead name = .ok (name, [], []) := by
  have hopen : cutAt? (· == '(') name = none :=
    cutAt?_eq_none_iff.mpr fun d hd =>
      beq_eq_false_iff_ne.mpr (isMark_eq_false (hname d hd)).2.1
  have hplain : plainHead name = (name, [], []) := by
    rw [plainHead, cutAt?_eq_none_iff.mpr fun d hd => (isMark_eq_false (hname d hd)).1]
  rw [splitHead, hopen, hplain]

end Head

/-- A line with a name is taken apart as its head is. -/
theorem splitLine_eq_ok_iff_head {line name : List Char} (hne : name ≠ []) {params : List Float}
    {ws : List (List Char)} :
    splitLine line = .ok ⟨name, params, ws⟩ ↔
      ∃ rest, splitHead line = .ok (name, params, rest) ∧ words rest = ws := by
  unfold splitLine
  rw [bind_eq_ok_iff]
  constructor
  · rintro ⟨⟨name', params', rest⟩, hhead, h⟩
    dsimp only at h
    split at h
    · cases h
    · have hparts := Except.ok.inj h
      simp only [LineParts.mk.injEq] at hparts
      obtain ⟨rfl, rfl, hwords⟩ := hparts
      exact ⟨rest, hhead, hwords⟩
  · rintro ⟨rest, hhead, rfl⟩
    refine ⟨_, hhead, ?_⟩
    dsimp only
    rw [if_neg (by simpa using hne)]
    rfl

/-- The built-in registry makes the instruction of a line by the kind that its name
stands for. -/
theorem readInstruction_builtins_eq_ok_iff {register line : List Char} {i : Instruction} :
    readInstruction .builtins register line = .ok i ↔
      ∃ (kind : Kind) (params : List Float) (ws : List (List Char)) (bits : List Nat),
        splitLine line = .ok ⟨kind.name.toList, params, ws⟩ ∧
          ws.mapM (readOperand register) = .ok bits ∧ kind.create bits params = .ok i := by
  unfold readInstruction
  constructor
  · intro h
    obtain ⟨⟨name, params, ws⟩, hparts, h⟩ := bind_eq_ok_iff.mp h
    obtain ⟨bits, hbits, h⟩ := bind_eq_ok_iff.mp h
    split at h
    · rename_i i' hcreate
      obtain rfl := Except.ok.inj h
      obtain ⟨kind, hname, hcreate⟩ :=
        InstructionRegistry.createWithParams_builtins_eq_ok_iff.mp hcreate
      obtain rfl : kind.name.toList = name := by rw [hname, String.toList_ofList]
      exact ⟨kind, params, ws, bits, hparts, hbits, hcreate⟩
    · cases h
  · rintro ⟨kind, params, ws, bits, hparts, hbits, hcreate⟩
    have hbuilt : InstructionRegistry.builtins.createWithParams
        (String.ofList kind.name.toList) bits params = .ok i := by
      rw [String.ofList_toList]
      exact InstructionRegistry.createWithParams_builtins_eq_ok_iff.mpr ⟨kind, rfl, hcreate⟩
    refine bind_eq_ok_iff.mpr ⟨_, hparts, bind_eq_ok_iff.mpr ⟨bits, hbits, ?_⟩⟩
    rw [hbuilt]
    rfl

/-- A written parameter list does not end early. -/
theorem notMem_intercalate_plain (params : List Float) :
    ')' ∉ [',', ' '].intercalate (params.map Decimal.plain) := by
  intro hmem
  rcases mem_intercalate_plain hmem with hmark | heq | heq
  · exact absurd hmark (by decide)
  · exact absurd heq (by decide)
  · exact absurd heq (by decide)

end QuantumCompiler
