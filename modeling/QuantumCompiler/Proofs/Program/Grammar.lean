import QuantumCompiler.Proofs.Program.Line
import QuantumCompiler.Proofs.Text.Words

/-!
# The grammar of a line

What a line of program text may look like is said here by relations that do not run
the reader: a line is a name and what follows it, put together by concatenation. The
reader accepts exactly these lines and makes of each the instruction that it denotes.

    line     =  name rest                      rest empty or after a blank
             |  name "(" list ")" rest         no ")" in the list
    list     =  blanks  |  item "," ... "," item
    item     =  blanks literal blanks
    rest     =  words, each of them the register and digits

Blanks are the boundary between a name and its operands only where there is no list,
so `Rz(1)q0` is a line and `Rz (1) q0` is none.

* `readParams_eq_ok_iff` — parameter lists;
* `splitLine_eq_ok_iff` — the two forms of a line;
* `readInstruction_eq_ok_iff` — the line and its instruction;
* `parse_eq_ok_iff_line` — a program of one line.
-/

namespace QuantumCompiler

open QuantumCompiler.Text

-- ---------------------------------------------------------------------------
-- The characters of a literal
-- ---------------------------------------------------------------------------

section Literal

open Decimal

theorem isMark_of_mem_numeral {cs : List Char} (h : isNumeral cs = true) {c : Char}
    (hc : c ∈ cs) : isMark c = false :=
  isMark_of_isDigit ((isNumeral_iff.mp h).2 c hc)

theorem isMark_of_mem_exponent {cs : List Char} {e : Int} (h : readExponent? cs = some e)
    {c : Char} (hc : c ∈ cs) : isMark c = false := by
  unfold readExponent? at h
  split at h
  · split at h
    · rcases List.mem_cons.mp hc with rfl | hc
      · decide
      · exact isMark_of_mem_numeral ‹_› hc
    · cases h
  · split at h
    · rcases List.mem_cons.mp hc with rfl | hc
      · decide
      · exact isMark_of_mem_numeral ‹_› hc
    · cases h
  · split at h
    · exact isMark_of_mem_numeral ‹_› hc
    · cases h

theorem isMark_of_mem_scale {cs : List Char} {e : Int} (h : readScale? cs = some e)
    {c : Char} (hc : c ∈ cs) : isMark c = false := by
  cases cs with
  | nil => cases hc
  | cons d cs =>
    rw [readScale?] at h
    split at h
    · rename_i hd
      rcases List.mem_cons.mp hc with rfl | hc
      · simp only [Bool.or_eq_true, beq_iff_eq] at hd
        rcases hd with rfl | rfl <;> decide
      · exact isMark_of_mem_exponent h hc
    · cases h

theorem isMark_of_mem_decimal {cs : List Char} {d : Scaled} (h : readDecimal? cs = some d)
    {c : Char} (hc : c ∈ cs) : isMark c = false := by
  have hdigits : ∀ ds : List Char, c ∈ ds.takeWhile Char.isDigit → isMark c = false :=
    fun ds hmem => isMark_of_isDigit (List.mem_takeWhile_imp hmem)
  -- a character belongs to the whole digits or to what follows them
  have hsplit : ∀ ds : List Char, c ∈ ds → isMark c = false ∨ c ∈ ds.dropWhile Char.isDigit := by
    intro ds hmem
    rw [← List.takeWhile_append_dropWhile (p := Char.isDigit) (l := ds), List.mem_append] at hmem
    exact hmem.imp_left (hdigits ds)
  rcases hsplit cs hc with hmark | hrest
  · exact hmark
  · unfold readDecimal? at h
    dsimp only at h
    split at h
    · rename_i r hr
      dsimp only at h
      split at h
      · cases h
      · obtain ⟨e, hscale, -⟩ := Option.map_eq_some_iff.mp h
        rw [hr] at hrest
        rcases List.mem_cons.mp hrest with rfl | hmem
        · decide
        · exact (hsplit r hmem).elim id (isMark_of_mem_scale hscale)
    · dsimp only at h
      split at h
      · cases h
      · obtain ⟨e, hscale, -⟩ := Option.map_eq_some_iff.mp h
        exact isMark_of_mem_scale hscale hrest

theorem isMark_of_mem_magnitude {negative : Bool} {cs : List Char} {v : Value}
    (h : readMagnitude? negative cs = some v) {c : Char} (hc : c ∈ cs) : isMark c = false := by
  -- the words that stand for infinity and for no number are made of letters
  have hword : ∀ word : List Char, word.all Char.isLower = true → cs.map Char.toLower = word →
      isMark c = false := by
    intro word hlower hmap
    have hmem : c.toLower ∈ word := hmap ▸ List.mem_map_of_mem hc
    apply isMark_of_isAlpha
    rw [← Char.isLower_toLower_eq_isAlpha]
    exact List.all_eq_true.mp hlower _ hmem
  unfold readMagnitude? at h
  dsimp only at h
  split at h
  · rename_i hinf
    simp only [Bool.or_eq_true, beq_iff_eq] at hinf
    exact hinf.elim (hword _ (by decide)) (hword _ (by decide))
  · split at h
    · rename_i hnan
      exact hword _ (by decide) (beq_iff_eq.mp hnan)
    · obtain ⟨d, hd, -⟩ := Option.map_eq_some_iff.mp h
      exact isMark_of_mem_decimal hd hc

/-- A literal holds no blanks, parentheses or commas. -/
theorem isMark_of_mem_literal {text : List Char} {x : Float} (h : readFloat? text = some x)
    {c : Char} (hc : c ∈ text) : isMark c = false := by
  obtain ⟨v, hv, -⟩ := Option.map_eq_some_iff.mp h
  unfold readValue? at hv
  split at hv
  · rcases List.mem_cons.mp hc with rfl | hc
    · decide
    · exact isMark_of_mem_magnitude hv hc
  · rcases List.mem_cons.mp hc with rfl | hc
    · decide
    · exact isMark_of_mem_magnitude hv hc
  · exact isMark_of_mem_magnitude hv hc

theorem literal_ne_nil {text : List Char} {x : Float} (h : readFloat? text = some x) :
    text ≠ [] := by
  rintro rfl
  cases h

end Literal

-- ---------------------------------------------------------------------------
-- Parameter lists
-- ---------------------------------------------------------------------------

/-- One item of a parameter list: a literal with blanks around it. -/
def ParamItem (item : List Char) (x : Float) : Prop :=
  ∃ before text after, Blank before ∧ Blank after ∧ item = before ++ (text ++ after) ∧
    Decimal.readFloat? text = some x

theorem readParam_eq_ok_iff_trim {item : List Char} {x : Float} :
    readParam item = .ok x ↔ Decimal.readFloat? (trim item) = some x := by
  unfold readParam
  dsimp only
  split
  · rename_i hempty
    rw [List.isEmpty_iff.mp hempty]
    exact ⟨nofun, fun h => absurd rfl (literal_ne_nil h)⟩
  · cases Decimal.readFloat? (trim item) <;> simp

theorem readParam_eq_ok_iff {item : List Char} {x : Float} :
    readParam item = .ok x ↔ ParamItem item x := by
  rw [readParam_eq_ok_iff_trim]
  constructor
  · intro hliteral
    obtain ⟨before, after, hbefore, hafter, hitem⟩ := exists_eq_trim item
    exact ⟨before, trim item, after, hbefore, hafter, hitem, hliteral⟩
  · rintro ⟨before, text, after, hbefore, hafter, rfl, hliteral⟩
    have hfree : ∀ c ∈ text, isBlank c = false := fun c hc =>
      (isMark_eq_false (isMark_of_mem_literal hliteral hc)).1
    rw [trim_blank_append hbefore, trim_append_blank hafter, trim_eq_self_of_free hfree]
    exact hliteral

theorem ParamItem.notMem {item : List Char} {x : Float} (h : ParamItem item x) : ',' ∉ item := by
  obtain ⟨before, text, after, hbefore, hafter, rfl, hliteral⟩ := h
  have hcomma : isBlank ',' = false := by decide
  rw [List.mem_append, List.mem_append, not_or, not_or]
  refine ⟨notMem_of_blank hcomma hbefore, ?_, notMem_of_blank hcomma hafter⟩
  intro hmem
  exact absurd (isMark_of_mem_literal hliteral hmem) (by decide)

theorem ParamItem.not_blank {item : List Char} {x : Float} (h : ParamItem item x) :
    ¬ Blank item := by
  intro hblank
  obtain ⟨before, text, after, -, -, rfl, hliteral⟩ := h
  obtain ⟨c, cs, rfl⟩ := List.exists_cons_of_ne_nil (literal_ne_nil hliteral)
  have hc := (isMark_eq_false (isMark_of_mem_literal hliteral List.mem_cons_self)).1
  rw [hblank c (by simp)] at hc
  cases hc

/-- The items that are read, after trimming the list, are those of the list itself. -/
theorem mapM_readParam_eq_ok_iff {list : List Char} {xs : List Float} :
    ((trim list).splitOn ',').mapM readParam = .ok xs ↔
      List.Forall₂ ParamItem (list.splitOn ',') xs := by
  have htrimmed : ∀ ps : List (List Char),
      List.Forall₂ (fun p x => readParam p = .ok x) ps xs ↔
        List.Forall₂ (fun t x => Decimal.readFloat? t = some x) (ps.map trim) xs := by
    intro ps
    rw [List.forall₂_map_left_iff]
    simp only [readParam_eq_ok_iff_trim]
  have hcomma : isBlank ',' = false := by decide
  rw [mapM_eq_ok_iff, htrimmed, map_trim_splitOn_trim hcomma, ← htrimmed]
  simp only [readParam_eq_ok_iff]

/-- A parameter list is blank, or made of items with commas between them. -/
theorem readParams_eq_ok_iff {list : List Char} {xs : List Float} :
    readParams list = .ok xs ↔
      (Blank list ∧ xs = []) ∨
        ∃ items, items ≠ [] ∧ list = [','].intercalate items ∧ List.Forall₂ ParamItem items xs := by
  unfold readParams
  dsimp only
  constructor
  · intro h
    split at h
    · rename_i hempty
      exact Or.inl ⟨trim_eq_nil_iff.mp (List.isEmpty_iff.mp hempty), (Except.ok.inj h).symm⟩
    · refine Or.inr ⟨list.splitOn ',', List.splitOn_ne_nil ',' list,
        (List.intercalate_splitOn ',').symm, ?_⟩
      exact mapM_readParam_eq_ok_iff.mp h
  · rintro (⟨hblank, rfl⟩ | ⟨items, hne, rfl, hitems⟩)
    · rw [if_pos (List.isEmpty_iff.mpr (trim_eq_nil_iff.mpr hblank))]
    · have hfree : ∀ item ∈ items, ',' ∉ item :=
        ((List.forall₂_and_left _ _).mp (hitems.imp fun _ _ h => ⟨h.notMem, h⟩)).1
      -- the first item is not blank, so neither is the list
      have hnot : ¬ Blank ([','].intercalate items) := by
        obtain ⟨item, rest, rfl⟩ := List.exists_cons_of_ne_nil hne
        obtain ⟨x, xs, hitem, -, rfl⟩ := List.forall₂_cons_left_iff.mp hitems
        rw [intercalate_cons]
        exact fun hblank => hitem.not_blank fun c hc => hblank c (List.mem_append_left _ hc)
      rw [if_neg (by rwa [List.isEmpty_iff, trim_eq_nil_iff]), mapM_readParam_eq_ok_iff,
        List.splitOn_intercalate ',' hfree hne]
      exact hitems

-- ---------------------------------------------------------------------------
-- Operands
-- ---------------------------------------------------------------------------

/-- The operands of an instruction: as many as it demands, and no two of them equal. -/
structure Operands (register : List Char) (arity : Nat) (text : List Char) (bits : List Nat) :
    Prop where
  addressed : ∃ ws, Spells ws text ∧ List.Forall₂ (Operand register) ws bits
  arity : bits.length = arity
  distinct : bits.Nodup

theorem mapM_readOperand_eq_ok_iff {register : List Char} {ws : List (List Char)}
    {bits : List Nat} :
    ws.mapM (readOperand register) = .ok bits ↔ List.Forall₂ (Operand register) ws bits := by
  rw [mapM_eq_ok_iff]
  simp only [readOperand_eq_ok_iff]

-- ---------------------------------------------------------------------------
-- The two forms of a line
-- ---------------------------------------------------------------------------

theorem plainHead_eq {line name rest : List Char} {params : List Float}
    (h : plainHead line = (name, params, rest)) :
    params = [] ∧ ∃ tail, line = name ++ tail ∧ AtBreak tail ∧ words rest = words tail := by
  unfold plainHead at h
  split at h
  · rename_i name' rest' hcut
    obtain ⟨b, hb, -, hline⟩ := cutAt?_eq_some_iff.mp hcut
    simp only [Prod.mk.injEq] at h
    obtain ⟨rfl, rfl, rfl⟩ := h
    refine ⟨rfl, b :: rest', hline, ?_, (words_cons_blank hb rest').symm⟩
    intro c hc
    rwa [← Option.some.inj hc]
  · simp only [Prod.mk.injEq] at h
    obtain ⟨rfl, rfl, rfl⟩ := h
    exact ⟨rfl, [], (List.append_nil line).symm, atBreak_nil, rfl⟩

/-- Whatever a line is taken apart into, it was put together from. -/
theorem splitHead_eq_ok {line name rest : List Char} {params : List Float}
    (h : splitHead line = .ok (name, params, rest)) :
    (params = [] ∧ ∃ tail, line = name ++ tail ∧ AtBreak tail ∧ words rest = words tail) ∨
      ∃ list, line = name ++ '(' :: (list ++ ')' :: rest) ∧ ')' ∉ list ∧
        readParams list = .ok params := by
  unfold splitHead at h
  split at h
  · exact Or.inl (plainHead_eq (Except.ok.inj h))
  · rename_i name' rest' hopen
    split at h
    · exact Or.inl (plainHead_eq (Except.ok.inj h))
    · split at h
      · cases h
      · rename_i list rest'' hclose
        obtain ⟨params', hparams, h⟩ := bind_eq_ok_iff.mp h
        have heq := Except.ok.inj h
        simp only [Prod.mk.injEq] at heq
        obtain ⟨rfl, rfl, rfl⟩ := heq
        obtain ⟨c, hc, -, hline⟩ := cutAt?_eq_some_iff.mp hopen
        obtain ⟨d, hd, hfree, hrest⟩ := cutAt?_eq_some_iff.mp hclose
        rw [hline, hrest, beq_iff_eq.mp hc, beq_iff_eq.mp hd]
        refine Or.inr ⟨list, rfl, ?_, hparams⟩
        intro hmem
        exact absurd (hfree ')' hmem) (by decide)

/-- How a line with a proper name is taken apart, said by how it is put together. -/
theorem splitLine_eq_ok_iff {line name : List Char} (hne : name ≠ [])
    (hname : ∀ c ∈ name, isMark c = false) {params : List Float} {ws : List (List Char)} :
    splitLine line = .ok ⟨name, params, ws⟩ ↔
      (params = [] ∧ ∃ rest, line = name ++ rest ∧ AtBreak rest ∧ Spells ws rest) ∨
        ∃ list rest, line = name ++ '(' :: (list ++ ')' :: rest) ∧ ')' ∉ list ∧
          readParams list = .ok params ∧ Spells ws rest := by
  rw [splitLine_eq_ok_iff_head hne]
  constructor
  · rintro ⟨rest, hhead, hwords⟩
    rcases splitHead_eq_ok hhead with
      ⟨hparams, tail, hline, hbreak, heq⟩ | ⟨list, hline, hfree, hparams⟩
    · exact Or.inl ⟨hparams, tail, hline, hbreak, words_eq_iff.mp (heq.symm.trans hwords)⟩
    · exact Or.inr ⟨list, rest, hline, hfree, hparams, words_eq_iff.mp hwords⟩
  · rintro (⟨rfl, rest, rfl, hbreak, hwords⟩ | ⟨list, rest, rfl, hfree, hparams, hwords⟩)
    · cases rest with
      | nil =>
        rw [List.append_nil]
        exact ⟨[], splitHead_name hname, words_eq_iff.mpr hwords⟩
      | cons b rest =>
        have hb : isBlank b = true := hbreak b rfl
        refine ⟨rest, splitHead_blank hname hb rest, ?_⟩
        rw [← words_cons_blank hb, words_eq_iff]
        exact hwords
    · exact ⟨rest, splitHead_of_list hname hfree hparams rest, words_eq_iff.mpr hwords⟩

-- ---------------------------------------------------------------------------
-- Instructions
-- ---------------------------------------------------------------------------

/-- The list of an instruction with `count` parameters, and the values that it gives them:
a blank list stands for zeros. -/
inductive ParamList (count : Nat) : List Char → List Float → Prop
  | blank {list : List Char} (hblank : Blank list) : ParamList count list (List.replicate count 0)
  | values {items : List (List Char)} {params : List Float} (hne : items ≠ [])
      (hitems : List.Forall₂ ParamItem items params) (hcount : params.length = count) :
      ParamList count ([','].intercalate items) params

/-- A line and the built-in instruction that it denotes. -/
inductive Line (register : List Char) : List Char → Instruction → Prop
  | plain {kind : Kind} {rest : List Char} {bits : List Nat} (hbreak : AtBreak rest)
      (hbits : Operands register kind.arity rest bits) :
      Line register (kind.name.toList ++ rest)
        ⟨.builtin kind, bits, List.replicate kind.numParams 0⟩
  | listed {kind : Kind} {list rest : List Char} {bits : List Nat} {params : List Float}
      (hclosed : ')' ∉ list) (hparams : ParamList kind.numParams list params)
      (hbits : Operands register kind.arity rest bits) :
      Line register (kind.name.toList ++ '(' :: (list ++ ')' :: rest))
        ⟨.builtin kind, bits, params⟩

/-- The values of a list that was read are those that its instruction is made with. -/
theorem create_readParams_eq_ok_iff {kind : Kind} {list : List Char} {bits : List Nat}
    {i : Instruction} :
    (∃ params, readParams list = .ok params ∧ kind.create bits params = .ok i) ↔
      ∃ params, ParamList kind.numParams list params ∧ bits.length = kind.arity ∧ bits.Nodup ∧
        i = ⟨.builtin kind, bits, params⟩ := by
  constructor
  · rintro ⟨params, hread, hcreate⟩
    obtain ⟨harity, hdistinct, hmade⟩ := Kind.create_eq_ok_iff.mp hcreate
    rcases readParams_eq_ok_iff.mp hread with ⟨hblank, rfl⟩ | ⟨items, hne, rfl, hitems⟩
    · rcases hmade with ⟨-, rfl⟩ | ⟨hnot, -, -⟩
      · exact ⟨_, .blank hblank, harity, hdistinct, rfl⟩
      · exact absurd rfl hnot
    · rcases hmade with ⟨rfl, -⟩ | ⟨-, hcount, rfl⟩
      · exact absurd (List.forall₂_nil_right_iff.mp hitems) hne
      · exact ⟨params, .values hne hitems hcount, harity, hdistinct, rfl⟩
  · rintro ⟨params, hlist, harity, hdistinct, rfl⟩
    cases hlist with
    | blank hblank =>
      refine ⟨[], readParams_eq_ok_iff.mpr (Or.inl ⟨hblank, rfl⟩), ?_⟩
      exact Kind.create_eq_ok_iff.mpr ⟨harity, hdistinct, Or.inl ⟨rfl, rfl⟩⟩
    | @values items _ hne hitems hcount =>
      refine ⟨params, readParams_eq_ok_iff.mpr (Or.inr ⟨items, hne, rfl, hitems⟩), ?_⟩
      have hsome : params ≠ [] := by
        rintro rfl
        exact hne (List.forall₂_nil_right_iff.mp hitems)
      exact Kind.create_eq_ok_iff.mpr ⟨harity, hdistinct, Or.inr ⟨hsome, hcount, rfl⟩⟩

/-- The reader of one line accepts the lines of the grammar and makes of each what it
denotes. -/
theorem readInstruction_eq_ok_iff {register line : List Char} {i : Instruction} :
    readInstruction .builtins register line = .ok i ↔ Line register line i := by
  have hmarks : ∀ kind : Kind, ∀ c ∈ kind.name.toList, isMark c = false := fun kind c hc =>
    isMark_of_isAlpha (kind.name_letters c hc)
  rw [readInstruction_builtins_eq_ok_iff]
  constructor
  · rintro ⟨kind, params, ws, bits, hparts, hread, hcreate⟩
    have hbits := mapM_readOperand_eq_ok_iff.mp hread
    rcases (splitLine_eq_ok_iff kind.name_ne_nil (hmarks kind)).mp hparts with
      ⟨rfl, rest, rfl, hbreak, hwords⟩ | ⟨list, rest, rfl, hclosed, hread, hwords⟩
    · obtain ⟨harity, hdistinct, hmade⟩ := Kind.create_eq_ok_iff.mp hcreate
      rcases hmade with ⟨-, rfl⟩ | ⟨hnot, -, -⟩
      · exact .plain hbreak ⟨⟨ws, hwords, hbits⟩, harity, hdistinct⟩
      · exact absurd rfl hnot
    · obtain ⟨values, hlist, harity, hdistinct, rfl⟩ :=
        create_readParams_eq_ok_iff.mp ⟨params, hread, hcreate⟩
      exact .listed hclosed hlist ⟨⟨ws, hwords, hbits⟩, harity, hdistinct⟩
  · intro h
    cases h with
    | @plain kind rest bits hbreak hoperands =>
      obtain ⟨⟨ws, hwords, hbits⟩, harity, hdistinct⟩ := hoperands
      refine ⟨kind, [], ws, bits, ?_, mapM_readOperand_eq_ok_iff.mpr hbits, ?_⟩
      · exact (splitLine_eq_ok_iff kind.name_ne_nil (hmarks kind)).mpr
          (Or.inl ⟨rfl, rest, rfl, hbreak, hwords⟩)
      · exact Kind.create_eq_ok_iff.mpr ⟨harity, hdistinct, Or.inl ⟨rfl, rfl⟩⟩
    | @listed kind list rest bits values hclosed hlist hoperands =>
      obtain ⟨⟨ws, hwords, hbits⟩, harity, hdistinct⟩ := hoperands
      obtain ⟨params, hread, hcreate⟩ :=
        create_readParams_eq_ok_iff.mpr ⟨values, hlist, harity, hdistinct, rfl⟩
      refine ⟨kind, params, ws, bits, ?_, mapM_readOperand_eq_ok_iff.mpr hbits, hcreate⟩
      exact (splitLine_eq_ok_iff kind.name_ne_nil (hmarks kind)).mpr
        (Or.inr ⟨list, rest, rfl, hclosed, hread, hwords⟩)

-- ---------------------------------------------------------------------------
-- Programs of one line
-- ---------------------------------------------------------------------------

/-- A trimmed line that is neither empty nor a comment. -/
structure Significant (line : List Char) : Prop where
  nonempty : line ≠ []
  single : '\n' ∉ line
  first : ∀ c, line.head? = some c → isBlank c = false
  last : ∀ c, line.getLast? = some c → isBlank c = false
  hash : ¬ ['#'] <+: line
  slashes : ¬ ['/', '/'] <+: line

theorem Significant.isSkipped_eq_false {line : List Char} (h : Significant line) :
    isSkipped line = false := by
  unfold isSkipped
  split
  · exact absurd rfl h.nonempty
  · exact absurd (by simp) h.hash
  · exact absurd (by simp) h.slashes
  · rfl

theorem Significant.lines_eq {line : List Char} (h : Significant line) : lines line = [line] := by
  have hreturn : line.getLast? ≠ some '\r' := by
    intro hlast
    exact absurd (h.last _ hlast) (by decide)
  have hjoin := @lines_intercalate [line] (by simpa using h.nonempty) (by simpa using h.single)
    (by simpa using hreturn)
  simpa using hjoin

theorem Significant.readLine_eq_ok_iff {line : List Char} (h : Significant line)
    {register : List Char} {n : Nat} {found : Option Instruction} :
    readLine .builtins register (line, n) = .ok found ↔
      ∃ i, found = some i ∧ Line register line i := by
  unfold readLine
  dsimp only
  rw [trim_eq_self h.first h.last, h.isSkipped_eq_false, if_neg (by simp)]
  simp only [← readInstruction_eq_ok_iff]
  cases readInstruction .builtins register line with
  | ok i => simp [eq_comm]
  | error fault => simp

/-- **The reader accepts exactly its grammar.** Over a proper register, a line that is
neither empty nor a comment is read as a program if and only if it is a line of the
grammar, and the program is then the one instruction that the line denotes. -/
theorem parse_eq_ok_iff_line {register line : String}
    (hregister : checkRegisterName register = .ok ()) (hline : Significant line.toList)
    (p : Program) :
    Program.parse .builtins register line = .ok p ↔
      ∃ i, p = ⟨register, [i]⟩ ∧ Line register.toList line.toList i := by
  unfold Program.parse
  rw [hregister]
  dsimp only
  rw [hline.lines_eq, List.zipIdx_singleton, bind_eq_ok_iff]
  simp only [mapM_eq_ok_iff]
  constructor
  · rintro ⟨found, hfound, h⟩
    obtain ⟨x, xs, hx, hxs, rfl⟩ := List.forall₂_cons_left_iff.mp hfound
    obtain rfl := List.forall₂_nil_left_iff.mp hxs
    obtain ⟨i, rfl, hi⟩ := hline.readLine_eq_ok_iff.mp hx
    exact ⟨i, (Except.ok.inj h).symm, hi⟩
  · rintro ⟨i, rfl, hi⟩
    exact ⟨[some i], .cons (hline.readLine_eq_ok_iff.mpr ⟨i, rfl, hi⟩) .nil, rfl⟩

/-- No blank after the list, a register that ends in a digit, zeros in front of an index
and blanks around a literal. -/
theorem parse_eq_ok_iff_line_coupler :
    checkRegisterName "q1" = .ok () ∧ Significant "Coupler( -0.5e1\t)q1007 q10".toList ∧
      Program.parse .builtins "q1" "Coupler( -0.5e1\t)q1007 q10" =
        .ok ⟨"q1", [⟨.builtin .coupler, [7, 0], [-5.0]⟩]⟩ := by
  have hline : Significant "Coupler( -0.5e1\t)q1007 q10".toList :=
    ⟨by decide, by decide, by simp [isBlank], by simp [isBlank], by decide, by decide⟩
  refine ⟨rfl, hline, (parse_eq_ok_iff_line rfl hline _).mpr ⟨_, rfl, ?_⟩⟩
  have hitem : ParamItem " -0.5e1\t".toList (-5.0) :=
    ⟨[' '], "-0.5e1".toList, ['\t'], by simp [Blank, isBlank], by simp [Blank, isBlank], rfl,
      by decide +kernel⟩
  have hlist : ParamList 1 " -0.5e1\t".toList [-5.0] :=
    @ParamList.values 1 [" -0.5e1\t".toList] [-5.0] (by simp) (.cons hitem .nil) rfl
  have hlast : Spells ["q10".toList] " q10".toList :=
    @Spells.cons [' '] "q10".toList [] [] (by simp [Blank, isBlank]) (by simp)
      (by simp [isBlank]) atBreak_nil (.nil blank_nil)
  have hwords : Spells ["q1007".toList, "q10".toList] "q1007 q10".toList :=
    @Spells.cons [] "q1007".toList " q10".toList _ blank_nil (by simp) (by simp [isBlank])
      (by simp [AtBreak, isBlank]) hlast
  have hfirst : Operand "q1".toList "q1007".toList 7 :=
    ⟨"007".toList, rfl, by simp, by simp, rfl, by decide⟩
  have hsecond : Operand "q1".toList "q10".toList 0 :=
    ⟨"0".toList, rfl, by simp, by simp, rfl, by decide⟩
  exact @Line.listed "q1".toList .coupler " -0.5e1\t".toList "q1007 q10".toList [7, 0] [-5.0]
    (by decide) hlist ⟨⟨_, hwords, .cons hfirst (.cons hsecond .nil)⟩, rfl, by decide⟩

end QuantumCompiler
