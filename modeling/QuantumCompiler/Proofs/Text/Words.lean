import Mathlib.Data.List.TakeWhile
import QuantumCompiler.Proofs.Text.Pieces

/-!
# What a text is made of

Like the pieces at a character, words and trimming are characterised without the functions
that find them: a text is put together from its words, and from what is left of it and the
blanks that were taken away.

* `words_eq_iff` — the words of a text are the runs that it spells (`Spells`);
* `words_flatMap` — words after one blank each;
* `exists_eq_trim` — trimming takes blanks away at both ends;
* `map_trim_splitOn_trim` — trimming a text first does not change its trimmed pieces.
-/

namespace QuantumCompiler.Text

/-- Blanks only, possibly none. -/
def Blank (cs : List Char) : Prop :=
  ∀ c ∈ cs, isBlank c = true

/-- A word in front of this text ends there: the text is empty or starts with a blank. -/
def AtBreak (cs : List Char) : Prop :=
  ∀ c, cs.head? = some c → isBlank c = true

theorem blank_nil : Blank [] := by
  simp [Blank]

theorem Blank.atBreak {cs : List Char} (h : Blank cs) : AtBreak cs :=
  fun c hc => h c (List.mem_of_mem_head? hc)

theorem atBreak_nil : AtBreak [] :=
  blank_nil.atBreak

theorem Blank.cons {c : Char} {cs : List Char} (hc : isBlank c = true) (h : Blank cs) :
    Blank (c :: cs) :=
  List.forall_mem_cons.mpr ⟨hc, h⟩

-- ---------------------------------------------------------------------------
-- Words
-- ---------------------------------------------------------------------------

/-- A text made of these words in this order. A word is a run of characters that are not
blank. There may be blanks in front of each word and after the last, and there is one
after each word that another one follows. -/
inductive Spells : List (List Char) → List Char → Prop
  | nil {gap : List Char} (hgap : Blank gap) : Spells [] gap
  | cons {gap w rest : List Char} {ws : List (List Char)} (hgap : Blank gap) (hne : w ≠ [])
      (hw : ∀ c ∈ w, isBlank c = false) (hbreak : AtBreak rest) (hrest : Spells ws rest) :
      Spells (w :: ws) (gap ++ (w ++ rest))

/-- A blank in front does not change the words. -/
theorem words_cons_blank {c : Char} (hc : isBlank c = true) (cs : List Char) :
    words (c :: cs) = words cs := by
  rw [words, List.splitOnP_cons_eq_if_modifyHead, if_pos hc, List.filter_cons_of_neg (by simp),
    words]

theorem words_blank_append {gap : List Char} (hgap : Blank gap) (cs : List Char) :
    words (gap ++ cs) = words cs := by
  induction gap with
  | nil => rfl
  | cons c gap ih =>
    obtain ⟨hc, hrest⟩ := List.forall_mem_cons.mp hgap
    rw [List.cons_append, words_cons_blank hc, ih hrest]

theorem words_word_append {w : List Char} (hne : w ≠ []) (hw : ∀ c ∈ w, isBlank c = false)
    {rest : List Char} (hbreak : AtBreak rest) : words (w ++ rest) = w :: words rest := by
  have hkeep : ∀ ps : List (List Char),
      (w :: ps).filter (fun p => !p.isEmpty) = w :: ps.filter (fun p => !p.isEmpty) :=
    fun ps => List.filter_cons_of_pos (by simpa using hne)
  cases rest with
  | nil =>
    rw [List.append_nil, words, List.splitOnP_eq_singleton hw, hkeep]
    rfl
  | cons c rest =>
    have hc : isBlank c = true := hbreak c rfl
    rw [words_cons_blank hc, words, List.splitOnP_append_cons_of_forall_mem hw c hc, hkeep, words]

/-- Words after one blank each are the words of the text. -/
theorem words_flatMap {c : Char} (hc : isBlank c = true) {ws : List (List Char)}
    (hne : ∀ w ∈ ws, w ≠ []) (hws : ∀ w ∈ ws, ∀ d ∈ w, isBlank d = false) :
    words (ws.flatMap fun w => c :: w) = ws := by
  induction ws with
  | nil => rfl
  | cons w ws ih =>
    obtain ⟨hne, hneRest⟩ := List.forall_mem_cons.mp hne
    obtain ⟨hw, hwRest⟩ := List.forall_mem_cons.mp hws
    -- the blank in front of the next word ends this one
    have hbreak : AtBreak (ws.flatMap fun w => c :: w) := by
      intro d hd
      cases ws with
      | nil => cases hd
      | cons v ws =>
        rw [← Option.some.inj hd]
        exact hc
    rw [List.flatMap_cons, List.cons_append, words_cons_blank hc,
      words_word_append hne hw hbreak, ih hneRest hwRest]

theorem words_of_spells {ws : List (List Char)} {cs : List Char} (h : Spells ws cs) :
    words cs = ws := by
  induction h with
  | nil hgap =>
    have hnil := words_blank_append hgap []
    rwa [List.append_nil] at hnil
  | cons hgap hne hw hbreak _ ih =>
    rw [words_blank_append hgap, words_word_append hne hw hbreak, ih]

/-- Every text is made of some words. The induction puts one character in front: a blank
makes the first gap longer, any other character the first word, unless a blank follows. -/
theorem exists_spells (cs : List Char) : ∃ ws, Spells ws cs := by
  induction cs with
  | nil => exact ⟨[], .nil blank_nil⟩
  | cons c cs ih =>
    obtain ⟨ws, h⟩ := ih
    by_cases hc : isBlank c = true
    · cases h with
      | nil hgap => exact ⟨[], .nil (hgap.cons hc)⟩
      | cons hgap hne hw hbreak hrest => exact ⟨_, .cons (hgap.cons hc) hne hw hbreak hrest⟩
    · have hfree : isBlank c = false := by simpa using hc
      -- a word of its own
      have halone : AtBreak cs → ∃ ws, Spells ws (c :: cs) := fun hbreak =>
        ⟨[c] :: ws, @Spells.cons [] [c] cs ws blank_nil (by simp) (by simpa using hfree) hbreak h⟩
      cases h with
      | nil hgap => exact halone hgap.atBreak
      | @cons gap w rest ws hgap hne hw hbreak hrest =>
        cases gap with
        | nil =>
          have hlonger : ∀ d ∈ c :: w, isBlank d = false := List.forall_mem_cons.mpr ⟨hfree, hw⟩
          exact ⟨_, @Spells.cons [] (c :: w) rest ws blank_nil (by simp) hlonger hbreak hrest⟩
        | cons d gap =>
          apply halone
          intro e he
          rw [← Option.some.inj he]
          exact hgap d List.mem_cons_self

/-- The words of a text are those that it spells. -/
theorem words_eq_iff {cs : List Char} {ws : List (List Char)} : words cs = ws ↔ Spells ws cs := by
  constructor
  · rintro rfl
    obtain ⟨ws, h⟩ := exists_spells cs
    rwa [words_of_spells h]
  · exact words_of_spells

-- ---------------------------------------------------------------------------
-- Trimming
-- ---------------------------------------------------------------------------

theorem trim_blank_append {before : List Char} (h : Blank before) (cs : List Char) :
    trim (before ++ cs) = trim cs := by
  rw [trim, trimLeft, List.dropWhile_append_of_pos h, trim, trimLeft]

theorem trimRight_append_blank {after : List Char} (h : Blank after) (cs : List Char) :
    trimRight (cs ++ after) = trimRight cs := by
  have hreverse : ∀ c ∈ after.reverse, isBlank c = true := fun c hc => h c (List.mem_reverse.mp hc)
  rw [trimRight, trimLeft, List.reverse_append, List.dropWhile_append_of_pos hreverse, trimRight,
    trimLeft]

theorem trim_append_blank {after : List Char} (h : Blank after) (cs : List Char) :
    trim (cs ++ after) = trim cs := by
  rw [trim, trimLeft, List.dropWhile_append, trim, trimLeft]
  split
  · -- the text is blank as well, so nothing is left of either
    rename_i hnil
    rw [List.isEmpty_iff.mp hnil, List.dropWhile_eq_nil_iff.mpr h]
  · exact trimRight_append_blank h _

theorem exists_eq_trimRight (cs : List Char) :
    ∃ after, Blank after ∧ cs = trimRight cs ++ after := by
  refine ⟨(cs.reverse.takeWhile isBlank).reverse, ?_, ?_⟩
  · intro c hc
    exact List.mem_takeWhile_imp (List.mem_reverse.mp hc)
  · rw [trimRight, trimLeft, ← List.reverse_append, List.takeWhile_append_dropWhile,
      List.reverse_reverse]

/-- Trimming takes blanks away at both ends. -/
theorem exists_eq_trim (cs : List Char) :
    ∃ before after, Blank before ∧ Blank after ∧ cs = before ++ (trim cs ++ after) := by
  obtain ⟨after, hafter, hright⟩ := exists_eq_trimRight (trimLeft cs)
  refine ⟨cs.takeWhile isBlank, after, fun c hc => List.mem_takeWhile_imp hc, hafter, ?_⟩
  rw [trim, ← hright, trimLeft, List.takeWhile_append_dropWhile]

theorem trim_eq_nil_iff {cs : List Char} : trim cs = [] ↔ Blank cs := by
  constructor
  · intro h
    obtain ⟨before, after, hbefore, hafter, hcs⟩ := exists_eq_trim cs
    rw [h, List.nil_append] at hcs
    intro c hc
    rw [hcs, List.mem_append] at hc
    exact hc.elim (hbefore c) (hafter c)
  · intro h
    have htrim := trim_blank_append h []
    rwa [List.append_nil] at htrim

section TrimPieces

variable {c : Char}

/-- Blanks in front of a text go to its first piece. -/
theorem map_trim_splitOn_blank_append {before : List Char} (h : Blank before)
    (hbefore : c ∉ before) (cs : List Char) :
    ((before ++ cs).splitOn c).map trim = (cs.splitOn c).map trim := by
  obtain ⟨p, ps, hcut⟩ := List.exists_cons_of_ne_nil (List.splitOn_ne_nil c cs)
  rw [splitOn_append_left hbefore hcut, hcut, List.map_cons, trim_blank_append h, List.map_cons]

/-- Blanks after a text go to its last piece. -/
theorem map_trim_splitOn_append_blank {after : List Char} (h : Blank after) (hafter : c ∉ after)
    (cs : List Char) :
    ((cs ++ after).splitOn c).map trim = (cs.splitOn c).map trim := by
  obtain ⟨init, p, hcut⟩ :=
    (cs.splitOn c).eq_nil_or_concat.resolve_left (List.splitOn_ne_nil c cs)
  rw [List.concat_eq_append] at hcut
  rw [splitOn_append_right hafter hcut, hcut, List.map_append, List.map_append,
    List.map_singleton, trim_append_blank h, List.map_singleton]

theorem notMem_of_blank (hc : isBlank c = false) {cs : List Char} (h : Blank cs) : c ∉ cs := by
  intro hmem
  rw [h c hmem] at hc
  cases hc

/-- Trimming a text first does not change its trimmed pieces. -/
theorem map_trim_splitOn_trim (hc : isBlank c = false) (cs : List Char) :
    ((trim cs).splitOn c).map trim = (cs.splitOn c).map trim := by
  obtain ⟨before, after, hbefore, hafter, hcs⟩ := exists_eq_trim cs
  calc ((trim cs).splitOn c).map trim
      = ((trim cs ++ after).splitOn c).map trim :=
        (map_trim_splitOn_append_blank hafter (notMem_of_blank hc hafter) _).symm
    _ = ((before ++ (trim cs ++ after)).splitOn c).map trim :=
        (map_trim_splitOn_blank_append hbefore (notMem_of_blank hc hbefore) _).symm
    _ = (cs.splitOn c).map trim := by rw [← hcs]

end TrimPieces

end QuantumCompiler.Text
