import QuantumCompiler.Text.Blank
import QuantumCompiler.Text.Numeral

/-!
# Cutting a text that was put together

A text is cut at a character by `List.splitOn` and put together by `List.intercalate`. The
pieces that it is cut into are free of the character and give the text again when they are
put together, and they are the only ones with these two properties. So what was joined by a
character is cut where it was joined, and a text without that character only makes the piece
longer that it is written to.

* `splitOn_eq_iff` — the pieces at a character;
* `splitOn_intercalate_cons` — items with a character and a filling between them;
* `splitOn_append_left`, `splitOn_append_right` — text in front of the first piece and after
  the last;
* `lines_intercalate` — lines with line feeds between them;
* `trim_eq_self` — a text with no blank at either end is left alone.
-/

namespace QuantumCompiler.Text

-- ---------------------------------------------------------------------------
-- Putting together
-- ---------------------------------------------------------------------------

theorem intercalate_cons (sep x : List Char) (xs : List (List Char)) :
    sep.intercalate (x :: xs) = x ++ xs.flatMap (sep ++ ·) := by
  induction xs generalizing x with
  | nil => simp
  | cons y xs ih => rw [List.intercalate_cons_cons, ih, List.flatMap_cons, List.append_assoc,
      List.append_assoc]

/-- Text after the last item is text after the whole. -/
theorem intercalate_concat_append (sep : List Char) (init : List (List Char))
    (x after : List Char) :
    sep.intercalate (init ++ [x ++ after]) = sep.intercalate (init ++ [x]) ++ after := by
  cases init with
  | nil => simp
  | cons y init => simp [intercalate_cons]

-- ---------------------------------------------------------------------------
-- Pieces at a character
-- ---------------------------------------------------------------------------

section Pieces

variable {c : Char} {cs : List Char}

theorem notMem_of_mem_splitOn {p : List Char} (h : p ∈ cs.splitOn c) : c ∉ p := by
  induction cs generalizing p with
  | nil =>
    rw [List.splitOn_nil, List.mem_singleton] at h
    simp [h]
  | cons d cs ih =>
    rw [List.splitOn_cons_eq_if_modifyHead] at h
    split at h
    · rcases List.mem_cons.mp h with rfl | h
      · exact List.not_mem_nil
      · exact ih h
    · rename_i hd
      obtain ⟨q, qs, hcut⟩ := List.exists_cons_of_ne_nil (List.splitOn_ne_nil c cs)
      rw [hcut] at ih
      rw [hcut, List.modifyHead_cons, List.mem_cons] at h
      rcases h with rfl | h
      · have hne : c ≠ d := fun heq => hd (beq_iff_eq.mpr heq.symm)
        exact List.not_mem_cons_of_ne_of_not_mem hne (ih List.mem_cons_self)
      · exact ih (List.mem_cons_of_mem q h)

/-- The pieces at a character are free of it and joined by it in the text. -/
theorem splitOn_eq_iff {ps : List (List Char)} :
    cs.splitOn c = ps ↔ ps ≠ [] ∧ (∀ p ∈ ps, c ∉ p) ∧ [c].intercalate ps = cs := by
  constructor
  · rintro rfl
    exact ⟨List.splitOn_ne_nil c cs, fun p => notMem_of_mem_splitOn, List.intercalate_splitOn c⟩
  · rintro ⟨hne, hfree, rfl⟩
    exact List.splitOn_intercalate c hfree hne

theorem length_splitOn (c : Char) (cs : List Char) :
    (cs.splitOn c).length = cs.count c + 1 := by
  induction cs with
  | nil => simp
  | cons d cs ih =>
    rw [List.splitOn_cons_eq_if_modifyHead, List.count_cons]
    split
    · rw [List.length_cons, ih]
    · rw [List.length_modifyHead, ih, Nat.add_zero]

/-- Items joined by a character and a filling come back as pieces that start with the
filling. -/
theorem splitOn_intercalate_cons {fill x : List Char} {items : List (List Char)}
    (hfill : c ∉ fill) (hitems : ∀ y ∈ x :: items, c ∉ y) :
    ((c :: fill).intercalate (x :: items)).splitOn c = x :: items.map (fill ++ ·) := by
  obtain ⟨hx, hitems⟩ := List.forall_mem_cons.mp hitems
  have htext : [c].intercalate (x :: items.map (fill ++ ·)) =
      (c :: fill).intercalate (x :: items) := by
    simp [intercalate_cons, List.flatMap_map]
  refine splitOn_eq_iff.mpr ⟨by simp, List.forall_mem_cons.mpr ⟨hx, ?_⟩, htext⟩
  rw [List.forall_mem_map]
  exact fun y hy => List.not_mem_append hfill (hitems y hy)

/-- A run without the character in front of a text makes its first piece longer. -/
theorem splitOn_append_left {before : List Char} (hbefore : c ∉ before) {p : List Char}
    {ps : List (List Char)} (hcut : cs.splitOn c = p :: ps) :
    (before ++ cs).splitOn c = (before ++ p) :: ps := by
  obtain ⟨-, hfree, hjoin⟩ := splitOn_eq_iff.mp hcut
  obtain ⟨hp, hps⟩ := List.forall_mem_cons.mp hfree
  refine splitOn_eq_iff.mpr ⟨by simp, ?_, ?_⟩
  · exact List.forall_mem_cons.mpr ⟨List.not_mem_append hbefore hp, hps⟩
  · rw [← hjoin, intercalate_cons, intercalate_cons, List.append_assoc]

/-- A run without the character after a text makes its last piece longer. -/
theorem splitOn_append_right {after : List Char} (hafter : c ∉ after) {init : List (List Char)}
    {p : List Char} (hcut : cs.splitOn c = init ++ [p]) :
    (cs ++ after).splitOn c = init ++ [p ++ after] := by
  obtain ⟨-, hfree, hjoin⟩ := splitOn_eq_iff.mp hcut
  obtain ⟨hinit, hp⟩ := List.forall_mem_append.mp hfree
  refine splitOn_eq_iff.mpr ⟨by simp, ?_, ?_⟩
  · rw [List.forall_mem_append, List.forall_mem_singleton]
    exact ⟨hinit, List.not_mem_append (hp p List.mem_cons_self) hafter⟩
  · rw [intercalate_concat_append, hjoin]

end Pieces

-- ---------------------------------------------------------------------------
-- Lines
-- ---------------------------------------------------------------------------

theorem dropReturn_eq_self {cs : List Char} (h : cs.getLast? ≠ some '\r') : dropReturn cs = cs := by
  rw [dropReturn, if_neg h]

/-- Lines with line feeds between them are the lines of the text, if none is empty,
holds a line feed or ends in a carriage return. -/
theorem lines_intercalate {ls : List (List Char)} (hne : ∀ l ∈ ls, l ≠ [])
    (hfeed : ∀ l ∈ ls, '\n' ∉ l) (hreturn : ∀ l ∈ ls, l.getLast? ≠ some '\r') :
    lines (['\n'].intercalate ls) = ls := by
  cases ls with
  | nil => rfl
  | cons l ls =>
    have hcut : (['\n'].intercalate (l :: ls)).splitOn '\n' = l :: ls :=
      List.splitOn_intercalate '\n' hfeed (by simp)
    have hlast : (l :: ls).getLast (by simp) ≠ [] := hne _ (List.getLast_mem _)
    have hmap : (l :: ls).dropLast.map dropReturn = (l :: ls).dropLast := by
      have hsame : ∀ y ∈ (l :: ls).dropLast, dropReturn y = id y := by
        intro y hy
        exact dropReturn_eq_self (hreturn y (List.dropLast_subset _ hy))
      rw [List.map_congr_left hsame, List.map_id]
    rw [lines, hcut, hmap, List.getLast?_eq_some_getLast (by simp), Option.toList_some,
      List.filter_cons_of_pos (by simpa using hlast), List.filter_nil,
      List.dropLast_concat_getLast]

-- ---------------------------------------------------------------------------
-- Trimming
-- ---------------------------------------------------------------------------

theorem trimLeft_cons_blank {c : Char} (hc : isBlank c = true) (cs : List Char) :
    trimLeft (c :: cs) = trimLeft cs := by
  rw [trimLeft, List.dropWhile_cons_of_pos hc, trimLeft]

theorem trim_cons_blank {c : Char} (hc : isBlank c = true) (cs : List Char) :
    trim (c :: cs) = trim cs := by
  rw [trim, trimLeft_cons_blank hc, trim]

theorem trimLeft_eq_self {cs : List Char} (h : ∀ c, cs.head? = some c → isBlank c = false) :
    trimLeft cs = cs := by
  cases cs with
  | nil => rfl
  | cons c cs => rw [trimLeft, List.dropWhile_cons_of_neg (by simp [h c rfl])]

/-- A text with no blank at either end is left alone. -/
theorem trim_eq_self {cs : List Char} (hfirst : ∀ c, cs.head? = some c → isBlank c = false)
    (hlast : ∀ c, cs.getLast? = some c → isBlank c = false) : trim cs = cs := by
  rw [trim, trimLeft_eq_self hfirst, trimRight, trimLeft_eq_self (by simpa using hlast),
    List.reverse_reverse]

/-- A text without blanks is left alone. -/
theorem trim_eq_self_of_free {cs : List Char} (h : ∀ c ∈ cs, isBlank c = false) : trim cs = cs :=
  trim_eq_self (fun c hc => h c (List.mem_of_mem_head? hc))
    (fun c hc => h c (List.mem_of_getLast? hc))

end QuantumCompiler.Text
