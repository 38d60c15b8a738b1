import Mathlib.Data.List.Forall2
import QuantumCompiler.Json.Compiled
import QuantumCompiler.Proofs.Traversal

/-!
# Compiled programs in JSON read back

A text reads as a value if it does so whatever follows it (`ReadsAs`). Strings read as
themselves whatever characters they hold, since each character is escaped in a way that the
reader undoes. Arrays and objects of texts that read as values read as the array and the
object of these, with any blanks around the items. The two layouts differ in these blanks only,
so one argument serves both.

The reader pays for its steps with `fuel`; twice the length of a text is enough for it.

* `readString?_quote` — the escapes of a string are undone;
* `readsAs_array`, `readsAs_object` — containers, from what they contain;
* `parseJson_compactJson`, `parseJson_prettyJson` — compiled programs in both layouts.
-/

namespace QuantumCompiler

namespace Json

-- ---------------------------------------------------------------------------
-- Strings
-- ---------------------------------------------------------------------------

theorem hexValue?_hexDigit {n : Nat} (h : n < 16) : hexValue? (hexDigit n) = some n := by
  have hall : (List.range 16).all (fun n => hexValue? (hexDigit n) = some n) = true := by decide
  simpa using List.all_eq_true.mp hall n (List.mem_range.mpr h)

/-- Four hexadecimal digits hold sixteen bits. -/
theorem hexValue4?_hexDigits {n : Nat} (h : n < 0x10000) :
    hexValue4? (hexDigit (n / 0x1000 % 16)) (hexDigit (n / 0x100 % 16)) (hexDigit (n / 0x10 % 16))
      (hexDigit (n % 16)) = some n := by
  have hdigit : ∀ m, hexValue? (hexDigit (m % 16)) = some (m % 16) :=
    fun m => hexValue?_hexDigit (Nat.mod_lt m (by decide))
  have hvalue :
      ((n / 0x1000 % 16 * 16 + n / 0x100 % 16) * 16 + n / 0x10 % 16) * 16 + n % 16 = n := by
    omega
  simp only [hexValue4?, hdigit, Option.bind_eq_bind, Option.bind_some, Option.pure_def, hvalue]

/-- What a string reads as, once a code point is put in front. -/
def prepend (n : Nat) (found : Option (List Nat × List Char)) : Option (List Nat × List Char) :=
  found.map fun (points, rest) => (n :: points, rest)

theorem readString?_letter {letter : Char} {n : Nat} (hletter : letter ≠ 'u')
    (hn : simpleEscape? letter = some n) (cs : List Char) :
    readString? ('\\' :: letter :: cs) = prepend n (readString? cs) := by
  rw [readString?]
  · rw [hn]
    cases readString? cs <;> rfl
  · simp_all

theorem readString?_hexEscape {n : Nat} (h : n < 0x10000) (cs : List Char) :
    readString? (hexEscape n ++ cs) = prepend n (readString? cs) := by
  simp only [hexEscape, List.cons_append, List.nil_append]
  rw [readString?, hexValue4?_hexDigits h]
  cases readString? cs <;> rfl

theorem readString?_plain {c : Char} (hquote : c ≠ '"') (hescape : c ≠ '\\')
    (hcode : 0x20 ≤ c.toNat) (cs : List Char) :
    readString? (c :: cs) = prepend c.toNat (readString? cs) := by
  rw [readString?]
  · rw [if_neg (by simp [hescape]; omega)]
    cases readString? cs <;> rfl
  all_goals simp_all

theorem toNat_not_surrogate (c : Char) :
    isHighSurrogate c.toNat = false ∧ isLowSurrogate c.toNat = false := by
  have hvalid : c.toNat < 0xD800 ∨ 0xDFFF < c.toNat ∧ c.toNat < 0x110000 := c.valid
  simp only [isHighSurrogate, isLowSurrogate, Bool.and_eq_false_iff, decide_eq_false_iff_not]
  omega

/-- The escape of a character is undone. -/
theorem readString?_escapePoint (c : Char) (cs : List Char) :
    readString? (escapePoint c.toNat ++ cs) = prepend c.toNat (readString? cs) := by
  unfold escapePoint
  split_ifs with h22 h5C h08 h09 h0A h0C h0D hescape
  · rw [h22]
    exact readString?_letter (by decide) rfl cs
  · rw [h5C]
    exact readString?_letter (by decide) rfl cs
  · rw [h08]
    exact readString?_letter (by decide) rfl cs
  · rw [h09]
    exact readString?_letter (by decide) rfl cs
  · rw [h0A]
    exact readString?_letter (by decide) rfl cs
  · rw [h0C]
    exact readString?_letter (by decide) rfl cs
  · rw [h0D]
    exact readString?_letter (by decide) rfl cs
  · have hcontrol : c.toNat < 0x20 := by simpa [toNat_not_surrogate c] using hescape
    exact readString?_hexEscape (by omega) cs
  · rw [Char.ofNat_toNat]
    refine readString?_plain ?_ ?_ ?_ cs
    · rintro rfl
      exact h22 rfl
    · rintro rfl
      exact h5C rfl
    · simp only [Bool.or_eq_true, decide_eq_true_eq, not_or] at hescape
      omega

/-- Strings read as themselves. -/
theorem readString?_quote (text rest : List Char) :
    readString? ((pointsOf text).flatMap escapePoint ++ '"' :: rest) =
      some (pointsOf text, rest) := by
  induction text with
  | nil => rfl
  | cons c text ih =>
    simp only [pointsOf, List.map_cons, List.flatMap_cons, List.append_assoc] at ih ⊢
    rw [readString?_escapePoint, ih]
    rfl

/-- The code points of a text spell the text. -/
theorem textOf?_pointsOf (text : List Char) : textOf? (pointsOf text) = some text := by
  induction text with
  | nil => rfl
  | cons c text ih =>
    have hc := toNat_not_surrogate c
    cases text with
    | nil => simp [pointsOf, textOf?, hc]
    | cons d text =>
      simp only [pointsOf, List.map_cons] at ih ⊢
      simp [textOf?, hc, ih]

@[simp]
theorem text?_ofText (text : String) : (ofText text).text? = some text := by
  simp [ofText, text?, textOf?_pointsOf]

-- ---------------------------------------------------------------------------
-- Texts that read as values
-- ---------------------------------------------------------------------------

/-- Blanks and nothing else. -/
def Spaces (cs : List Char) : Prop :=
  ∀ c ∈ cs, isSpace c = true

theorem skipSpace_spaces_append {gap : List Char} (h : Spaces gap) (cs : List Char) :
    skipSpace (gap ++ cs) = skipSpace cs :=
  List.dropWhile_append_of_pos h

/-- What is not a blank stays. -/
theorem skipSpace_cons {c : Char} (h : isSpace c = false) (cs : List Char) :
    skipSpace (c :: cs) = c :: cs :=
  List.dropWhile_cons_of_neg (by simp [h])

theorem spaces_nil : Spaces [] := by
  simp [Spaces]

theorem spaces_newline (depth : Nat) : Spaces (newline depth) := by
  simp [Spaces, newline, isSpace]

theorem skipSpace_quote (points : List Nat) (rest : List Char) :
    skipSpace (quote points ++ rest) = '"' :: (points.flatMap escapePoint ++ '"' :: rest) := by
  simp [quote, skipSpace, isSpace]

/-- The blanks before a value do not matter. -/
theorem readValue?_spaces_append {gap : List Char} (h : Spaces gap) (fuel : Nat) (cs : List Char) :
    readValue? fuel (gap ++ cs) = readValue? fuel cs := by
  cases fuel with
  | zero => simp [readValue?]
  | succ fuel => rw [readValue?, readValue?, skipSpace_spaces_append h]

/-- A text that reads as a value, whatever follows it. -/
structure ReadsAs (v : Json) (text : List Char) : Prop where
  /-- The text starts with a quotation mark, a bracket or a brace. -/
  opens : ∃ c cs, text = c :: cs ∧ (c = '"' ∨ c = '[' ∨ c = '{')
  /-- The reader finds the value and stops where the text ends. -/
  reads : ∀ fuel rest, 2 * text.length ≤ fuel → readValue? fuel (text ++ rest) = some (v, rest)

theorem readsAs_quote (text : List Char) :
    ReadsAs (.string (pointsOf text)) (quote (pointsOf text)) where
  opens := ⟨_, _, rfl, .inl rfl⟩
  reads := by
    intro fuel rest hfuel
    have hpos : fuel ≠ 0 := by
      simp only [quote, List.length_cons] at hfuel
      omega
    obtain ⟨fuel, rfl⟩ := Nat.exists_eq_add_one_of_ne_zero hpos
    rw [readValue?, skipSpace_quote]
    simp [readString?_quote]

/-- A reader of parts with commas between them and a closing mark after the last. -/
structure ReadsParts {α : Type} (readParts? : Nat → List Char → Option (List α × List Char))
    (closing : Char) (Reads : α → List Char → Prop) : Prop where
  /-- It ends at the closing mark. -/
  last : ∀ {x text}, Reads x text → ∀ {fuel gap after rest}, 2 * text.length ≤ fuel → Spaces gap →
    skipSpace after = closing :: rest →
    readParts? (fuel + 1) (gap ++ (text ++ after)) = some ([x], rest)
  /-- It goes on after a comma. -/
  more : ∀ {x text}, Reads x text → ∀ {fuel gap after others xs rest}, 2 * text.length ≤ fuel →
    Spaces gap → skipSpace after = ',' :: others → readParts? fuel others = some (xs, rest) →
    readParts? (fuel + 1) (gap ++ (text ++ after)) = some (x :: xs, rest)

theorem ReadsParts.reads_intercalate {α : Type}
    {readParts? : Nat → List Char → Option (List α × List Char)} {closing : Char}
    {Reads : α → List Char → Prop} (h : ReadsParts readParts? closing Reads)
    {gap after rest : List Char} (hgap : Spaces gap) (hafter : skipSpace after = closing :: rest)
    {x : α} {text : List Char} (hx : Reads x text) {xs : List α} {texts : List (List Char)}
    (hxs : List.Forall₂ Reads xs texts) {fuel : Nat}
    (hfuel : 2 * ((',' :: gap).intercalate (text :: texts)).length < fuel) :
    readParts? fuel (gap ++ ((',' :: gap).intercalate (text :: texts) ++ after)) =
      some (x :: xs, rest) := by
  obtain ⟨fuel, rfl⟩ := Nat.exists_eq_add_one_of_ne_zero (n := fuel) (by omega)
  induction hxs generalizing x text fuel with
  | nil =>
    rw [List.intercalate_singleton] at hfuel ⊢
    exact h.last hx (by omega) hgap hafter
  | @cons y text' ys texts hy _ ih =>
    rw [List.intercalate_cons_cons] at hfuel ⊢
    simp only [List.length_append, List.length_cons] at hfuel
    -- a part takes one step and the comma pays for it, so the others are left with enough
    obtain ⟨fuel, rfl⟩ := Nat.exists_eq_add_one_of_ne_zero (n := fuel) (by omega)
    have hothers := ih hy fuel (by omega)
    simp only [List.append_assoc, List.cons_append]
    exact h.more hx (by omega) hgap (skipSpace_cons (by decide) _) hothers

theorem readsParts_items : ReadsParts readItems? ']' ReadsAs where
  last := by
    intro v text hv fuel gap after rest hfuel hgap hafter
    simp [readItems?, readValue?_spaces_append hgap, hv.reads fuel _ hfuel, hafter]
  more := by
    intro v text hv fuel gap after others vs rest hfuel hgap hafter hothers
    simp [readItems?, readValue?_spaces_append hgap, hv.reads fuel _ hfuel, hafter, hothers]

/-- A text that reads as a field: its name, a colon, blanks and its value. -/
inductive ReadsAsField : List Nat × Json → List Char → Prop
  | intro (name : List Char) {gap text : List Char} {v : Json} (hgap : Spaces gap)
      (h : ReadsAs v text) :
      ReadsAsField (pointsOf name, v) (quote (pointsOf name) ++ ':' :: (gap ++ text))

theorem readsParts_fields : ReadsParts readFields? '}' ReadsAsField where
  last := by
    rintro - - ⟨name, hcolon, hv⟩ fuel gap after rest hfuel hgap hafter
    simp only [List.length_append, List.length_cons] at hfuel
    rw [readFields?, skipSpace_spaces_append hgap, List.append_assoc, skipSpace_quote]
    simp [readString?_quote, skipSpace_cons (c := ':') (by decide), readValue?_spaces_append hcolon,
      hv.reads fuel _ (by omega), hafter]
  more := by
    rintro - - ⟨name, hcolon, hv⟩ fuel gap after others fields rest hfuel hgap hafter hothers
    simp only [List.length_append, List.length_cons] at hfuel
    rw [readFields?, skipSpace_spaces_append hgap, List.append_assoc, skipSpace_quote]
    simp [readString?_quote, skipSpace_cons (c := ':') (by decide), readValue?_spaces_append hcolon,
      hv.reads fuel _ (by omega), hafter, hothers]

-- ---------------------------------------------------------------------------
-- Containers
-- ---------------------------------------------------------------------------

/-- A container with blanks before each part and before the closing mark. -/
def bracket (opening closing : Char) (gap after : List Char) (parts : List (List Char)) :
    List Char :=
  opening :: (gap ++ ((',' :: gap).intercalate parts ++ (after ++ [closing])))

/-- A container reads as what its parts make up, if the reader looks for the closing mark first
and then for parts. -/
theorem readsAs_bracket {α : Type} {readParts? : Nat → List Char → Option (List α × List Char)}
    {opening closing : Char} {Reads : α → List Char → Prop} {build : List α → Json}
    (h : ReadsParts readParts? closing Reads)
    (hopening : opening = '"' ∨ opening = '[' ∨ opening = '{') (hclosing : isSpace closing = false)
    (hfirst : ∀ {x text}, Reads x text → ∃ c cs, text = c :: cs ∧ isSpace c = false ∧ c ≠ closing)
    (hnone : ∀ {fuel cs rest}, skipSpace cs = closing :: rest →
      readValue? (fuel + 1) (opening :: cs) = some (build [], rest))
    (hsome : ∀ {fuel cs c more xs rest}, skipSpace cs = c :: more → c ≠ closing →
      readParts? fuel cs = some (xs, rest) →
      readValue? (fuel + 1) (opening :: cs) = some (build xs, rest))
    {gap after : List Char} (hgap : Spaces gap) (hafter : Spaces after) {xs : List α}
    {texts : List (List Char)} (hxs : List.Forall₂ Reads xs texts) :
    ReadsAs (build xs) (bracket opening closing gap after texts) where
  opens := ⟨_, _, rfl, hopening⟩
  reads := by
    intro fuel rest hfuel
    simp only [bracket, List.length_cons, List.length_append, List.length_nil] at hfuel
    obtain ⟨fuel, rfl⟩ := Nat.exists_eq_add_one_of_ne_zero (n := fuel) (by omega)
    have hend : skipSpace (after ++ closing :: rest) = closing :: rest := by
      rw [skipSpace_spaces_append hafter, skipSpace_cons hclosing]
    simp only [bracket, List.cons_append, List.append_assoc, List.nil_append]
    -- an empty container is the blanks before its closing mark
    cases hxs with
    | nil =>
      refine hnone ?_
      rw [skipSpace_spaces_append hgap]
      exact hend
    | @cons x text xs texts hx hxs =>
      have hfuel : 2 * ((',' :: gap).intercalate (text :: texts)).length < fuel := by omega
      have hreads := h.reads_intercalate hgap hend hx hxs hfuel
      obtain ⟨c, cs, rfl, hc, hne⟩ := hfirst hx
      rw [List.intercalate_cons_cons_left, List.cons_append] at hreads ⊢
      exact hsome ((skipSpace_spaces_append hgap _).trans (skipSpace_cons hc _)) hne hreads

theorem readsAs_array {gap after : List Char} (hgap : Spaces gap) (hafter : Spaces after)
    {vs : List Json} {texts : List (List Char)} (h : List.Forall₂ ReadsAs vs texts) :
    ReadsAs (.array vs) (bracket '[' ']' gap after texts) := by
  refine readsAs_bracket readsParts_items (by decide) (by decide) ?_ ?_ ?_ hgap hafter h
  · intro v text hv
    obtain ⟨c, cs, rfl, rfl | rfl | rfl⟩ := hv.opens <;> exact ⟨_, cs, rfl, by decide, by decide⟩
  · intro fuel cs rest hcs
    simp [readValue?, skipSpace_cons (c := '[') (by decide), hcs]
  · intro fuel cs c more vs rest hcs hne hvs
    simp [readValue?, skipSpace_cons (c := '[') (by decide), hcs, hne, hvs]

theorem readsAs_object {gap after : List Char} (hgap : Spaces gap) (hafter : Spaces after)
    {fields : List (List Nat × Json)} {texts : List (List Char)}
    (h : List.Forall₂ ReadsAsField fields texts) :
    ReadsAs (.object fields) (bracket '{' '}' gap after texts) := by
  refine readsAs_bracket readsParts_fields (by decide) (by decide) ?_ ?_ ?_ hgap hafter h
  · rintro - - ⟨name, hcolon, hv⟩
    exact ⟨_, _, rfl, by decide, by decide⟩
  · intro fuel cs rest hcs
    simp [readValue?, skipSpace_cons (c := '{') (by decide), hcs]
  · intro fuel cs c more fields rest hcs hne hfields
    simp [readValue?, skipSpace_cons (c := '{') (by decide), hcs, hne, hfields]

/-- A text that reads as a value is parsed as it, and blanks may follow. -/
theorem ReadsAs.parse?_append {v : Json} {text : List Char} (h : ReadsAs v text)
    {after : List Char} (hafter : Spaces after) : parse? (text ++ after) = some v := by
  have hrest : skipSpace after = [] := by
    simpa [skipSpace] using skipSpace_spaces_append hafter []
  rw [parse?, h.reads _ _ (by simp; omega)]
  simp [hrest]

-- ---------------------------------------------------------------------------
-- Layouts
-- ---------------------------------------------------------------------------

theorem compactItems_eq_map (vs : List Json) : compactItems vs = vs.map compact := by
  induction vs with
  | nil => rfl
  | cons v vs ih => rw [compactItems, ih, List.map_cons]

theorem indentedItems_eq_map (depth : Nat) (vs : List Json) :
    indentedItems depth vs = vs.map (indented depth) := by
  induction vs with
  | nil => rfl
  | cons v vs ih => rw [indentedItems, ih, List.map_cons]

/-- The indented layout puts line breaks into its containers, and none into empty ones. -/
theorem exists_block_eq_bracket (depth : Nat) (opening closing : Char) (parts : List (List Char)) :
    ∃ gap after, Spaces gap ∧ Spaces after ∧
      block depth opening closing parts = bracket opening closing gap after parts := by
  cases parts with
  | nil => exact ⟨[], [], spaces_nil, spaces_nil, rfl⟩
  | cons part parts =>
    refine ⟨newline (depth + 1), newline depth, spaces_newline _, spaces_newline _, ?_⟩
    simp [block, bracket]

/-- An array of texts reads as one wherever its lines are written as strings. -/
theorem forall₂_readsAs_ofText (write : Json → List Char)
    (hwrite : ∀ points, write (.string points) = quote points) (lines : List String) :
    List.Forall₂ ReadsAs (lines.map ofText) ((lines.map ofText).map write) := by
  rw [List.forall₂_map_right_iff, List.forall₂_same]
  intro v hv
  obtain ⟨line, -, rfl⟩ := List.mem_map.mp hv
  rw [ofText, hwrite]
  exact readsAs_quote line.toList

end Json

namespace CompiledProgram

open Json

/-- A compiled program reads back from its three fields in their order, whatever blanks stand
between them. -/
theorem readsAs_toJson (c : CompiledProgram) {gap after colon lines : List Char} (hgap : Spaces gap)
    (hafter : Spaces after) (hcolon : Spaces colon)
    (hlines : ReadsAs (.array (c.lines.map ofText)) lines) :
    ReadsAs c.toJson (bracket '{' '}' gap after
      [quote (pointsOf "backend".toList) ++ ':' :: (colon ++ quote (pointsOf c.backend.toList)),
       quote (pointsOf "register".toList) ++ ':' :: (colon ++ quote (pointsOf c.register.toList)),
       quote (pointsOf "lines".toList) ++ ':' :: (colon ++ lines)]) := by
  refine readsAs_object hgap hafter (.cons ?_ (.cons ?_ (.cons ?_ .nil)))
  · exact .intro _ hcolon (readsAs_quote _)
  · exact .intro _ hcolon (readsAs_quote _)
  · exact .intro _ hcolon hlines

theorem readsAs_compact (c : CompiledProgram) : ReadsAs c.toJson (compact c.toJson) := by
  have hlines : ReadsAs (.array (c.lines.map ofText)) (compact (.array (c.lines.map ofText))) := by
    have h := forall₂_readsAs_ofText compact (fun _ => by rw [compact]) c.lines
    rw [← compactItems_eq_map] at h
    rw [compact]
    exact readsAs_array spaces_nil spaces_nil h
  have h := c.readsAs_toJson spaces_nil spaces_nil spaces_nil hlines
  simpa [toJson, ofText, compact, compactFields, bracket] using h

theorem readsAs_indented (c : CompiledProgram) : ReadsAs c.toJson (indented 0 c.toJson) := by
  have hlines :
      ReadsAs (.array (c.lines.map ofText)) (indented 1 (.array (c.lines.map ofText))) := by
    have h := forall₂_readsAs_ofText (indented 2) (fun _ => by rw [indented]) c.lines
    rw [← indentedItems_eq_map] at h
    obtain ⟨gap, after, hgap, hafter, hblock⟩ :=
      exists_block_eq_bracket 1 '[' ']' (indentedItems 2 (c.lines.map ofText))
    rw [indented, hblock]
    exact readsAs_array hgap hafter h
  have hcolon : Spaces [' '] := by simp [Spaces, isSpace]
  have h := c.readsAs_toJson (spaces_newline 1) (spaces_newline 0) hcolon hlines
  simpa [toJson, ofText, indented, indentedFields, block, bracket] using h

/-- The JSON value of a compiled program stands for it. -/
theorem ofJson?_toJson (c : CompiledProgram) : ofJson? c.toJson = some c := by
  have hlines : linesOf? (.array (c.lines.map ofText)) = some c.lines := by
    rw [linesOf?, mapM_eq_some_iff, List.forall₂_map_left_iff, List.forall₂_same]
    exact fun line _ => text?_ofText line
  simp [ofJson?, toJson, textOf?_pointsOf, onlyField?, hlines]

/-- A text that reads as the JSON value of a compiled program is read as it, and blanks may
follow. -/
theorem parseJson_of_readsAs {c : CompiledProgram} {text : String}
    (h : ReadsAs c.toJson text.toList) (after : String) (hafter : Spaces after.toList) :
    parseJson (text ++ after) = .ok c := by
  rw [parseJson, String.toList_append, h.parse?_append hafter, Option.bind_some, ofJson?_toJson]

theorem parseJson_compactJson (c : CompiledProgram) : parseJson c.compactJson = .ok c := by
  have h : ReadsAs c.toJson c.compactJson.toList := by
    simpa [compactJson] using c.readsAs_compact
  simpa using parseJson_of_readsAs h "" spaces_nil

theorem parseJson_prettyJson (c : CompiledProgram) :
    parseJson c.prettyJson = .ok c ∧ parseJson (c.prettyJson ++ "\n") = .ok c := by
  have h : ReadsAs c.toJson c.prettyJson.toList := by
    simpa [prettyJson] using c.readsAs_indented
  have hline : Spaces "\n".toList := spaces_newline 0
  exact ⟨by simpa using parseJson_of_readsAs h "" spaces_nil, parseJson_of_readsAs h "\n" hline⟩

end CompiledProgram

end QuantumCompiler
