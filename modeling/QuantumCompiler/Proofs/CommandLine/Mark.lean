import QuantumCompiler.Proofs.CommandLine.Phrases

/-!
# The mark that asks for JSON

Among the arguments of `compile` one phrase asks for JSON, and it is a single argument, the mark.
What else is given does not depend on it: reading commutes with forgetting that JSON was asked
for. So the mark can be left out where it stands and put in where it is missing.

* `readPlace_forget` — phrases that do not ask for JSON are read alike with and without the
  request for it;
* `readPlace_unmarked`, `readPlace_marked` — the mark left out and put in;
* `readPlace_marked_unmarked` — two readings that differ in the mark.
-/

namespace QuantumCompiler.CommandLine

variable {place : Place} {g g' : Given}

/-- The argument that asks for JSON. -/
def jsonMark : String := "--json"

/-- Whether an item asks for JSON. -/
def Item.asksJson : Item → Bool
  | .option .json _ => true
  | _ => false

/-- An item that asks for JSON is that option. -/
theorem Item.asksJson_iff {item : Item} :
    item.asksJson = true ↔ ∃ value, item = .option .json value := by
  constructor
  · intro h
    unfold Item.asksJson at h
    split at h
    · exact ⟨_, rfl⟩
    · cases h
  · rintro ⟨value, rfl⟩
    rfl

/-- Only one argument asks for JSON. -/
theorem eq_jsonMark_of_phrase {words : List String} {item : Item} (h : Phrase place words item)
    (hitem : item.asksJson = true) : words = [jsonMark] := by
  obtain ⟨value, rfl⟩ := Item.asksJson_iff.mp hitem
  cases h with
  | attached _ htakes => cases htakes
  | mark h _ => rw [eq_named_of_readArgument rfl h]; rfl
  | separate _ htakes _ => cases htakes

/-- Forget that JSON was asked for. -/
def Given.forget (g : Given) : Given :=
  { g with options := g.options.filter (·.1 != .json) }

namespace Given

@[simp]
theorem operands_forget (g : Given) : g.forget.operands = g.operands := rfl

@[simp]
theorem has_json_forget (g : Given) : g.forget.has .json = false := by
  simp [has, forget]

theorem has_forget {flag : Flag} (hflag : flag ≠ .json) (g : Given) :
    g.forget.has flag = g.has flag := by
  rw [Bool.eq_iff_iff]
  simp only [has, forget, List.any_eq_true, List.mem_filter, beq_iff_eq, bne_iff_ne]
  constructor
  · rintro ⟨o, ⟨ho, -⟩, rfl⟩
    exact ⟨o, ho, rfl⟩
  · rintro ⟨o, ho, rfl⟩
    exact ⟨o, ⟨ho, hflag⟩, rfl⟩

theorem value?_forget {flag : Flag} (hflag : flag ≠ .json) (g : Given) :
    g.forget.value? flag = g.value? flag := by
  simp only [value?, forget]
  induction g.options with
  | nil => rfl
  | cons o options ih =>
    by_cases ho : o.1 = .json
    · have hne : (flag == o.1) = false := by simpa [ho] using hflag
      rw [List.filter_cons_of_neg (by simp [ho]), ih, List.lookup_cons, hne]
    · rw [List.filter_cons_of_pos (by simp [ho]), List.lookup_cons, List.lookup_cons, ih]

theorem forget_of_not_has (h : g.has .json = false) : g.forget = g := by
  simp only [has, List.any_eq_false, beq_iff_eq] at h
  have hoptions : g.options.filter (·.1 != .json) = g.options :=
    List.filter_eq_self.mpr fun o ho => by simpa using h o ho
  simp [forget, hoptions]

theorem add_forget {flag : Flag} (hflag : flag ≠ .json) (g : Given) (value : String) :
    g.forget.add flag value = (g.add flag value).map forget := by
  simp only [add, has_forget hflag]
  split_ifs
  · rfl
  · rfl
  · simp [Except.map, forget, hflag]

theorem mark_forget {flag : Flag} (hflag : flag ≠ .json) (g : Given) :
    g.forget.mark flag = (g.mark flag).map forget := by
  cases flag with
  | version | help => rfl
  | json => exact absurd rfl hflag
  | _ => exact add_forget hflag g ""

theorem addOperand_forget (g : Given) (text : String) :
    g.forget.addOperand place text = (g.addOperand place text).map forget := by
  simp only [addOperand, apply_ite (Except.map forget)]
  rfl

/-- An item that does not ask for JSON is taken alike whether or not JSON was asked for. -/
theorem take_forget {item : Item} (hitem : item.asksJson = false) (g : Given) :
    g.forget.take place item = (g.take place item).map forget := by
  cases item with
  | operand text => exact addOperand_forget g text
  | option flag value =>
    have hflag : flag ≠ .json := by
      rintro rfl
      cases hitem
    simp only [take]
    split_ifs
    · exact add_forget hflag g value
    · exact mark_forget hflag g

theorem foldlM_take_forget {items : List Item} (hitems : ∀ i ∈ items, i.asksJson = false)
    (g : Given) :
    items.foldlM (take place) g.forget = (items.foldlM (take place) g).map forget := by
  induction items generalizing g with
  | nil => rfl
  | cons item items ih =>
    obtain ⟨hitem, hitems⟩ := List.forall_mem_cons.mp hitems
    rw [List.foldlM_cons, List.foldlM_cons, take_forget hitem]
    cases g.take place item with
    | error stop => rfl
    | ok g₁ => exact ih hitems g₁

theorem has_json_of_take {item : Item} (h : g.take place item = .ok g') :
    g'.has .json = (g.has .json || item.asksJson) ∧
      (g.has .json = true → item.asksJson = false) := by
  obtain ⟨flag, value, given, rfl, hnew, rfl⟩ | ⟨text, rfl, -, rfl⟩ := take_eq_ok h
  · cases flag with
    | json => exact ⟨by simp [has, Item.asksJson], fun hhas => absurd hhas (by simp [hnew])⟩
    | _ => simp [has, Item.asksJson]
  · simp [has, Item.asksJson]

/-- JSON was asked for in the end if it was before or an item asks for it, and not twice. -/
theorem has_json_of_foldlM {items : List Item} (h : items.foldlM (take place) g = .ok g') :
    g'.has .json = (g.has .json || items.any Item.asksJson) ∧
      (g.has .json = true → ∀ i ∈ items, i.asksJson = false) := by
  induction items generalizing g with
  | nil =>
    cases h
    simp
  | cons item items ih =>
    rw [List.foldlM_cons] at h
    obtain ⟨g₁, hitem, hitems⟩ := bind_eq_ok_iff.mp h
    obtain ⟨hfirst, honce⟩ := has_json_of_take hitem
    obtain ⟨hlater, hothers⟩ := ih hitems
    refine ⟨by rw [hlater, hfirst, List.any_cons, Bool.or_assoc], fun hg => ?_⟩
    exact List.forall_mem_cons.mpr ⟨honce hg, hothers (by rw [hfirst, hg, Bool.true_or])⟩

end Given

/-- Arguments that do not ask for JSON are read alike whether or not it was asked for before. -/
theorem readPlace_forget {phrases : List (List String)} {items : List Item} {ending : List String}
    (h : List.Forall₂ (Phrase place) phrases items) (hitems : ∀ i ∈ items, i.asksJson = false)
    (hending : Ending place ending) (g : Given) :
    readPlace place g.forget (phrases.flatten ++ ending) =
      (readPlace place g (phrases.flatten ++ ending)).map fun (g, rest) => (g.forget, rest) := by
  rw [readPlace_phrases h, readPlace_phrases h, Given.foldlM_take_forget hitems]
  cases items.foldlM (Given.take place) g with
  | error stop => rfl
  | ok g₁ =>
    show readPlace place g₁.forget ending = (readPlace place g₁ ending).map _
    cases hending with
    | done => rfl
    | separator operands hseparator =>
      rw [readPlace_separator hseparator, readPlace_separator hseparator,
        Given.foldlM_take_forget (by simp [Item.asksJson])]
      cases (operands.map Item.operand).foldlM (Given.take place) g₁ <;> rfl
    | command rest hplace hoperand =>
      subst hplace
      rw [readPlace_command hoperand, readPlace_command hoperand]
      rfl

-- ---------------------------------------------------------------------------
-- Leaving the mark out and putting it in
-- ---------------------------------------------------------------------------

/-- What follows the phrases of a place does not ask for JSON. -/
theorem has_json_of_ending {ending rest : List String} (hending : Ending place ending)
    (h : readPlace place g ending = .ok (g', rest)) : g'.has .json = g.has .json := by
  cases hending with
  | done =>
    cases h
    rfl
  | separator operands hseparator =>
    rw [readPlace_separator hseparator] at h
    obtain ⟨g₁, hoperands, ⟨⟩⟩ := bind_eq_ok_iff.mp h
    have hnone : (operands.map Item.operand).any Item.asksJson = false := by simp [Item.asksJson]
    simpa only [hnone, Bool.or_false] using (Given.has_json_of_foldlM hoperands).1
  | command others hplace hoperand =>
    subst hplace
    rw [readPlace_command hoperand] at h
    cases h
    rfl

/-- Whether JSON was asked for in a place, by its phrases. -/
theorem has_json_of_readPlace {phrases : List (List String)} {items : List Item}
    {ending rest : List String} (hphrases : List.Forall₂ (Phrase place) phrases items)
    (hending : Ending place ending)
    (h : readPlace place g (phrases.flatten ++ ending) = .ok (g', rest)) :
    g'.has .json = (g.has .json || items.any Item.asksJson) ∧
      (g.has .json = true → ∀ i ∈ items, i.asksJson = false) := by
  rw [readPlace_phrases hphrases] at h
  obtain ⟨g₁, hitems, hrest⟩ := bind_eq_ok_iff.mp h
  rw [has_json_of_ending hending hrest]
  exact Given.has_json_of_foldlM hitems

theorem phrase_jsonMark : Phrase .afterCompile [jsonMark] (.option .json "") :=
  .mark (by decide) rfl

/-- Asking for JSON adds the option, and forgetting takes it away. -/
theorem Given.exists_mark_json (h : g.has .json = false) :
    ∃ g', g.take .afterCompile (.option .json "") = .ok g' ∧ g'.has .json = true ∧
      g'.forget = g := by
  refine ⟨{ g with options := g.options ++ [(.json, "")] }, ?_, by simp [has], ?_⟩
  · simp [take, Flag.takesValue, mark, add, h, Flag.takesPath]
  · nth_rewrite 3 [← forget_of_not_has h]
    simp [forget]

/-- The mark can be left out: what is given is the same but for the request for JSON. -/
theorem readPlace_unmarked {phrases : List (List String)} {items : List Item}
    {others rest : List String} (hphrases : List.Forall₂ (Phrase .afterCompile) phrases items)
    (h : readPlace .afterCompile {} (phrases.flatten ++ jsonMark :: others) = .ok (g', rest)) :
    g'.has .json = true ∧
      readPlace .afterCompile {} (phrases.flatten ++ others) = .ok (g'.forget, rest) := by
  rw [readPlace_phrases hphrases] at h ⊢
  obtain ⟨g, hitems, h⟩ := bind_eq_ok_iff.mp h
  rw [← List.singleton_append, readPlace_phrase phrase_jsonMark] at h
  obtain ⟨g₁, hmark, h⟩ := bind_eq_ok_iff.mp h
  have hg : g.has .json = false := by
    obtain ⟨-, honce⟩ := Given.has_json_of_take hmark
    by_contra hhas
    cases honce (by simpa using hhas)
  obtain ⟨g₂, hmark₂, hg₂, hforget⟩ := Given.exists_mark_json hg
  obtain rfl : g₁ = g₂ := Except.ok.inj (hmark.symm.trans hmark₂)
  obtain ⟨phrases', items', ending, rfl, hphrases', hending⟩ := phrased_of_readPlace h
  obtain ⟨hhas, honce⟩ := has_json_of_readPlace hphrases' hending h
  refine ⟨by rw [hhas, hg₂, Bool.true_or], ?_⟩
  have hplain := readPlace_forget hphrases' (honce hg₂) hending g₁
  rw [hforget, h] at hplain
  rw [hitems]
  exact hplain

/-- The mark can be put in front of arguments that do not ask for JSON. -/
theorem readPlace_marked {arguments rest : List String}
    (h : readPlace .afterCompile {} arguments = .ok (g, rest)) (hg : g.has .json = false) :
    ∃ g', readPlace .afterCompile {} (jsonMark :: arguments) = .ok (g', rest) := by
  obtain ⟨phrases, items, ending, rfl, hphrases, hending⟩ := phrased_of_readPlace h
  have hitems : ∀ i ∈ items, i.asksJson = false := by
    have hhas := (has_json_of_readPlace hphrases hending h).1
    rw [hg, eq_comm, Bool.or_eq_false_iff] at hhas
    simpa using hhas.2
  obtain ⟨g₁, hmark, -, hforget⟩ := Given.exists_mark_json (g := {}) rfl
  rw [← List.singleton_append, readPlace_phrase phrase_jsonMark, hmark]
  have hmarked := readPlace_forget hphrases hitems hending g₁
  rw [hforget, h] at hmarked
  cases hrest : readPlace .afterCompile g₁ (phrases.flatten ++ ending) with
  | error stop => simp [hrest, Except.map] at hmarked
  | ok found =>
    obtain ⟨g', rest'⟩ := found
    rw [hrest] at hmarked
    cases hmarked
    exact ⟨g', hrest⟩

/-- Where JSON was asked for, the mark stands between phrases. -/
theorem exists_jsonMark {phrases : List (List String)} {items : List Item}
    (h : List.Forall₂ (Phrase place) phrases items) (hitems : items.any Item.asksJson = true)
    (ending : List String) :
    ∃ before items' after, List.Forall₂ (Phrase place) before items' ∧
      phrases.flatten ++ ending = before.flatten ++ jsonMark :: after := by
  induction h with
  | nil => cases hitems
  | @cons words item phrases items hphrase _ ih =>
    cases hitem : item.asksJson with
    | true =>
      rw [eq_jsonMark_of_phrase hphrase hitem]
      exact ⟨[], [], _, .nil, rfl⟩
    | false =>
      obtain ⟨before, items', after, hbefore, heq⟩ := ih (by simpa [hitem] using hitems)
      refine ⟨words :: before, item :: items', after, .cons hphrase hbefore, ?_⟩
      rw [List.flatten_cons, List.append_assoc, heq, List.flatten_cons, List.append_assoc]

/-- The mark is no value of an option; so it comes after a phrase that starts before it. -/
theorem Phrase.before_jsonMark {words : List String} {item : Item} (h : Phrase place words item)
    {rest before after : List String} (hbefore : before ≠ [])
    (heq : words ++ rest = before ++ jsonMark :: after) :
    ∃ others, before = words ++ others ∧ rest = others ++ jsonMark :: after := by
  obtain ⟨b, before, rfl⟩ := List.exists_cons_of_ne_nil hbefore
  cases h with
  | operand | attached | mark =>
    simp only [List.cons_append, List.nil_append, List.cons.injEq] at heq
    obtain ⟨rfl, rfl⟩ := heq
    exact ⟨before, rfl, rfl⟩
  | separate _ _ hvalue =>
    simp only [List.cons_append, List.nil_append, List.cons.injEq] at heq
    obtain ⟨rfl, heq⟩ := heq
    cases before with
    | nil =>
      obtain ⟨rfl, -⟩ := List.cons.inj heq
      cases hvalue
    | cons v before =>
      obtain ⟨rfl, rfl⟩ := List.cons.inj heq
      exact ⟨before, rfl, rfl⟩

/-- The mark stands between phrases or after them. -/
theorem jsonMark_between {phrases : List (List String)} {items : List Item}
    (h : List.Forall₂ (Phrase place) phrases items) {ending before after : List String}
    (heq : phrases.flatten ++ ending = before ++ jsonMark :: after) :
    (∃ phrases' items', List.Forall₂ (Phrase place) phrases' items' ∧ before = phrases'.flatten) ∨
      ∃ others, before = phrases.flatten ++ others ∧ ending = others ++ jsonMark :: after := by
  induction h generalizing before with
  | nil => exact .inr ⟨before, rfl, heq⟩
  | @cons words item phrases items hphrase _ ih =>
    by_cases hbefore : before = []
    · exact .inl ⟨[], [], .nil, hbefore⟩
    · rw [List.flatten_cons, List.append_assoc] at heq
      obtain ⟨others, rfl, hrest⟩ := hphrase.before_jsonMark hbefore heq
      obtain ⟨phrases', items', h', rfl⟩ | ⟨others', rfl, rfl⟩ := ih hrest
      · exact .inl ⟨words :: phrases', item :: items', .cons hphrase h', rfl⟩
      · exact .inr ⟨others', by simp, rfl⟩

/-- After two dashes the mark is an operand, the only one; so without it there is none. -/
theorem operands_of_jsonMark_ending {others after rest rest' : List String} {g₁ g₂ : Given}
    (hending : Ending .afterCompile (others ++ jsonMark :: after))
    (hmarked : readPlace .afterCompile g (others ++ jsonMark :: after) = .ok (g₁, rest))
    (hplain : readPlace .afterCompile g (others ++ after) = .ok (g₂, rest')) :
    g₂.operands = [] := by
  generalize heq : others ++ jsonMark :: after = ending at hending
  cases hending with
  | done => simp at heq
  | command _ hplace _ => cases hplace
  | @separator a operands hseparator =>
    cases others with
    | nil =>
      obtain ⟨rfl, -⟩ := List.cons.inj heq
      exact absurd hseparator (by decide)
    | cons b others =>
      obtain ⟨rfl, rfl⟩ := List.cons.inj heq
      rw [List.cons_append, readPlace_separator hseparator] at hmarked hplain
      obtain ⟨_, hoperands, -⟩ := bind_eq_ok_iff.mp hmarked
      obtain ⟨_, hothers, ⟨⟩⟩ := bind_eq_ok_iff.mp hplain
      cases others with
      | nil =>
        obtain ⟨hnil, rfl⟩ := Given.operands_of_foldlM hoperands
        cases hothers
        exact hnil
      | cons o others => simpa using (Given.operands_of_foldlM hoperands).2

/-- If arguments can be read with the mark and without it, and name a file without it, the mark
asks for JSON and changes nothing else. -/
theorem readPlace_marked_unmarked {before after rest rest' : List String}
    (hmarked : readPlace .afterCompile {} (before ++ jsonMark :: after) = .ok (g', rest))
    (hplain : readPlace .afterCompile {} (before ++ after) = .ok (g, rest'))
    (hfile : g.operands ≠ []) : g'.has .json = true ∧ g = g'.forget := by
  obtain ⟨phrases, items, ending, heq, hphrases, hending⟩ := phrased_of_readPlace hmarked
  obtain ⟨phrases', items', hphrases', rfl⟩ | ⟨others, rfl, rfl⟩ :=
    jsonMark_between hphrases heq.symm
  · obtain ⟨hhas, hforget⟩ := readPlace_unmarked hphrases' hmarked
    rw [hplain] at hforget
    cases hforget
    exact ⟨hhas, rfl⟩
  · -- both readings come to the ending alike, and there the mark would be the file
    rw [List.append_assoc, readPlace_phrases hphrases] at hmarked hplain
    obtain ⟨g₀, hitems, hmarked⟩ := bind_eq_ok_iff.mp hmarked
    rw [hitems] at hplain
    exact absurd (operands_of_jsonMark_ending hending hmarked hplain) hfile

end QuantumCompiler.CommandLine
