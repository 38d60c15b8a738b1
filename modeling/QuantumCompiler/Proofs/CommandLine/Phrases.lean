import Mathlib.Data.List.Forall2
import Mathlib.Data.List.TakeWhile
import QuantumCompiler.CommandLine.Arguments
import QuantumCompiler.Proofs.Traversal

/-!
# The arguments of a place, phrase by phrase

The arguments of a place fall into phrases: an operand, an option, or an option and the value
after it. Each phrase gives one item, and reading the place takes the items in their order. What
is left after the phrases is nothing, two dashes with operands, or, before the command, its name.

* `Given.take_eq_ok` — what taking an item does;
* `readPlace_phrases` — how phrases are read, one item after another;
* `phrased_of_readPlace` — arguments that can be read fall into phrases.
-/

namespace QuantumCompiler.CommandLine

-- ---------------------------------------------------------------------------
-- Items and phrases
-- ---------------------------------------------------------------------------

/-- What a phrase gives. -/
inductive Item where
  | option (flag : Flag) (value : String)
  | operand (text : String)

/-- The arguments that spell an item in a place. -/
inductive Phrase (place : Place) : List String → Item → Prop
  | operand {a : String} (hplace : place ≠ .beforeCommand) (h : readArgument place a = .operand) :
      Phrase place [a] (.operand a)
  | attached {a : String} {flag : Flag} {value : String}
      (h : readArgument place a = .option flag (some value)) (htakes : flag.takesValue = true) :
      Phrase place [a] (.option flag value)
  | mark {a : String} {flag : Flag} (h : readArgument place a = .option flag none)
      (htakes : flag.takesValue = false) : Phrase place [a] (.option flag "")
  | separate {a : String} {flag : Flag} {value : String}
      (h : readArgument place a = .option flag none) (htakes : flag.takesValue = true)
      (hvalue : isValue value = true) : Phrase place [a, value] (.option flag value)

/-- Take an item. -/
def Given.take (place : Place) (g : Given) : Item → Except Stop Given
  | .option flag value => if flag.takesValue then g.add flag value else g.mark flag
  | .operand text => g.addOperand place text

/-- What can follow the phrases of a place. -/
inductive Ending (place : Place) : List String → Prop
  | done : Ending place []
  | separator {a : String} (operands : List String) (h : readArgument place a = .separator) :
      Ending place (a :: operands)
  | command {name : String} (rest : List String) (hplace : place = .beforeCommand)
      (h : readArgument place name = .operand) : Ending place (name :: rest)

/-- Arguments that fall into phrases and an ending. -/
def Phrased (place : Place) (arguments : List String) : Prop :=
  ∃ phrases items ending, arguments = phrases.flatten ++ ending ∧
    List.Forall₂ (Phrase place) phrases items ∧ Ending place ending

variable {place : Place} {g g' : Given}

theorem Ending.phrased {ending : List String} (h : Ending place ending) : Phrased place ending :=
  ⟨[], [], ending, rfl, .nil, h⟩

theorem Phrased.append {words arguments : List String} {item : Item}
    (hphrase : Phrase place words item) (h : Phrased place arguments) :
    Phrased place (words ++ arguments) := by
  obtain ⟨phrases, items, ending, rfl, hphrases, hending⟩ := h
  exact ⟨words :: phrases, item :: items, ending, by simp, .cons hphrase hphrases, hending⟩

namespace Given

theorem add_eq_ok {flag : Flag} {value : String} (h : g.add flag value = .ok g') :
    g.has flag = false ∧ g' = { g with options := g.options ++ [(flag, value)] } := by
  unfold add at h
  split_ifs at h with hhas
  cases h
  exact ⟨by simpa using hhas, rfl⟩

theorem mark_eq_ok {flag : Flag} (h : g.mark flag = .ok g') :
    g.has flag = false ∧ g' = { g with options := g.options ++ [(flag, "")] } := by
  cases flag with
  | version | help => cases h
  | _ => exact add_eq_ok h

theorem addOperand_eq_ok {text : String} (h : g.addOperand place text = .ok g') :
    g.operands = [] ∧ g' = { g with operands := [text] } := by
  unfold addOperand at h
  split_ifs at h with hplace
  cases h
  have hnil : g.operands = [] := by simp_all
  exact ⟨hnil, by simp [hnil]⟩

/-- What taking an item does: it adds an option that was not there, or the operand. -/
theorem take_eq_ok {item : Item} (h : g.take place item = .ok g') :
    (∃ flag value given, item = .option flag value ∧ g.has flag = false ∧
        g' = { g with options := g.options ++ [(flag, given)] }) ∨
      ∃ text, item = .operand text ∧ g.operands = [] ∧ g' = { g with operands := [text] } := by
  cases item with
  | operand text => exact .inr ⟨text, rfl, addOperand_eq_ok h⟩
  | option flag value =>
    simp only [take] at h
    split_ifs at h
    · exact .inl ⟨flag, value, value, rfl, add_eq_ok h⟩
    · exact .inl ⟨flag, value, "", rfl, mark_eq_ok h⟩

/-- After two dashes there is one operand at most. -/
theorem operands_of_foldlM {operands : List String} {operand : String}
    (h : ((operand :: operands).map Item.operand).foldlM (take place) g = .ok g') :
    g.operands = [] ∧ operands = [] := by
  simp only [List.map_cons, List.foldlM_cons] at h
  obtain ⟨g₁, hfirst, h⟩ := bind_eq_ok_iff.mp h
  obtain ⟨hnil, rfl⟩ := addOperand_eq_ok hfirst
  refine ⟨hnil, ?_⟩
  cases operands with
  | nil => rfl
  | cons second operands =>
    simp only [List.map_cons, List.foldlM_cons] at h
    obtain ⟨g₂, hsecond, -⟩ := bind_eq_ok_iff.mp h
    cases (addOperand_eq_ok hsecond).1

end Given

/-- One phrase is read by taking its item. -/
theorem readPlace_phrase {words : List String} {item : Item} (h : Phrase place words item)
    (g : Given) (rest : List String) :
    readPlace place g (words ++ rest) =
      (g.take place item >>= fun g => readPlace place g rest) := by
  cases h with
  | operand hplace h =>
    rw [List.singleton_append, readPlace, h]
    simp [hplace, Given.take]
  | attached h htakes =>
    rw [List.singleton_append, readPlace, h]
    simp [htakes, Given.take]
  | mark h htakes =>
    rw [List.singleton_append, readPlace, h]
    simp [htakes, Given.take]
  | separate h htakes hvalue =>
    rw [List.cons_append, List.singleton_append, readPlace, h]
    simp [htakes, hvalue, Given.take]

/-- Phrases are read by taking their items in order. -/
theorem readPlace_phrases {phrases : List (List String)} {items : List Item}
    (h : List.Forall₂ (Phrase place) phrases items) (g : Given) (rest : List String) :
    readPlace place g (phrases.flatten ++ rest) =
      (items.foldlM (Given.take place) g >>= fun g => readPlace place g rest) := by
  induction h generalizing g with
  | nil => rfl
  | cons hphrase _ ih =>
    rw [List.flatten_cons, List.append_assoc, readPlace_phrase hphrase, List.foldlM_cons,
      bind_assoc]
    simp only [ih]

/-- Arguments that can be read fall into phrases and an ending. -/
theorem phrased_of_readPlace {arguments rest : List String}
    (h : readPlace place g arguments = .ok (g', rest)) : Phrased place arguments := by
  fun_induction readPlace place g arguments with
  | case1 => exact Ending.done.phrased
  | case2 _ _ operands hseparator => exact (Ending.separator operands hseparator).phrased
  | case4 _ _ others hoperand hplace =>
    exact (Ending.command others (by simpa using hplace) hoperand).phrased
  | case5 _ _ _ hoperand hplace ih =>
    obtain ⟨g₁, -, hrest⟩ := bind_eq_ok_iff.mp h
    exact .append (.operand (by simpa using hplace) hoperand) (ih g₁ hrest)
  | case6 _ _ _ _ _ hoption htakes ih =>
    obtain ⟨g₁, -, hrest⟩ := bind_eq_ok_iff.mp h
    exact .append (.attached hoption htakes) (ih g₁ hrest)
  | case8 _ _ _ _ hoption htakes ih =>
    obtain ⟨g₁, -, hrest⟩ := bind_eq_ok_iff.mp h
    exact .append (.mark hoption (by simpa using htakes)) (ih g₁ hrest)
  | case10 _ _ _ hoption htakes _ _ hvalue ih =>
    obtain ⟨g₁, -, hrest⟩ := bind_eq_ok_iff.mp h
    exact .append (.separate hoption (by simpa using htakes) hvalue) (ih g₁ hrest)
  | case3 | case7 | case9 | case11 => cases h

/-- The operands after two dashes are taken one after another. -/
theorem readPlace_separator {a : String} (h : readArgument place a = .separator) (g : Given)
    (operands : List String) :
    readPlace place g (a :: operands) =
      ((operands.map Item.operand).foldlM (Given.take place) g >>= fun g => .ok (g, [])) := by
  rw [readPlace, h, List.foldlM_map]
  rfl

/-- Before the command, its name ends the place. -/
theorem readPlace_command {name : String} (h : readArgument .beforeCommand name = .operand)
    (g : Given) (rest : List String) :
    readPlace .beforeCommand g (name :: rest) = .ok (g, name :: rest) := by
  rw [readPlace, h]
  rfl

-- ---------------------------------------------------------------------------
-- Options by name
-- ---------------------------------------------------------------------------

/-- An option by name that has no value attached is its name. -/
theorem eq_name_of_readNamed {body : List Char} {flag : Flag}
    (h : readNamed place body = .option flag none) : body = flag.name.toList := by
  unfold readNamed at h
  cases hfind : place.flags.find? (·.name == String.ofList (body.takeWhile (· != '='))) with
  | none => simp [hfind] at h
  | some found =>
    simp only [hfind, Reading.option.injEq] at h
    obtain ⟨rfl, hvalue⟩ := h
    have hname := List.find?_some hfind
    rw [beq_iff_eq] at hname
    have hdrop : body.dropWhile (· != '=') = [] := by
      split at hvalue
      · cases hvalue
      · assumption
    rw [hname, String.toList_ofList]
    exact (List.takeWhile_eq_self_iff.mpr (List.dropWhile_eq_nil_iff.mp hdrop)).symm

/-- An option without a letter is given by its name. -/
theorem eq_named_of_readArgument {a : String} {flag : Flag} (hletter : flag.letter? = none)
    (h : readArgument place a = .option flag none) : a = "--" ++ flag.name := by
  unfold readArgument at h
  split at h
  · cases h
  · rename_i body _ ha
    rw [← String.toList_inj, ha, eq_name_of_readNamed h]
    simp
  · cases h
  · unfold readLetter at h
    split at h
    · cases h
    · rename_i found hfound
      split_ifs at h
      · cases h
        simpa [hletter] using List.find?_some hfound
      · cases h
  · cases h

end QuantumCompiler.CommandLine
