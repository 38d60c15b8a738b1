import QuantumCompiler.Proofs.Program.Concat
import QuantumCompiler.Proofs.Program.Grammar

/-!
# The names that a source looks up

A registry decides what the names of a source mean, and nothing else about it. The reader asks
for a name only after it has taken a line apart, and it goes no further than the first line that
is refused. So the names that matter are those on the lines that it comes to (`namesRead`), which
are among the names on all lines (`namesIn`). Two registries that bind them alike give the same
program or the same fault.

A source that was read has asked for all its names and was answered each time. A registry that
binds more names, and the old ones as before, therefore reads it in the same way.

* `splitLine_name` — a name is the longest part of a line before a blank or a parenthesis;
* `parse_congr` — registries that agree on the names that are read;
* `exists_factory_of_parse` — the names of a source that was read are bound;
* `parse_extends` — more names leave the meaning of programs alone.
-/

namespace QuantumCompiler

open QuantumCompiler.Text

-- ---------------------------------------------------------------------------
-- The name of a line
-- ---------------------------------------------------------------------------

/-- A character that ends the name of a line. -/
def endsName (c : Char) : Bool :=
  isBlank c || c == '('

theorem endsName_eq_false_iff {c : Char} : endsName c = false ↔ isBlank c = false ∧ c ≠ '(' := by
  simp [endsName]

theorem plainHead_name {line name rest : List Char} {params : List Float}
    (h : plainHead line = (name, params, rest)) :
    name <+: line ∧ ∀ c ∈ name, isBlank c = false := by
  unfold plainHead at h
  split at h
  · rename_i name' rest' hcut
    obtain ⟨b, -, hfree, hline⟩ := cutAt?_eq_some_iff.mp hcut
    simp only [Prod.mk.injEq] at h
    obtain ⟨rfl, -, -⟩ := h
    exact ⟨⟨b :: rest', hline.symm⟩, hfree⟩
  · rename_i hcut
    simp only [Prod.mk.injEq] at h
    obtain ⟨rfl, -, -⟩ := h
    exact ⟨⟨[], List.append_nil line⟩, cutAt?_eq_none_iff.mp hcut⟩

/-- Whether or not a list follows it, a name holds neither blanks nor parentheses. -/
theorem endsName_of_splitHead {line name rest : List Char} {params : List Float}
    (h : splitHead line = .ok (name, params, rest)) : ∀ c ∈ name, endsName c = false := by
  simp only [endsName_eq_false_iff]
  unfold splitHead at h
  split at h
  · -- no parenthesis in the whole line
    rename_i hopen
    obtain ⟨⟨tail, rfl⟩, hblank⟩ := plainHead_name (Except.ok.inj h)
    intro c hc
    have hparen := cutAt?_eq_none_iff.mp hopen c (List.mem_append_left tail hc)
    exact ⟨hblank c hc, by simpa using hparen⟩
  · rename_i before rest' hopen
    obtain ⟨d, -, hparen, hline⟩ := cutAt?_eq_some_iff.mp hopen
    split at h
    · -- a blank before the first parenthesis, so the name ends before that as well
      rename_i hany
      obtain ⟨b, hb, hbblank⟩ := List.any_eq_true.mp hany
      obtain ⟨hname, hblank⟩ := plainHead_name (Except.ok.inj h)
      have hbefore : before <+: line := ⟨_, hline.symm⟩
      have hshorter : name <+: before := by
        refine (List.prefix_or_prefix_of_prefix hname hbefore).resolve_right ?_
        intro hlonger
        rw [hblank b (hlonger.subset hb)] at hbblank
        cases hbblank
      intro c hc
      exact ⟨hblank c hc, by simpa using hparen c (hshorter.subset hc)⟩
    · rename_i hany
      split at h
      · cases h
      · obtain ⟨params', -, h⟩ := bind_eq_ok_iff.mp h
        have heq := Except.ok.inj h
        simp only [Prod.mk.injEq] at heq
        obtain ⟨rfl, -, -⟩ := heq
        intro c hc
        have hblank : isBlank c = false := by
          by_contra hb
          exact hany (List.any_eq_true.mpr ⟨c, hc, by simpa using hb⟩)
        exact ⟨hblank, by simpa using hparen c hc⟩

/-- The name of a line that can be taken apart is not empty and goes on up to the first blank
or parenthesis. -/
theorem splitLine_name {line : List Char} {parts : LineParts} (h : splitLine line = .ok parts) :
    parts.name ≠ [] ∧ parts.name = line.takeWhile fun c => !endsName c := by
  unfold splitLine at h
  obtain ⟨⟨name, params, rest⟩, hhead, h⟩ := bind_eq_ok_iff.mp h
  dsimp only at h
  split at h
  · cases h
  · rename_i hne
    obtain rfl := Except.ok.inj h
    refine ⟨by simpa using hne, ?_⟩
    have hfree : ∀ c ∈ name, (!endsName c) = true := by
      intro c hc
      rw [endsName_of_splitHead hhead c hc, Bool.not_false]
    -- what follows the name starts with a blank or a parenthesis, if there is anything
    have hends : ∃ tail, line = name ++ tail ∧ tail.takeWhile (fun c => !endsName c) = [] := by
      rcases splitHead_eq_ok hhead with ⟨-, tail, hline, hbreak, -⟩ | ⟨list, hline, -, -⟩
      · refine ⟨tail, hline, ?_⟩
        cases tail with
        | nil => rfl
        | cons c tail =>
          rw [List.takeWhile_cons_of_neg]
          simp [endsName, hbreak c rfl]
      · exact ⟨_, hline, List.takeWhile_cons_of_neg (by decide)⟩
    obtain ⟨tail, rfl, htail⟩ := hends
    rw [List.takeWhile_append_of_pos hfree, htail, List.append_nil]

-- ---------------------------------------------------------------------------
-- The names of a source
-- ---------------------------------------------------------------------------

/-- The name on a line of source, if the line is not skipped and can be taken apart. -/
def lineName? (line : List Char) : Option String :=
  if isSkipped (trim line) then none
  else (splitLine (trim line)).toOption.map fun parts => String.ofList parts.name

/-- The names on the lines of a source, in order. -/
def namesIn (source : String) : List String :=
  (lines source.toList).filterMap lineName?

/-- A line that is not refused. -/
def isRead (registry : InstructionRegistry) (register line : List Char) : Bool :=
  isSkipped (trim line) || (readInstruction registry register (trim line)).isOk

/-- The lines that reading comes to: those up to the first that is refused. -/
def reached (registry : InstructionRegistry) (register : List Char) :
    List (List Char) → List (List Char)
  | [] => []
  | line :: ls =>
    if isRead registry register line then line :: reached registry register ls else [line]

/-- The names on the lines that reading comes to. -/
def namesRead (registry : InstructionRegistry) (register source : String) : List String :=
  (reached registry register.toList (lines source.toList)).filterMap lineName?

theorem lineName?_eq_some_iff {line : List Char} {name : String} :
    lineName? line = some name ↔
      isSkipped (trim line) = false ∧
        ∃ parts, splitLine (trim line) = .ok parts ∧ String.ofList parts.name = name := by
  unfold lineName?
  cases isSkipped (trim line) with
  | true => simp
  | false => cases splitLine (trim line) <;> simp [Except.toOption]

theorem name_of_mem_namesIn {source name : String} (h : name ∈ namesIn source) :
    name ≠ "" ∧ ∀ c ∈ name.toList, isBlank c = false ∧ c ≠ '(' := by
  obtain ⟨line, -, hline⟩ := List.mem_filterMap.mp h
  obtain ⟨-, parts, hparts, rfl⟩ := lineName?_eq_some_iff.mp hline
  obtain ⟨hne, hname⟩ := splitLine_name hparts
  refine ⟨by simpa using hne, ?_⟩
  rw [String.toList_ofList, hname]
  intro c hc
  exact endsName_eq_false_iff.mp (by simpa using List.mem_takeWhile_imp hc)

theorem reached_sublist (registry : InstructionRegistry) (register : List Char)
    (ls : List (List Char)) : (reached registry register ls).Sublist ls := by
  induction ls with
  | nil => exact List.Sublist.refl []
  | cons line ls ih =>
    rw [reached]
    split
    · exact ih.cons_cons line
    · exact List.singleton_sublist.mpr List.mem_cons_self

theorem namesRead_subset (registry : InstructionRegistry) (register source : String) :
    namesRead registry register source ⊆ namesIn source :=
  ((reached_sublist registry register.toList (lines source.toList)).filterMap lineName?).subset

-- ---------------------------------------------------------------------------
-- Two registries
-- ---------------------------------------------------------------------------

section Registries

variable {registry registry' : InstructionRegistry} {register : List Char}

/-- The registry is asked once, for the name of the line. -/
theorem readInstruction_of_splitLine {line : List Char} {parts : LineParts}
    (h : splitLine line = .ok parts) :
    readInstruction registry register line =
      parts.operands.mapM (readOperand register) >>= fun bits =>
        (registry.createWithParams (String.ofList parts.name) bits parts.params).mapError
          LineFault.instruction := by
  unfold readInstruction
  rw [h]
  show parts.operands.mapM (readOperand register) >>= _ = _
  refine bind_congr fun bits => ?_
  cases registry.createWithParams (String.ofList parts.name) bits parts.params <;> rfl

theorem createWithParams_congr {name : String}
    (h : registry.factories.get? name = registry'.factories.get? name) (bits : List Nat)
    (params : List Float) :
    registry.createWithParams name bits params = registry'.createWithParams name bits params := by
  rw [InstructionRegistry.createWithParams, InstructionRegistry.createWithParams, h]

theorem readLine_congr {line : List Char}
    (h : ∀ name, lineName? line = some name →
      registry.factories.get? name = registry'.factories.get? name) (n : Nat) :
    readLine registry register (line, n) = readLine registry' register (line, n) := by
  cases hskip : isSkipped (trim line) with
  | true => rw [readLine_of_skipped hskip, readLine_of_skipped hskip]
  | false =>
    have hread : readInstruction registry register (trim line) =
        readInstruction registry' register (trim line) := by
      cases hparts : splitLine (trim line) with
      | error fault =>
        unfold readInstruction
        rw [hparts]
        rfl
      | ok parts =>
        have hname := h _ (lineName?_eq_some_iff.mpr ⟨hskip, parts, hparts, rfl⟩)
        rw [readInstruction_of_splitLine hparts, readInstruction_of_splitLine hparts]
        simp only [createWithParams_congr hname]
    rw [readLine_of_not_skipped hskip, readLine_of_not_skipped hskip, hread]

theorem exists_readLine_eq_error {line : List Char} (h : isRead registry register line = false)
    (n : Nat) : ∃ fault, readLine registry register (line, n) = .error fault := by
  obtain ⟨hskip, hread⟩ := Bool.or_eq_false_iff.mp h
  rw [readLine_of_not_skipped hskip]
  cases hresult : readInstruction registry register (trim line) with
  | error fault => exact ⟨_, rfl⟩
  | ok i =>
    rw [hresult] at hread
    cases hread

/-- Lines after the first that is refused are not looked at, so they may be read differently. -/
theorem instructionsFrom_of_reached {ls : List (List Char)}
    (h : ∀ line ∈ reached registry register ls, ∀ n,
      readLine registry register (line, n) = readLine registry' register (line, n)) (n : Nat) :
    instructionsFrom registry register n ls = instructionsFrom registry' register n ls := by
  induction ls generalizing n with
  | nil => rfl
  | cons line ls ih =>
    rw [reached] at h
    rw [instructionsFrom_cons, instructionsFrom_cons]
    cases hread : isRead registry register line with
    | true =>
      rw [hread, if_pos rfl, List.forall_mem_cons] at h
      rw [h.1 n, ih h.2]
    | false =>
      rw [hread, if_neg Bool.false_ne_true, List.forall_mem_singleton] at h
      obtain ⟨fault, hfault⟩ := exists_readLine_eq_error hread n
      rw [← h n, hfault]
      rfl

/-- Registries that agree on the names that are read give the same result. -/
theorem parse_congr {register source : String}
    (h : ∀ name ∈ namesRead registry register source,
      registry.factories.get? name = registry'.factories.get? name) :
    Program.parse registry register source = Program.parse registry' register source := by
  have hlines : instructionsFrom registry register.toList 1 (lines source.toList) =
      instructionsFrom registry' register.toList 1 (lines source.toList) := by
    apply instructionsFrom_of_reached
    intro line hline
    exact readLine_congr fun name hname => h name (List.mem_filterMap.mpr ⟨line, hline, hname⟩)
  rw [parse_eq, parse_eq, ← instructionsFrom_lines, hlines, instructionsFrom_lines]

theorem exists_readLine_of_instructionsFrom {n : Nat} {ls : List (List Char)}
    {is : List Instruction} (h : instructionsFrom registry register n ls = .ok is)
    {line : List Char} (hline : line ∈ ls) :
    ∃ m found, readLine registry register (line, m) = .ok found := by
  induction ls generalizing n is with
  | nil => cases hline
  | cons first ls ih =>
    rw [instructionsFrom_cons] at h
    obtain ⟨found, hfound, h⟩ := bind_eq_ok_iff.mp h
    rcases List.mem_cons.mp hline with rfl | hline
    · exact ⟨n, found, hfound⟩
    · cases hrest : instructionsFrom registry register (n + 1) ls with
      | error fault =>
        rw [hrest] at h
        cases h
      | ok is' => exact ih hrest hline

/-- A line that was read had its name answered. -/
theorem exists_factory_of_readLine {line : List Char} {n : Nat} {found : Option Instruction}
    (h : readLine registry register (line, n) = .ok found) {name : String}
    (hname : lineName? line = some name) :
    ∃ factory, registry.factories.get? name = some factory := by
  obtain ⟨hskip, parts, hparts, rfl⟩ := lineName?_eq_some_iff.mp hname
  cases hget : registry.factories.get? (String.ofList parts.name) with
  | some factory => exact ⟨factory, rfl⟩
  | none =>
    have hunknown : ∀ bits, registry.createWithParams (String.ofList parts.name) bits parts.params =
        .error (.unknown (String.ofList parts.name)) := by
      intro bits
      rw [InstructionRegistry.createWithParams, hget]
    rw [readLine_of_not_skipped hskip, readInstruction_of_splitLine hparts] at h
    simp only [hunknown] at h
    cases hbits : parts.operands.mapM (readOperand register) with
    | error fault =>
      rw [hbits] at h
      cases h
    | ok bits =>
      rw [hbits] at h
      cases h

/-- The names of a source that was read are bound. -/
theorem exists_factory_of_parse {register source : String} {p : Program}
    (h : Program.parse registry register source = .ok p) {name : String}
    (hname : name ∈ namesIn source) : ∃ factory, registry.factories.get? name = some factory := by
  obtain ⟨line, hline, hname⟩ := List.mem_filterMap.mp hname
  rw [parse_of_valid (valid_of_parse h), ← instructionsFrom_lines] at h
  cases his : instructionsFrom registry register.toList 1 (lines source.toList) with
  | error fault =>
    rw [his] at h
    cases h
  | ok is =>
    obtain ⟨n, found, hread⟩ := exists_readLine_of_instructionsFrom his hline
    exact exists_factory_of_readLine hread hname

end Registries

/-- **More names leave the meaning of programs alone.** A program that is read with one registry
is read as the same program with any registry that binds at least the same names to the same
factories. The result of reading, be it a program or a fault, depends on what the registry binds
the names on the lines to, up to the first line that is refused, and on no other name. Each name
on a line is a run of characters without blanks and opening parentheses, and not the empty one. -/
theorem parse_extends (registry registry' : InstructionRegistry) (register source : String) :
    ((∀ name factory, registry.factories.get? name = some factory →
        registry'.factories.get? name = some factory) →
      ∀ p, Program.parse registry register source = .ok p →
        Program.parse registry' register source = .ok p) ∧
    ((∀ name ∈ namesRead registry register source,
        registry.factories.get? name = registry'.factories.get? name) →
      Program.parse registry register source = Program.parse registry' register source) ∧
    namesRead registry register source ⊆ namesIn source ∧
    ∀ name ∈ namesIn source, name ≠ "" ∧ ∀ c ∈ name.toList, isBlank c = false ∧ c ≠ '(' := by
  refine ⟨?_, parse_congr, namesRead_subset registry register source,
    fun name => name_of_mem_namesIn⟩
  intro hextends p hp
  have hagree : ∀ name ∈ namesRead registry register source,
      registry.factories.get? name = registry'.factories.get? name := by
    intro name hname
    obtain ⟨factory, hfactory⟩ :=
      exists_factory_of_parse hp (namesRead_subset registry register source hname)
    rw [hfactory, hextends name factory hfactory]
  rw [← parse_congr hagree]
  exact hp

/-- The built-in registry with one more name. -/
def toffoliRegistry : InstructionRegistry :=
  { InstructionRegistry.builtins with
    factories := InstructionRegistry.builtins.factories.insert "Toffoli" Kind.swap.create }

theorem get?_toffoliRegistry {name : String} (h : name ≠ "Toffoli") :
    toffoliRegistry.factories.get? name = InstructionRegistry.builtins.factories.get? name := by
  rw [toffoliRegistry, Table.get?_insert, if_neg h]

/-- The new name stands in a comment, in a line that cannot be taken apart, and after that. -/
theorem parse_extends_toffoli :
    Program.parse toffoliRegistry "q" "# Toffoli q0\r\nH q0" =
        .ok ⟨"q", [⟨.builtin .h, [0], []⟩]⟩ ∧
      namesRead toffoliRegistry "q" "S q0\nToffoli(1\nToffoli q0 q1" = ["S"] ∧
      Program.parse toffoliRegistry "q" "S q0\nToffoli(1\nToffoli q0 q1" =
        Program.parse .builtins "q" "S q0\nToffoli(1\nToffoli q0 q1" ∧
      "Toffoli" ∈ namesIn "S q0\nToffoli(1\nToffoli q0 q1" ∧ '(' ∉ "Toffoli".toList := by
  have hextends : ∀ name factory,
      InstructionRegistry.builtins.factories.get? name = some factory →
        toffoliRegistry.factories.get? name = some factory := by
    intro name factory hfactory
    rw [get?_toffoliRegistry, hfactory]
    rintro rfl
    cases hfactory
  have hnames : namesRead toffoliRegistry "q" "S q0\nToffoli(1\nToffoli q0 q1" = ["S"] := rfl
  have hlater : "Toffoli" ∈ namesIn "S q0\nToffoli(1\nToffoli q0 q1" := by decide
  obtain ⟨-, hagree, -, hchars⟩ :=
    parse_extends toffoliRegistry .builtins "q" "S q0\nToffoli(1\nToffoli q0 q1"
  refine ⟨?_, hnames, hagree ?_, hlater, fun hmem => ((hchars _ hlater).2 '(' hmem).2 rfl⟩
  · exact (parse_extends .builtins toffoliRegistry "q" "# Toffoli q0\r\nH q0").1 hextends _ rfl
  · rw [hnames]
    intro name hname
    rw [List.mem_singleton.mp hname, get?_toffoliRegistry (by decide)]

end QuantumCompiler
