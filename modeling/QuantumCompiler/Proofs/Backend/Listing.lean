import QuantumCompiler.Proofs.Backend.Ising
import QuantumCompiler.Proofs.Backend.Recipe
import QuantumCompiler.Proofs.Decimal.SixPlaces

/-!
# The listing of a lowered program

The gate-model back end writes one line for each native gate. A gate with parameters has them
in parentheses and its qubits after them; a gate without has its qubits there. The two shapes
are told apart by what follows the closing parenthesis, so a line can be read
(`GateText.read?`) without knowing which gates there are.

A line gives the name and the qubits of its gate as they are, and the parameters as they are
rounded to six decimal places.

* `items?_intercalate` — items with commas between them are found again;
* `GateText.read?_render` — the line of a gate reads back;
* `compile_readable` — the text of an accepted program reads back line by line.
-/

namespace QuantumCompiler

open QuantumCompiler.Text QuantumCompiler.Decimal

-- ---------------------------------------------------------------------------
-- Lists with commas
-- ---------------------------------------------------------------------------

/-- A text without the space in front of it. -/
def afterSpace? : List Char → Option (List Char)
  | ' ' :: cs => some cs
  | _ => none

/-- The items of a list: a comma and a space between neighbours. -/
def items? (cs : List Char) : Option (List (List Char)) :=
  match cs.splitOn ',' with
  | [] => none
  | first :: rest => (rest.mapM afterSpace?).map (first :: ·)

theorem items?_intercalate {x : List Char} {xs : List (List Char)} (h : ∀ y ∈ x :: xs, ',' ∉ y) :
    items? ([',', ' '].intercalate (x :: xs)) = some (x :: xs) := by
  have hspaces : (xs.map ([' '] ++ ·)).mapM afterSpace? = some xs := by
    rw [mapM_eq_some_iff, List.forall₂_map_left_iff, List.forall₂_same]
    exact fun _ _ => rfl
  rw [items?, splitOn_intercalate_cons (by simp) h]
  dsimp only
  rw [hspaces]
  rfl

/-- The values of the items of a list. -/
def readList? {α : Type} (read : List Char → Option α) (cs : List Char) : Option (List α) :=
  (items? cs).bind fun items => items.mapM read

theorem readList?_intercalate {α β : Type} {read : List Char → Option β} {write : α → List Char}
    {value : α → β} (hread : ∀ a, read (write a) = some (value a)) (hcomma : ∀ a, ',' ∉ write a)
    {as : List α} (hne : as ≠ []) :
    readList? read ([',', ' '].intercalate (as.map write)) = some (as.map value) := by
  obtain ⟨a, as, rfl⟩ := List.exists_cons_of_ne_nil hne
  have hitems : items? ([',', ' '].intercalate ((a :: as).map write)) =
      some ((a :: as).map write) := by
    rw [List.map_cons]
    apply items?_intercalate
    rw [← List.map_cons, List.forall_mem_map]
    exact fun b _ => hcomma b
  rw [readList?, hitems, Option.bind_some, mapM_eq_some_iff, List.forall₂_map_left_iff,
    List.forall₂_map_right_iff, List.forall₂_same]
  exact fun b _ => hread b

-- ---------------------------------------------------------------------------
-- Qubits
-- ---------------------------------------------------------------------------

/-- A qubit on a line. -/
def readQubit? : List Char → Option Nat
  | 'q' :: cs => readNumber? cs
  | _ => none

/-- The letter in front of a qubit belongs to the qubit, wherever the qubit stands. -/
theorem NativeGate.qubitsText_eq {qubits : List Nat} (hne : qubits ≠ []) :
    qubitsText qubits = [',', ' '].intercalate (qubits.map fun q => 'q' :: numeral q) := by
  obtain ⟨q, qs, rfl⟩ := List.exists_cons_of_ne_nil hne
  simp only [qubitsText, List.map_cons, intercalate_cons, List.flatMap_map, List.cons_append,
    List.nil_append]

theorem readList?_qubitsText {qubits : List Nat} (hne : qubits ≠ []) :
    readList? readQubit? (NativeGate.qubitsText qubits) = some qubits := by
  have hcomma : ∀ q : Nat, ',' ∉ 'q' :: numeral q := by
    intro q hmem
    rcases List.mem_cons.mp hmem with h | h
    · exact absurd h (by decide)
    · exact absurd (isDigit_of_mem_numeral h) (by decide)
  have hread : ∀ q : Nat, readQubit? ('q' :: numeral q) = some (id q) :=
    Annealer.readNumber?_numeral
  rw [NativeGate.qubitsText_eq hne, readList?_intercalate hread hcomma hne, List.map_id]

-- ---------------------------------------------------------------------------
-- Lines
-- ---------------------------------------------------------------------------

/-- What the line of a gate tells. -/
structure GateText where
  /-- The name of the gate. -/
  name : String
  /-- Its angles, rounded. -/
  parameters : List Rounded
  /-- The qubits it acts on. -/
  qubits : List Nat
  deriving DecidableEq, Repr

/-- Read what follows a name and a list in parentheses: nothing, where the list is that of
the qubits, or the list of the qubits. -/
def GateText.readTail? (name : String) (inside : List Char) : List Char → Option GateText
  | [] => (readList? readQubit? inside).map fun qubits => ⟨name, [], qubits⟩
  | ' ' :: outside =>
    (readList? Rounded.read? inside).bind fun parameters =>
      (readList? readQubit? outside).map fun qubits => ⟨name, parameters, qubits⟩
  | _ => none

/-- Read a line. -/
def GateText.read? (line : String) : Option GateText :=
  (cutAt? (· == '(') line.toList).bind fun (name, rest) =>
    (cutAt? (· == ')') rest).bind fun (inside, after) =>
      readTail? (String.ofList name) inside after

/-- A line tells of a gate what can be told: name and qubits, and the rounded parameters. -/
structure GateText.Tells (t : GateText) (g : NativeGate) : Prop where
  name : t.name = g.name
  qubits : t.qubits = g.qubits
  parameters : List.Forall₂ RoundsTo g.parameters t.parameters

theorem isMark_of_mem_sixPlaces {x : Float} {c : Char} (h : c ∈ sixPlaces x) : isMark c = false :=
  isMark_of_digit_or_word (mem_sixPlaces h)

namespace NativeGate

variable {g : NativeGate}

theorem mem_qubitsText (hne : g.qubits ≠ []) {c : Char} (h : c ∈ qubitsText g.qubits) :
    isMark c = false ∨ c = ',' ∨ c = ' ' := by
  rw [qubitsText_eq hne] at h
  refine mem_intercalate_of_free ?_ h
  rw [List.forall_mem_map]
  intro q _ c hc
  rcases List.mem_cons.mp hc with rfl | hc
  · decide
  · exact isMark_of_isDigit (isDigit_of_mem_numeral hc)

theorem mem_parametersText {c : Char}
    (h : c ∈ [',', ' '].intercalate (g.parameters.map sixPlaces)) :
    isMark c = false ∨ c = ',' ∨ c = ' ' := by
  refine mem_intercalate_of_free ?_ h
  rw [List.forall_mem_map]
  exact fun x _ c hc => isMark_of_mem_sixPlaces hc

/-- A gate that can be told from its line: a name without marks, and qubits. -/
structure Legible (g : NativeGate) : Prop where
  name : ∀ c ∈ g.name.toList, isMark c = false
  qubits : g.qubits ≠ []

end NativeGate

/-- Neither kind of list closes the parenthesis that it stands in. -/
theorem beq_close_of_mark {c : Char} (h : isMark c = false ∨ c = ',' ∨ c = ' ') :
    (c == ')') = false := by
  rw [beq_eq_false_iff_ne]
  rcases h with h | rfl | rfl
  · exact (isMark_eq_false h).2.2.1
  · decide
  · decide

/-- The line of a gate reads back, up to the rounding of its parameters. -/
theorem GateText.read?_render {g : NativeGate} (hg : g.Legible) :
    read? g.render = some ⟨g.name, g.parameters.map rounded, g.qubits⟩ := by
  have hname : ∀ c ∈ g.name.toList, (c == '(') = false := by
    intro c hc
    rw [beq_eq_false_iff_ne]
    exact (isMark_eq_false (hg.name c hc)).2.1
  have hqubits : ∀ c ∈ NativeGate.qubitsText g.qubits, (c == ')') = false :=
    fun c hc => beq_close_of_mark (NativeGate.mem_qubitsText hg.qubits hc)
  have hparameters : ∀ c ∈ [',', ' '].intercalate (g.parameters.map sixPlaces),
      (c == ')') = false :=
    fun c hc => beq_close_of_mark (NativeGate.mem_parametersText hc)
  rw [read?, NativeGate.render, String.toList_ofList, NativeGate.renderChars]
  by_cases hnone : g.parameters = []
  · have htail : readTail? g.name (NativeGate.qubitsText g.qubits) [] =
        some ⟨g.name, [], g.qubits⟩ := by
      rw [readTail?, readList?_qubitsText hg.qubits]
      rfl
    rw [if_pos (by rw [hnone]; rfl), cutAt?_append hname rfl, Option.bind_some]
    dsimp only
    rw [cutAt?_append hqubits rfl, Option.bind_some, hnone, String.ofList_toList]
    exact htail
  · have hcomma : ∀ x : Float, ',' ∉ sixPlaces x :=
      fun x hmem => (isMark_eq_false (isMark_of_mem_sixPlaces hmem)).2.2.2 rfl
    have htail : readTail? g.name ([',', ' '].intercalate (g.parameters.map sixPlaces))
        (' ' :: NativeGate.qubitsText g.qubits) =
          some ⟨g.name, g.parameters.map rounded, g.qubits⟩ := by
      rw [readTail?, readList?_intercalate Rounded.read?_sixPlaces hcomma hnone, Option.bind_some,
        readList?_qubitsText hg.qubits]
      rfl
    rw [if_neg (by simpa using hnone), cutAt?_append hname rfl, Option.bind_some]
    dsimp only
    rw [cutAt?_append hparameters rfl, Option.bind_some, String.ofList_toList]
    exact htail

theorem GateText.tells_of_legible {g : NativeGate} (hg : g.Legible) :
    ∃ t, read? g.render = some t ∧ t.Tells g := by
  refine ⟨_, read?_render hg, rfl, rfl, ?_⟩
  rw [List.forall₂_map_right_iff, List.forall₂_same]
  exact fun x _ => roundsTo_rounded x

/-- Gates with the same line: the same name, the same qubits and parameters that round to the
same numbers. -/
theorem NativeGate.eq_of_render_eq {g g' : NativeGate} (hg : g.Legible) (hg' : g'.Legible)
    (h : g.render = g'.render) :
    g.name = g'.name ∧ g.qubits = g'.qubits ∧
      ∀ rs, List.Forall₂ RoundsTo g.parameters rs ↔ List.Forall₂ RoundsTo g'.parameters rs := by
  have hread := GateText.read?_render hg
  rw [h, GateText.read?_render hg', Option.some.injEq, GateText.mk.injEq] at hread
  obtain ⟨hname, hparameters, hqubits⟩ := hread
  have hround : ∀ (xs : List Float) (rs : List Rounded),
      List.Forall₂ RoundsTo xs rs ↔ rs = xs.map rounded :=
    fun xs rs => @forall₂_iff_eq_map _ _ RoundsTo rounded (fun x r => roundsTo_iff) xs rs
  refine ⟨hname.symm, hqubits.symm, fun rs => ?_⟩
  rw [hround, hround, hparameters]

-- ---------------------------------------------------------------------------
-- Programs
-- ---------------------------------------------------------------------------

theorem Emitted.legible {t : QmiTarget} {bits : List Nat} {g : NativeGate} (h : Emitted t bits g) :
    g.Legible := by
  have hnames : Qmi.nativeBasis.all (fun name => name.toList.all (!isMark ·)) = true := by decide
  constructor
  case name =>
    intro c hc
    have hname := List.all_eq_true.mp hnames _ h.conforms.native
    simpa using List.all_eq_true.mp hname c hc
  case qubits =>
    cases h with
    | rx | ry | rz | cz | measure => exact List.cons_ne_nil _ _

/-- The marks on the line of a gate: parentheses, commas and spaces. -/
theorem NativeGate.Legible.mem_renderChars {g : NativeGate} (hg : g.Legible) {c : Char}
    (h : c ∈ g.renderChars) : isMark c = false ∨ c ∈ ['(', ')', ',', ' '] := by
  have hlist : isMark c = false ∨ c = ',' ∨ c = ' ' →
      isMark c = false ∨ c ∈ ['(', ')', ',', ' '] := by
    rintro (h | rfl | rfl)
    · exact Or.inl h
    · exact Or.inr (by decide)
    · exact Or.inr (by decide)
  unfold renderChars at h
  split at h
  · simp only [List.mem_append, List.mem_cons, List.not_mem_nil, or_false] at h
    rcases h with h | rfl | h | rfl
    · exact Or.inl (hg.name c h)
    · exact Or.inr (by decide)
    · exact hlist (mem_qubitsText hg.qubits h)
    · exact Or.inr (by decide)
  · simp only [List.mem_append, List.mem_cons] at h
    rcases h with h | rfl | h | rfl | rfl | h
    · exact Or.inl (hg.name c h)
    · exact Or.inr (by decide)
    · exact hlist (mem_parametersText h)
    · exact Or.inr (by decide)
    · exact Or.inr (by decide)
    · exact hlist (mem_qubitsText hg.qubits h)

/-- No blank but the space stands on the line of a gate. -/
theorem NativeGate.Legible.notMem_renderChars {g : NativeGate} (hg : g.Legible) {c : Char}
    (hblank : isBlank c = true) (hspace : c ≠ ' ') : c ∉ g.renderChars := by
  intro hmem
  have hmark : ['(', ')', ','].all (!isBlank ·) = true := by decide
  rcases hg.mem_renderChars hmem with h | h
  · rw [(isMark_eq_false h).1] at hblank
    cases hblank
  · have hothers : c ∈ ['(', ')', ','] := by
      simp only [List.mem_cons, List.not_mem_nil, or_false] at h ⊢
      tauto
    have hfree := List.all_eq_true.mp hmark c hothers
    rw [hblank] at hfree
    cases hfree

theorem NativeGate.renderChars_ne_nil (g : NativeGate) : g.renderChars ≠ [] := by
  unfold renderChars
  split <;> simp

namespace Qmi

variable {q : Qmi} {p : Program} {s : Sequence} {c : CompiledProgram}

theorem legible_of_lower (h : q.lower p = .ok s) : ∀ g ∈ s.gates, g.Legible := by
  intro g hg
  obtain ⟨bits, hemitted⟩ := emitted_of_lower h g hg
  exact hemitted.legible

theorem compile_eq_ok_iff :
    q.compile p = .ok c ↔ ∃ s, q.lower p = .ok s ∧ c = ⟨backendName, p.register, s.lines⟩ := by
  rw [compile, bind_eq_ok_iff]
  refine exists_congr fun s => and_congr_right fun _ => ?_
  exact ⟨fun h => (Except.ok.inj h).symm, fun h => h ▸ rfl⟩

/-- What is to be seen on the lines of gates. -/
theorem lines_legible {gates : List NativeGate} (hgates : ∀ g ∈ gates, g.Legible) :
    ∀ line ∈ gates.map NativeGate.render,
      line ≠ "" ∧ '\n' ∉ line.toList ∧ '\r' ∉ line.toList := by
  rw [List.forall_mem_map]
  intro g hg
  have hchars : g.render.toList = g.renderChars := String.toList_ofList
  rw [hchars]
  refine ⟨?_, (hgates g hg).notMem_renderChars rfl (by decide),
    (hgates g hg).notMem_renderChars rfl (by decide)⟩
  intro hempty
  rw [hempty] at hchars
  exact g.renderChars_ne_nil hchars.symm

/-- **The text of a lowered program can be read.** Its lines are neither empty nor broken, so
they are found again in the text; there is one for each gate. A line tells the name and the
qubits of its gate, and its parameter to within half a millionth, or that it is infinite or
not a number. So whatever programs two gates are of: if their lines are the same, then so are
their names, their qubits and the rounding of their parameters. -/
theorem compile_readable (h : q.compile p = .ok c) :
    (∀ line ∈ c.lines, line ≠ "" ∧ '\n' ∉ line.toList ∧ '\r' ∉ line.toList) ∧
    lines c.text.toList = c.lines.map String.toList ∧
    ∃ s, q.lower p = .ok s ∧
      List.Forall₂ (fun line g => ∃ t, GateText.read? line = some t ∧ t.Tells g) c.lines s.gates ∧
      ∀ (q' : Qmi) (p' : Program) (s' : Sequence), q'.lower p' = .ok s' →
        ∀ g ∈ s.gates, ∀ g' ∈ s'.gates, g.render = g'.render →
          g.name = g'.name ∧ g.qubits = g'.qubits ∧
            ∀ rs, List.Forall₂ RoundsTo g.parameters rs ↔ List.Forall₂ RoundsTo g'.parameters rs := by
  obtain ⟨s, hs, rfl⟩ := compile_eq_ok_iff.mp h
  have hlegible := legible_of_lower hs
  have hlines := lines_legible hlegible
  refine ⟨hlines, ?_, s, hs, ?_, ?_⟩
  · rw [CompiledProgram.text, String.toList_ofList]
    apply lines_intercalate
    all_goals
      rw [List.forall_mem_map]
      intro line hline
      obtain ⟨hne, hfeed, hreturn⟩ := hlines line hline
    · exact fun hnil => hne (String.toList_eq_nil_iff.mp hnil)
    · exact hfeed
    · exact fun hlast => hreturn (List.mem_of_getLast? hlast)
  · rw [Sequence.lines, List.forall₂_map_left_iff, List.forall₂_same]
    exact fun g hg => GateText.tells_of_legible (hlegible g hg)
  · intro q' p' s' hs' g hg g' hg' hsame
    exact NativeGate.eq_of_render_eq (hlegible g hg) (legible_of_lower hs' g' hg') hsame

/-- Two rotations by angles that differ in the eighth decimal place, and one that is off the
scale. -/
def blurredProgram : Program :=
  ⟨"q", [⟨.builtin .rx, [3], [0.12345678]⟩, ⟨.builtin .rx, [3], [0.12345676]⟩,
    ⟨.builtin .cz, [1, 12], []⟩, ⟨.free Kind.rz.name, [0], [-1.0 / 0.0]⟩]⟩

/-- The lines of the program: the first two are the same, although the angles are not. -/
theorem compile_readable_blurred :
    ∃ c, ({} : Qmi).compile blurredProgram = .ok c ∧
      c.lines = ["rx(0.123457) q3", "rx(0.123457) q3", "cz(q1, q12)", "rz(-inf) q0"] ∧
      lines c.text.toList = c.lines.map String.toList ∧
      ∃ s, ({} : Qmi).lower blurredProgram = .ok s ∧
        List.Forall₂ (fun line g => ∃ t, GateText.read? line = some t ∧ t.Tells g)
          c.lines s.gates := by
  have hlines : (({} : Qmi).compile blurredProgram).map (·.lines) =
      .ok ["rx(0.123457) q3", "rx(0.123457) q3", "cz(q1, q12)", "rz(-inf) q0"] := by
    decide +kernel
  obtain ⟨c, hc⟩ : ∃ c, ({} : Qmi).compile blurredProgram = .ok c := ⟨_, rfl⟩
  obtain ⟨-, htext, s, hs, htells, -⟩ := compile_readable hc
  rw [hc] at hlines
  exact ⟨c, hc, Except.ok.inj hlines, htext, s, hs, htells⟩

end Qmi

end QuantumCompiler
