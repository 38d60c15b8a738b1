import QuantumCompiler.Program.Parser
import QuantumCompiler.Proofs.Text.Words
import QuantumCompiler.Proofs.Traversal

/-!
# Program text joined by line feeds

The reader cuts a source into lines, drops a carriage return before a line feed and an
empty line at the end, and numbers what is left. None of this shows in the result: a
carriage return is blank and an empty line is skipped, so the reader might as well go
through the pieces between line feeds (`parse_eq`). These are the pieces of the first
source followed by those of the second when two sources are joined by a line feed, and
there is one more of them than there are line feeds.

* `instructionsFrom_append` — lines after lines, with the numbers going on;
* `instructionsFrom_add` — other numbers change a fault and nothing else;
* `instructionsFrom_congr` — the result depends on what becomes of the single lines;
* `instructionsFrom_eq_error_iff` — the first line that is refused gives the fault;
* `parse_join` — two sources joined by a line feed, and the number of the line in a fault.
-/

namespace QuantumCompiler

open QuantumCompiler.Text

variable {registry : InstructionRegistry} {register : List Char}

-- ---------------------------------------------------------------------------
-- Single lines
-- ---------------------------------------------------------------------------

/-- The line is refused with this message. A blank line or a comment never is. -/
def Faulty (registry : InstructionRegistry) (register line : List Char) (message : String) : Prop :=
  isSkipped (trim line) = false ∧
    ∃ fault, readInstruction registry register (trim line) = .error fault ∧ fault.message = message

theorem trim_dropReturn (line : List Char) : trim (dropReturn line) = trim line := by
  unfold dropReturn
  split
  · rename_i hlast
    have hline : line = line.dropLast ++ ['\r'] :=
      (List.dropLast_append_getLast? '\r' hlast).symm
    have hblank : Blank ['\r'] := blank_nil.cons (by decide)
    rw [hline, trim_append_blank hblank, List.dropLast_concat]
  · rfl

theorem readLine_of_trim_eq {line line' : List Char} (h : trim line = trim line') (n : Nat) :
    readLine registry register (line, n) = readLine registry register (line', n) := by
  simp only [readLine, h]

theorem readLine_of_skipped {line : List Char} (h : isSkipped (trim line) = true) (n : Nat) :
    readLine registry register (line, n) = .ok none :=
  if_pos h

theorem readLine_of_not_skipped {line : List Char} (h : isSkipped (trim line) = false) (n : Nat) :
    readLine registry register (line, n) =
      ((readInstruction registry register (trim line)).mapError fun fault =>
        Fault.parse n fault.message).map some := by
  simp only [readLine, h]
  cases readInstruction registry register (trim line) <;> rfl

theorem readLine_eq_error_iff {line : List Char} {n : Nat} {fault : Fault} :
    readLine registry register (line, n) = .error fault ↔
      ∃ message, Faulty registry register line message ∧ fault = .parse n message := by
  unfold Faulty
  cases hskip : isSkipped (trim line) with
  | true =>
    rw [readLine_of_skipped hskip]
    simp
  | false =>
    rw [readLine_of_not_skipped hskip, map_eq_error_iff]
    cases readInstruction registry register (trim line) with
    | ok i => simp [Except.mapError]
    | error refusal =>
      have hflip : Fault.parse n refusal.message = fault ↔ fault = .parse n refusal.message :=
        eq_comm
      simp [Except.mapError, hflip]

/-- A line is faulty or it is read, whatever its number. -/
theorem exists_readLine_eq_ok {line : List Char}
    (h : ∀ message, ¬ Faulty registry register line message) (n : Nat) :
    ∃ found, readLine registry register (line, n) = .ok found := by
  cases hread : readLine registry register (line, n) with
  | ok found => exact ⟨found, rfl⟩
  | error fault =>
    obtain ⟨message, hfaulty, -⟩ := readLine_eq_error_iff.mp hread
    exact absurd hfaulty (h message)

-- ---------------------------------------------------------------------------
-- Numbered lines
-- ---------------------------------------------------------------------------

/-- The same fault, found in a source that has `n` lines more in front. -/
def Fault.later (n : Nat) : Fault → Fault
  | .parse line message => .parse (line + n) message
  | fault => fault

theorem readLine_add (line : List Char) (n k : Nat) :
    readLine registry register (line, n + k) =
      (readLine registry register (line, n)).mapError (Fault.later k) := by
  cases hskip : isSkipped (trim line) with
  | true =>
    rw [readLine_of_skipped hskip, readLine_of_skipped hskip]
    rfl
  | false =>
    rw [readLine_of_not_skipped hskip, readLine_of_not_skipped hskip]
    cases readInstruction registry register (trim line) <;> rfl

/-- The instructions on lines that are numbered from `n` on. -/
def instructionsFrom (registry : InstructionRegistry) (register : List Char) (n : Nat)
    (ls : List (List Char)) : Except Fault (List Instruction) :=
  ((ls.zipIdx n).mapM (readLine registry register)).map fun found => found.filterMap id

theorem instructionsFrom_nil (n : Nat) : instructionsFrom registry register n [] = .ok [] := rfl

theorem instructionsFrom_cons (n : Nat) (line : List Char) (ls : List (List Char)) :
    instructionsFrom registry register n (line :: ls) =
      readLine registry register (line, n) >>= fun found =>
        (instructionsFrom registry register (n + 1) ls).map (found.toList ++ ·) := by
  simp only [instructionsFrom, List.zipIdx_cons, List.mapM_cons]
  cases readLine registry register (line, n) with
  | error fault => rfl
  | ok found =>
    cases (ls.zipIdx (n + 1)).mapM (readLine registry register) with
    | error fault => rfl
    | ok rest => cases found <;> rfl

/-- Lines after lines: the numbers go on where the first ones stop. -/
theorem instructionsFrom_append (n : Nat) (ls ls' : List (List Char)) :
    instructionsFrom registry register n (ls ++ ls') =
      instructionsFrom registry register n ls >>= fun is =>
        (instructionsFrom registry register (n + ls.length) ls').map (is ++ ·) := by
  induction ls generalizing n with
  | nil =>
    show instructionsFrom registry register n ls' =
      (instructionsFrom registry register n ls').map ([] ++ ·)
    cases instructionsFrom registry register n ls' <;> rfl
  | cons line ls ih =>
    have hnext : n + (line :: ls).length = n + 1 + ls.length := by
      rw [List.length_cons]
      omega
    rw [List.cons_append, instructionsFrom_cons, instructionsFrom_cons, ih, hnext]
    cases readLine registry register (line, n) with
    | error fault => rfl
    | ok found =>
      cases instructionsFrom registry register (n + 1) ls with
      | error fault => rfl
      | ok is =>
        cases instructionsFrom registry register (n + 1 + ls.length) ls' with
        | error fault => rfl
        | ok is' =>
          show Except.ok (found.toList ++ (is ++ is')) = .ok (found.toList ++ is ++ is')
          rw [List.append_assoc]

/-- The numbers of the lines are seen in a fault only. -/
theorem instructionsFrom_add (n k : Nat) (ls : List (List Char)) :
    instructionsFrom registry register (n + k) ls =
      (instructionsFrom registry register n ls).mapError (Fault.later k) := by
  induction ls generalizing n with
  | nil => rfl
  | cons line ls ih =>
    have hnext : n + k + 1 = n + 1 + k := by omega
    rw [instructionsFrom_cons, instructionsFrom_cons, readLine_add, hnext, ih]
    cases readLine registry register (line, n) with
    | error fault => rfl
    | ok found => cases instructionsFrom registry register (n + 1) ls <;> rfl

/-- Lines that are read alike one by one, be it with other registries, are read alike. -/
theorem instructionsFrom_congr {registry registry' : InstructionRegistry}
    {ls ls' : List (List Char)}
    (h : List.Forall₂ (fun line line' => ∀ n, readLine registry register (line, n) =
      readLine registry' register (line', n)) ls ls') (n : Nat) :
    instructionsFrom registry register n ls = instructionsFrom registry' register n ls' := by
  induction h generalizing n with
  | nil => rfl
  | cons hline _ ih => rw [instructionsFrom_cons, instructionsFrom_cons, hline, ih]

theorem instructionsFrom_map_dropReturn (n : Nat) (ls : List (List Char)) :
    instructionsFrom registry register n (ls.map dropReturn) =
      instructionsFrom registry register n ls := by
  apply instructionsFrom_congr
  rw [List.forall₂_map_left_iff, List.forall₂_same]
  exact fun line _ => readLine_of_trim_eq (trim_dropReturn line)

/-- The first line that is refused gives the fault, with its number and its message. -/
theorem instructionsFrom_eq_error_iff {n : Nat} {ls : List (List Char)} {fault : Fault} :
    instructionsFrom registry register n ls = .error fault ↔
      ∃ before line after message, ls = before ++ line :: after ∧
        (∀ l ∈ before, ∀ m, ¬ Faulty registry register l m) ∧
          Faulty registry register line message ∧ fault = .parse (n + before.length) message := by
  induction ls generalizing n with
  | nil => simp [instructionsFrom_nil]
  | cons first ls ih =>
    rw [instructionsFrom_cons, bind_eq_error_iff]
    simp only [map_eq_error_iff]
    constructor
    · rintro (h | ⟨found, hfound, h⟩)
      · obtain ⟨message, hfaulty, rfl⟩ := readLine_eq_error_iff.mp h
        exact ⟨[], first, ls, message, rfl, by simp, hfaulty, rfl⟩
      · obtain ⟨before, line, after, message, hls, hbefore, hfaulty, hfault⟩ := ih.mp h
        have hfirst : ∀ m, ¬ Faulty registry register first m := by
          intro m hm
          have herror := (@readLine_eq_error_iff registry register first n _).mpr ⟨m, hm, rfl⟩
          rw [hfound] at herror
          cases herror
        refine ⟨first :: before, line, after, message, by rw [hls]; rfl, ?_, hfaulty, ?_⟩
        · intro l hl
          rcases List.mem_cons.mp hl with rfl | hl
          · exact hfirst
          · exact hbefore l hl
        · rw [hfault, List.length_cons, Nat.add_right_comm, Nat.add_assoc]
    · rintro ⟨before, line, after, message, hls, hbefore, hfaulty, hfault⟩
      cases before with
      | nil =>
        obtain ⟨rfl, rfl⟩ := List.cons.inj hls
        exact Or.inl (readLine_eq_error_iff.mpr ⟨message, hfaulty, hfault⟩)
      | cons l before =>
        obtain ⟨rfl, rfl⟩ := List.cons.inj hls
        obtain ⟨found, hfound⟩ := exists_readLine_eq_ok (hbefore first List.mem_cons_self) n
        refine Or.inr ⟨found, hfound, ih.mpr ⟨before, line, after, message, rfl, ?_, hfaulty, ?_⟩⟩
        · exact fun l hl => hbefore l (List.mem_cons_of_mem first hl)
        · rw [hfault, List.length_cons, Nat.add_right_comm, Nat.add_assoc]

-- ---------------------------------------------------------------------------
-- Sources
-- ---------------------------------------------------------------------------

/-- The reader goes through the pieces between line feeds. -/
theorem instructionsFrom_lines (n : Nat) (cs : List Char) :
    instructionsFrom registry register n (lines cs) =
      instructionsFrom registry register n (cs.splitOn '\n') := by
  obtain ⟨init, last, hcut⟩ :=
    (cs.splitOn '\n').eq_nil_or_concat.resolve_left (List.splitOn_ne_nil '\n' cs)
  rw [List.concat_eq_append] at hcut
  have hlines : lines cs = init.map dropReturn ++ [last].filter fun l => !l.isEmpty := by
    rw [lines, hcut, List.dropLast_concat, List.getLast?_concat, Option.toList_some]
  rw [hlines, hcut, instructionsFrom_append, instructionsFrom_append,
    instructionsFrom_map_dropReturn, List.length_map]
  -- an empty line at the end holds no instruction
  have hlast : ∀ m, instructionsFrom registry register m ([last].filter fun l => !l.isEmpty) =
      instructionsFrom registry register m [last] := by
    intro m
    cases last with
    | nil => rfl
    | cons c last => rfl
  rw [hlast]

theorem parse_eq (registry : InstructionRegistry) (register source : String) :
    Program.parse registry register source =
      (checkRegisterName register).mapError Fault.validation >>= fun _ =>
        (instructionsFrom registry register.toList 1 (source.toList.splitOn '\n')).map
          (Program.mk register) := by
  rw [← instructionsFrom_lines]
  unfold Program.parse instructionsFrom
  cases checkRegisterName register with
  | error fault => rfl
  | ok _ =>
    cases ((lines source.toList).zipIdx 1).mapM (readLine registry register.toList) <;> rfl

theorem parse_of_invalid {register : String} {fault : ValidationFault}
    (h : checkRegisterName register = .error fault) (source : String) :
    Program.parse registry register source = .error (.validation fault) := by
  rw [parse_eq, h]
  rfl

theorem parse_of_valid {register : String} (h : checkRegisterName register = .ok ())
    (source : String) :
    Program.parse registry register source =
      (instructionsFrom registry register.toList 1 (source.toList.splitOn '\n')).map
        (Program.mk register) := by
  rw [parse_eq, h]
  rfl

theorem valid_of_parse {register source : String} {p : Program}
    (h : Program.parse registry register source = .ok p) : checkRegisterName register = .ok () := by
  cases hregister : checkRegisterName register with
  | ok _ => rfl
  | error fault =>
    rw [parse_of_invalid hregister] at h
    cases h

/-- A fault of a source over a proper register is that of its first faulty line. -/
theorem parse_eq_error_iff {register : String} (h : checkRegisterName register = .ok ())
    {source : String} {fault : Fault} :
    Program.parse registry register source = .error fault ↔
      ∃ before line after message,
        source.toList.splitOn '\n' = before ++ line :: after ∧
        (∀ l ∈ before, ∀ m, ¬ Faulty registry register.toList l m) ∧
        Faulty registry register.toList line message ∧
        fault = .parse (before.length + 1) message := by
  rw [parse_of_valid h, map_eq_error_iff, instructionsFrom_eq_error_iff]
  simp only [Nat.add_comm 1]

/-- Reading a joined source, as one equation. -/
theorem parse_join_eq {register : String} (h : checkRegisterName register = .ok ())
    (s t : String) :
    Program.parse registry register (s ++ "\n" ++ t) =
      Program.parse registry register s >>= fun p =>
        ((Program.parse registry register t).mapError (Fault.later (1 + s.toList.count '\n'))).map
          fun q => ⟨register, p.instructions ++ q.instructions⟩ := by
  have htext : (s ++ "\n" ++ t).toList = s.toList ++ '\n' :: t.toList := by simp
  have hlength : 1 + (s.toList.splitOn '\n').length = 1 + (1 + s.toList.count '\n') := by
    rw [length_splitOn]
    omega
  rw [parse_of_valid h, htext, List.splitOn_append_cons_self, instructionsFrom_append, hlength,
    instructionsFrom_add, parse_of_valid h, parse_of_valid h]
  cases instructionsFrom registry register.toList 1 (s.toList.splitOn '\n') with
  | error fault => rfl
  | ok is =>
    cases instructionsFrom registry register.toList 1 (t.toList.splitOn '\n') <;> rfl

/-- **Reading goes along with joining sources by a line feed.** The joined source fails as
the first one does. If that one is read, it fails as the second does, with the number of
the line moved by the lines of the first. If both are read, so is the joined source, and it
holds the instructions of the first and then those of the second. So the number in a fault
is that of the first line that is refused: one more than the number of lines before it,
however many of these are blank, comments or ended by a carriage return. -/
theorem parse_join (registry : InstructionRegistry) (register s t : String) :
    (∀ fault, Program.parse registry register s = .error fault →
      Program.parse registry register (s ++ "\n" ++ t) = .error fault) ∧
    (∀ p fault, Program.parse registry register s = .ok p →
      Program.parse registry register t = .error fault →
      ∃ k message, fault = .parse k message ∧
        Program.parse registry register (s ++ "\n" ++ t) =
          .error (.parse (k + 1 + s.toList.count '\n') message)) ∧
    (∀ p q, Program.parse registry register s = .ok p →
      Program.parse registry register t = .ok q →
      Program.parse registry register (s ++ "\n" ++ t) =
        .ok ⟨register, p.instructions ++ q.instructions⟩) ∧
    (∀ k message, Program.parse registry register s = .error (.parse k message) ↔
      checkRegisterName register = .ok () ∧ ∃ before line after,
        s.toList.splitOn '\n' = before ++ line :: after ∧ k = before.length + 1 ∧
        (∀ l ∈ before, ∀ m, ¬ Faulty registry register.toList l m) ∧
        Faulty registry register.toList line message) := by
  refine ⟨?_, ?_, ?_, ?_⟩
  · intro fault hs
    cases hregister : checkRegisterName register with
    | error invalid =>
      rw [parse_of_invalid hregister] at hs ⊢
      exact hs
    | ok _ =>
      rw [parse_join_eq hregister, hs]
      rfl
  · intro p fault hs ht
    have hregister := valid_of_parse hs
    obtain ⟨before, line, after, message, -, -, -, rfl⟩ := (parse_eq_error_iff hregister).mp ht
    refine ⟨_, message, rfl, ?_⟩
    rw [parse_join_eq hregister, hs, ht, Nat.add_assoc]
    rfl
  · intro p q hs ht
    rw [parse_join_eq (valid_of_parse hs), hs, ht]
    rfl
  · intro k message
    cases hregister : checkRegisterName register with
    | error invalid => simp [parse_of_invalid hregister]
    | ok _ =>
      rw [parse_eq_error_iff hregister]
      simp only [true_and, Fault.parse.injEq]
      constructor
      · rintro ⟨before, line, after, message', hcut, hbefore, hfaulty, rfl, rfl⟩
        exact ⟨before, line, after, hcut, rfl, hbefore, hfaulty⟩
      · rintro ⟨before, line, after, hcut, rfl, hbefore, hfaulty⟩
        exact ⟨before, line, after, message, hcut, hbefore, hfaulty, rfl, rfl⟩

/-- A comment, an empty line and carriage returns in front of the line that is refused, with
a carriage return just before the line feed that joins the sources. -/
theorem parse_join_carriage_return :
    Program.parse .builtins "q" "# pair\r\n\nH q0\r" = .ok ⟨"q", [⟨.builtin .h, [0], []⟩]⟩ ∧
      Program.parse .builtins "q" "// next\r\nCNOT q0" =
        .error (.parse 2 "Instruction CNOT expects 2 operand(s), got 1") ∧
      Program.parse .builtins "q" ("# pair\r\n\nH q0\r" ++ "\n" ++ "// next\r\nCNOT q0") =
        .error (.parse 5 "Instruction CNOT expects 2 operand(s), got 1") ∧
      Program.parse .builtins "q" ("// next\r\nCNOT q0" ++ "\n" ++ "# pair\r\n\nH q0\r") =
        .error (.parse 2 "Instruction CNOT expects 2 operand(s), got 1") ∧
      Program.parse .builtins "q" ("# pair\r\n\nH q0\r" ++ "\n" ++ "# pair\r\n\nH q0\r") =
        .ok ⟨"q", [⟨.builtin .h, [0], []⟩, ⟨.builtin .h, [0], []⟩]⟩ ∧
      ∃ before line after,
        "// next\r\nCNOT q0".toList.splitOn '\n' = before ++ line :: after ∧
        2 = before.length + 1 ∧
        (∀ l ∈ before, ∀ m, ¬ Faulty .builtins "q".toList l m) ∧
        Faulty .builtins "q".toList line "Instruction CNOT expects 2 operand(s), got 1" := by
  have hs : Program.parse .builtins "q" "# pair\r\n\nH q0\r" =
      .ok ⟨"q", [⟨.builtin .h, [0], []⟩]⟩ := rfl
  have ht : Program.parse .builtins "q" "// next\r\nCNOT q0" =
      .error (.parse 2 "Instruction CNOT expects 2 operand(s), got 1") := rfl
  obtain ⟨-, hlater, -, -⟩ :=
    parse_join .builtins "q" "# pair\r\n\nH q0\r" "// next\r\nCNOT q0"
  obtain ⟨hfirst, -, -, hline⟩ :=
    parse_join .builtins "q" "// next\r\nCNOT q0" "# pair\r\n\nH q0\r"
  obtain ⟨-, -, hboth, -⟩ :=
    parse_join .builtins "q" "# pair\r\n\nH q0\r" "# pair\r\n\nH q0\r"
  obtain ⟨k, message, hfault, hjoined⟩ := hlater _ _ hs ht
  cases hfault
  exact ⟨hs, ht, hjoined, hfirst _ ht, hboth _ _ hs hs, ((hline _ _).mp ht).2⟩

end QuantumCompiler
