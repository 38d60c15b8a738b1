import QuantumCompiler.Proofs.Program.Concat

/-!
# Line ends and padding

Only the line feed ends a line. A carriage return before it, and blanks at either end of a line,
are trimmed off, and so are the other characters that end lines elsewhere. What the reader makes
of a source therefore depends on its trimmed lines alone (`parse_of_trimmedLines`), and these
stay the same when carriage returns are put before the line feeds and when lines are padded.

* `trimmedLines_withReturns` — carriage returns before line feeds;
* `trimmedLines_pad` — blanks at the start or the end of one line;
* `Restyled.trimmedLines_eq` — any number of such changes;
* `parse_restyled` — the result of reading is the same, with the numbers of the lines.
-/

namespace QuantumCompiler

open QuantumCompiler.Text

-- ---------------------------------------------------------------------------
-- Trimmed lines
-- ---------------------------------------------------------------------------

/-- The pieces between line feeds without the blanks around them. -/
def trimmedLines (cs : List Char) : List (List Char) :=
  (cs.splitOn '\n').map trim

theorem trimmedLines_append_cons (cs rest : List Char) :
    trimmedLines (cs ++ '\n' :: rest) = trimmedLines cs ++ trimmedLines rest := by
  rw [trimmedLines, List.splitOn_append_cons_self, List.map_append, trimmedLines, trimmedLines]

section Gap

variable {gap : List Char} (hgap : Blank gap) (hfeed : '\n' ∉ gap)

include hgap hfeed

theorem trimmedLines_gap_append (cs : List Char) : trimmedLines (gap ++ cs) = trimmedLines cs :=
  map_trim_splitOn_blank_append hgap hfeed cs

theorem trimmedLines_append_gap (cs : List Char) : trimmedLines (cs ++ gap) = trimmedLines cs :=
  map_trim_splitOn_append_blank hgap hfeed cs

end Gap

theorem trimmedLines_append_return (cs : List Char) :
    trimmedLines (cs ++ ['\r']) = trimmedLines cs :=
  trimmedLines_append_gap (blank_nil.cons (by decide)) (by decide) cs

/-- The result of reading is decided by the trimmed lines. -/
theorem parse_of_trimmedLines {source source' : String}
    (h : trimmedLines source.toList = trimmedLines source'.toList)
    (registry : InstructionRegistry) (register : String) :
    Program.parse registry register source = Program.parse registry register source' := by
  have hlines : List.Forall₂ (fun line line' => trim line = trim line')
      (source.toList.splitOn '\n') (source'.toList.splitOn '\n') := by
    rw [← List.forall₂_map_right_iff, ← List.forall₂_map_left_iff, List.forall₂_eq_eq_eq]
    exact h
  rw [parse_eq, parse_eq, instructionsFrom_congr (hlines.imp fun _ _ => readLine_of_trim_eq)]

-- ---------------------------------------------------------------------------
-- Carriage returns
-- ---------------------------------------------------------------------------

/-- A carriage return before each line feed, also where there is one already. -/
def withReturns (cs : List Char) : List Char :=
  cs.flatMap fun c => if c = '\n' then ['\r', '\n'] else [c]

theorem withReturns_feed (cs : List Char) :
    withReturns ('\n' :: cs) = '\r' :: '\n' :: withReturns cs :=
  rfl

theorem withReturns_cons {c : Char} (h : c ≠ '\n') (cs : List Char) :
    withReturns (c :: cs) = c :: withReturns cs := by
  rw [withReturns, List.flatMap_cons, if_neg h, List.singleton_append, withReturns]

/-- The induction keeps the part of the line that was passed already, `before`. -/
theorem trimmedLines_append_withReturns (before cs : List Char) :
    trimmedLines (before ++ withReturns cs) = trimmedLines (before ++ cs) := by
  induction cs generalizing before with
  | nil => rfl
  | cons c cs ih =>
    by_cases hc : c = '\n'
    · have hrest : trimmedLines (withReturns cs) = trimmedLines cs := ih []
      rw [hc, withReturns_feed, List.append_cons, trimmedLines_append_cons,
        trimmedLines_append_return, hrest, trimmedLines_append_cons]
    · rw [withReturns_cons hc, List.append_cons, ih, ← List.append_cons]

theorem trimmedLines_withReturns (cs : List Char) :
    trimmedLines (withReturns cs) = trimmedLines cs :=
  trimmedLines_append_withReturns [] cs

-- ---------------------------------------------------------------------------
-- Padding
-- ---------------------------------------------------------------------------

/-- A line starts or ends between these two parts of a source. It ends before its line feed, and
also before the carriage return that belongs to this. -/
inductive LineEdge : List Char → List Char → Prop
  | first (after : List Char) : LineEdge [] after
  | start (before after : List Char) : LineEdge (before ++ ['\n']) after
  | last (before : List Char) : LineEdge before []
  | feed (before after : List Char) : LineEdge before ('\n' :: after)
  | returnFeed (before after : List Char) : LineEdge before ('\r' :: '\n' :: after)

theorem trimmedLines_pad {before gap after : List Char} (hedge : LineEdge before after)
    (hgap : Blank gap) (hfeed : '\n' ∉ gap) :
    trimmedLines (before ++ (gap ++ after)) = trimmedLines (before ++ after) := by
  cases hedge with
  | first => exact trimmedLines_gap_append hgap hfeed after
  | start before =>
    rw [List.append_assoc, List.singleton_append, trimmedLines_append_cons,
      trimmedLines_gap_append hgap hfeed, List.append_assoc, List.singleton_append,
      trimmedLines_append_cons]
  | last =>
    rw [List.append_nil, List.append_nil, trimmedLines_append_gap hgap hfeed]
  | feed _ after =>
    rw [← List.append_assoc, trimmedLines_append_cons, trimmedLines_append_gap hgap hfeed,
      trimmedLines_append_cons]
  | returnFeed _ after =>
    rw [← List.append_assoc, List.append_cons, trimmedLines_append_cons,
      trimmedLines_append_return, trimmedLines_append_gap hgap hfeed, List.append_cons,
      trimmedLines_append_cons, trimmedLines_append_return]

/-- The second source is made from the first by putting carriage returns before all line feeds
and by adding blanks at the start or the end of lines, any number of times and in any order. -/
inductive Restyled (source : List Char) : List Char → Prop
  | refl : Restyled source source
  | returns {cs : List Char} (h : Restyled source cs) : Restyled source (withReturns cs)
  | pad {before gap after : List Char} (h : Restyled source (before ++ after))
      (hedge : LineEdge before after) (hgap : Blank gap) (hfeed : '\n' ∉ gap) :
      Restyled source (before ++ (gap ++ after))

theorem Restyled.trimmedLines_eq {source source' : List Char} (h : Restyled source source') :
    trimmedLines source' = trimmedLines source := by
  induction h with
  | refl => rfl
  | returns _ ih => rw [trimmedLines_withReturns, ih]
  | pad _ hedge hgap hfeed ih => rw [trimmedLines_pad hedge hgap hfeed, ih]

/-- **Line ends and padding do not matter.** Carriage returns before all line feeds, and blanks
other than line feeds at the start or the end of any lines, leave the result of reading as it
is: the same program, or the same fault with the same line number and message. -/
theorem parse_restyled {source source' : String} (h : Restyled source.toList source'.toList)
    (registry : InstructionRegistry) (register : String) :
    Program.parse registry register source' = Program.parse registry register source :=
  parse_of_trimmedLines h.trimmedLines_eq registry register

/-- A comment, and a line with a stray carriage return and without a line feed. They are padded
with line separators of Unicode and with a carriage return. -/
theorem parse_restyled_separators :
    Restyled "#\nS\r".toList "\u2028#\u0085\r\n\rS\r\u3000".toList ∧
      Program.parse .builtins "q" "\u2028#\u0085\r\n\rS\r\u3000" =
        .error (.parse 2 "Instruction S expects 1 operand(s), got 0") := by
  have hreturns : Restyled "#\nS\r".toList "#\r\nS\r".toList :=
    .returns .refl
  have hfirst : Restyled "#\nS\r".toList "\u2028#\r\nS\r".toList :=
    @Restyled.pad _ [] ['\u2028'] "#\r\nS\r".toList hreturns (.first _)
      (blank_nil.cons (by decide)) (by decide)
  have hend : Restyled "#\nS\r".toList "\u2028#\u0085\r\nS\r".toList :=
    @Restyled.pad _ "\u2028#".toList ['\u0085'] "\r\nS\r".toList hfirst
      (.returnFeed _ "S\r".toList) (blank_nil.cons (by decide)) (by decide)
  have hstart : Restyled "#\nS\r".toList "\u2028#\u0085\r\n\rS\r".toList :=
    @Restyled.pad _ "\u2028#\u0085\r\n".toList ['\r'] "S\r".toList hend
      (.start "\u2028#\u0085\r".toList _) (blank_nil.cons (by decide)) (by decide)
  have hlast : Restyled "#\nS\r".toList "\u2028#\u0085\r\n\rS\r\u3000".toList :=
    @Restyled.pad _ "\u2028#\u0085\r\n\rS\r".toList ['\u3000'] [] hstart (.last _)
      (blank_nil.cons (by decide)) (by decide)
  exact ⟨hlast, parse_restyled hlast .builtins "q"⟩

end QuantumCompiler
