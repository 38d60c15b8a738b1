import QuantumCompiler.Decimal.Layout
import QuantumCompiler.Settings.Basic
import QuantumCompiler.Yaml.Printer

/-!
# Writing settings

`Settings.render` writes every section and field, each on a line of its own and
each section two spaces deeper than its heading. The result is a settings file.
-/

namespace QuantumCompiler

open QuantumCompiler.Text
open QuantumCompiler.Yaml (indentation isBreak textScalar)

namespace Settings

/-- A line of a settings file. -/
structure Line where
  /-- The number of sections around it. -/
  depth : Nat
  /-- The name of the field or section. -/
  name : String
  /-- The value; a section has none. -/
  value : Option (List Char)

/-- The heading of a section. -/
def Line.heading (depth : Nat) (name : String) : Line :=
  ⟨depth, name, none⟩

/-- A truth value. -/
def Line.bool (depth : Nat) (name : String) (b : Bool) : Line :=
  ⟨depth, name, some (if b then "true".toList else "false".toList)⟩

/-- A count. -/
def Line.count (depth : Nat) (name : String) (n : Nat) : Line :=
  ⟨depth, name, some (numeral n)⟩

/-- A number. -/
def Line.number (depth : Nat) (name : String) (x : Float) : Line :=
  ⟨depth, name, some (Decimal.scientific x)⟩

/-- A text. -/
def Line.text (depth : Nat) (name : String) (s : String) : Line :=
  ⟨depth, name, some (textScalar (2 * (depth + 1)) s.toList)⟩

/-- A text that may be absent. -/
def Line.optionalText (depth : Nat) (name : String) : Option String → Line
  | some s => .text depth name s
  | none => ⟨depth, name, some "null".toList⟩

/-- A line as characters. It ends in a line feed, unless the value brings a line break of
its own. -/
def Line.render (l : Line) : List Char :=
  indentation (2 * l.depth) ++ l.name.toList ++ ':' ::
    (match l.value with
     | some v => ' ' :: (v ++ if v.getLast?.any isBreak then [] else ['\n'])
     | none => ['\n'])

/-- The lines of a settings file. -/
def lines (s : Settings) : List Line :=
  let qmi := s.compilers.qmi
  let annealer := s.compilers.annealer
  [.heading 0 "registry",
   .bool 1 "strict" s.strictRegistry,
   .heading 0 "compilers",
   .optionalText 1 "default" s.compilers.defaultName,
   .heading 1 "qmi",
   .bool 2 "enabled" qmi.enabled,
   .count 2 "num_qubits" qmi.numQubits,
   .number 2 "single_qubit_duration_ns" qmi.singleQubitDurationNs,
   .number 2 "two_qubit_duration_ns" qmi.twoQubitDurationNs,
   .number 2 "measure_duration_ns" qmi.measureDurationNs,
   .number 2 "single_qubit_infidelity" qmi.singleQubitInfidelity,
   .number 2 "two_qubit_infidelity" qmi.twoQubitInfidelity,
   .number 2 "measure_infidelity" qmi.measureInfidelity,
   .heading 1 "annealer",
   .bool 2 "enabled" annealer.enabled,
   .count 2 "num_qubits" annealer.numQubits,
   .heading 0 "limits",
   .count 1 "max_instructions" s.limits.maxInstructions,
   .count 1 "max_qubits" s.limits.maxQubits,
   .heading 0 "logging",
   .text 1 "level" s.logging.level,
   .text 1 "format" s.logging.format]

/-- The settings file. -/
def render (s : Settings) : String :=
  String.ofList (s.lines.flatMap Line.render)

end Settings

end QuantumCompiler
