import QuantumCompiler.Decimal.Layout

/-!
# Native gates

A gate-model target executes native gates, each with an estimated duration and
infidelity. A `Sequence` is what a program lowers to; its cost is the sum of the
costs of its gates, and its fidelity the product of their fidelities, both
taken in order.
-/

namespace QuantumCompiler

open QuantumCompiler.Text

/-- A gate that a target executes. -/
structure NativeGate where
  /-- The name of the gate. -/
  name : String
  /-- The qubits it acts on. -/
  qubits : List Nat
  /-- Its angles. -/
  parameters : List Float
  /-- The estimated duration in nanoseconds. -/
  durationNs : Float
  /-- The estimated probability of failure. -/
  infidelity : Float

namespace NativeGate

/-- The qubits of a gate as text: `q0, q1`. A gate without qubits shows a bare `q`. -/
def qubitsText (qubits : List Nat) : List Char :=
  'q' :: [',', ' ', 'q'].intercalate (qubits.map numeral)

/-- The characters of a gate's line: `name(qubits)`, or `name(parameters) qubits`
for a gate with parameters. -/
def renderChars (g : NativeGate) : List Char :=
  if g.parameters.isEmpty then g.name.toList ++ '(' :: (qubitsText g.qubits ++ [')'])
  else
    g.name.toList ++ '(' :: ([',', ' '].intercalate (g.parameters.map Decimal.sixPlaces) ++
      ')' :: ' ' :: qubitsText g.qubits)

/-- A gate's line. -/
def render (g : NativeGate) : String :=
  String.ofList g.renderChars

end NativeGate

/-- Native gates in order of execution. -/
structure Sequence where
  /-- The name of the compiler that produced the sequence. -/
  backend : String
  /-- The gates. -/
  gates : List NativeGate

namespace Sequence

/-- The duration of running the gates one after the other. The empty sum is the
neutral element of addition, negative zero. -/
def totalDurationNs (s : Sequence) : Float :=
  s.gates.foldl (fun total g => total + g.durationNs) (-0.0)

/-- The sum of the infidelities. -/
def totalInfidelity (s : Sequence) : Float :=
  s.gates.foldl (fun total g => total + g.infidelity) (-0.0)

/-- The probability that no gate fails. -/
def estimatedFidelity (s : Sequence) : Float :=
  s.gates.foldl (fun total g => total * (1.0 - g.infidelity)) 1.0

/-- One line per gate. -/
def lines (s : Sequence) : List String :=
  s.gates.map NativeGate.render

end Sequence

end QuantumCompiler
