import QuantumCompiler.Backend.Compiled
import QuantumCompiler.Backend.Native

/-!
# The gate-model back end

Lowers circuits to the native gates of a quantum machine: rotations about the
three axes, the controlled-Z gate and the measurement. Rotations about the Z
axis only change the frame of reference, so they take no time and never fail.

The back end lowers an instruction if it knows the name and the instruction has
the operand and parameter counts that go with it; it then checks that the
operands exist. `lower` reports the first instruction that fails, by position.
-/

namespace QuantumCompiler

/-- The machine that the gate-model back end compiles for. -/
structure QmiTarget where
  /-- The number of addressable qubits. -/
  numQubits : Nat := 20
  /-- The duration of a rotation about the X or Y axis. -/
  singleQubitDurationNs : Float := 20.0
  /-- The duration of a controlled-Z gate. -/
  twoQubitDurationNs : Float := 60.0
  /-- The duration of a measurement. -/
  measureDurationNs : Float := 400.0
  /-- The infidelity of a rotation about the X or Y axis. -/
  singleQubitInfidelity : Float := 0.001
  /-- The infidelity of a controlled-Z gate. -/
  twoQubitInfidelity : Float := 0.01
  /-- The infidelity of a measurement. -/
  measureInfidelity : Float := 0.02

-- ---------------------------------------------------------------------------
-- Native gates of the machine
-- ---------------------------------------------------------------------------

namespace QmiTarget

/-- The double nearest to `π`. -/
def pi : Float := Float.ofBits 0x400921FB54442D18

/-- The double nearest to `π / 2`. -/
def halfPi : Float := Float.ofBits 0x3FF921FB54442D18

/-- The double nearest to `π / 4`. -/
def quarterPi : Float := Float.ofBits 0x3FE921FB54442D18

/-- A rotation about the X axis. -/
def rx (t : QmiTarget) (qubit : Nat) (angle : Float) : NativeGate :=
  ⟨"rx", [qubit], [angle], t.singleQubitDurationNs, t.singleQubitInfidelity⟩

/-- A rotation about the Y axis. -/
def ry (t : QmiTarget) (qubit : Nat) (angle : Float) : NativeGate :=
  ⟨"ry", [qubit], [angle], t.singleQubitDurationNs, t.singleQubitInfidelity⟩

/-- A rotation about the Z axis, a change of frame without cost. -/
def rz (_t : QmiTarget) (qubit : Nat) (angle : Float) : NativeGate :=
  ⟨"rz", [qubit], [angle], 0.0, 0.0⟩

/-- A controlled-Z gate. -/
def cz (t : QmiTarget) (a b : Nat) : NativeGate :=
  ⟨"cz", [a, b], [], t.twoQubitDurationNs, t.twoQubitInfidelity⟩

/-- A measurement. -/
def measure (t : QmiTarget) (qubit : Nat) : NativeGate :=
  ⟨"measure", [qubit], [], t.measureDurationNs, t.measureInfidelity⟩

/-- A controlled-NOT gate: a controlled-Z gate between two quarter turns of the
target. -/
def cnot (t : QmiTarget) (control target : Nat) : List NativeGate :=
  [t.ry target (-halfPi), t.cz control target, t.ry target halfPi]

/-- The native gates of one instruction, if the back end knows an instruction of
this name with these operand and parameter counts. -/
def expand? (t : QmiTarget) (name : String) (bits : List Nat) (params : List Float) :
    Option (List NativeGate) :=
  match Kind.ofName? name, bits, params with
  | some .x, [q], [] => some [t.rx q pi]
  | some .y, [q], [] => some [t.ry q pi]
  | some .z, [q], [] => some [t.rz q pi]
  | some .h, [q], [] => some [t.ry q halfPi, t.rx q pi]
  | some .s, [q], [] => some [t.rz q halfPi]
  | some .t, [q], [] => some [t.rz q quarterPi]
  | some .rx, [q], [angle] => some [t.rx q angle]
  | some .ry, [q], [angle] => some [t.ry q angle]
  | some .rz, [q], [angle] => some [t.rz q angle]
  | some .cz, [a, b], [] => some [t.cz a b]
  | some .cnot, [a, b], [] => some (t.cnot a b)
  | some .swap, [a, b], [] => some (t.cnot a b ++ t.cnot b a ++ t.cnot a b)
  | some .measure, [q], [] => some [t.measure q]
  | _, _, _ => none

end QmiTarget

-- ---------------------------------------------------------------------------
-- The back end
-- ---------------------------------------------------------------------------

/-- The gate-model back end for a machine, with size limits on programs. -/
structure Qmi where
  /-- The machine. -/
  target : QmiTarget := {}
  /-- The limits checked before lowering. -/
  limits : Limits := {}

namespace Qmi

/-- The name of the back end. -/
def backendName : String := "qmi"

/-- The names of the native gates. -/
def nativeBasis : List String :=
  ["rx", "ry", "rz", "cz", "measure"]

/-- The names of the instructions that the back end lowers, in increasing order. -/
def supported : List String :=
  (Kind.gates.map Kind.name).mergeSort fun a b => decide (a ≤ b)

/-- Lower the instruction at a position. -/
def lowerInstruction (q : Qmi) (located : Instruction × Nat) : Except CompileFault (List NativeGate) :=
  let (i, index) := located
  match q.target.expand? i.name i.bits i.params with
  | none => .error (.unsupported i.name index)
  | some gates => do
    checkQubits index i.bits q.target.numQubits
    return gates

/-- Lower a program to native gates. -/
def lower (q : Qmi) (p : Program) : Except CompileFault Sequence :=
  match p.validate q.limits with
  | .error fault => .error (.validation fault)
  | .ok () => do
    let gates ← p.instructions.zipIdx.mapM q.lowerInstruction
    return ⟨backendName, gates.flatten⟩

/-- Compile a program to one line per native gate. -/
def compile (q : Qmi) (p : Program) : Except CompileFault CompiledProgram := do
  let sequence ← q.lower p
  return ⟨backendName, p.register, sequence.lines⟩

/-- The back end as a compiler. -/
def compiler (q : Qmi) : Compiler :=
  ⟨backendName, q.compile⟩

end Qmi

end QuantumCompiler
