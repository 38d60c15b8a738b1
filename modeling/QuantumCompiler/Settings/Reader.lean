import QuantumCompiler.Settings.Basic
import QuantumCompiler.Yaml.Literal

/-!
# Reading settings

A settings file is a YAML mapping with the sections `registry`, `compilers`,
`limits` and `logging`. Sections and fields that are missing have their defaults,
and unknown ones are ignored.
-/

namespace QuantumCompiler

open QuantumCompiler.Yaml (Node readField)

/-- The section on the gate-model back end. -/
def QmiSettings.ofNode (n : Node) : Except Yaml.Fault QmiSettings := do
  let fields ← n.fields
  let fallback : QmiSettings := {}
  let enabled ← readField fields "enabled" Node.bool fallback.enabled
  let numQubits ← readField fields "num_qubits" Node.count fallback.numQubits
  let singleQubitDurationNs ←
    readField fields "single_qubit_duration_ns" Node.number fallback.singleQubitDurationNs
  let twoQubitDurationNs ←
    readField fields "two_qubit_duration_ns" Node.number fallback.twoQubitDurationNs
  let measureDurationNs ←
    readField fields "measure_duration_ns" Node.number fallback.measureDurationNs
  let singleQubitInfidelity ←
    readField fields "single_qubit_infidelity" Node.number fallback.singleQubitInfidelity
  let twoQubitInfidelity ←
    readField fields "two_qubit_infidelity" Node.number fallback.twoQubitInfidelity
  let measureInfidelity ←
    readField fields "measure_infidelity" Node.number fallback.measureInfidelity
  return { enabled, numQubits, singleQubitDurationNs, twoQubitDurationNs, measureDurationNs,
           singleQubitInfidelity, twoQubitInfidelity, measureInfidelity }

/-- The section on the annealer back end. -/
def AnnealerSettings.ofNode (n : Node) : Except Yaml.Fault AnnealerSettings := do
  let fields ← n.fields
  let fallback : AnnealerSettings := {}
  let enabled ← readField fields "enabled" Node.bool fallback.enabled
  let numQubits ← readField fields "num_qubits" Node.count fallback.numQubits
  return { enabled, numQubits }

/-- The section on compilers. -/
def CompilerSettings.ofNode (n : Node) : Except Yaml.Fault CompilerSettings := do
  let fields ← n.fields
  let fallback : CompilerSettings := {}
  let defaultName ← readField fields "default" Node.optionalText fallback.defaultName
  let qmi ← readField fields "qmi" QmiSettings.ofNode fallback.qmi
  let annealer ← readField fields "annealer" AnnealerSettings.ofNode fallback.annealer
  return { defaultName, qmi, annealer }

/-- The section on the size limits of programs. -/
def Limits.ofNode (n : Node) : Except Yaml.Fault Limits := do
  let fields ← n.fields
  let fallback : Limits := {}
  let maxInstructions ← readField fields "max_instructions" Node.count fallback.maxInstructions
  let maxQubits ← readField fields "max_qubits" Node.count fallback.maxQubits
  return { maxInstructions, maxQubits }

/-- The section on the log. -/
def LoggingSettings.ofNode (n : Node) : Except Yaml.Fault LoggingSettings := do
  let fields ← n.fields
  let fallback : LoggingSettings := {}
  let level ← readField fields "level" Node.text fallback.level
  let format ← readField fields "format" Node.text fallback.format
  return { level, format }

/-- The section on the instruction registry: whether it is strict. -/
def Settings.strictOfNode (n : Node) : Except Yaml.Fault Bool := do
  let fields ← n.fields
  readField fields "strict" Node.bool false

/-- The settings of a document. -/
def Settings.ofNode (n : Node) : Except Yaml.Fault Settings := do
  let fields ← n.fields
  let fallback : Settings := {}
  let strictRegistry ←
    readField fields "registry" Settings.strictOfNode fallback.strictRegistry
  let compilers ← readField fields "compilers" CompilerSettings.ofNode fallback.compilers
  let limits ← readField fields "limits" Limits.ofNode fallback.limits
  let logging ← readField fields "logging" LoggingSettings.ofNode fallback.logging
  return { strictRegistry, compilers, limits, logging }

/-- The settings of a text. -/
def Settings.parse (text : String) : Except Fault Settings :=
  match Yaml.Node.parse text.toList >>= Settings.ofNode with
  | .ok s => .ok s
  | .error fault => .error (.serialization fault.message)

end QuantumCompiler
