import QuantumCompiler.Backend.Annealer
import QuantumCompiler.Backend.Qmi
import QuantumCompiler.Instruction.Registry

/-!
# Settings

What can be configured: the policy of the instruction registry, the back ends
and which of them is the default, the size limits on programs, and logging. Each
field has a default, so the empty settings are complete.
-/

namespace QuantumCompiler

/-- Settings of the gate-model back end. -/
structure QmiSettings extends QmiTarget where
  /-- Whether the back end is loaded. -/
  enabled : Bool := true

/-- Settings of the annealer back end. -/
structure AnnealerSettings extends AnnealerTarget where
  /-- Whether the back end is loaded. -/
  enabled : Bool := true

/-- Settings of the compilers. -/
structure CompilerSettings where
  /-- The compiler used when none is named. -/
  defaultName : Option String := some Qmi.backendName
  /-- The gate-model back end. -/
  qmi : QmiSettings := {}
  /-- The annealer back end. -/
  annealer : AnnealerSettings := {}

/-- Settings of the log. -/
structure LoggingSettings where
  /-- The least severe level that is shown. -/
  level : String := "info"
  /-- The form of an entry. -/
  format : String := "pretty"
  deriving DecidableEq, Repr

/-- All settings. -/
structure Settings where
  /-- Whether a bound instruction name refuses a second registration. -/
  strictRegistry : Bool := false
  /-- The compilers. -/
  compilers : CompilerSettings := {}
  /-- The size limits on programs. -/
  limits : Limits := {}
  /-- The log. -/
  logging : LoggingSettings := {}

namespace Settings

/-- The policy of the instruction registry. -/
def policy (s : Settings) : RegistrationPolicy :=
  if s.strictRegistry then .strict else .overwrite

/-- Whether a name is that of a back end that is loaded. -/
def isEnabled (s : Settings) (name : String) : Bool :=
  (name = Qmi.backendName && s.compilers.qmi.enabled) ||
    (name = Annealer.backendName && s.compilers.annealer.enabled)

-- ---------------------------------------------------------------------------
-- Validation
-- ---------------------------------------------------------------------------

/-- The durations of the gate-model back end, by field name. -/
def durations (s : Settings) : List (String × Float) :=
  let q := s.compilers.qmi
  [("single_qubit_duration_ns", q.singleQubitDurationNs),
   ("two_qubit_duration_ns", q.twoQubitDurationNs),
   ("measure_duration_ns", q.measureDurationNs)]

/-- The infidelities of the gate-model back end, by field name. -/
def infidelities (s : Settings) : List (String × Float) :=
  let q := s.compilers.qmi
  [("single_qubit_infidelity", q.singleQubitInfidelity),
   ("two_qubit_infidelity", q.twoQubitInfidelity),
   ("measure_infidelity", q.measureInfidelity)]

/-- A finite number that is not negative. -/
def isDuration (x : Float) : Bool :=
  Decimal.isFinite x && decide (0.0 ≤ x)

/-- A number from zero to one. -/
def isProbability (x : Float) : Bool :=
  decide (0.0 ≤ x) && decide (x ≤ 1.0)

/-- The log levels. -/
def logLevels : List String :=
  ["trace", "debug", "info", "warn", "error"]

/-- The log formats. -/
def logFormats : List String :=
  ["pretty", "json"]

/-- The first rule that the settings break, in words. -/
def complaint? (s : Settings) : Option String :=
  let qmi := s.compilers.qmi
  let annealer := s.compilers.annealer
  if !qmi.enabled && !annealer.enabled then some "At least one compiler must be enabled"
  else if qmi.enabled && qmi.numQubits = 0 then some "QMI qubit count cannot be 0"
  else if annealer.enabled && annealer.numQubits = 0 then some "Annealer qubit count cannot be 0"
  else if let some (field, _) := s.durations.find? fun f => !isDuration f.2 then
    some s!"QMI {field} must be a non-negative number"
  else if let some (field, _) := s.infidelities.find? fun f => !isProbability f.2 then
    some s!"QMI {field} must be between 0 and 1"
  else if let some name := s.compilers.defaultName.filter fun n => !s.isEnabled n then
    some s!"Default compiler '{name}' is not an enabled compiler"
  else if !logLevels.contains s.logging.level then some s!"Unknown log level '{s.logging.level}'"
  else if !logFormats.contains s.logging.format then
    some s!"Unknown log format '{s.logging.format}'"
  else none

/-- Settings are valid if they break no rule. -/
def validate (s : Settings) : Except Fault Unit :=
  match s.complaint? with
  | some message => .error (.configuration message)
  | none => .ok ()

end Settings

end QuantumCompiler
