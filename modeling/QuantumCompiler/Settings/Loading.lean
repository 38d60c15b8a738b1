import QuantumCompiler.Settings.Reader
import QuantumCompiler.Storage

/-!
# Where settings come from

Settings start from the defaults. A settings file replaces them: the given one if
it exists, or else the first of the usual names if none is given. Environment
variables then override single fields.
-/

namespace QuantumCompiler

/-- The surroundings of a run: its files and its environment variables. -/
structure Surroundings where
  /-- The files. -/
  storage : Storage := {}
  /-- The environment variables. -/
  environment : List (String × String) := []

/-- The setting of an environment variable. -/
def Surroundings.setting? (around : Surroundings) (name : String) : Option String :=
  around.environment.lookup name

namespace Settings

/-- The names under which a settings file is looked for. -/
def usualPaths : List String :=
  ["config.yaml", "config.yml", "/etc/qubitos/compiler.yaml"]

/-- The settings file that applies. -/
def path? (storage : Storage) (given : Option String) : Option String :=
  match given with
  | some path => if storage.has path then some path else none
  | none => usualPaths.find? storage.has

-- ---------------------------------------------------------------------------
-- Environment variables
-- ---------------------------------------------------------------------------

/-- The variables that override settings. -/
def variableNames : List String :=
  ["QUBITOS_LOG_LEVEL", "QUBITOS_LOG_FORMAT", "QUBITOS_STRICT_REGISTRY",
   "QUBITOS_DEFAULT_COMPILER", "QUBITOS_QMI_NUM_QUBITS", "QUBITOS_ANNEALER_NUM_QUBITS"]

/-- A truth value in the environment: `true` in any case, or `1`. -/
def isTrueWord (s : String) : Bool :=
  s.toList.map Char.toLower == ['t', 'r', 'u', 'e'] || s == "1"

/-- A count in the environment: digits after an optional plus sign. -/
def readVariableCount? (s : String) : Option Nat :=
  Text.readWord? (Yaml.dropPlus s.toList)

/-- Settings under the environment variables. A count that cannot be read is ignored. -/
def override (s : Settings) (around : Surroundings) : Settings :=
  let strict := (around.setting? "QUBITOS_STRICT_REGISTRY").map isTrueWord
  let qmiQubits := (around.setting? "QUBITOS_QMI_NUM_QUBITS").bind readVariableCount?
  let annealerQubits := (around.setting? "QUBITOS_ANNEALER_NUM_QUBITS").bind readVariableCount?
  { s with
    strictRegistry := strict.getD s.strictRegistry
    compilers := { s.compilers with
      defaultName := around.setting? "QUBITOS_DEFAULT_COMPILER" <|> s.compilers.defaultName
      qmi := { s.compilers.qmi with numQubits := qmiQubits.getD s.compilers.qmi.numQubits }
      annealer := { s.compilers.annealer with
        numQubits := annealerQubits.getD s.compilers.annealer.numQubits } }
    logging := {
      level := (around.setting? "QUBITOS_LOG_LEVEL").getD s.logging.level
      format := (around.setting? "QUBITOS_LOG_FORMAT").getD s.logging.format } }

-- ---------------------------------------------------------------------------
-- Loading
-- ---------------------------------------------------------------------------

/-- The settings that apply in the given surroundings. -/
def load (around : Surroundings) (given : Option String) : Except Fault Settings := do
  let s ←
    match path? around.storage given with
    | some path => do Settings.parse (← around.storage.read path)
    | none => pure {}
  return s.override around

end Settings

end QuantumCompiler
