import QuantumCompiler.CommandLine.Arguments
import QuantumCompiler.CommandLine.Report
import QuantumCompiler.Host.Builtin
import QuantumCompiler.Json.Compiled
import QuantumCompiler.Program.Parser
import QuantumCompiler.Settings.Loading
import QuantumCompiler.Settings.Printer

/-!
# Runs

A run reads its arguments, loads the settings and carries out one command. What
it does to the world is an `Effect`: it prints a text, or it writes one to a
file. A run that fails does neither and says why.
-/

namespace QuantumCompiler.CommandLine

/-- What a run that succeeds does. -/
inductive Effect where
  | print (text : String)
  | write (path text : String)
  deriving DecidableEq, Repr

/-- The files after an effect. -/
def Effect.apply (e : Effect) (storage : Storage) : Storage :=
  match e with
  | .print _ => storage
  | .write path text => (storage.write path text).toOption.getD storage

/-- Why a run failed. -/
inductive Failure where
  /-- The arguments make no request. -/
  | usage (fault : UsageFault)
  /-- The run could not go on. -/
  | aborted (fault : Fault)
  /-- The program of a file could not be compiled. -/
  | compilation (file : String) (fault : CompileFault)
  /-- The settings break a rule. -/
  | settings (fault : Fault)
  deriving DecidableEq, Repr

/-- The exit code. -/
def Failure.code : Failure → Nat
  | .usage _ => 2
  | _ => 1

/-- The wording of a failure. -/
def Failure.message : Failure → String
  | .usage fault => s!"error: {fault.message}\n"
  | .aborted fault => s!"Error: {Report.ofFault fault}\n"
  | .compilation file fault => s!"{file}: {fault.message}\n"
  | .settings fault => s!"Configuration error: {fault.message}\n"

/-- A fault that ends the run. -/
def orFail {α : Type} : Except Fault α → Except Failure α
  | .ok v => .ok v
  | .error fault => .error (.aborted fault)

-- ---------------------------------------------------------------------------
-- Commands
-- ---------------------------------------------------------------------------

/-- The host with the enabled back ends; there must be one. -/
def startHost (s : Settings) : Except Fault Host :=
  match Host.empty.loadBuiltins 0 s with
  | (_, .error fault) => .error (.registry fault)
  | (host, .ok ()) =>
    if host.registry.size = 0 then
      .error (.configuration "No compilers available. At least one compiler must be enabled.")
    else .ok host

/-- The program of a job and the compiler that it goes to. -/
def Job.prepare (job : Job) (s : Settings) (storage : Storage) :
    Except Fault (Program × Compiler) := do
  s.validate
  let host ← startHost s
  let source ← storage.read job.file
  let program ← Program.parse InstructionRegistry.builtins job.register source
  match host.registry.getOrDefault job.compiler with
  | .ok handle => return (program, handle.compiler)
  | .error fault => throw (.registry fault)

/-- The compiled program of a job. -/
def Job.compile (job : Job) (s : Settings) (storage : Storage) :
    Except Failure CompiledProgram := do
  let (program, compiler) ← orFail (job.prepare s storage)
  match compiler.compile program with
  | .ok compiled => return compiled
  | .error fault => throw (.compilation job.file fault)

/-- A compiled program as it is written: JSON or its lines, and a line feed. -/
def Job.render (job : Job) (compiled : CompiledProgram) : String :=
  (if job.json then compiled.prettyJson else compiled.text) ++ "\n"

/-- Carry out a job. -/
def Job.run (job : Job) (s : Settings) (storage : Storage) : Except Failure Effect := do
  let text := job.render (← job.compile s storage)
  match job.output with
  | none => return .print text
  | some path =>
    let _ ← orFail (storage.write path text)
    return .write path text

/-- The names of the instructions. -/
def gatesText : String :=
  "Registered instructions:\n" ++
    String.join (InstructionRegistry.builtins.names.map fun name => s!"  {name}\n")

/-- The names of the compilers, each with the plugin that brought it. -/
def compilersText (host : Host) : String :=
  "Available compilers:\n" ++
    String.join (host.registry.names.map fun name =>
      let mark := if host.registry.defaultName = some name then " (default)" else ""
      let owner := (host.ownerOf name).getD "-"
      s!"  {name} [plugin: {owner}]{mark}\n")

/-- Carry out a command. -/
def Command.run (command : Command) (s : Settings) (storage : Storage) :
    Except Failure Effect :=
  match command with
  | .compile job => job.run s storage
  | .gates => .ok (.print gatesText)
  | .compilers => do
    let host ← orFail (do s.validate; startHost s)
    return .print (compilersText host)
  | .config => .ok (.print (s.render ++ "\n"))
  | .validate =>
    match s.validate with
    | .ok () => .ok (.print "Configuration is valid\n")
    | .error fault => .error (.settings fault)

-- ---------------------------------------------------------------------------
-- Runs
-- ---------------------------------------------------------------------------

/-- The answer to `--version`. -/
def versionText : String :=
  "qubit-os-qc 0.1.0\n"

/-- The answer to `--help`. -/
def helpText : String :=
  "Compile quantum programs with pluggable backends\n\n" ++
  "Usage: qubit-os-qc [OPTIONS] <COMMAND>\n\n" ++
  "Commands:\n" ++
  "  compile    Compile a program file\n" ++
  "  gates      List registered instructions\n" ++
  "  compilers  List registered compilers\n" ++
  "  config     Show effective configuration\n" ++
  "  validate   Validate configuration file\n" ++
  "  help       Print this message\n\n" ++
  "Options:\n" ++
  "  -c, --config <CONFIG>        Path to configuration file\n" ++
  "      --log-level <LOG_LEVEL>  Log level (trace, debug, info, warn, error)\n" ++
  "  -h, --help                   Print help\n" ++
  "  -V, --version                Print version\n"

/-- The environment variable that names the settings file. -/
def configVariable : String :=
  "QUBITOS_CONFIG"

/-- Carry out a request. A log level among the arguments overrides the settings. -/
def Request.run (r : Request) (around : Surroundings) : Except Failure Effect := do
  let s ← orFail (Settings.load around r.config)
  let s := { s with logging := { s.logging with level := r.logLevel.getD s.logging.level } }
  r.command.run s around.storage

/-- A run with the given arguments. -/
def run (around : Surroundings) (arguments : List String) : Except Failure Effect :=
  match Request.parse (around.setting? configVariable) arguments with
  | .ok request => request.run around
  | .error .version => .ok (.print versionText)
  | .error .help => .ok (.print helpText)
  | .error (.fault fault) => .error (.usage fault)

end QuantumCompiler.CommandLine
