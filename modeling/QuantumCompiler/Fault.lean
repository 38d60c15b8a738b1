/-!
# Faults

Everything that can go wrong, by cause, with one function per type for the
wording:

* `InstructionFault` — building, re-addressing or registering an instruction;
* `ValidationFault` — a field or a size that a program must not have;
* `CompileFault` — a program that a back end cannot lower;
* `RegistryFault` — looking up compilers, loading and unloading plugins;
* `Fault` — any of these, and what comes from files, settings and program text.
-/

namespace QuantumCompiler

-- ---------------------------------------------------------------------------
-- Instructions
-- ---------------------------------------------------------------------------

/-- Why an instruction was refused. -/
inductive InstructionFault where
  | unknown (name : String)
  | invalidArity (name : String) (expected actual : Nat)
  | invalidParameters (name : String) (expected actual : Nat)
  | duplicateOperand (name : String) (bit : Nat)
  | alreadyRegistered (name : String)
  deriving DecidableEq, Repr

/-- The wording of an instruction fault. -/
def InstructionFault.message : InstructionFault → String
  | .unknown name => s!"Unknown instruction: {name}"
  | .invalidArity name expected actual =>
    s!"Instruction {name} expects {expected} operand(s), got {actual}"
  | .invalidParameters name expected actual =>
    s!"Instruction {name} expects {expected} parameter(s), got {actual}"
  | .duplicateOperand name bit => s!"Instruction {name} uses qubit {bit} more than once"
  | .alreadyRegistered name => s!"Instruction already registered: {name}"

-- ---------------------------------------------------------------------------
-- Validation
-- ---------------------------------------------------------------------------

/-- Why a program or a name was refused before any lowering. -/
inductive ValidationFault where
  | field (subject message : String)
  | resourceLimit (resource : String) (limit requested : Nat)
  deriving DecidableEq, Repr

/-- The wording of a validation fault. -/
def ValidationFault.message : ValidationFault → String
  | .field subject message => s!"Field '{subject}': {message}"
  | .resourceLimit resource limit requested =>
    s!"Resource limit exceeded for {resource}: limit={limit}, requested={requested}"

-- ---------------------------------------------------------------------------
-- Compilation
-- ---------------------------------------------------------------------------

/-- Why a back end refused a program. -/
inductive CompileFault where
  | unsupported (name : String) (index : Nat)
  | qubitOutOfRange (index qubit limit : Nat)
  | validation (fault : ValidationFault)
  deriving DecidableEq, Repr

/-- The wording of a compile fault. -/
def CompileFault.message : CompileFault → String
  | .unsupported name index => s!"Unsupported instruction {name} at index {index}"
  | .qubitOutOfRange index qubit limit =>
    s!"Instruction at index {index} addresses qubit {qubit}, backend has {limit} qubit(s)"
  | .validation fault => fault.message

/-- The position of the instruction at fault, where the fault names one. -/
def CompileFault.instructionIndex? : CompileFault → Option Nat
  | .unsupported _ index => some index
  | .qubitOutOfRange index _ _ => some index
  | .validation _ => none

-- ---------------------------------------------------------------------------
-- Compilers and plugins
-- ---------------------------------------------------------------------------

/-- Why a compiler or a plugin could not be found, loaded or unloaded. -/
inductive RegistryFault where
  | unknownCompiler (name : String)
  | pluginAlreadyLoaded (name : String)
  | pluginNotLoaded (name : String)
  | plugin (name message : String)
  deriving DecidableEq, Repr

/-- The wording of a registry fault. -/
def RegistryFault.message : RegistryFault → String
  | .unknownCompiler name => s!"Unknown compiler: {name}"
  | .pluginAlreadyLoaded name => s!"Plugin already loaded: {name}"
  | .pluginNotLoaded name => s!"Plugin not loaded: {name}"
  | .plugin name message => s!"Plugin {name} failed: {message}"

-- ---------------------------------------------------------------------------
-- All faults
-- ---------------------------------------------------------------------------

/-- Any fault that can end an operation. -/
inductive Fault where
  | configuration (message : String)
  | instruction (fault : InstructionFault)
  | registry (fault : RegistryFault)
  | compile (fault : CompileFault)
  | validation (fault : ValidationFault)
  | parse (line : Nat) (message : String)
  | io (message : String)
  | serialization (message : String)
  deriving DecidableEq, Repr

/-- The wording of a fault, with the area it belongs to in front. -/
def Fault.message : Fault → String
  | .configuration message => s!"Configuration error: {message}"
  | .instruction fault => s!"Instruction error: {fault.message}"
  | .registry fault => s!"Registry error: {fault.message}"
  | .compile fault => s!"Compile error: {fault.message}"
  | .validation fault => s!"Validation error: {fault.message}"
  | .parse line message => s!"Parse error at line {line}: {message}"
  | .io message => s!"IO error: {message}"
  | .serialization message => s!"Serialization error: {message}"

/-- The wording of the fault that this one wraps. -/
def Fault.cause? : Fault → Option String
  | .instruction fault => some fault.message
  | .registry fault => some fault.message
  | .compile fault => some fault.message
  | .validation fault => some fault.message
  | .io message => some message
  | .configuration _ | .parse _ _ | .serialization _ => none

end QuantumCompiler
