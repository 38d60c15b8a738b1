import QuantumCompiler.Program.Basic

/-!
# Register names and size limits

What every back end checks before lowering: the register has a proper name, and
the program has neither too many instructions nor too many qubits. The first of
these that fails is reported, in that order.
-/

namespace QuantumCompiler

/-- A character that can start a register name. -/
def isNameStart (c : Char) : Bool :=
  c.isAlpha || c == '_'

/-- A character that can stand later in a register name. -/
def isNameRest (c : Char) : Bool :=
  c.isAlphanum || c == '_'

/-- A register name is an ASCII letter or underscore followed by ASCII letters, digits and
underscores. The fault names the first character that breaks the rule. -/
def checkRegisterName (name : String) : Except ValidationFault Unit :=
  match name.toList with
  | [] => .error (.field "register" "must not be empty")
  | c :: cs =>
    if !isNameStart c then
      .error (.field "register" s!"'{name}' must start with a letter or '_'")
    else
      match cs.find? fun c => !isNameRest c with
      | some c => .error (.field "register" s!"'{name}' contains invalid character '{c}'")
      | none => .ok ()

/-- The size limits on programs. -/
structure Limits where
  /-- The most instructions. -/
  maxInstructions : Nat := 100000
  /-- The most qubits. -/
  maxQubits : Nat := 4096
  deriving DecidableEq, Repr

/-- The checks on a program that do not look at single instructions. -/
def Program.validate (p : Program) (limits : Limits) : Except ValidationFault Unit := do
  checkRegisterName p.register
  if limits.maxInstructions < p.length then
    throw (.resourceLimit "instructions" limits.maxInstructions p.length)
  if limits.maxQubits < p.numQubits then
    throw (.resourceLimit "qubits" limits.maxQubits p.numQubits)

/-- The operands of the instruction at `index` address qubits that exist; the fault
names the first that does not. -/
def checkQubits (index : Nat) (bits : List Nat) (numQubits : Nat) : Except CompileFault Unit :=
  match bits.find? fun bit => numQubits ≤ bit with
  | some bit => .error (.qubitOutOfRange index bit numQubits)
  | none => .ok ()

end QuantumCompiler
