import QuantumCompiler.Decimal.Layout
import QuantumCompiler.Fault
import QuantumCompiler.Instruction.Kind

/-!
# Instructions

An instruction applies an operation to qubits of one register. A built-in
instruction has as many operands and parameters as its kind demands, and its
operands are pairwise distinct: construction and re-addressing check this. A
free-form instruction carries a name of its own and is not checked.

* `Kind.withParams`, `Kind.new`, `Kind.create` — checked construction;
* `Kind.on`, `Kind.onWith`, `Kind.between` — construction from single operands;
* `Instruction.setBits` — new operands for an existing instruction;
* `Instruction.render` — the instruction as a line of program text.
-/

namespace QuantumCompiler

open QuantumCompiler.Text

/-- What an instruction does: a built-in kind, or an operation known by name. -/
inductive Opcode where
  | builtin (kind : Kind)
  | free (name : String)
  deriving DecidableEq, Repr

/-- The name of an operation in program text. -/
def Opcode.name : Opcode → String
  | .builtin kind => kind.name
  | .free name => name

/-- An operation applied to qubits. -/
structure Instruction where
  /-- The operation. -/
  opcode : Opcode
  /-- The qubits it addresses, in the order that gives them their roles. -/
  bits : List Nat
  /-- Its angles or weights. -/
  params : List Float

/-- The name of an instruction. -/
def Instruction.name (i : Instruction) : String :=
  i.opcode.name

-- ---------------------------------------------------------------------------
-- Checks
-- ---------------------------------------------------------------------------

/-- The first entry that is among `seen` or occurs earlier in the list. -/
def firstRepeat (seen : List Nat) : List Nat → Option Nat
  | [] => none
  | b :: bs => if b ∈ seen then some b else firstRepeat (b :: seen) bs

/-- Operands are right if there are `arity` of them and no two are equal. -/
def checkOperands (name : String) (arity : Nat) (bits : List Nat) :
    Except InstructionFault Unit :=
  if bits.length ≠ arity then .error (.invalidArity name arity bits.length)
  else
    match firstRepeat [] bits with
    | some bit => .error (.duplicateOperand name bit)
    | none => .ok ()

/-- Parameters are right if there are as many as expected. -/
def checkParams (name : String) (expected : Nat) (params : List Float) :
    Except InstructionFault Unit :=
  if params.length ≠ expected then .error (.invalidParameters name expected params.length)
  else .ok ()

-- ---------------------------------------------------------------------------
-- Construction
-- ---------------------------------------------------------------------------

namespace Kind

/-- An instruction of this kind, operands checked before parameters. -/
def withParams (kind : Kind) (bits : List Nat) (params : List Float) :
    Except InstructionFault Instruction := do
  checkOperands kind.name kind.arity bits
  checkParams kind.name kind.numParams params
  return ⟨.builtin kind, bits, params⟩

/-- The parameters of an instruction that was given none. -/
def defaultParams (kind : Kind) : List Float :=
  List.replicate kind.numParams 0

/-- An instruction of this kind whose parameters are all zero. -/
def new (kind : Kind) (bits : List Nat) : Except InstructionFault Instruction :=
  kind.withParams bits kind.defaultParams

/-- An instruction of this kind; an empty list of parameters stands for zeros. -/
def create (kind : Kind) (bits : List Nat) (params : List Float) :
    Except InstructionFault Instruction :=
  if params.isEmpty then kind.new bits else kind.withParams bits params

/-- An instruction without parameters on one qubit. -/
def on (kind : Kind) (qubit : Nat) : Instruction :=
  ⟨.builtin kind, [qubit], []⟩

/-- An instruction with an angle or a weight on one qubit. -/
def onWith (kind : Kind) (qubit : Nat) (param : Float) : Instruction :=
  ⟨.builtin kind, [qubit], [param]⟩

/-- An instruction with a weight between two qubits. -/
def between (kind : Kind) (a b : Nat) (param : Float) : Except InstructionFault Instruction :=
  kind.withParams [a, b] [param]

end Kind

-- ---------------------------------------------------------------------------
-- Use
-- ---------------------------------------------------------------------------

namespace Instruction

/-- Whether the operands and parameters are those that a built-in kind demands;
free-form instructions are not constrained. -/
def WellFormed (i : Instruction) : Prop :=
  match i.opcode with
  | .builtin kind => i.bits.length = kind.arity ∧ i.bits.Nodup ∧ i.params.length = kind.numParams
  | .free _ => True

/-- The instruction on new operands. A built-in instruction refuses operands that
its construction would refuse. -/
def setBits (i : Instruction) (bits : List Nat) : Except InstructionFault Instruction :=
  match i.opcode with
  | .builtin kind => do
    checkOperands kind.name kind.arity bits
    return { i with bits := bits }
  | .free _ => .ok { i with bits := bits }

/-- The angle or weight, for an instruction that has one. -/
def param? (i : Instruction) : Option Float :=
  i.params.head?

/-- One operand in program text: the register followed by the qubit index. -/
def renderOperand (register : List Char) (bit : Nat) : List Char :=
  register ++ numeral bit

/-- The parameter list in program text, absent if there are no parameters. -/
def renderParams (params : List Float) : List Char :=
  if params.isEmpty then [] else '(' :: ([',', ' '].intercalate (params.map Decimal.plain) ++ [')'])

/-- The characters of an instruction's line of program text. -/
def renderChars (i : Instruction) (register : List Char) : List Char :=
  i.name.toList ++ renderParams i.params ++
    i.bits.flatMap fun bit => ' ' :: renderOperand register bit

/-- An instruction's line of program text. -/
def render (i : Instruction) (register : String) : String :=
  String.ofList (i.renderChars register.toList)

end Instruction

end QuantumCompiler
