import QuantumCompiler.Instruction.Basic

/-!
# Programs

A program is a list of instructions over one named qubit register. Its text has
one line per instruction.
-/

namespace QuantumCompiler

/-- Instructions over a qubit register. -/
structure Program where
  /-- The name of the register. -/
  register : String
  /-- The instructions, in order of execution. -/
  instructions : List Instruction := []

namespace Program

/-- The program without instructions. -/
def new (register : String) : Program :=
  ⟨register, []⟩

/-- Add an instruction at the end. -/
def push (p : Program) (i : Instruction) : Program :=
  { p with instructions := p.instructions ++ [i] }

/-- Add a list of instructions at the end. -/
def append (p : Program) (is : List Instruction) : Program :=
  { p with instructions := p.instructions ++ is }

/-- The number of instructions. -/
def length (p : Program) : Nat :=
  p.instructions.length

/-- All operands, instruction by instruction. -/
def operands (p : Program) : List Nat :=
  p.instructions.flatMap (·.bits)

/-- The least number of qubits that the operands fit in. -/
def numQubits (p : Program) : Nat :=
  p.operands.foldl (fun n bit => max n (bit + 1)) 0

-- ---------------------------------------------------------------------------
-- Remapping
-- ---------------------------------------------------------------------------

/-- An instruction with every operand `b` sent to `f b`. -/
def remapOne (f : Nat → Nat) (i : Instruction) : Except InstructionFault Instruction :=
  i.setBits (i.bits.map f)

/-- Remap instructions in order up to the first that refuses its new operands; that
one and all later ones stay as they were. -/
def remapAll (f : Nat → Nat) (is : List Instruction) :
    List Instruction × Except InstructionFault Unit :=
  let accepted := is.takeWhile fun i => (remapOne f i).isOk
  let rest := is.dropWhile fun i => (remapOne f i).isOk
  let result :=
    match rest with
    | [] => .ok ()
    | i :: _ => (remapOne f i).map fun _ => ()
  (accepted.filterMap (fun i => (remapOne f i).toOption) ++ rest, result)

/-- Send every operand `b` to `f b`. -/
def remap (p : Program) (f : Nat → Nat) : Program × Except InstructionFault Unit :=
  let (is, result) := remapAll f p.instructions
  ({ p with instructions := is }, result)

-- ---------------------------------------------------------------------------
-- Text
-- ---------------------------------------------------------------------------

/-- The lines of program text. -/
def renderLines (p : Program) : List String :=
  p.instructions.map fun i => i.render p.register

/-- The program as text, lines separated by line feeds. -/
def render (p : Program) : String :=
  String.ofList (['\n'].intercalate (p.instructions.map fun i => i.renderChars p.register.toList))

end Program

end QuantumCompiler
