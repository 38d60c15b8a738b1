import QuantumCompiler.Instruction.Registry
import QuantumCompiler.Program.Limits
import QuantumCompiler.Text.Blank

/-!
# Reading program text

One instruction per line: a name, an optional parameter list in parentheses that
follows the name at once, and operands separated by blanks. Each operand is the
register's name followed by a qubit index in digits.

    # Bell pair
    H q0
    CNOT q0 q1
    Rz(0.25) q1

Blank lines and lines that start with `#` or `//` are skipped. A fault in a line
stops the reading and carries the line's number, counted from one.
-/

namespace QuantumCompiler

open QuantumCompiler.Text

/-- Why a line of program text was refused. -/
inductive LineFault where
  | unclosedParameters
  | emptyParameter
  | invalidParameter (text : List Char)
  | missingName
  | foreignOperand (operand register : List Char)
  | invalidIndex (operand : List Char)
  | indexOutOfRange (operand : List Char)
  | instruction (fault : InstructionFault)
  deriving DecidableEq, Repr

/-- The wording of a line fault. -/
def LineFault.message : LineFault → String
  | .unclosedParameters => "unclosed parameter list"
  | .emptyParameter => "empty parameter"
  | .invalidParameter text => s!"invalid parameter '{String.ofList text}'"
  | .missingName => "missing instruction name"
  | .foreignOperand operand register =>
    s!"operand '{String.ofList operand}' does not address register '{String.ofList register}'"
  | .invalidIndex operand => s!"invalid qubit index in operand '{String.ofList operand}'"
  | .indexOutOfRange operand => s!"qubit index out of range in operand '{String.ofList operand}'"
  | .instruction fault => fault.message

-- ---------------------------------------------------------------------------
-- The parts of a line
-- ---------------------------------------------------------------------------

/-- A line taken apart: its name, the values of its parameters, its operand words. -/
structure LineParts where
  /-- The instruction's name. -/
  name : List Char
  /-- The parameters in parentheses. -/
  params : List Float
  /-- The operand words after them. -/
  operands : List (List Char)

/-- The text before the first character that satisfies `p`, and the text after
it, if there is such a character. -/
def cutAt? (p : Char → Bool) (cs : List Char) : Option (List Char × List Char) :=
  match cs.dropWhile fun c => !p c with
  | [] => none
  | _ :: rest => some (cs.takeWhile fun c => !p c, rest)

/-- One item of a parameter list. -/
def readParam (item : List Char) : Except LineFault Float :=
  let text := trim item
  if text.isEmpty then .error .emptyParameter
  else
    match Decimal.readFloat? text with
    | some x => .ok x
    | none => .error (.invalidParameter text)

/-- The text between the parentheses: blank, or items separated by commas. -/
def readParams (list : List Char) : Except LineFault (List Float) :=
  let text := trim list
  if text.isEmpty then .ok [] else (text.splitOn ',').mapM readParam

/-- Name and rest of a line without a parameter list, cut at the first blank. -/
def plainHead (line : List Char) : List Char × List Float × List Char :=
  match cutAt? isBlank line with
  | some (name, rest) => (name, [], rest)
  | none => (line, [], [])

/-- Name, parameters and the text after them. A parameter list belongs to the line
only if no blank stands before its parenthesis. -/
def splitHead (line : List Char) : Except LineFault (List Char × List Float × List Char) :=
  match cutAt? (· == '(') line with
  | none => .ok (plainHead line)
  | some (name, rest) =>
    if name.any isBlank then .ok (plainHead line)
    else
      match cutAt? (· == ')') rest with
      | none => .error .unclosedParameters
      | some (list, rest) => do
        let params ← readParams list
        return (name, params, rest)

/-- Take a line apart. -/
def splitLine (line : List Char) : Except LineFault LineParts := do
  let (name, params, rest) ← splitHead line
  if name.isEmpty then throw .missingName
  return ⟨name, params, words rest⟩

/-- The qubit that an operand word addresses. -/
def readOperand (register operand : List Char) : Except LineFault Nat :=
  if !register.isPrefixOf operand then .error (.foreignOperand operand register)
  else
    let index := operand.drop register.length
    if !isNumeral index then .error (.invalidIndex operand)
    else
      match readWord? index with
      | some bit => .ok bit
      | none => .error (.indexOutOfRange operand)

-- ---------------------------------------------------------------------------
-- Lines and programs
-- ---------------------------------------------------------------------------

/-- A line that holds no instruction: blank, or a comment. The line is trimmed. -/
def isSkipped (line : List Char) : Bool :=
  match line with
  | [] => true
  | '#' :: _ => true
  | '/' :: '/' :: _ => true
  | _ => false

/-- The instruction on a trimmed line that is not skipped. -/
def readInstruction (registry : InstructionRegistry) (register line : List Char) :
    Except LineFault Instruction := do
  let parts ← splitLine line
  let bits ← parts.operands.mapM (readOperand register)
  match registry.createWithParams (String.ofList parts.name) bits parts.params with
  | .ok i => return i
  | .error fault => throw (.instruction fault)

/-- The instruction on a numbered line of source, none if the line is skipped. -/
def readLine (registry : InstructionRegistry) (register : List Char) (line : List Char × Nat) :
    Except Fault (Option Instruction) :=
  let text := trim line.1
  if isSkipped text then .ok none
  else
    match readInstruction registry register text with
    | .ok i => .ok (some i)
    | .error fault => .error (.parse line.2 fault.message)

/-- Read a program over `register`, building instructions with `registry`. -/
def Program.parse (registry : InstructionRegistry) (register source : String) :
    Except Fault Program :=
  match checkRegisterName register with
  | .error fault => .error (.validation fault)
  | .ok () => do
    let found ← ((lines source.toList).zipIdx 1).mapM (readLine registry register.toList)
    return ⟨register, found.filterMap id⟩

end QuantumCompiler
