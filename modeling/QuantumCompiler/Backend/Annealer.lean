import QuantumCompiler.Backend.Compiled

/-!
# The annealer back end

Lowers an Ising problem to one line `i j w` per term. A bias of weight `w` on
qubit `q` is the diagonal term `q q w`; a coupler between two qubits is an
off-diagonal term with the smaller index first.

Checks come in this order: the shape of the instruction, the range of its
operands, the weight, which must be finite.
-/

namespace QuantumCompiler

open QuantumCompiler.Text

/-- The machine that the annealer back end compiles for. -/
structure AnnealerTarget where
  /-- The number of addressable qubits. -/
  numQubits : Nat := 2048

/-- The annealer back end for a machine, with size limits on programs. -/
structure Annealer where
  /-- The machine. -/
  target : AnnealerTarget := {}
  /-- The limits checked before lowering. -/
  limits : Limits := {}

namespace Annealer

/-- The name of the back end. -/
def backendName : String := "annealer"

/-- One term of an Ising problem. -/
structure Term where
  /-- The smaller qubit, or the only one. -/
  row : Nat
  /-- The larger qubit, or the only one. -/
  column : Nat
  /-- The weight. -/
  weight : Float

/-- The term that an instruction stands for, if it is a bias or a coupler. -/
def term? (i : Instruction) : Option Term :=
  match Kind.ofName? i.name, i.bits, i.params with
  | some .bias, [q], [w] => some ⟨q, q, w⟩
  | some .coupler, [a, b], [w] => some ⟨min a b, max a b, w⟩
  | _, _, _ => none

/-- The characters of a term's line. -/
def Term.renderChars (t : Term) : List Char :=
  numeral t.row ++ ' ' :: (numeral t.column ++ ' ' :: Decimal.plain t.weight)

/-- A term's line. -/
def Term.render (t : Term) : String :=
  String.ofList t.renderChars

/-- The fault of a weight that is not finite. -/
def weightFault (index : Nat) (weight : Float) : CompileFault :=
  .validation (.field s!"instructions[{index}].weight"
    s!"must be finite, got {String.ofList (Decimal.plain weight)}")

/-- Lower the instruction at a position. -/
def lowerInstruction (a : Annealer) (located : Instruction × Nat) : Except CompileFault Term :=
  let (i, index) := located
  match term? i with
  | none => .error (.unsupported i.name index)
  | some term => do
    checkQubits index i.bits a.target.numQubits
    if !Decimal.isFinite term.weight then throw (weightFault index term.weight)
    return term

/-- Lower a program to the terms of its problem. -/
def lower (a : Annealer) (p : Program) : Except CompileFault (List Term) :=
  match p.validate a.limits with
  | .error fault => .error (.validation fault)
  | .ok () => p.instructions.zipIdx.mapM a.lowerInstruction

/-- Compile a program to one line per term. -/
def compile (a : Annealer) (p : Program) : Except CompileFault CompiledProgram := do
  let terms ← a.lower p
  return ⟨backendName, p.register, terms.map Term.render⟩

/-- The back end as a compiler. -/
def compiler (a : Annealer) : Compiler :=
  ⟨backendName, a.compile⟩

end Annealer

end QuantumCompiler
