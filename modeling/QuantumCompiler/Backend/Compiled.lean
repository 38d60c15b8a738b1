import QuantumCompiler.Program.Limits

/-!
# Compiled programs and compilers

A compiler has a name and turns a program into lines for its target, or says
why it cannot. What it does depends on the program alone.
-/

namespace QuantumCompiler

/-- What a compiler produces. -/
structure CompiledProgram where
  /-- The name of the compiler. -/
  backend : String
  /-- The register of the source program. -/
  register : String
  /-- The target's instructions, one per line. -/
  lines : List String
  deriving DecidableEq, Repr

/-- The lines as one text, separated by line feeds. -/
def CompiledProgram.text (c : CompiledProgram) : String :=
  String.ofList (['\n'].intercalate (c.lines.map String.toList))

/-- A named way to compile programs. -/
structure Compiler where
  /-- The name under which the compiler registers itself. -/
  name : String
  /-- The compilation. -/
  compile : Program → Except CompileFault CompiledProgram

end QuantumCompiler
