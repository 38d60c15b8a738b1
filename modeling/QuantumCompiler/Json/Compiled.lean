import QuantumCompiler.Backend.Compiled
import QuantumCompiler.Json.Parser
import QuantumCompiler.Json.Printer

/-!
# Compiled programs as JSON

A compiled program is written as an object with the fields `backend`,
`register` and `lines`, in that order. Reading accepts the fields in any order,
each exactly once, and skips fields of other names; it also accepts an array of
the three values.
-/

namespace QuantumCompiler

namespace CompiledProgram

/-- The JSON value of a compiled program. -/
def toJson (c : CompiledProgram) : Json :=
  .object
    [(Json.pointsOf "backend".toList, Json.ofText c.backend),
     (Json.pointsOf "register".toList, Json.ofText c.register),
     (Json.pointsOf "lines".toList, .array (c.lines.map Json.ofText))]

/-- The compact JSON text of a compiled program. -/
def compactJson (c : CompiledProgram) : String :=
  String.ofList (Json.compact c.toJson)

/-- The indented JSON text of a compiled program. -/
def prettyJson (c : CompiledProgram) : String :=
  String.ofList (Json.indented 0 c.toJson)

/-- The texts in an array of strings. -/
def linesOf? : Json → Option (List String)
  | .array items => items.mapM Json.text?
  | _ => none

/-- The value of the only field with a given name. -/
def onlyField? (name : String) (fields : List (List Char × Json)) : Option Json :=
  match fields.filter fun f => f.1 == name.toList with
  | [(_, value)] => some value
  | _ => none

/-- The compiled program that a JSON value stands for. -/
def ofJson? : Json → Option CompiledProgram
  | .object fields => do
    let fields ← fields.mapM fun (points, value) => (Json.textOf? points).map (·, value)
    let backend ← (← onlyField? "backend" fields).text?
    let register ← (← onlyField? "register" fields).text?
    let lines ← linesOf? (← onlyField? "lines" fields)
    return ⟨backend, register, lines⟩
  | .array [backend, register, lines] => do
    return ⟨← backend.text?, ← register.text?, ← linesOf? lines⟩
  | _ => none

/-- Read a compiled program from JSON text. -/
def parseJson (text : String) : Except Fault CompiledProgram :=
  match (Json.parse? text.toList).bind ofJson? with
  | some c => .ok c
  | none => .error (.serialization "not a compiled program")

end CompiledProgram

end QuantumCompiler
