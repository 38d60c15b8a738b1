import QuantumCompiler.Fault
import QuantumCompiler.Text.Hidden
import QuantumCompiler.Text.Numeral

/-!
# Faults by name and field

A fault that ends a run is shown by the name of its cause and the values of its
fields, for instance

    Registry(UnknownCompiler("ibm"))

Texts stand in quotation marks. Inside, the quotation mark and the backslash are
escaped, and so is every hidden character.
-/

namespace QuantumCompiler.Report

open QuantumCompiler.Text

/-- One character in quotation marks. -/
def escapeChar (c : Char) : List Char :=
  match c with
  | '"' => ['\\', '"']
  | '\\' => ['\\', '\\']
  | '\n' => ['\\', 'n']
  | '\r' => ['\\', 'r']
  | '\t' => ['\\', 't']
  | _ =>
    if c.toNat = 0 then ['\\', '0']
    else if isHidden c then '\\' :: 'u' :: '{' :: (Nat.toDigits 16 c.toNat ++ ['}'])
    else [c]

/-- A text in quotation marks. -/
def quote (s : String) : String :=
  String.ofList ('"' :: (s.toList.flatMap escapeChar ++ ['"']))

/-- A cause with one value. -/
def single (name value : String) : String :=
  name ++ "(" ++ value ++ ")"

/-- A cause with named fields. -/
def record (name : String) (fields : List (String × String)) : String :=
  name ++ " \x7b " ++ String.intercalate ", " (fields.map fun f => f.1 ++ ": " ++ f.2) ++ " \x7d"

/-- A number. -/
def number (n : Nat) : String :=
  String.ofList (numeral n)

/-- An instruction fault. -/
def ofInstruction : InstructionFault → String
  | .unknown name => single "Unknown" (quote name)
  | .invalidArity name expected actual =>
    record "InvalidArity"
      [("name", quote name), ("expected", number expected), ("actual", number actual)]
  | .invalidParameters name expected actual =>
    record "InvalidParameters"
      [("name", quote name), ("expected", number expected), ("actual", number actual)]
  | .duplicateOperand name bit =>
    record "DuplicateOperand" [("name", quote name), ("bit", number bit)]
  | .alreadyRegistered name => single "AlreadyRegistered" (quote name)

/-- A validation fault. -/
def ofValidation : ValidationFault → String
  | .field subject message =>
    record "Field" [("field", quote subject), ("message", quote message)]
  | .resourceLimit resource limit requested =>
    record "ResourceLimit"
      [("resource", quote resource), ("limit", number limit), ("requested", number requested)]

/-- A compile fault. -/
def ofCompile : CompileFault → String
  | .unsupported name index =>
    record "UnsupportedInstruction" [("name", quote name), ("index", number index)]
  | .qubitOutOfRange index qubit limit =>
    record "QubitOutOfRange"
      [("index", number index), ("qubit", number qubit), ("limit", number limit)]
  | .validation fault => single "Validation" (ofValidation fault)

/-- A registry fault. -/
def ofRegistry : RegistryFault → String
  | .unknownCompiler name => single "UnknownCompiler" (quote name)
  | .pluginAlreadyLoaded name => single "PluginAlreadyLoaded" (quote name)
  | .pluginNotLoaded name => single "PluginNotLoaded" (quote name)
  | .plugin name message =>
    record "Plugin" [("plugin", quote name), ("message", quote message)]

/-- Any fault. -/
def ofFault : Fault → String
  | .configuration message => single "Config" (quote message)
  | .instruction fault => single "Instruction" (ofInstruction fault)
  | .registry fault => single "Registry" (ofRegistry fault)
  | .compile fault => single "Compile" (ofCompile fault)
  | .validation fault => single "Validation" (ofValidation fault)
  | .parse line message => record "Parse" [("line", number line), ("message", quote message)]
  | .io message => single "Io" (quote message)
  | .serialization message => single "Serialization" (quote message)

end QuantumCompiler.Report
