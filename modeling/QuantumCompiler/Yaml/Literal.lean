import QuantumCompiler.Decimal.Reader
import QuantumCompiler.Yaml.Node

/-!
# Typed values in a YAML document

What a plain scalar says when a type is expected of it. A quoted scalar is only
ever text.

* truth values — `true` and `false`, in lower case, capitalised or in capitals;
* counts — decimal without leading zeros, or `0x`, `0o`, `0b` and digits, with an
  optional plus sign, below `2 ^ 64`;
* numbers — decimal literals that are finite, and `.inf`, `.nan`;
* text — any scalar.

A mapping is read by its fields. Unknown fields are passed over; a field that is
looked for must not stand there twice.
-/

namespace QuantumCompiler.Yaml

open QuantumCompiler.Text

/-- Membership in a list of words. -/
def isOneOf (words : List String) (cs : List Char) : Bool :=
  words.any fun w => w.toList == cs

/-- The words for nothing. -/
def isNull (cs : List Char) : Bool :=
  isOneOf ["null", "Null", "NULL", "~"] cs

/-- The words for truth values. -/
def readBool? (cs : List Char) : Option Bool :=
  if isOneOf ["true", "True", "TRUE"] cs then some true
  else if isOneOf ["false", "False", "FALSE"] cs then some false
  else none

-- ---------------------------------------------------------------------------
-- Integers
-- ---------------------------------------------------------------------------

/-- A number without its plus sign. -/
def dropPlus : List Char → List Char
  | '+' :: cs => cs
  | cs => cs

/-- Several digits of which the first is zero, after an optional sign. They are text
and not a number. -/
def isPadded (cs : List Char) : Bool :=
  let body :=
    match cs with
    | '-' :: cs => cs
    | cs => dropPlus cs
  match body with
  | '0' :: c :: cs => (c :: cs).all Char.isDigit
  | _ => false

/-- The value of a non-empty run of digits in a base up to sixteen. -/
def readBase? (base : Nat) (cs : List Char) : Option Nat :=
  if cs.isEmpty then none
  else do
    let digits ← cs.mapM fun c => (hexValue? c).filter (· < base)
    return digits.foldl (fun v d => base * v + d) 0

/-- A magnitude with a base mark, if there is one. -/
def readMarked? : List Char → Option Nat
  | '0' :: 'x' :: cs => readBase? 16 cs
  | '0' :: 'o' :: cs => readBase? 8 cs
  | '0' :: 'b' :: cs => readBase? 2 cs
  | _ => none

/-- An integer that is not negative. -/
def readNatural? (cs : List Char) : Option Nat :=
  (readMarked? (dropPlus cs)).orElse fun _ =>
    if isPadded cs then none else readBase? 10 (dropPlus cs)

/-- The magnitude of an integer with a minus sign. -/
def readNegative? : List Char → Option Nat
  | '-' :: cs =>
    (readMarked? cs).orElse fun _ => if isPadded ('-' :: cs) then none else readBase? 10 cs
  | _ => none

/-- A count. -/
def readCount? (cs : List Char) : Option Nat :=
  (readNatural? cs).filter (· < wordSize)

/-- Whether a scalar reads as an integer of at most 128 bits. -/
def isInteger (cs : List Char) : Bool :=
  (readNatural? cs).any (· < Nat.pow 2 128) || (readNegative? cs).any (· ≤ Nat.pow 2 127)

-- ---------------------------------------------------------------------------
-- Numbers
-- ---------------------------------------------------------------------------

/-- A finite decimal literal with at most one sign. -/
def readFinite? (cs : List Char) : Option Decimal.Value :=
  let isSigned := (dropPlus cs).head?.any fun c => c == '+' || c == '-'
  if cs.head? == some '+' && isSigned then none
  else
    match Decimal.readValue? cs with
    | some (.finite negative rank) => some (.finite negative rank)
    | _ => none

/-- The value of a number. -/
def readNumberValue? (cs : List Char) : Option Decimal.Value :=
  if isOneOf [".inf", ".Inf", ".INF"] (dropPlus cs) then some (.infinite false)
  else if isOneOf ["-.inf", "-.Inf", "-.INF"] cs then some (.infinite true)
  else if isOneOf [".nan", ".NaN", ".NAN"] cs then some .nan
  else readFinite? cs

/-- A number. -/
def readNumber? (cs : List Char) : Option Float :=
  (readNumberValue? cs).map (·.toFloat)

-- ---------------------------------------------------------------------------
-- Nodes
-- ---------------------------------------------------------------------------

namespace Node

/-- A plain scalar that `read?` accepts. -/
def plainly {α : Type} (read? : List Char → Option α) : Node → Except Fault α
  | .scalar text true =>
    match read? text with
    | some v => .ok v
    | none => .error .unexpectedContent
  | _ => .error .unexpectedContent

/-- A truth value. -/
def bool (n : Node) : Except Fault Bool :=
  n.plainly readBool?

/-- A count. -/
def count (n : Node) : Except Fault Nat :=
  n.plainly readCount?

/-- A number. -/
def number (n : Node) : Except Fault Float :=
  n.plainly readNumber?

/-- The text of a scalar. -/
def text : Node → Except Fault String
  | .scalar cs _ => .ok (String.ofList cs)
  | _ => .error .unexpectedContent

/-- Text that may be absent: a plain scalar that is empty or a word for nothing. -/
def optionalText (n : Node) : Except Fault (Option String) :=
  match n with
  | .scalar cs true => if cs.isEmpty || isNull cs then .ok none else n.text.map some
  | _ => n.text.map some

/-- The fields of a mapping. A missing mapping has none. -/
def fields : Node → Except Fault (List (String × Node))
  | .scalar [] true => .ok []
  | .mapping entries => entries.mapM fun e => e.1.text.map (·, e.2)
  | _ => .error .unexpectedContent

end Node

/-- The field of a given name, or `fallback` if there is none. -/
def readField {α : Type} (fields : List (String × Node)) (name : String)
    (read : Node → Except Fault α) (fallback : α) : Except Fault α :=
  match fields.filter (·.1 == name) with
  | [] => .ok fallback
  | [field] => read field.2
  | _ => .error .duplicateField

end QuantumCompiler.Yaml
