/-!
# JSON values

A JSON string is kept as a list of code points. Escapes can spell halves of
surrogate pairs that stand alone, which no text contains; `textOf?` gives the text
of a string that has one.
-/

namespace QuantumCompiler

/-- A JSON value. Fields keep their order and may repeat. -/
inductive Json where
  | null
  | bool (value : Bool)
  | number (literal : List Char)
  | string (points : List Nat)
  | array (items : List Json)
  | object (fields : List (List Nat × Json))

namespace Json

/-- The first half of a surrogate pair. -/
def isHighSurrogate (n : Nat) : Bool :=
  0xD800 ≤ n && n ≤ 0xDBFF

/-- The second half of a surrogate pair. -/
def isLowSurrogate (n : Nat) : Bool :=
  0xDC00 ≤ n && n ≤ 0xDFFF

/-- The code points of a text. -/
def pointsOf (text : List Char) : List Nat :=
  text.map Char.toNat

/-- The text that code points spell, surrogate pairs joined; none if a half of a
pair stands alone. -/
def textOf? : List Nat → Option (List Char)
  | [] => some []
  | [n] => if isHighSurrogate n || isLowSurrogate n then none else some [Char.ofNat n]
  | n :: m :: rest =>
    if isHighSurrogate n then
      if isLowSurrogate m then
        (textOf? rest).map
          (Char.ofNat (0x10000 + (n - 0xD800) * 0x400 + (m - 0xDC00)) :: ·)
      else none
    else if isLowSurrogate n then none
    else (textOf? (m :: rest)).map (Char.ofNat n :: ·)

/-- A string value. -/
def ofText (text : String) : Json :=
  .string (pointsOf text.toList)

/-- The text of a string value. -/
def text? : Json → Option String
  | .string points => (textOf? points).map String.ofList
  | _ => none

end Json

end QuantumCompiler
