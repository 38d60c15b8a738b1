/-!
# Built-in instruction kinds

Fifteen kinds of instruction are built in: the gates of the circuit model, the
measurement, and the two terms of an annealing problem. Each has a name, a
number of operands and a number of parameters.
-/

namespace QuantumCompiler

/-- A built-in kind of instruction. -/
inductive Kind where
  | h | x | y | z | s | t
  | rx | ry | rz
  | cnot | cz | swap
  | measure
  | bias | coupler
  deriving DecidableEq, Repr

namespace Kind

/-- The kinds of the circuit model, in the order in which they are registered. -/
def gates : List Kind :=
  [.h, .x, .y, .z, .s, .t, .rx, .ry, .rz, .cnot, .cz, .swap, .measure]

/-- The terms of an annealing problem, in the order in which they are registered. -/
def annealing : List Kind :=
  [.bias, .coupler]

/-- All built-in kinds, in the order in which they are registered. -/
def all : List Kind :=
  gates ++ annealing

/-- The name in program text. -/
def name : Kind → String
  | h => "H"
  | x => "X"
  | y => "Y"
  | z => "Z"
  | s => "S"
  | t => "T"
  | rx => "Rx"
  | ry => "Ry"
  | rz => "Rz"
  | cnot => "CNOT"
  | cz => "CZ"
  | swap => "Swap"
  | measure => "Measure"
  | bias => "Bias"
  | coupler => "Coupler"

/-- The number of operands. -/
def arity : Kind → Nat
  | cnot | cz | swap | coupler => 2
  | h | x | y | z | s | t | rx | ry | rz | measure | bias => 1

/-- The number of parameters: an angle or a weight, or none. -/
def numParams : Kind → Nat
  | rx | ry | rz | bias | coupler => 1
  | h | x | y | z | s | t | cnot | cz | swap | measure => 0

/-- The kind with a given name. -/
def ofName? (name : String) : Option Kind :=
  all.find? fun k => k.name = name

end Kind

end QuantumCompiler
