import QuantumCompiler.Instruction.Basic
import QuantumCompiler.Table

/-!
# The instruction registry

Program text names instructions; the registry says how to build them. A name is
bound to a factory, and a policy decides what happens when a bound name is
registered again: it is replaced, or the registration is refused.

A registry is a value, so its table at one moment is a snapshot that later
registrations leave alone.
-/

namespace QuantumCompiler

/-- Builds an instruction from operands and parameters. -/
abbrev Factory := List Nat → List Float → Except InstructionFault Instruction

/-- What happens when a bound name is registered again. -/
inductive RegistrationPolicy where
  | overwrite
  | strict
  deriving DecidableEq, Repr

/-- Factories by instruction name, under a policy. -/
structure InstructionRegistry where
  /-- The factories. -/
  factories : Table Factory := {}
  /-- The policy in force. -/
  policy : RegistrationPolicy := .overwrite

namespace InstructionRegistry

/-- A registry without factories. -/
def empty : InstructionRegistry := {}

/-- Bind `name` to a factory. Under the strict policy a bound name is refused. -/
def register (r : InstructionRegistry) (name : String) (factory : Factory) :
    Except InstructionFault InstructionRegistry :=
  if r.policy = .strict ∧ r.factories.contains name then .error (.alreadyRegistered name)
  else .ok { r with factories := r.factories.insert name factory }

/-- Register kinds one after the other. At the first refusal the registry holds
what was registered before it. -/
def registerKinds (r : InstructionRegistry) :
    List Kind → InstructionRegistry × Except InstructionFault Unit
  | [] => (r, .ok ())
  | kind :: kinds =>
    match r.register kind.name kind.create with
    | .ok r => r.registerKinds kinds
    | .error fault => (r, .error fault)

/-- The registry of the built-in instructions. -/
def builtins : InstructionRegistry :=
  (empty.registerKinds Kind.all).1

/-- Build the instruction that `name` stands for. -/
def createWithParams (r : InstructionRegistry) (name : String) (bits : List Nat)
    (params : List Float) : Except InstructionFault Instruction :=
  match r.factories.get? name with
  | some factory => factory bits params
  | none => .error (.unknown name)

/-- Build the instruction that `name` stands for, with its default parameters. -/
def create (r : InstructionRegistry) (name : String) (bits : List Nat) :
    Except InstructionFault Instruction :=
  r.createWithParams name bits []

/-- Registered names, in increasing order. -/
def names (r : InstructionRegistry) : List String :=
  r.factories.names

/-- Whether a name is registered. -/
def contains (r : InstructionRegistry) (name : String) : Bool :=
  r.factories.contains name

/-- The number of registered names. -/
def size (r : InstructionRegistry) : Nat :=
  r.factories.size

/-- Change the policy for the registrations that follow. -/
def setPolicy (r : InstructionRegistry) (policy : RegistrationPolicy) : InstructionRegistry :=
  { r with policy := policy }

end InstructionRegistry

end QuantumCompiler
