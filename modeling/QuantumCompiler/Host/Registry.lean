import QuantumCompiler.Backend.Compiled
import QuantumCompiler.Table

/-!
# The compiler registry

Compilers are registered under names, and one of the names may be the default.
The same compiler can be registered under several names, and one name can be
registered again, so a registration is told apart by the identity of its
`Handle` and not by what the compiler does.

A registration sets the default whenever there is none, and a registered name can
be made the default by hand. The default goes when its name is unregistered.
-/

namespace QuantumCompiler

/-- A compiler with an identity. -/
structure Handle where
  /-- The identity; handles with the same number are the same. -/
  id : Nat
  /-- The compiler. -/
  compiler : Compiler

/-- Compilers by name, and the name used when none is asked for. -/
structure CompilerRegistry where
  /-- The registered compilers. -/
  compilers : Table Handle := {}
  /-- The default compiler's name. -/
  defaultName : Option String := none

namespace CompilerRegistry

/-- A registry without compilers. -/
def empty : CompilerRegistry := {}

/-- Register under a name, replacing what was there. The name becomes the default
if there is none. -/
def registerAs (r : CompilerRegistry) (name : String) (handle : Handle) : CompilerRegistry :=
  { compilers := r.compilers.insert name handle
    defaultName := r.defaultName <|> some name }

/-- Register under the compiler's own name. -/
def register (r : CompilerRegistry) (handle : Handle) : CompilerRegistry :=
  r.registerAs handle.compiler.name handle

/-- Remove a name, and the default with it if it is that name. -/
def remove (r : CompilerRegistry) (name : String) : CompilerRegistry :=
  { compilers := r.compilers.erase name
    defaultName := if r.defaultName = some name then none else r.defaultName }

/-- Unregister a name; the removed handle stays usable. -/
def unregister (r : CompilerRegistry) (name : String) : CompilerRegistry × Option Handle :=
  match r.compilers.get? name with
  | some handle => (r.remove name, some handle)
  | none => (r, none)

/-- Unregister a name only if it still stands for this handle. -/
def unregisterInstance (r : CompilerRegistry) (name : String) (handle : Handle) :
    CompilerRegistry × Bool :=
  match r.compilers.get? name with
  | some current => if current.id = handle.id then (r.remove name, true) else (r, false)
  | none => (r, false)

/-- Whether a name is registered. -/
def contains (r : CompilerRegistry) (name : String) : Bool :=
  r.compilers.contains name

/-- The registered names, in increasing order. -/
def names (r : CompilerRegistry) : List String :=
  r.compilers.names

/-- The number of registered names. -/
def size (r : CompilerRegistry) : Nat :=
  r.compilers.size

/-- The compiler of a name. -/
def get (r : CompilerRegistry) (name : String) : Except RegistryFault Handle :=
  match r.compilers.get? name with
  | some handle => .ok handle
  | none => .error (.unknownCompiler name)

/-- Make a registered name the default. -/
def setDefault (r : CompilerRegistry) (name : String) : Except RegistryFault CompilerRegistry :=
  if r.contains name then .ok { r with defaultName := some name }
  else .error (.unknownCompiler name)

/-- The default compiler. -/
def getDefault (r : CompilerRegistry) : Except RegistryFault Handle :=
  match r.defaultName with
  | some name => r.get name
  | none => .error (.unknownCompiler "No default compiler configured")

/-- The compiler of a name, or the default one if no name is given. -/
def getOrDefault (r : CompilerRegistry) : Option String → Except RegistryFault Handle
  | some name => r.get name
  | none => r.getDefault

end CompilerRegistry

end QuantumCompiler
