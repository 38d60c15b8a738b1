/-!
# Name tables

A `Table` binds names to values and lists them in increasing order of name,
compared by code points. It is an immutable value: a table that was kept aside
does not see later changes.
-/

namespace QuantumCompiler

/-- Bindings from names to values, in increasing order of name. -/
structure Table (β : Type) where
  /-- The bindings; `insert` and `erase` keep them sorted and free of repeats. -/
  entries : List (String × β) := []

namespace Table

variable {β : Type}

/-- The table without bindings. -/
def empty : Table β := {}

/-- Bind `name` in a sorted list of bindings. -/
def insertEntry (name : String) (value : β) : List (String × β) → List (String × β)
  | [] => [(name, value)]
  | (key, old) :: rest =>
    if name = key then (name, value) :: rest
    else if name < key then (name, value) :: (key, old) :: rest
    else (key, old) :: insertEntry name value rest

/-- Bind `name`, replacing what it was bound to. -/
def insert (t : Table β) (name : String) (value : β) : Table β :=
  ⟨insertEntry name value t.entries⟩

/-- Unbind `name`. -/
def erase (t : Table β) (name : String) : Table β :=
  ⟨t.entries.filter fun e => e.1 ≠ name⟩

/-- What `name` is bound to. -/
def get? (t : Table β) (name : String) : Option β :=
  (t.entries.find? fun e => e.1 = name).map (·.2)

/-- Whether `name` is bound. -/
def contains (t : Table β) (name : String) : Bool :=
  (t.get? name).isSome

/-- The bound names, in increasing order. -/
def names (t : Table β) : List String :=
  t.entries.map (·.1)

/-- The number of bound names. -/
def size (t : Table β) : Nat :=
  t.entries.length

end Table

end QuantumCompiler
