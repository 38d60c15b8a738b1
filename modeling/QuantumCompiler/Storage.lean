import QuantumCompiler.Fault
import QuantumCompiler.Text.Blank

/-!
# Files

A `Storage` is the part of a file system that the program looks at, seen from the
current directory. A path is followed name by name, and every place that it goes on
from must be a directory that exists, even if the next name leads back. So
`nowhere/../file` leads nowhere although `file` is there, and a slash or a dot at the
end asks for a directory.

Reading and writing are functions on a storage:

* a file that is missing, a directory, or not valid text cannot be read;
* a file can be written where a path leads to no directory.
-/

namespace QuantumCompiler

/-- What stands at a place. -/
inductive Storage.Entry where
  | text (content : String)
  | binary
  | directory
  /-- the place that is always empty and takes everything -/
  | sink
  deriving DecidableEq, Repr

/-- Files and directories by the names that lead to them. -/
structure Storage where
  /-- What is stored, the latest first. -/
  entries : List (List String × Storage.Entry) := []

namespace Storage

-- ---------------------------------------------------------------------------
-- Places
-- ---------------------------------------------------------------------------

/-- The names that lead from the current directory to a place. Names that lead out of the
directory come first; a place that is named from the root starts with a slash. -/
abbrev Place := List String

/-- The root of all absolute paths. -/
def root : Place := ["/"]

/-- Places that every system has. -/
def standardPlaces : List (Place × Entry) :=
  [(root, .directory),
   (root ++ ["dev"], .directory),
   (root ++ ["dev", "null"], .sink),
   (root ++ ["etc"], .directory),
   (root ++ ["tmp"], .directory)]

/-- What stands at a place. The current directory and those around it are directories, and
so is every place on the way to something. -/
def find? (s : Storage) (place : Place) : Option Entry :=
  if place.all (· == "..") then some .directory
  else
    match (s.entries ++ standardPlaces).find? (·.1 == place) with
    | some e => some e.2
    | none => if s.entries.any fun e => place.isPrefixOf e.1 then some .directory else none

/-- The place around a place. -/
def outward (place : Place) : Place :=
  if place == root then root
  else if place.all (· == "..") then place ++ [".."]
  else place.dropLast

/-- The place that a name leads to. Nothing and a dot lead nowhere, two dots lead outward. -/
def step (place : Place) (name : String) : Place :=
  if name == "" || name == "." then place
  else if name == ".." then outward place
  else place ++ [name]

-- ---------------------------------------------------------------------------
-- Paths
-- ---------------------------------------------------------------------------

/-- The longest name, in bytes. -/
def maxNameBytes : Nat := 255

/-- The longest path, in bytes. -/
def maxPathBytes : Nat := 4095

/-- The names between the slashes of a path. -/
def names (path : String) : List String :=
  (path.toList.splitOn '/').map String.ofList

/-- Where a path starts. -/
def start (path : String) : Place :=
  if path.toList.head? == some '/' then root else []

/-- The place that a path names, whether or not its directories exist. -/
def place (path : String) : Place :=
  (names path).foldl step (start path)

/-- Go on by a name from a directory that exists. -/
def follow (s : Storage) (here : Place) (name : String) : Option Place :=
  if s.find? here == some .directory && name.utf8ByteSize ≤ maxNameBytes then
    some (step here name)
  else none

/-- The place that a path leads to, if it leads anywhere. -/
def resolve? (s : Storage) (path : String) : Option Place :=
  if path.isEmpty || maxPathBytes < path.utf8ByteSize then none
  else (names path).foldlM s.follow (start path)

-- ---------------------------------------------------------------------------
-- Reading and writing
-- ---------------------------------------------------------------------------

/-- What stands at the end of a path. -/
def entry? (s : Storage) (path : String) : Option Entry :=
  (s.resolve? path).bind s.find?

/-- Whether anything stands at the end of a path. -/
def has (s : Storage) (path : String) : Bool :=
  (s.entry? path).isSome

/-- The text of a file. -/
def read (s : Storage) (path : String) : Except Fault String :=
  match s.entry? path with
  | some (.text content) => .ok content
  | some .sink => .ok ""
  | some .binary => .error (.io "stream did not contain valid UTF-8")
  | some .directory => .error (.io "Is a directory")
  | none => .error (.io "No such file or directory")

/-- Store an entry at the place that a path names. -/
def put (s : Storage) (path : String) (e : Entry) : Storage :=
  { entries := (place path, e) :: s.entries }

/-- Write a file. -/
def write (s : Storage) (path : String) (content : String) : Except Fault Storage :=
  match s.resolve? path with
  | none => .error (.io "No such file or directory")
  | some p =>
    match s.find? p with
    | some .directory => .error (.io "Is a directory")
    | some .sink => .ok s
    | _ => .ok { entries := (p, .text content) :: s.entries }

end Storage

end QuantumCompiler
