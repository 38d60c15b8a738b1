import QuantumCompiler.CommandLine.Run

/-!
# The program

Looks at the files and environment variables that a request concerns, leaves the
run to `CommandLine.run`, and carries out its effect.
-/

namespace QuantumCompiler.CommandLine

/-- The environment variables that a run looks at. -/
def variableNames : List String :=
  configVariable :: Settings.variableNames

/-- A path and what comes before each of its slashes. -/
def stages (path : String) : List String :=
  let cs := path.toList
  let cuts := (List.range cs.length).filter fun i => 0 < i && cs[i]? == some '/'
  cuts.map (fun i => String.ofList (cs.take i)) ++ [path]

/-- The paths that a request concerns. -/
def Request.paths (r : Request) : List String :=
  let settings :=
    match r.config with
    | some path => [path]
    | none => Settings.usualPaths
  let others :=
    match r.command with
    | .compile job => job.file :: job.output.toList
    | _ => []
  (settings ++ others).flatMap stages

/-- The error code of reading a directory. -/
def isDirectoryCode : UInt32 := 21

/-- What stands at a path. -/
def look (path : String) : IO (Option Storage.Entry) := do
  try
    match String.fromUTF8? (← IO.FS.readBinFile path) with
    | some content => return some (.text content)
    | none => return some .binary
  catch
    | .inappropriateType _ code _ =>
      return if code == isDirectoryCode then some .directory else none
    | _ => return none

/-- The surroundings that the arguments concern. -/
def lookAround (arguments : List String) : IO Surroundings := do
  let values ← variableNames.mapM fun name => return (name, ← IO.getEnv name)
  let environment := values.filterMap fun v => v.2.map (v.1, ·)
  match Request.parse (environment.lookup configVariable) arguments with
  | .error _ => return { environment := environment }
  | .ok request =>
    let found ← request.paths.mapM fun path => return (path, ← look path)
    let storage := found.foldl (fun s f => f.2.elim s (s.put f.1)) {}
    return { storage := storage, environment := environment }

/-- Carry out an effect. -/
def Effect.perform : Effect → IO UInt32
  | .print text => do
    IO.print text
    return 0
  | .write path text => do
    try
      IO.FS.writeFile path text
      return 0
    catch e =>
      IO.eprint (Failure.aborted (.io (toString e))).message
      return 1

end QuantumCompiler.CommandLine

open QuantumCompiler.CommandLine in
/-- The entry point. -/
def main (arguments : List String) : IO UInt32 := do
  match run (← lookAround arguments) arguments with
  | .ok effect => effect.perform
  | .error failure =>
    IO.eprint failure.message
    return failure.code.toUInt32
