/-!
# Arguments

The arguments of a run name one command. Options stand before or after the
command's name, and each of the two places takes its own:

* `--config` and `--log-level` are taken in both, and the later place counts;
* `--version` is taken before the command;
* `compile` takes a file and the options that concern it.

A value follows its option as the next argument, after an equals sign, or, for an
option of one letter, at once. Arguments are read from left to right, and the
first that is wrong ends the reading; so does a request for the version or for
help. An option must not repeat in one place. Two dashes end the options. After `help`
comes at most the name of a command.
-/

namespace QuantumCompiler.CommandLine

/-- What arguments can be wrong with. -/
inductive UsageFault where
  | unknownOption (argument : String)
  | unexpectedArgument (argument : String)
  | missingValue (option : String)
  | unexpectedValue (option : String)
  | emptyPath (option : String)
  | repeatedOption (option : String)
  | missingCommand
  | missingFile
  deriving DecidableEq, Repr

/-- The wording of a usage fault. -/
def UsageFault.message : UsageFault → String
  | .unknownOption argument => s!"unexpected argument '{argument}' found"
  | .unexpectedArgument argument => s!"unexpected argument '{argument}' found"
  | .missingValue option => s!"a value is required for '--{option}' but none was supplied"
  | .unexpectedValue option => s!"unexpected value for '--{option}' found; no more were expected"
  | .emptyPath option => s!"a value is required for '{option}' but none was supplied"
  | .repeatedOption option => s!"the argument '--{option}' cannot be used multiple times"
  | .missingCommand => "a subcommand is required but one was not provided"
  | .missingFile => "the following required arguments were not provided: <FILE>"

-- ---------------------------------------------------------------------------
-- Options
-- ---------------------------------------------------------------------------

/-- The options. -/
inductive Flag where
  | config
  | logLevel
  | compiler
  | register
  | json
  | output
  | version
  | help
  deriving DecidableEq, Repr

namespace Flag

/-- The name after two dashes. -/
def name : Flag → String
  | .config => "config"
  | .logLevel => "log-level"
  | .compiler => "compiler"
  | .register => "register"
  | .json => "json"
  | .output => "output"
  | .version => "version"
  | .help => "help"

/-- The letter after one dash. -/
def letter? : Flag → Option Char
  | .config => some 'c'
  | .output => some 'o'
  | .version => some 'V'
  | .help => some 'h'
  | _ => none

/-- Whether a value goes with the option. -/
def takesValue : Flag → Bool
  | .json | .version | .help => false
  | _ => true

/-- Whether the value is a path; a path is not empty. -/
def takesPath : Flag → Bool
  | .config | .output => true
  | _ => false

end Flag

/-- Where arguments stand. -/
inductive Place where
  | beforeCommand
  | afterCompile
  | afterOther
  deriving DecidableEq, Repr

/-- The options that are taken in a place. -/
def Place.flags : Place → List Flag
  | .beforeCommand => [.config, .logLevel, .version, .help]
  | .afterCompile => [.config, .logLevel, .compiler, .register, .json, .output, .help]
  | .afterOther => [.config, .logLevel, .help]

-- ---------------------------------------------------------------------------
-- Reading one argument
-- ---------------------------------------------------------------------------

/-- What an argument is. -/
inductive Reading where
  | operand
  | separator
  | unknown
  /-- an option and the value attached to it -/
  | option (flag : Flag) (value : Option String)
  deriving DecidableEq, Repr

/-- An option by name, with what stands after an equals sign. -/
def readNamed (place : Place) (body : List Char) : Reading :=
  let name := String.ofList (body.takeWhile (· != '='))
  let value :=
    match body.dropWhile (· != '=') with
    | _ :: v => some (String.ofList v)
    | [] => none
  match place.flags.find? (·.name == name) with
  | some flag => .option flag value
  | none => .unknown

/-- An option by letter, with what stands after it. An option without a value is done
with its letter. -/
def readLetter (place : Place) (letter : Char) (rest : List Char) : Reading :=
  match place.flags.find? (·.letter? == some letter) with
  | none => .unknown
  | some flag =>
    if !flag.takesValue || rest.isEmpty then .option flag none
    else
      .option flag (some (String.ofList
        (match rest with
         | '=' :: v => v
         | v => v)))

/-- What an argument is, in its place. A single dash is an operand. -/
def readArgument (place : Place) (argument : String) : Reading :=
  match argument.toList with
  | ['-', '-'] => .separator
  | '-' :: '-' :: body => readNamed place body
  | ['-'] => .operand
  | '-' :: letter :: rest => readLetter place letter rest
  | _ => .operand

/-- Whether an argument can be the value of the option before it. -/
def isValue (argument : String) : Bool :=
  argument.toList.head? != some '-' || argument == "-"

-- ---------------------------------------------------------------------------
-- Reading one place
-- ---------------------------------------------------------------------------

/-- Why the reading ended early. -/
inductive Stop where
  | fault (f : UsageFault)
  | version
  | help
  deriving DecidableEq, Repr

/-- The options and operands that were given in one place. -/
structure Given where
  /-- The options with their values. -/
  options : List (Flag × String) := []
  /-- The operands. -/
  operands : List String := []
  deriving DecidableEq, Repr

namespace Given

/-- Whether an option was given. -/
def has (g : Given) (flag : Flag) : Bool :=
  g.options.any (·.1 == flag)

/-- The value of an option. -/
def value? (g : Given) (flag : Flag) : Option String :=
  g.options.lookup flag

/-- Add an option. -/
def add (g : Given) (flag : Flag) (value : String) : Except Stop Given :=
  if g.has flag then .error (.fault (.repeatedOption flag.name))
  else if flag.takesPath && value.isEmpty then .error (.fault (.emptyPath flag.name))
  else .ok { g with options := g.options ++ [(flag, value)] }

/-- Add an option that takes no value. -/
def mark (g : Given) (flag : Flag) : Except Stop Given :=
  match flag with
  | .version => .error .version
  | .help => .error .help
  | _ => g.add flag ""

/-- Add an operand. Only `compile` has one, its file. -/
def addOperand (g : Given) (place : Place) (operand : String) : Except Stop Given :=
  if place != .afterCompile || !g.operands.isEmpty then
    .error (.fault (.unexpectedArgument operand))
  else if operand.isEmpty then .error (.fault (.emptyPath "<FILE>"))
  else .ok { g with operands := g.operands ++ [operand] }

end Given

/-- Read the arguments of one place. Before the command, the first operand ends the place,
and what follows it is returned with it. -/
def readPlace (place : Place) (g : Given) : List String → Except Stop (Given × List String)
  | [] => .ok (g, [])
  | argument :: rest =>
    match readArgument place argument with
    | .separator => do
      let g ← rest.foldlM (fun g operand => g.addOperand place operand) g
      return (g, [])
    | .unknown => .error (.fault (.unknownOption argument))
    | .operand =>
      if place == .beforeCommand then .ok (g, argument :: rest)
      else do
        let g ← g.addOperand place argument
        readPlace place g rest
    | .option flag (some value) =>
      if flag.takesValue then do
        let g ← g.add flag value
        readPlace place g rest
      else .error (.fault (.unexpectedValue flag.name))
    | .option flag none =>
      if !flag.takesValue then do
        let g ← g.mark flag
        readPlace place g rest
      else
        match rest with
        | [] => .error (.fault (.missingValue flag.name))
        | value :: rest =>
          if isValue value then do
            let g ← g.add flag value
            readPlace place g rest
          else .error (.fault (.missingValue flag.name))

-- ---------------------------------------------------------------------------
-- Requests
-- ---------------------------------------------------------------------------

/-- What to compile and how. -/
structure Job where
  /-- The program file. -/
  file : String
  /-- The compiler's name; none means the default. -/
  compiler : Option String := none
  /-- The register that operands address. -/
  register : String := "q"
  /-- Whether to write JSON. -/
  json : Bool := false
  /-- The file to write; none means the terminal. -/
  output : Option String := none
  deriving DecidableEq, Repr

/-- The commands. -/
inductive Command where
  | compile (job : Job)
  | gates
  | compilers
  | config
  | validate
  deriving DecidableEq, Repr

/-- A command under its settings. -/
structure Request where
  /-- The command. -/
  command : Command
  /-- The settings file. -/
  config : Option String := none
  /-- The log level. -/
  logLevel : Option String := none
  deriving DecidableEq, Repr

/-- The job that was asked for. -/
def Given.job (g : Given) : Except Stop Job :=
  match g.operands with
  | [] => .error (.fault .missingFile)
  | file :: _ =>
    .ok {
      file := file
      compiler := g.value? .compiler
      register := (g.value? .register).getD "q"
      json := g.has .json
      output := g.value? .output }

/-- The names of the commands that take no arguments. -/
def simpleCommand? : String → Option Command
  | "gates" => some .gates
  | "compilers" => some .compilers
  | "config" => some .config
  | "validate" => some .validate
  | _ => none

/-- Read the arguments of a command by its name. -/
def readCommand (name : String) (arguments : List String) : Except Stop (Given × Command) := do
  if name == "compile" then
    let (g, _) ← readPlace .afterCompile {} arguments
    return (g, .compile (← g.job))
  else if name == "help" then
    match arguments with
    | [] => throw .help
    | [topic] =>
      if topic == "compile" || topic == "help" || (simpleCommand? topic).isSome then throw .help
      else throw (.fault (.unexpectedArgument topic))
    | _ :: argument :: _ => throw (.fault (.unexpectedArgument argument))
  else
    match simpleCommand? name with
    | none => throw (.fault (.unexpectedArgument name))
    | some command =>
      let (g, _) ← readPlace .afterOther {} arguments
      return (g, command)

/-- The request that the arguments make. `fallback` is the settings file named by the
environment, used where none is given; it is a path and checked like one. -/
def Request.parse (fallback : Option String) (arguments : List String) : Except Stop Request := do
  let (outer, rest) ← readPlace .beforeCommand {} arguments
  match rest with
  | [] => throw (.fault .missingCommand)
  | name :: rest =>
    let (inner, command) ← readCommand name rest
    if fallback == some "" && !(outer.has .config && inner.has .config) then
      throw (.fault (.emptyPath Flag.config.name))
    return {
      command := command
      config := inner.value? .config <|> outer.value? .config <|> fallback
      logLevel := inner.value? .logLevel <|> outer.value? .logLevel }

end QuantumCompiler.CommandLine
