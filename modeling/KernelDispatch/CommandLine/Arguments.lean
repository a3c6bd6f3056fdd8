import KernelDispatch.Session.Resolution
import KernelDispatch.Tensor.Shape
import KernelDispatch.Text.Unsigned

/-!
# Command line arguments

Options are long, with their value attached by `=` or given as the next argument, which must not
look like an option itself. The options for logging and threads may stand before the command or
after it, once each; after the command its own options follow. A request for help or for the version
ends the reading as soon as it is met.
-/

namespace KernelDispatch.CommandLine

/-- What a command is asked to do. -/
inductive Command where
  /-- Resolve a graph file and print its bindings. -/
  | resolve (graph : String) (choice : BackendChoice) (opsets : List String)
  /-- List the operators of a backend. -/
  | operators (backend : String)
  /-- List the backends. -/
  | backends
deriving DecidableEq, Inhabited, Repr

/-- Why the arguments are not understood, or that they ask for information instead. -/
inductive Stop where
  /-- Help is asked for. -/
  | help
  /-- The version is asked for. -/
  | version
  | unknownOption (text : String)
  | unexpectedArgument (text : String)
  | unexpectedValue (option : String)
  | missingValue (option : String)
  | invalidValue (option value : String)
  | repeated (option : String)
  | missingOption (option : String)
  | missingCommand
  | unknownCommand (text : String)
deriving DecidableEq, Inhabited, Repr

/-- The wording of a usage error. -/
def Stop.message : Stop → String
  | help => "usage: [--log LEVEL] [--threads N] (resolve | ops | backends)"
  | version => "opbind 0.1.0"
  | unknownOption text => s!"unexpected option '{text}'"
  | unexpectedArgument text => s!"unexpected argument '{text}'"
  | unexpectedValue option => s!"the option '{option}' takes no value"
  | missingValue option => s!"the option '{option}' needs a value"
  | invalidValue option value => s!"invalid value '{value}' for '{option}'"
  | repeated option => s!"the option '{option}' was given more than once"
  | missingOption option => s!"the option '{option}' is required"
  | missingCommand => "a command is required"
  | unknownCommand text => s!"unknown command '{text}'"

/-- The values that an option takes. -/
inductive ValueKind where
  /-- None: the option is a flag. -/
  | flag
  /-- Any text. -/
  | text
  /-- A path, which is not empty. -/
  | path
  /-- A machine word in decimal. -/
  | word
deriving DecidableEq, Inhabited, Repr

/-- An option of a command. -/
structure OptionSpec where
  name : String
  kind : ValueKind
  /-- Whether the option may be given more than once. -/
  repeatable : Bool
deriving DecidableEq, Inhabited, Repr

/-- The options that stand before or after the command. -/
def globalOptions : List OptionSpec := [⟨"log", .text, false⟩, ⟨"threads", .word, false⟩]

/-- The options of `resolve`. -/
def resolveOptions : List OptionSpec :=
  [ ⟨"graph", .path, false⟩, ⟨"backend", .text, false⟩, ⟨"fallback", .text, false⟩,
    ⟨"no-fallback", .flag, false⟩, ⟨"opset", .text, true⟩ ]

/-- The options of `ops`. -/
def operatorsOptions : List OptionSpec := [⟨"backend", .text, false⟩]

/-- Options with their values, in order. -/
abbrev Given := List (String × String)

/-- How an argument looks. -/
inductive Token where
  /-- Two dashes: only plain arguments follow. -/
  | terminator
  | long (name : String) (value : Option String)
  | short (letters : List Char)
  | plain (text : String)
deriving DecidableEq, Inhabited, Repr

/-- The text before and after the first equals sign. -/
def splitAtEquals : List Char → List Char × Option (List Char)
  | [] => ([], none)
  | c :: rest =>
    if c = '=' then ([], some rest)
    else
      let (before, after) := splitAtEquals rest
      (c :: before, after)

/-- The look of an argument; a single dash is plain. -/
def Token.of (arg : String) : Token :=
  match arg.toList with
  | ['-', '-'] => .terminator
  | '-' :: '-' :: rest =>
    let (name, value) := splitAtEquals rest
    .long (String.ofList name) (value.map String.ofList)
  | '-' :: c :: rest => .short (c :: rest)
  | _ => .plain arg

/-- Whether an argument can be the value of the option before it. -/
def isPlain (arg : String) : Bool :=
  match Token.of arg with
  | .plain _ => true
  | _ => false

/-- Whether a value is fit for its option. -/
def ValueKind.accepts (kind : ValueKind) (value : String) : Bool :=
  match kind with
  | .flag => false
  | .text => true
  | .path => !value.isEmpty
  | .word => (Text.unsigned wordSize value.toList).toOption.isSome

/-- Add an option to the given ones. -/
def give (spec : OptionSpec) (value : String) (given : Given) : Except Stop Given :=
  if !spec.repeatable && given.any (·.1 = spec.name) then .error (.repeated spec.name)
  else .ok (given ++ [(spec.name, value)])

/-- Add an option with a value to the given ones. -/
def giveValue (spec : OptionSpec) (value : String) (given : Given) : Except Stop Given :=
  if spec.kind.accepts value then give spec value given
  else .error (.invalidValue spec.name value)

/-- Read options up to the first plain argument, which is left with the arguments after it. At the
top level, where a command is still to come, the version can be asked for. -/
def readOptions (specs : List OptionSpec) (top : Bool) (given : Given) :
    List String → Except Stop (Given × List String)
  | [] => .ok (given, [])
  | arg :: rest =>
    match Token.of arg with
    | .plain _ => .ok (given, arg :: rest)
    | .terminator =>
      match rest with
      | [] => .ok (given, [])
      | next :: _ => .error (.unexpectedArgument next)
    | .short letters =>
      if letters.head? = some 'h' then .error .help
      else if top && letters.head? = some 'V' then .error .version
      else .error (.unknownOption arg)
    | .long name value =>
      if name = "help" || (top && name = "version") then
        if value.isSome then .error (.unexpectedValue name)
        else .error (if name = "help" then .help else .version)
      else
        match specs.find? (·.name = name) with
        | none => .error (.unknownOption arg)
        | some spec =>
          match spec.kind, value, rest with
          | .flag, some _, _ => .error (.unexpectedValue name)
          | .flag, none, rest => do readOptions specs top (← give spec "" given) rest
          | _, some v, rest => do readOptions specs top (← giveValue spec v given) rest
          | _, none, [] => .error (.missingValue name)
          | _, none, v :: rest =>
            if isPlain v then do readOptions specs top (← giveValue spec v given) rest
            else .error (.missingValue name)

/-- The value of an option. -/
def value? (given : Given) (name : String) : Option String :=
  (given.find? (·.1 = name)).map (·.2)

/-- The value of an option, or its default. -/
def valueOr (given : Given) (name default : String) : String := (value? given name).getD default

/-- The options of a command, after which no argument may be left. -/
def readCommandOptions (specs : List OptionSpec) (args : List String) : Except Stop Given := do
  match ← readOptions (specs ++ globalOptions) false [] args with
  | (given, []) => return given
  | (_, arg :: _) => throw (.unexpectedArgument arg)

/-- The `resolve` command of the given options. -/
def resolveCommand (given : Given) : Except Stop Command :=
  match value? given "graph" with
  | none => .error (.missingOption "graph")
  | some graph =>
    let choice : BackendChoice :=
      ⟨valueOr given "backend" "par", valueOr given "fallback" "cpu",
        (value? given "no-fallback").isSome⟩
    .ok (.resolve graph choice ((given.filter (·.1 = "opset")).map (·.2)))

/-- The names of the commands. -/
def commandNames : List String := ["resolve", "ops", "backends", "help"]

/-- The command of a name with its own arguments. -/
def readCommand (name : String) (args : List String) : Except Stop Command :=
  match name with
  | "resolve" => do resolveCommand (← readCommandOptions resolveOptions args)
  | "ops" => do
    let given ← readCommandOptions operatorsOptions args
    return .operators (valueOr given "backend" "cpu")
  | "backends" => do
    let _ ← readCommandOptions [] args
    return .backends
  | "help" =>
    match args with
    | [] => .error .help
    | [topic] => .error (if commandNames.contains topic then .help else .unknownCommand topic)
    | _ :: topic :: _ => .error (.unknownCommand topic)
  | _ => .error (.unknownCommand name)

/-- Read all arguments. -/
def readArguments (args : List String) : Except Stop Command := do
  match ← readOptions globalOptions true [] args with
  | (_, []) => throw .missingCommand
  | (_, name :: rest) => readCommand name rest

end KernelDispatch.CommandLine
