import KernelDispatch.CommandLine.Arguments
import KernelDispatch.Graph.File
import KernelDispatch.Operator.OpsetText

/-!
# Running a command

The whole program as a function of its arguments and of the files it reads: what it prints and how
it ends. Errors go to the error stream with their causes; nothing is printed before all of the
output is known.
-/

namespace KernelDispatch.CommandLine

/-- How the program ends and what it prints. -/
structure Outcome where
  exitCode : Nat
  output : String
  errors : String
deriving DecidableEq, Inhabited, Repr

namespace Outcome

/-- The program prints lines and succeeds. -/
def success (lines : List String) : Outcome := ⟨0, String.join (lines.map (· ++ "\n")), ""⟩

/-- The program fails with a diagnostic. -/
def failure (d : Diagnostic) : Outcome := ⟨1, "", "Error: " ++ d.render ++ "\n"⟩

/-- The arguments are not understood, or ask for information only. -/
def ofStop : Stop → Outcome
  | .help => success [Stop.help.message]
  | .version => success [Stop.version.message]
  | stop => ⟨2, "", "error: " ++ stop.message ++ "\n"⟩

end Outcome

/-- Read a file by name; nothing if it cannot be read. -/
abbrev Files := String → Option String

/-- The wording of a fault in a graph file. -/
def faultMessage : Json.Fault → String
  | .malformed => "the text is not well-formed"
  | .mistyped => "the text does not describe a graph"
  | .truncated => "the text ends too early"

/-- The graph file of a name. -/
def loadGraph (files : Files) (path : String) : Except Diagnostic GraphFile :=
  match files path with
  | none =>
    .error ((Diagnostic.plain "the file cannot be read").under
      s!"failed to read graph file {path}")
  | some text =>
    (GraphFile.parse text).mapError fun f =>
      (Diagnostic.plain (faultMessage f)).under s!"invalid graph file {path}"

/-- The imports of a resolution: those given as options, or else those of the file. -/
def importsFor (opsets : List String) (file : GraphFile) : Except OpsetTextError OpsetImports :=
  if opsets.isEmpty then .ok (.ofList file.opsets)
  else (opsets.mapM Opset.parse).map .ofList

/-- The lines of a resolved graph file. -/
def resolveFile (files : Files) (path : String) (choice : BackendChoice) (opsets : List String) :
    Except Diagnostic (List String) := do
  let file ← loadGraph files path
  let imports ← (importsFor opsets file).mapError OpsetTextError.diagnostic
  let config ← (resolutionConfig choice imports).mapError ResolutionError.diagnostic
  (resolveLines Builtin.registry choice config file.nodes).mapError fun e =>
    e.diagnostic.under s!"failed to resolve {path}"

/-- The operators of a backend with their version ranges, in columns. -/
def operatorLines {κ : Type} (b : Backend κ) : List String :=
  b.catalogs.catalogs.flatMap fun c =>
    c.entries.map fun e =>
      Text.padRight 14 c.domain ++ " " ++ Text.padRight 12 e.1 ++ " " ++ e.2.render

/-- Run a command. -/
def Command.run (files : Files) : Command → Outcome
  | .resolve graph choice opsets =>
    match resolveFile files graph choice opsets with
    | .ok lines => .success lines
    | .error d => .failure d
  | .operators backend =>
    match Builtin.registry.get? backend with
    | some b => .success (operatorLines b)
    | none => .failure (.plain s!"unknown backend: {backend}")
  | .backends => .success Builtin.registry.names

/-- Run the program. -/
def run (files : Files) (args : List String) : Outcome :=
  match readArguments args with
  | .ok command => command.run files
  | .error stop => .ofStop stop

end KernelDispatch.CommandLine
