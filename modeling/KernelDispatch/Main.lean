import KernelDispatch.CommandLine.Run

/-!
# The program

Reads the one file that the arguments name, if any, and does what the command line says.
-/

open KernelDispatch.CommandLine

/-- The content of a file, if it can be read as text. -/
def contentOf (path : String) : IO (Option String) := do
  try
    return some (← IO.FS.readFile path)
  catch _ =>
    return none

/-- The files that the arguments name. -/
def filesFor (args : List String) : IO Files := do
  match readArguments args with
  | .ok (.resolve graph _ _) =>
    let content ← contentOf graph
    return fun path => if path = graph then content else none
  | _ => return fun _ => none

/-- Run the program on its arguments. -/
def main (args : List String) : IO UInt32 := do
  let outcome := run (← filesFor args) args
  IO.print outcome.output
  IO.eprint outcome.errors
  return UInt32.ofNat outcome.exitCode
