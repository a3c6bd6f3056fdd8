/-!
# Diagnostics

An error with the chain of its causes, outermost first, and its presentation over several lines.
-/

namespace KernelDispatch

/-- A message and the messages of its causes, outermost first. -/
structure Diagnostic where
  message : String
  causes : List String
deriving DecidableEq, Inhabited, Repr

namespace Diagnostic

/-- A message without cause. -/
def plain (message : String) : Diagnostic := ⟨message, []⟩

/-- Make a diagnostic the cause of another message. -/
def under (d : Diagnostic) (message : String) : Diagnostic := ⟨message, d.message :: d.causes⟩

/-- The lines of a text. -/
def lines : List Char → List (List Char)
  | [] => [[]]
  | c :: rest =>
    if c = '\n' then [] :: lines rest
    else
      match lines rest with
      | [] => [[c]]
      | l :: ls => (c :: l) :: ls

/-- A text whose first line follows a head and whose other lines are indented. -/
def hang (head indent text : String) : String :=
  match lines text.toList with
  | [] => head
  | l :: ls =>
    head ++ String.ofList l ++ String.join (ls.map fun l => "\n" ++ indent ++ String.ofList l)

/-- A cause in a list of several. -/
def numbered (i : Nat) (cause : String) : String :=
  let number := toString i
  let blanks := String.ofList (List.replicate (5 - number.length) ' ')
  hang (blanks ++ number ++ ": ") "       " cause

/-- The message, and the causes if there are any: a single one indented, several ones numbered. -/
def render (d : Diagnostic) : String :=
  match d.causes with
  | [] => d.message
  | [cause] => d.message ++ "\n\nCaused by:\n" ++ hang "    " "    " cause
  | causes =>
    d.message ++ "\n\nCaused by:\n" ++
      "\n".intercalate (causes.zipIdx.map fun p => numbered p.2 p.1)

end Diagnostic

end KernelDispatch
