import KernelDispatch.Json.Number

/-!
# JSON trees with faults

A JSON text is read into a tree even if it breaks off: the place where it does is a leaf of the
tree, and a tree is read from left to right, so whoever takes it apart meets the same first fault as
someone who reads the text. A place can be at fault for a reader and still be passed over by someone
who skips it, so a break carries the fault for both.
-/

namespace KernelDispatch.Json

/-- What is wrong with a text. -/
inductive Fault where
  /-- The text is no JSON. -/
  | malformed
  /-- The text is JSON but does not say what is expected. -/
  | mistyped
  /-- The text ends too early. -/
  | truncated
deriving DecidableEq, Inhabited, Repr

/-- How the elements of an array or object end. -/
inductive Tail where
  /-- By the closing bracket. -/
  | closed
  /-- By a fault, for a reader and for someone who skips. -/
  | broken (reading skipping : Fault)
deriving DecidableEq, Inhabited, Repr

/-- A JSON value, or the part of one before the text breaks off. -/
inductive Tree where
  | null
  | bool (value : Bool)
  | number (literal : Literal)
  /-- A string; without text if its escapes do not denote characters. -/
  | string (text : Option String)
  | array (items : List Tree) (tail : Tail)
  /-- Keys are strings like `string`. -/
  | object (members : List (Option String × Tree)) (tail : Tail)
  /-- The text breaks off, with the fault for a reader and for someone who skips. -/
  | broken (reading skipping : Fault)
deriving Inhabited, Repr

/-- The fault of a tail for a reader. -/
def Tail.read : Tail → Except Fault Unit
  | closed => .ok ()
  | broken reading _ => .error reading

/-- The fault of a tail for someone who skips. -/
def Tail.skip : Tail → Except Fault Unit
  | closed => .ok ()
  | broken _ skipping => .error skipping

namespace Tree

mutual

/-- Pass over a tree: only grammar counts. -/
def skip : Tree → Except Fault Unit
  | broken _ skipping => .error skipping
  | array items tail => do
    skipItems items
    tail.skip
  | object members tail => do
    skipMembers members
    tail.skip
  | _ => .ok ()

/-- Pass over the items of an array. -/
def skipItems : List Tree → Except Fault Unit
  | [] => .ok ()
  | item :: rest => do
    skip item
    skipItems rest

/-- Pass over the members of an object. -/
def skipMembers : List (Option String × Tree) → Except Fault Unit
  | [] => .ok ()
  | (_, value) :: rest => do
    skip value
    skipMembers rest

end

/-- Arrays and objects may be nested less deep than this. -/
def depthLimit : Nat := 128

mutual

/-- Read a tree inside `depth` arrays and objects as a whole: strings must denote characters,
numbers must be in range, and the nesting is limited. -/
def check (depth : Nat) : Tree → Except Fault Unit
  | null => .ok ()
  | bool _ => .ok ()
  | number literal => if literal.value?.isSome then .ok () else .error .malformed
  | string text => if text.isSome then .ok () else .error .malformed
  | broken reading _ => .error reading
  | array items tail =>
    if depthLimit ≤ depth + 1 then .error .malformed
    else do
      checkItems (depth + 1) items
      tail.read
  | object members tail =>
    if depthLimit ≤ depth + 1 then .error .malformed
    else do
      checkMembers (depth + 1) members
      tail.read

/-- Read the items of an array. -/
def checkItems (depth : Nat) : List Tree → Except Fault Unit
  | [] => .ok ()
  | item :: rest => do
    check depth item
    checkItems depth rest

/-- Read the members of an object. -/
def checkMembers (depth : Nat) : List (Option String × Tree) → Except Fault Unit
  | [] => .ok ()
  | (key, value) :: rest => do
    if key.isNone then throw .malformed
    check depth value
    checkMembers depth rest

end

end Tree

end KernelDispatch.Json
