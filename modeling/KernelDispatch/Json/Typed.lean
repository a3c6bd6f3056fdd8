import KernelDispatch.Json.Basic

/-!
# Reading typed values from trees

Each reader takes the fault that comes first from left to right: one in the tree itself, or that the
tree is not of the expected kind. Records may be written as objects, in which unknown members are
passed over and no member may occur twice, or as arrays of their fields in order.
-/

namespace KernelDispatch.Json

variable {α σ : Type}

namespace Tree

/-- The fault of finding this tree where something else is expected. -/
def mismatch : Tree → Fault
  | broken reading _ => reading
  | string none => .malformed
  | number literal => if literal.value?.isSome then .mistyped else .malformed
  | _ => .mistyped

/-- A text. -/
def text : Tree → Except Fault String
  | string (some s) => .ok s
  | tree => .error tree.mismatch

/-- A natural number below a bound. -/
def naturalBelow (bound : Nat) : Tree → Except Fault Nat
  | number literal =>
    match literal.value? with
    | some (.integer n) => if 0 ≤ n ∧ n.toNat < bound then .ok n.toNat else .error .mistyped
    | some (.real _) => .error .mistyped
    | none => .error .malformed
  | tree => .error tree.mismatch

/-- A value or null. -/
def optional (read : Tree → Except Fault α) : Tree → Except Fault (Option α)
  | null => .ok none
  | tree => (read tree).map some

/-- A list of values. -/
def listOf (read : Tree → Except Fault α) : Tree → Except Fault (List α)
  | array items tail => do
    let values ← items.mapM read
    tail.read
    return values
  | tree => .error tree.mismatch

/-- Members of an object one after another, each key known to be text. -/
def foldMembers (step : σ → String → Tree → Except Fault σ) (s : σ) :
    Tree → Except Fault σ
  | object members tail => do
    let s ← members.foldlM (fun s m => do
      match m.1 with
      | some key => step s key m.2
      | none => throw .malformed) s
    tail.read
    return s
  | tree => .error tree.mismatch

end Tree

/-- Take a member that must not have been seen before. -/
def once (seen : Option α) (read : Except Fault α) (store : α → σ) : Except Fault σ :=
  if seen.isSome then .error .mistyped else read.map store

/-- Fields from the items of an array, in order. Items may be missing at the end, but none may be
left over. -/
def readFields (s : σ) :
    List (σ → Tree → Except Fault σ) → List Tree → Tail → Except Fault σ
  | [], [], tail => do
    tail.read
    return s
  | [], _ :: _, _ => .error .malformed
  | _ :: _, [], tail => do
    tail.read
    return s
  | field :: fields, item :: items, tail => do readFields (← field s item) fields items tail

/-- A record with named fields in an order. -/
def readRecord (names : List String) (step : σ → String → Tree → Except Fault σ) (blank : σ) :
    Tree → Except Fault σ
  | .array items tail => readFields blank (names.map fun name s item => step s name item) items tail
  | tree => tree.foldMembers step blank

end KernelDispatch.Json
