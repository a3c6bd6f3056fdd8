import KernelDispatch.Attribute.Basic

/-!
# Graph nodes

One step of a computation graph. Inputs and outputs are slots of the graph's tensor storage.
-/

namespace KernelDispatch

/-- A node of a computation graph. -/
structure Node where
  name : String
  op : String
  /-- The operator's domain; none means the standard domain. -/
  domain : Option String
  /-- Overrides the session's import for the domain. -/
  version : Option UInt32
  attributes : Attributes
  inputs : List Nat
  outputs : List Nat
deriving DecidableEq, Inhabited

namespace Node

/-- A bare node of an operator, named after it. -/
def ofOp (op : String) : Node := ⟨op, op, none, none, .empty, [], []⟩

end Node

end KernelDispatch
