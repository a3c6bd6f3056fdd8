/-!
# Shapes

A shape is the list of a tensor's dimensions, slowest first. Sizes are machine words: the product
of dimensions is taken modulo `2 ^ 64`, and is the number of elements as long as that number is
below `2 ^ 64`.
-/

namespace KernelDispatch

/-- Number of different machine words. -/
def wordSize : Nat := UInt64.size

/-- The product of sizes as a machine word. -/
def extent (dims : List Nat) : Nat := dims.foldl (· * ·) 1 % wordSize

/-- The dimensions of a tensor, slowest first; the empty shape is that of a scalar. -/
structure Shape where
  dims : List Nat
deriving DecidableEq, Inhabited, Repr

namespace Shape

/-- The number of dimensions. -/
def rank (s : Shape) : Nat := s.dims.length

/-- The number of elements: zero as soon as a dimension is, one for a scalar. -/
def count (s : Shape) : Nat := extent s.dims

/-- A list of sizes in brackets. -/
def renderDims (dims : List Nat) : String :=
  "[" ++ ", ".intercalate (dims.map toString) ++ "]"

/-- A shape is written as its list of dimensions. -/
def render (s : Shape) : String := renderDims s.dims

end Shape

end KernelDispatch
