import KernelDispatch.Kernel.Access

/-!
# Matrices in row-major order

Transposition and products of matrices given as flat buffers. A product adds, row by row of the left
operand, the scaled rows of the right operand in order to an output that starts with zeros, so every
entry is the left fold of `acc + a * b` over the inner dimension, from zero. The output is either
one row at a time or one flat buffer for all rows.
-/

namespace KernelDispatch.Matrix

/-- The transposed matrix: `cols` rows of `rows` elements. -/
def transpose {α : Type} (rows cols : Nat) (data : Array α) : Except InvokeError (List α) :=
  tabulate (rows * cols) fun i => read data (i % rows * cols + i / rows)

/-- Add `lhs` times the elements of `b` from `offset` on to a row. -/
def addScaled (b : Array Binary32) (offset : Nat) (lhs : Binary32) (row : List Binary32) :
    Except InvokeError (List Binary32) :=
  row.zipIdx.mapM fun c => do return c.1 + lhs * (← read b (offset + c.2))

/-- Add to a row the product of row `i` of `a` (of `k` elements) with `b` (of `n` columns). -/
def accumulateRow (a b : Array Binary32) (k n i : Nat) (row : List Binary32) :
    Except InvokeError (List Binary32) :=
  (List.range k).foldlM (fun row p => do addScaled b (p * n) (← read a (i * k + p)) row) row

/-- Add `lhs` times the `n` elements of `b` from `offset` on to the entries from `start` on. -/
def addScaledAt (b : Array Binary32) (offset n start : Nat) (entries : Array Binary32)
    (lhs : Binary32) : Except InvokeError (Array Binary32) :=
  (List.range n).foldlM (fun entries j =>
    update entries (start + j) fun acc => do return acc + lhs * (← read b (offset + j))) entries

/-- Add to the entries of row `i` the product of row `i` of `a` (of `k` elements) with `b` (of `n`
columns). -/
def accumulateAt (a b : Array Binary32) (k n : Nat) (entries : Array Binary32) (i : Nat) :
    Except InvokeError (Array Binary32) :=
  (List.range k).foldlM (fun entries p => do
    addScaledAt b (p * n) n (i * n) entries (← read a (i * k + p))) entries

/-- The entries of the product of an `m × k` matrix with a `k × n` matrix. Their number is a machine
word, and without an inner dimension they all stay zero. -/
def accumulate (a b : Array Binary32) (m k n : Nat) : Except InvokeError (List Binary32) := do
  let zeros := Array.replicate (extent [m, n]) Binary32.zero
  let entries ← if k = 0 then pure zeros else (List.range m).foldlM (accumulateAt a b k n) zeros
  return entries.toList

/-- The product of two matrices, in a buffer of its own. -/
def product (a b : Array Binary32) (m k n : Nat) : Except InvokeError (List Binary32) := do
  reserve (extent [m, n])
  accumulate a b m k n

end KernelDispatch.Matrix
