import KernelDispatch.Kernel.Matrix

/-!
# Reference kernels for matrix products

The batched product multiplies each matrix of the left operand with the right operand, which is one
matrix for all or one per batch. The general product scales, transposes and adds a bias.
-/

namespace KernelDispatch.Reference

/-- A kernel for products of matrices and of batches of matrices. -/
structure MatMul where
  ready : Bool
deriving DecidableEq, Inhabited, Repr

namespace MatMul

/-- The product of one batch: its matrix of `x` with its matrix of `y`, or with all of `y`. -/
def batchProduct (x y : Array Binary32) (m k n : Nat) (shared : Bool) (b : Nat) :
    Except InvokeError (List Binary32) := do
  let left ← slice x (b * m * k) ((b + 1) * m * k)
  let right ← if shared then .ok y else slice y (b * k * n) ((b + 1) * k * n)
  Matrix.product left right m k n

/-- Multiply two operands of rank two or more. -/
def multiply (a b : Tensor) : Except InvokeError (List Tensor) :=
  match a.shape.dims.reverse, b.shape.dims.reverse with
  | k :: m :: batchRev, n :: kb :: batchRevB => do
    let batchDims := batchRev.reverse
    let shared := batchRevB.isEmpty
    if k ≠ kb then throw (.innerDimension "MatMul" k kb)
    if !shared ∧ batchRevB ≠ batchRev then throw (.batchDimensions a.shape b.shape)
    let x ← readFloats a
    let y ← readFloats b
    reserve (extent (batchDims ++ [m, n]))
    let products ← tabulate (extent batchDims) (batchProduct x y m k n shared)
    answerFloats ⟨batchDims ++ [m, n]⟩ products.flatten
  | _, _ => .error (.rankBelowTwo a.shape b.shape)

/-- Multiply the two inputs. -/
def invoke (k : MatMul) (inputs : List Tensor) : Except InvokeError (List Tensor) :=
  if !k.ready then .error (.unconfigured "MatMul")
  else
    match inputs with
    | [a, b] => multiply a b
    | _ => .error (.inputRange "MatMul" 2 2 inputs.length)

instance : Kernel MatMul where
  kind _ := "cpu.MatMul"
  configure k attrs := whenAccepted (attrs.rejectUnknown []) k fun _ => ⟨true⟩
  invoke := invoke
  kind_configure _ _ := rfl

end MatMul

/-- A kernel for the general product `alpha * A' * B' + beta * C`. -/
structure Gemm where
  alpha : Binary32
  beta : Binary32
  transA : Bool
  transB : Bool
  ready : Bool
deriving DecidableEq, Repr

namespace Gemm

/-- The kernel before configuration. -/
def fresh : Gemm := ⟨.one, .one, false, false, false⟩

instance : Inhabited Gemm := ⟨fresh⟩

/-- An attribute that is zero or one, zero by default. -/
def flag (attrs : Attributes) (name : String) : Except AttributeError Bool := do
  let n ← attrs.intOr name 0
  if n = 0 then return false
  else if n = 1 then return true
  else throw (.invalid name (.notFlag n))

/-- Take over the factors and flags one after another. -/
def setup (attrs : Attributes) : Setup Gemm Unit := do
  attrs.rejectUnknown ["alpha", "beta", "transA", "transB"]
  let alpha ← attrs.floatOr "alpha" .one
  modify fun k => { k with alpha }
  let beta ← attrs.floatOr "beta" .one
  modify fun k => { k with beta }
  let transA ← flag attrs "transA"
  modify fun k => { k with transA }
  let transB ← flag attrs "transB"
  modify fun k => { k with transB, ready := true }

/-- A matrix operand as rows, columns and elements, transposed if asked for. -/
def operand (t : Tensor) (rows cols : Nat) (transposed : Bool) :
    Except InvokeError (Nat × Nat × Array Binary32) := do
  let data ← readFloats t
  if transposed then return (cols, rows, (← Matrix.transpose rows cols data).toArray)
  else return (rows, cols, data)

/-- How a bias is spread over the output. -/
inductive Spread where
  /-- One element everywhere. -/
  | everywhere
  /-- One element per column. -/
  | perColumn
  /-- One element per entry. -/
  | perEntry
deriving DecidableEq, Repr

/-- How a bias of a given shape and length is spread over an `m × n` output, if it can be. -/
def Spread.of? (dims : List Nat) (length m n : Nat) : Option Spread :=
  if length = 1 then some .everywhere
  else if length = n ∧ (dims.length = 1 ∨ dims = [1, n]) then some .perColumn
  else if dims = [m, n] then some .perEntry
  else none

/-- The position of the bias element for entry `i` of an output with `n` columns. -/
def Spread.position (n i : Nat) : Spread → Nat
  | everywhere => 0
  | perColumn => i % n
  | perEntry => i

/-- Add the bias times `beta` to the entries of an `m × n` output. -/
def addBias (beta : Binary32) (c : Tensor) (m n : Nat) (entries : List Binary32) :
    Except InvokeError (List Binary32) := do
  let bias ← readFloats c
  match Spread.of? c.shape.dims bias.size m n with
  | none => throw (.bias c.shape m n)
  | some spread =>
    entries.zipIdx.mapM fun e => do return e.1 + beta * (← read bias (spread.position n e.2))

/-- Multiply two matrices and add the bias, if there is one. -/
def multiply (k : Gemm) (a b : Tensor) (c? : Option Tensor) : Except InvokeError (List Tensor) :=
  match a.shape.dims, b.shape.dims with
  | [rowsA, colsA], [rowsB, colsB] => do
    let (m, inner, x) ← operand a rowsA colsA k.transA
    let (innerB, n, y) ← operand b rowsB colsB k.transB
    if inner ≠ innerB then throw (.innerDimension "Gemm" inner innerB)
    let entries := (← Matrix.product x y m inner n).map (· * k.alpha)
    let entries ←
      match c? with
      | none => pure entries
      | some c => addBias k.beta c m n entries
    answerFloats ⟨[m, n]⟩ entries
  | _, _ => .error (.notMatrices "Gemm" a.shape b.shape)

/-- Multiply the first two inputs and add the third, if there is one. -/
def invoke (k : Gemm) (inputs : List Tensor) : Except InvokeError (List Tensor) :=
  if !k.ready then .error (.unconfigured "Gemm")
  else
    match inputs with
    | [a, b] => k.multiply a b none
    | [a, b, c] => k.multiply a b (some c)
    | _ => .error (.inputRange "Gemm" 2 3 inputs.length)

instance : Kernel Gemm where
  kind _ := "cpu.Gemm"
  configure k attrs := (setup attrs).outcome k
  invoke := invoke
  kind_configure _ _ := rfl

end Gemm

end KernelDispatch.Reference
