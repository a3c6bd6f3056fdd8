import KernelDispatch.Kernel.Matrix
import KernelDispatch.Kernel.Operation
import KernelDispatch.Parallel.Task

/-!
# Data-parallel kernels

Each kernel of this family cuts its output into pieces and lets one task fill each piece: an
element for elementwise operations and sums, a row for softmax and matrix products. What a kernel
computes is stated for any schedule of its tasks.
-/

namespace KernelDispatch

/-- The operations on one number that have a parallel kernel. -/
inductive Parallel.Activation where
  | relu
  | sigmoid
deriving DecidableEq, Inhabited, Repr

namespace Parallel.Activation

/-- The operator's name. -/
def name : Activation → String
  | relu => "Relu"
  | sigmoid => "Sigmoid"

/-- The operation on one number. -/
def apply : Activation → Binary32 → Binary32
  | relu, x => x.relu
  | sigmoid, x => x.sigmoid

end Parallel.Activation

/-- What a parallel kernel computes. -/
inductive ParallelOp where
  | binary (op : Arithmetic)
  | unary (op : Parallel.Activation)
  | softmax
  | matMul
  | sum
deriving DecidableEq, Inhabited, Repr

/-- A parallel kernel. -/
structure ParallelKernel where
  op : ParallelOp
  ready : Bool
deriving DecidableEq, Inhabited, Repr

namespace ParallelOp

/-- The operator's name. -/
def name : ParallelOp → String
  | binary op => op.name
  | unary op => op.name
  | softmax => "Softmax"
  | matMul => "MatMul"
  | sum => "Sum"

/-- The name of the implementation. -/
def kind : ParallelOp → String
  | binary _ => "par.Binary"
  | unary _ => "par.Unary"
  | softmax => "par.Softmax"
  | matMul => "par.MatMul"
  | sum => "par.Sum"

/-- Only softmax has an attribute, the axis, and it must be the last one. -/
def checkAttributes (attrs : Attributes) : ParallelOp → Except AttributeError Unit
  | softmax => do
    attrs.rejectUnknown ["axis"]
    let axis ← attrs.intOr "axis" (-1)
    if axis = -1 then return () else throw (.invalid "axis" (.notLastAxis axis))
  | _ => attrs.rejectUnknown []

end ParallelOp

namespace Parallel

open KernelDispatch.Parallel

/-- An arithmetic operation: one task per output element. -/
def binary (schedule : Schedule) (op : Arithmetic) (a b : Tensor) :
    Except InvokeError (List Tensor) := do
  let shape ← pairShape op.name a.shape b.shape
  let x ← readFloats a
  let y ← readFloats b
  let element : Task := fun i _ => do return [op.apply (← readCyclic x i) (← readCyclic y i)]
  answerFloats shape (← runTasks schedule element (blank shape.count))

/-- An operation on one number: one task per element. -/
def unary (schedule : Schedule) (op : Activation) (a : Tensor) :
    Except InvokeError (List Tensor) := do
  let data ← liftTensor a.floats
  let element : Task := fun _ piece => .ok (piece.map op.apply)
  answerFloats a.shape (← runTasks schedule element (singles data))

/-- Softmax along the last dimension: one task per row. -/
def softmax (schedule : Schedule) (a : Tensor) : Except InvokeError (List Tensor) := do
  let data ← liftTensor a.floats
  let row := max (a.shape.dims.getLast?.getD 1) 1
  let normalize : Task := fun _ piece => .ok (softmaxRow piece)
  answerFloats a.shape (← runTasks schedule normalize (chunks row data))

/-- The product of two matrices: one task per output row. -/
def matMul (schedule : Schedule) (a b : Tensor) : Except InvokeError (List Tensor) :=
  match a.shape.dims, b.shape.dims with
  | [m, k], [kb, n] => do
    if k ≠ kb then throw (.innerDimension "MatMul" k kb)
    let x ← readFloats a
    let y ← readFloats b
    reserve (extent [m, n])
    let fill : Task := fun i piece => Matrix.accumulateRow x y k n i piece
    let zeros := List.replicate (extent [m, n]) Binary32.zero
    answerFloats ⟨[m, n]⟩ (← runTasks schedule fill (chunks (max n 1) zeros))
  | _, _ => .error (.onlyMatrices a.shape b.shape)

/-- The sum of operands of one shape: one task per element, adding from negative zero, which is
neutral for every number. -/
def sum (schedule : Schedule) (first : Tensor) (rest : List Tensor) :
    Except InvokeError (List Tensor) := do
  match rest.find? fun t => t.shape ≠ first.shape with
  | some other => throw (.unequalShapes first.shape other.shape)
  | none =>
    let columns ← (first :: rest).mapM readFloats
    let element : Task := fun i _ => do
      let total ← columns.foldlM (fun acc c => do return acc + (← read c i)) Binary32.negZero
      return [total]
    answerFloats first.shape (← runTasks schedule element (blank first.count))

end Parallel

namespace ParallelKernel

/-- Compute the outputs, the tasks taking effect as scheduled. -/
def invokeScheduled (schedule : Parallel.Schedule) (k : ParallelKernel) (inputs : List Tensor) :
    Except InvokeError (List Tensor) :=
  if !k.ready then .error (.unconfigured k.op.name)
  else
    match k.op, inputs with
    | .binary op, [a, b] => Parallel.binary schedule op a b
    | .binary op, _ => .error (.inputCount op.name 2)
    | .unary op, [a] => Parallel.unary schedule op a
    | .unary op, _ => .error (.inputCount op.name 1)
    | .softmax, [a] => Parallel.softmax schedule a
    | .softmax, _ => .error (.inputCount "Softmax" 1)
    | .matMul, [a, b] => Parallel.matMul schedule a b
    | .matMul, _ => .error (.inputCount "MatMul" 2)
    | .sum, first :: rest => Parallel.sum schedule first rest
    | .sum, [] => .error (.noInput "Sum")

instance : Kernel ParallelKernel where
  kind k := k.op.kind
  configure k attrs :=
    whenAccepted (k.op.checkAttributes attrs) k fun _ => { k with ready := true }
  invoke := invokeScheduled Parallel.inOrder
  kind_configure k attrs := by
    cases k.op.checkAttributes attrs <;> rfl

end ParallelKernel

end KernelDispatch
