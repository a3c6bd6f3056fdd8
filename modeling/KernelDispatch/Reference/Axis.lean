import KernelDispatch.Kernel.Access
import KernelDispatch.Kernel.Matrix
import KernelDispatch.Kernel.Operation

/-!
# Reference kernels with an axis

Flatten makes a matrix of the dimensions before the axis and those from it on. Softmax has two
forms: the flattening form normalizes the whole block from the axis on, the lane form normalizes
along the one dimension of the axis.
-/

namespace KernelDispatch.Reference

/-- The axis given by an attribute map that has no other attribute. -/
def axisAttribute (attrs : Attributes) (default : Int64) : Except AttributeError Int64 := do
  attrs.rejectUnknown ["axis"]
  attrs.intOr "axis" default

/-- A kernel that reshapes a tensor to a matrix; without an axis it is not configured. -/
structure Flatten where
  axis : Option Int64
deriving DecidableEq, Inhabited, Repr

namespace Flatten

/-- Reshape the input to the dimensions before the axis by those from it on. -/
def invoke (k : Flatten) (inputs : List Tensor) : Except InvokeError (List Tensor) :=
  match k.axis with
  | none => .error (.unconfigured "Flatten")
  | some axis =>
    match inputs with
    | [a] => do
      let pivot ← resolveAxis axis a.shape.rank true
      let dims := a.shape.dims
      let result ← liftTensor (a.reshape ⟨[extent (dims.take pivot), extent (dims.drop pivot)]⟩)
      return [result]
    | _ => .error (.inputRange "Flatten" 1 1 inputs.length)

instance : Kernel Flatten where
  kind _ := "cpu.Flatten"
  configure k attrs := whenAccepted (axisAttribute attrs 1) k fun axis => ⟨some axis⟩
  invoke := invoke
  kind_configure _ _ := rfl

end Flatten

/-- What an axis means to a softmax. -/
inductive SoftmaxForm where
  /-- All dimensions from the axis on are one row; the axis may lie behind the last dimension. -/
  | flattening
  /-- The dimension of the axis alone is normalized. -/
  | lane
deriving DecidableEq, Inhabited, Repr

/-- A softmax kernel; without an axis it is not configured. -/
structure Softmax where
  form : SoftmaxForm
  axis : Option Int64
deriving DecidableEq, Inhabited, Repr

namespace Softmax

/-- The axis when there is no attribute. -/
def defaultAxis : SoftmaxForm → Int64
  | .flattening => 1
  | .lane => -1

/-- Normalize the columns of a block of `n` rows of `inner` numbers: as rows of the transposed
block. -/
def normalizeColumns (n inner : Nat) (block : List Binary32) :
    Except InvokeError (List Binary32) := do
  let columns ← Matrix.transpose n inner block.toArray
  Matrix.transpose inner n (softmaxRows n columns).toArray

/-- Normalize along the dimension of size `n` that is followed by `inner` elements per step. Lanes
that are not contiguous pass through a buffer of their own. -/
def normalizeLanes (n inner : Nat) (data : List Binary32) : Except InvokeError (List Binary32) :=
  if inner = 1 then .ok (softmaxRows n data)
  else do
    reserve n
    if n * inner = 0 then return data
    let blocks ← (chunks (n * inner) data).mapM (normalizeColumns n inner)
    return blocks.flatten

/-- Normalize the input along its axis. -/
def invoke (k : Softmax) (inputs : List Tensor) : Except InvokeError (List Tensor) :=
  match k.axis with
  | none => .error (.unconfigured "Softmax")
  | some axis =>
    match inputs with
    | [a] => do
      let data ← liftTensor a.floats
      let dims := a.shape.dims
      match k.form with
      | .flattening =>
        let pivot ← resolveAxis axis a.shape.rank true
        answerFloats a.shape (softmaxRows (max (extent (dims.drop pivot)) 1) data)
      | .lane =>
        let pivot ← resolveAxis axis a.shape.rank false
        let lanes ← normalizeLanes (dims.getD pivot 0) (extent (dims.drop (pivot + 1))) data
        answerFloats a.shape lanes
    | _ => .error (.inputRange "Softmax" 1 1 inputs.length)

instance : Kernel Softmax where
  kind _ := "cpu.Softmax"
  configure k attrs :=
    whenAccepted (axisAttribute attrs (defaultAxis k.form)) k fun axis =>
      { k with axis := some axis }
  invoke := invoke
  kind_configure _ _ := rfl

end Softmax

end KernelDispatch.Reference
