import KernelDispatch.Attribute.Basic

/-!
# Kernels

A kernel is made without attributes, configured with the attributes of a node, and then invoked any
number of times. Configuring may fail part way, and then the kernel keeps what was set before the
fault; so configuration answers the state afterwards in both cases. A type of kernels says as well
what an invocation leaves of a kernel; by default the kernel stays as it is.
-/

namespace KernelDispatch

/-- Why an invocation failed. -/
inductive InvokeError where
  /-- No configuration has succeeded yet. -/
  | unconfigured (op : String)
  /-- The number of inputs is outside the accepted range. -/
  | inputRange (op : String) (least most got : Nat)
  /-- The number of inputs is not the only accepted one. -/
  | inputCount (op : String) (expected : Nat)
  /-- There is no input at all. -/
  | noInput (op : String)
  /-- An input could not be read, or the output could not be built. -/
  | tensor (cause : TensorError)
  /-- The shapes neither agree nor is one operand a single element. -/
  | shapes (op : String) (left right : Shape)
  /-- An operand is not made of numbers. -/
  | notNumbers (op : String)
  /-- The axis lies outside the rank. -/
  | axisRange (axis : Int64) (rank : Nat)
  /-- An operand of a batched product is not even a matrix. -/
  | rankBelowTwo (left right : Shape)
  /-- The columns of the left operand do not match the rows of the right one. -/
  | innerDimension (op : String) (left right : Nat)
  /-- The leading dimensions of a batched product differ. -/
  | batchDimensions (left right : Shape)
  /-- An operand is not a matrix. -/
  | notMatrices (op : String) (left right : Shape)
  /-- An operand is not a matrix, and only matrices are supported. -/
  | onlyMatrices (left right : Shape)
  /-- The bias is neither a single element, nor a row, nor a matrix of the output's shape. -/
  | bias (shape : Shape) (rows columns : Nat)
  /-- Two summands have different shapes. -/
  | unequalShapes (first other : Shape)
  /-- A buffer was read outside its bounds. -/
  | outOfBounds (index size : Nat)
  /-- The elements of an empty buffer were to be repeated. -/
  | emptyOperand
  /-- A buffer of so many numbers is larger than any buffer can be. -/
  | capacity (numbers : Nat)
  /-- A scripted kernel fails with a given text. -/
  | scripted (text : String)
deriving DecidableEq, Repr

/-- The wording of an invocation error. -/
def InvokeError.message : InvokeError → String
  | unconfigured op => s!"{op} invoked before initialize"
  | inputRange op least most got => s!"{op} expects {least}..={most} inputs, got {got}"
  | inputCount op expected =>
    if expected = 1 then s!"{op} expects 1 input" else s!"{op} expects {expected} inputs"
  | noInput op => s!"{op} expects at least one input"
  | tensor cause => cause.message
  | shapes op left right => s!"{op} shape mismatch: {left.render} vs {right.render}"
  | notNumbers op => s!"{op} expects f32 inputs"
  | axisRange axis rank => s!"axis {axis.toInt} out of range for rank {rank}"
  | rankBelowTwo left right =>
    s!"MatMul expects rank >= 2 operands, got {left.render} and {right.render}"
  | innerDimension op left right => s!"{op} inner dimension mismatch: {left} vs {right}"
  | batchDimensions left right =>
    s!"MatMul batch dimensions differ: {left.render} vs {right.render}"
  | notMatrices op left right =>
    s!"{op} expects 2D operands, got {left.render} and {right.render}"
  | onlyMatrices left right =>
    s!"par MatMul supports 2D operands only, got {left.render} and {right.render}"
  | bias shape rows columns =>
    s!"Gemm bias shape {shape.render} does not broadcast to [{rows}, {columns}]"
  | unequalShapes first other =>
    s!"par Sum requires equal shapes: {first.render} vs {other.render}"
  | outOfBounds index size => s!"index {index} out of bounds for length {size}"
  | emptyOperand => "an empty operand cannot be repeated"
  | capacity _ => "capacity overflow"
  | scripted text => text

/-- Steps of a configuration: each may change the kernel and may fail, and a failure keeps the
changes of the steps before it. -/
abbrev Setup (κ : Type) := ExceptT AttributeError (StateM κ)

/-- The outcome of a configuration and the kernel afterwards. -/
def Setup.outcome {κ : Type} (steps : Setup κ Unit) (k : κ) : Except AttributeError Unit × κ :=
  (ExceptT.run steps).run k

/-- The outcome of a configuration that changes the kernel only if a check accepts. -/
def whenAccepted {α κ : Type} (check : Except AttributeError α) (k : κ) (accepted : α → κ) :
    Except AttributeError Unit × κ :=
  match check with
  | .ok a => (.ok (), accepted a)
  | .error e => (.error e, k)

/-- A type of kernels: its name for reports, how attributes configure it, what it computes. -/
class Kernel (κ : Type) where
  /-- The name of the kernel's implementation. -/
  kind : κ → String
  /-- Configure the kernel with the attributes of a node. -/
  configure : κ → Attributes → Except AttributeError Unit × κ
  /-- Compute the outputs for a list of inputs. -/
  invoke : κ → List Tensor → Except InvokeError (List Tensor)
  /-- The kernel after an invocation, whether it failed or not. -/
  afterInvoke : κ → List Tensor → κ := fun k _ => k
  /-- Configuring never changes what implementation a kernel is. -/
  kind_configure : ∀ k attrs, kind (configure k attrs).2 = kind k
  /-- Neither does invoking. -/
  kind_afterInvoke : ∀ k inputs, kind (afterInvoke k inputs) = kind k := by intros; rfl

/-- Kernels of either of two types. -/
instance {κ μ : Type} [Kernel κ] [Kernel μ] : Kernel (κ ⊕ μ) where
  kind
    | .inl k => Kernel.kind k
    | .inr k => Kernel.kind k
  configure
    | .inl k, attrs => (Kernel.configure k attrs).map id .inl
    | .inr k, attrs => (Kernel.configure k attrs).map id .inr
  invoke
    | .inl k, inputs => Kernel.invoke k inputs
    | .inr k, inputs => Kernel.invoke k inputs
  afterInvoke
    | .inl k, inputs => .inl (Kernel.afterInvoke k inputs)
    | .inr k, inputs => .inr (Kernel.afterInvoke k inputs)
  kind_configure
    | .inl k, attrs => Kernel.kind_configure k attrs
    | .inr k, attrs => Kernel.kind_configure k attrs
  kind_afterInvoke
    | .inl k, inputs => Kernel.kind_afterInvoke k inputs
    | .inr k, inputs => Kernel.kind_afterInvoke k inputs

end KernelDispatch
