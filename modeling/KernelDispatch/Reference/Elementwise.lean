import KernelDispatch.Kernel.Access
import KernelDispatch.Kernel.Operation

/-!
# Elementwise reference kernels

Binary operations on numbers or truth values, operations on one number, and the sum of any number
of operands. Operands have one shape, or a single element that is repeated.
-/

namespace KernelDispatch.Reference

/-- The operations on two operands. -/
inductive BinaryOp where
  | arithmetic (op : Arithmetic)
  | prelu
  | logical (op : Logical)
deriving DecidableEq, Inhabited, Repr

/-- The operator's name. -/
def BinaryOp.name : BinaryOp → String
  | arithmetic op => op.name
  | prelu => "PRelu"
  | logical op => op.name

/-- A kernel for an operation on two operands. -/
structure Binary where
  op : BinaryOp
  ready : Bool
deriving DecidableEq, Inhabited, Repr

namespace Binary

/-- Refuse the attributes of explicit broadcasting, then every other attribute. -/
def checkAttributes (attrs : Attributes) : Except AttributeError Unit :=
  match ["broadcast", "axis"].find? attrs.contains with
  | some legacy => .error (.invalid legacy .legacyBroadcast)
  | none => attrs.rejectUnknown []

/-- An operation on numbers, element by element. -/
def numbers (op : String) (f : Binary32 → Binary32 → Binary32) (shape : Shape) (a b : Tensor) :
    Except InvokeError (List Tensor) :=
  if a.elementType ≠ .f32 ∨ b.elementType ≠ .f32 then .error (.notNumbers op)
  else do
    let x ← readFloats a
    let y ← readFloats b
    answerFloats shape (← zipCyclic shape.count f x y)

/-- An operation on truth values, element by element. -/
def truthValues (f : Bool → Bool → Bool) (shape : Shape) (a b : Tensor) :
    Except InvokeError (List Tensor) := do
  let x ← readBools a
  let y ← readBools b
  answerBools shape (← zipCyclic shape.count f x y)

/-- Apply the operation to two operands. -/
def invoke (k : Binary) (inputs : List Tensor) : Except InvokeError (List Tensor) :=
  if !k.ready then .error (.unconfigured k.op.name)
  else
    match inputs with
    | [a, b] => do
      let shape ← pairShape k.op.name a.shape b.shape
      match k.op with
      | .arithmetic op => numbers op.name op.apply shape a b
      | .prelu => numbers k.op.name Binary32.prelu shape a b
      | .logical op => truthValues op.apply shape a b
    | _ => .error (.inputRange k.op.name 2 2 inputs.length)

instance : Kernel Binary where
  kind _ := "cpu.BinaryOp"
  configure k attrs := whenAccepted (checkAttributes attrs) k fun _ => { k with ready := true }
  invoke := invoke
  kind_configure _ _ := rfl

end Binary

/-- The operations on one operand. -/
inductive UnaryOp where
  | relu
  | leakyRelu (slope : Binary32)
  | sigmoid
  | tanh
  | exp
  | neg
  | abs
  | erf
  | gelu
  | identity
deriving DecidableEq, Inhabited, Repr

namespace UnaryOp

/-- The operator's name. -/
def name : UnaryOp → String
  | relu => "Relu"
  | leakyRelu _ => "LeakyRelu"
  | sigmoid => "Sigmoid"
  | tanh => "Tanh"
  | exp => "Exp"
  | neg => "Neg"
  | abs => "Abs"
  | erf => "Erf"
  | gelu => "Gelu"
  | identity => "Identity"

/-- The operation on one number. -/
def apply : UnaryOp → Binary32 → Binary32
  | relu, x => x.relu
  | leakyRelu slope, x => x.leak slope
  | sigmoid, x => x.sigmoid
  | tanh, x => x.tanh
  | exp, x => x.exp
  | neg, x => -x
  | abs, x => x.abs
  | erf, x => x.erf
  | gelu, x => x.gelu
  | identity, x => x

end UnaryOp

/-- A kernel for an operation on one operand. -/
structure Unary where
  op : UnaryOp
  ready : Bool
deriving DecidableEq, Inhabited, Repr

namespace Unary

/-- Take over the slope of a leaky rectifier, which must be finite; no other operation has
attributes. The slope is kept even when it is refused. -/
def setup (attrs : Attributes) : Setup Unary Unit := do
  match (← get).op with
  | .leakyRelu _ =>
    attrs.rejectUnknown ["alpha"]
    let slope ← attrs.floatOr "alpha" .hundredth
    modify fun k => { k with op := .leakyRelu slope }
    if !slope.isFinite then throw (.invalid "alpha" .notFinite)
  | _ => attrs.rejectUnknown []
  modify fun k => { k with ready := true }

/-- Apply the operation to every number; the identity hands on a tensor of any type. -/
def invoke (k : Unary) (inputs : List Tensor) : Except InvokeError (List Tensor) :=
  if !k.ready then .error (.unconfigured k.op.name)
  else
    match inputs with
    | [a] =>
      match k.op with
      | .identity => .ok [a]
      | op => do
        let x ← liftTensor a.floats
        answerFloats a.shape (x.map op.apply)
    | _ => .error (.inputRange k.op.name 1 1 inputs.length)

instance : Kernel Unary where
  kind _ := "cpu.Unary"
  configure k attrs := (setup attrs).outcome k
  invoke := invoke
  kind_configure _ _ := rfl

end Unary

/-- A kernel for the sum of one or more operands. -/
structure Sum where
  ready : Bool
deriving DecidableEq, Inhabited, Repr

namespace Sum

/-- Add an operand, repeated if it is a single element, to the partial sums. -/
def addOperand (acc : List Binary32) (t : Tensor) : Except InvokeError (List Binary32) := do
  let values ← readFloats t
  acc.zipIdx.mapM fun c => do return c.1 + (← readCyclic values c.2)

/-- Add the operands in order, starting from zero. The sums take as much room as the operand whose
shape they have, so there is room for them. -/
def invoke (k : Sum) (inputs : List Tensor) : Except InvokeError (List Tensor) :=
  if !k.ready then .error (.unconfigured "Sum")
  else
    match inputs with
    | [] => .error (.noInput "Sum")
    | first :: rest => do
      let shape ← rest.foldlM (fun shape t => pairShape "Sum" shape t.shape) first.shape
      let sums ← (first :: rest).foldlM addOperand (List.replicate shape.count .zero)
      answerFloats shape sums

instance : Kernel Sum where
  kind _ := "cpu.Sum"
  configure k attrs := whenAccepted (attrs.rejectUnknown []) k fun _ => ⟨true⟩
  invoke := invoke
  kind_configure _ _ := rfl

end Sum

end KernelDispatch.Reference
