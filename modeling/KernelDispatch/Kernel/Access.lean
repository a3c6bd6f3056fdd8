import KernelDispatch.Kernel.Basic

/-!
# Operands of kernels

Elementwise kernels accept operands of one shape, or a single element beside any operand. An axis
counts from the front, or from the back when it is negative.

Kernels read their operands by position. Every read is checked: a position outside a buffer, or the
repetition of an empty operand, is an error of its own, so that kernels can be shown never to
produce one. A buffer whose size follows from dimensions is checked as well: it can be too large to
exist although every operand is small, as a dimension of zero leaves the others unbounded.
-/

namespace KernelDispatch

/-- The output shape of an elementwise operation on two operands. -/
def pairShape (op : String) (a b : Shape) : Except InvokeError Shape :=
  if a = b then .ok a
  else if b.count = 1 then .ok a
  else if a.count = 1 then .ok b
  else .error (.shapes op a b)

/-- The dimension that an axis denotes in a rank. With `inclusive` the position behind the last
dimension counts as well. -/
def resolveAxis (axis : Int64) (rank : Nat) (inclusive : Bool) : Except InvokeError Nat :=
  let resolved : Int := if axis.toInt < 0 then axis.toInt + rank else axis.toInt
  let upper : Int := if inclusive then rank else rank - 1
  if 0 ≤ resolved ∧ resolved ≤ upper then .ok resolved.toNat else .error (.axisRange axis rank)

variable {α β : Type}

/-- An error of a tensor, as the error of the invocation that met it. -/
def liftTensor (r : Except TensorError α) : Except InvokeError α := r.mapError .tensor

/-- The element at a position. -/
def read (xs : Array α) (i : Nat) : Except InvokeError α :=
  match xs[i]? with
  | some x => .ok x
  | none => .error (.outOfBounds i xs.size)

/-- The element at a position of the operand repeated without end. -/
def readCyclic (xs : Array α) (i : Nat) : Except InvokeError α :=
  if xs.size = 0 then .error .emptyOperand else read xs (i % xs.size)

/-- The elements from `start` up to `stop`. -/
def slice (xs : Array α) (start stop : Nat) : Except InvokeError (Array α) :=
  if stop ≤ xs.size then .ok (xs.extract start stop) else .error (.outOfBounds stop xs.size)

/-- Replace the element at a position by what `f` makes of it. -/
def update (xs : Array α) (i : Nat) (f : α → Except InvokeError α) :
    Except InvokeError (Array α) := do
  return xs.setIfInBounds i (← f (← read xs i))

/-- The values of a function at `0, ..., n - 1`. -/
def tabulate (n : Nat) (f : Nat → Except InvokeError α) : Except InvokeError (List α) :=
  (List.range n).mapM f

/-- Combine two operands element by element over `n` positions, a shorter one repeated. -/
def zipCyclic (n : Nat) (f : α → α → β) (x y : Array α) : Except InvokeError (List β) :=
  tabulate n fun i => do return f (← readCyclic x i) (← readCyclic y i)

/-- The bound of buffer sizes in bytes: the distance of two positions is a signed machine word. -/
def bufferBound : Nat := wordSize / 2

/-- Make room for a buffer of `n` numbers. -/
def reserve (n : Nat) : Except InvokeError Unit :=
  if n * ElementType.f32.size < bufferBound then .ok () else .error (.capacity n)

/-- The numbers of a tensor as a random-access buffer. -/
def readFloats (t : Tensor) : Except InvokeError (Array Binary32) :=
  (liftTensor t.floats).map List.toArray

/-- The truth values of a tensor as a random-access buffer. -/
def readBools (t : Tensor) : Except InvokeError (Array Bool) :=
  (liftTensor t.bools).map List.toArray

/-- The one-tensor answer with the given numbers. -/
def answerFloats (shape : Shape) (values : List Binary32) : Except InvokeError (List Tensor) :=
  (liftTensor (Tensor.ofFloats shape values)).map ([·])

/-- The one-tensor answer with the given truth values. -/
def answerBools (shape : Shape) (values : List Bool) : Except InvokeError (List Tensor) :=
  (liftTensor (Tensor.ofBools shape values)).map ([·])

end KernelDispatch
