import KernelDispatch.Chunks
import KernelDispatch.Number.ErrorFunction

/-!
# Operations on numbers and rows

What the elementwise kernels compute on one element of each operand, and what softmax makes of a
row: the exponentials of the distances to the largest element, divided by their sum. All folds run
in the order of the row. Beside each operation stands what it means: arithmetic on the values of its
operands, a condition on truth values, and the rule of softmax for one element.
-/

namespace KernelDispatch

/-- The four operations of arithmetic. -/
inductive Arithmetic where
  | add
  | sub
  | mul
  | div
deriving DecidableEq, Inhabited, Repr

namespace Arithmetic

/-- The operator's name. -/
def name : Arithmetic → String
  | add => "Add"
  | sub => "Sub"
  | mul => "Mul"
  | div => "Div"

/-- The operation on two numbers. -/
def apply : Arithmetic → Binary32 → Binary32 → Binary32
  | add, x, y => x + y
  | sub, x, y => x - y
  | mul, x, y => x * y
  | div, x, y => x / y

/-- The operation on two values. -/
def onValues : Arithmetic → Float32 → Float32 → Float32
  | add, v, w => v + w
  | sub, v, w => v - w
  | mul, v, w => v * w
  | div, v, w => v / w

end Arithmetic

/-- The operations on truth values. -/
inductive Logical where
  | and
  | or
  | xor
deriving DecidableEq, Inhabited, Repr

namespace Logical

/-- The operator's name. -/
def name : Logical → String
  | and => "And"
  | or => "Or"
  | xor => "Xor"

/-- The operation on two truth values. -/
def apply : Logical → Bool → Bool → Bool
  | and, x, y => x && y
  | or, x, y => x || y
  | xor, x, y => x != y

/-- When the operation holds of two truth values. -/
def Holds : Logical → Bool → Bool → Prop
  | and, x, y => x = true ∧ y = true
  | or, x, y => x = true ∨ y = true
  | xor, x, y => x ≠ y

instance (op : Logical) (x y : Bool) : Decidable (op.Holds x y) :=
  match op with
  | and => inferInstanceAs (Decidable (x = true ∧ y = true))
  | or => inferInstanceAs (Decidable (x = true ∨ y = true))
  | xor => inferInstanceAs (Decidable (x ≠ y))

end Logical

namespace Binary32

/-- A negative number times the slope, any other number as it is. -/
def leak (x slope : Binary32) : Binary32 := if x.lt zero then slope * x else x

/-- A negative number times the slope on its right, any other number as it is. -/
def prelu (x slope : Binary32) : Binary32 := if x.lt zero then x * slope else x

/-- The positive part; a NaN becomes zero. -/
def relu (x : Binary32) : Binary32 := x.max zero

/-- The logistic function. -/
def sigmoid (x : Binary32) : Binary32 := one / (one + (-x).exp)

/-- The number weighted by the normal distribution function. -/
def gelu (x : Binary32) : Binary32 := half * x * (one + (x / sqrtTwo).erf)

end Binary32

/-- The softmax of one row of numbers. -/
def softmaxRow (row : List Binary32) : List Binary32 :=
  let top := row.foldl Binary32.max .negInfinity
  let powers := row.map fun x => (x - top).exp
  let sum := powers.foldl (· + ·) .zero
  powers.map (· / sum)

/-- Whether a row is the softmax of another one: with the largest number taken off each of the
numbers, it holds the exponentials of what is left, divided by the sum of all these, which are added
up from zero in order. -/
def IsSoftmax (row out : List Binary32) : Prop :=
  let top := row.foldl Binary32.max .negInfinity
  let sum := row.foldl (fun acc x => acc + (x - top).exp) .zero
  out = row.map fun x => (x - top).exp / sum

/-- A row has one softmax. -/
theorem isSoftmax_iff {row out : List Binary32} : IsSoftmax row out ↔ out = softmaxRow row := by
  simp only [IsSoftmax, softmaxRow, List.foldl_map, List.map_map, Function.comp_def]

/-- The softmax of each row of `n` numbers; rows without elements leave nothing to do. -/
def softmaxRows (n : Nat) (data : List Binary32) : List Binary32 :=
  if n = 0 then data else (chunks n data).flatMap softmaxRow

end KernelDispatch
