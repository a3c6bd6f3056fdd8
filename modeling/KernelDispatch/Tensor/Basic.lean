import KernelDispatch.Number.Binary32
import KernelDispatch.Tensor.Bytes
import KernelDispatch.Tensor.Shape

/-!
# Dense tensors

A tensor is an element type, a shape and a buffer of bytes, elements one after another in
little-endian order. The typed views decode the buffer; each answers only for its own element type.
Reshaping keeps the buffer.
-/

namespace KernelDispatch

/-- What the elements of a tensor are. -/
inductive ElementType where
  | f32
  | i64
  | bool
deriving DecidableEq, Inhabited, Repr

namespace ElementType

/-- Bytes per element. -/
def size : ElementType → Nat
  | f32 => 4
  | i64 => 8
  | bool => 1

/-- An element takes at least one byte. -/
theorem size_pos (e : ElementType) : 0 < e.size := by cases e <;> decide

/-- The name of the type in messages. -/
def name : ElementType → String
  | f32 => "F32"
  | i64 => "I64"
  | bool => "Bool"

/-- The name of the view of the type in messages. -/
def viewName : ElementType → String
  | f32 => "f32"
  | i64 => "i64"
  | bool => "bool"

end ElementType

/-- A dense tensor in host memory. -/
structure Tensor where
  elementType : ElementType
  shape : Shape
  bytes : List UInt8
deriving DecidableEq, Inhabited, Repr

/-- Why a tensor could not be built or read. -/
inductive TensorError where
  /-- The buffer does not have the size that the shape asks for. -/
  | byteSize (got expected : Nat)
  /-- The view of one element type was asked of a tensor of another. -/
  | elementType (expected actual : ElementType)
  /-- The new shape has another number of elements. -/
  | reshape (source target : Shape)
deriving DecidableEq, Repr

/-- The wording of a tensor error. -/
def TensorError.message : TensorError → String
  | byteSize got expected => s!"tensor byte size mismatch: got {got}, expected {expected}"
  | elementType expected actual => s!"expected {expected.viewName} tensor, got {actual.name}"
  | reshape source target => s!"cannot reshape {source.render} into {target.render}"

namespace Tensor

/-- The number of elements according to the shape. -/
def count (t : Tensor) : Nat := t.shape.count

/-- The buffer size that a shape asks for, as a machine word. -/
def byteSize (e : ElementType) (shape : Shape) : Nat := shape.count * e.size % wordSize

/-- A tensor over a given buffer, which must have exactly the size that the shape asks for. -/
def ofBytes (e : ElementType) (shape : Shape) (bytes : List UInt8) : Except TensorError Tensor :=
  if bytes.length = byteSize e shape then .ok ⟨e, shape, bytes⟩
  else .error (.byteSize bytes.length (byteSize e shape))

/-- A tensor of binary32 numbers. -/
def ofFloats (shape : Shape) (values : List Binary32) : Except TensorError Tensor :=
  ofBytes .f32 shape (values.flatMap fun x => Bytes.encode 4 x.bits.toNat)

/-- A tensor of 64-bit integers. -/
def ofInts (shape : Shape) (values : List Int64) : Except TensorError Tensor :=
  ofBytes .i64 shape (values.flatMap fun n => Bytes.encode 8 n.toUInt64.toNat)

/-- A tensor of truth values, one byte each. -/
def ofBools (shape : Shape) (values : List Bool) : Except TensorError Tensor :=
  ofBytes .bool shape (values.map Bool.toUInt8)

/-- The buffer, if the tensor has the given element type. -/
def bytesOf (t : Tensor) (e : ElementType) : Except TensorError (List UInt8) :=
  if t.elementType = e then .ok t.bytes else .error (.elementType e t.elementType)

/-- The elements of a tensor of binary32 numbers. -/
def floats (t : Tensor) : Except TensorError (List Binary32) :=
  (t.bytesOf .f32).map fun bytes => (Bytes.words 4 bytes).map fun n => ⟨UInt32.ofNat n⟩

/-- The elements of a tensor of 64-bit integers. -/
def ints (t : Tensor) : Except TensorError (List Int64) :=
  (t.bytesOf .i64).map fun bytes => (Bytes.words 8 bytes).map fun n => (UInt64.ofNat n).toInt64

/-- The elements of a tensor of truth values; every byte but zero is true. -/
def bools (t : Tensor) : Except TensorError (List Bool) :=
  (t.bytesOf .bool).map fun bytes => bytes.map (· != 0)

/-- The same buffer under another shape with as many elements. -/
def reshape (t : Tensor) (shape : Shape) : Except TensorError Tensor :=
  if shape.count = t.count then .ok { t with shape } else .error (.reshape t.shape shape)

/-- A tensor whose buffer holds exactly as many elements as its shape has. -/
def WellFormed (t : Tensor) : Prop :=
  t.bytes.length = t.shape.dims.foldl (· * ·) 1 * t.elementType.size ∧
    t.bytes.length < wordSize

end Tensor

end KernelDispatch
