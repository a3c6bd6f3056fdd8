import KernelDispatch.Catalog.Checked
import KernelDispatch.Reference.Axis
import KernelDispatch.Reference.Elementwise
import KernelDispatch.Reference.Product

/-!
# The reference kernels and their catalogs

The reference family covers many operators and serves as the fallback of faster, narrower families.
-/

namespace KernelDispatch

/-- A kernel of the reference family. -/
inductive ReferenceKernel where
  | binary (k : Reference.Binary)
  | unary (k : Reference.Unary)
  | sum (k : Reference.Sum)
  | softmax (k : Reference.Softmax)
  | matMul (k : Reference.MatMul)
  | gemm (k : Reference.Gemm)
  | flatten (k : Reference.Flatten)
deriving DecidableEq, Repr

namespace ReferenceKernel

instance : Kernel ReferenceKernel where
  kind
    | binary k => Kernel.kind k
    | unary k => Kernel.kind k
    | sum k => Kernel.kind k
    | softmax k => Kernel.kind k
    | matMul k => Kernel.kind k
    | gemm k => Kernel.kind k
    | flatten k => Kernel.kind k
  configure
    | binary k, attrs => (Kernel.configure k attrs).map id binary
    | unary k, attrs => (Kernel.configure k attrs).map id unary
    | sum k, attrs => (Kernel.configure k attrs).map id sum
    | softmax k, attrs => (Kernel.configure k attrs).map id softmax
    | matMul k, attrs => (Kernel.configure k attrs).map id matMul
    | gemm k, attrs => (Kernel.configure k attrs).map id gemm
    | flatten k, attrs => (Kernel.configure k attrs).map id flatten
  invoke
    | binary k, inputs => Kernel.invoke k inputs
    | unary k, inputs => Kernel.invoke k inputs
    | sum k, inputs => Kernel.invoke k inputs
    | softmax k, inputs => Kernel.invoke k inputs
    | matMul k, inputs => Kernel.invoke k inputs
    | gemm k, inputs => Kernel.invoke k inputs
    | flatten k, inputs => Kernel.invoke k inputs
  afterInvoke
    | binary k, inputs => binary (Kernel.afterInvoke k inputs)
    | unary k, inputs => unary (Kernel.afterInvoke k inputs)
    | sum k, inputs => sum (Kernel.afterInvoke k inputs)
    | softmax k, inputs => softmax (Kernel.afterInvoke k inputs)
    | matMul k, inputs => matMul (Kernel.afterInvoke k inputs)
    | gemm k, inputs => gemm (Kernel.afterInvoke k inputs)
    | flatten k, inputs => flatten (Kernel.afterInvoke k inputs)
  kind_configure k attrs := by cases k <;> rfl
  kind_afterInvoke k inputs := by cases k <;> rfl

end ReferenceKernel

namespace Reference

/-- A binary operation, served from version 7 on. -/
def binaryEntry (op : BinaryOp) : Registration ReferenceKernel :=
  ⟨op.name, .since 7, .binary ⟨op, false⟩⟩

/-- A unary operation, served from a version on. -/
def unaryEntry (start : UInt32) (op : UnaryOp) : Registration ReferenceKernel :=
  ⟨op.name, .since start, .unary ⟨op, false⟩⟩

/-- The standard operators, each with a fresh kernel. -/
def standardEntries : List (Registration ReferenceKernel) :=
  [ binaryEntry (.arithmetic .add), binaryEntry (.arithmetic .sub),
    binaryEntry (.arithmetic .mul), binaryEntry (.arithmetic .div), binaryEntry .prelu,
    binaryEntry (.logical .and), binaryEntry (.logical .or), binaryEntry (.logical .xor),
    unaryEntry 6 .relu, unaryEntry 6 (.leakyRelu .hundredth), unaryEntry 6 .sigmoid,
    unaryEntry 6 .tanh, unaryEntry 6 .exp, unaryEntry 6 .neg, unaryEntry 6 .abs,
    unaryEntry 9 .erf, unaryEntry 1 .identity,
    ⟨"Softmax", .between 1 12, .softmax ⟨.flattening, none⟩⟩,
    ⟨"Softmax", .since 13, .softmax ⟨.lane, none⟩⟩,
    ⟨"Sum", .since 8, .sum ⟨false⟩⟩,
    ⟨"MatMul", .since 9, .matMul ⟨false⟩⟩,
    ⟨"Gemm", .since 7, .gemm .fresh⟩,
    ⟨"Flatten", .since 1, .flatten ⟨none⟩⟩ ]

/-- The contributed operators. -/
def contributedEntries : List (Registration ReferenceKernel) := [unaryEntry 1 .gelu]

/-- The catalogs of the reference family. -/
def catalogs : CatalogSet ReferenceKernel :=
  .ofSound
    [.ofSound Domain.standard standardEntries (by decide +kernel),
      .ofSound Domain.contributed contributedEntries (by decide +kernel)]
    (by decide +kernel)

end Reference

end KernelDispatch
