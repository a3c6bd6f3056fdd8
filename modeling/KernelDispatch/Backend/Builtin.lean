import KernelDispatch.Backend.Registry
import KernelDispatch.Parallel.Kernels
import KernelDispatch.Reference.Basic

/-!
# The built-in backends

The reference backend and the parallel backend; both always hand out a handler. The coverage of the
parallel family is partial: graphs that use other operators need a fallback.
-/

namespace KernelDispatch.Parallel

/-- An operation served from a version on, with a fresh kernel. -/
def entry (start : UInt32) (op : ParallelOp) : Registration ParallelKernel :=
  ⟨op.name, .since start, ⟨op, false⟩⟩

/-- The standard operators of the family. -/
def standardEntries : List (Registration ParallelKernel) :=
  [ entry 7 (.binary .add), entry 7 (.binary .sub), entry 7 (.binary .mul),
    entry 7 (.binary .div), entry 6 (.unary .relu), entry 6 (.unary .sigmoid),
    entry 13 .softmax, entry 9 .matMul, entry 8 .sum ]

/-- The catalogs of the parallel family. -/
def catalogs : CatalogSet ParallelKernel :=
  .ofSound [.ofSound Domain.standard standardEntries (by decide +kernel)] (by decide +kernel)

end KernelDispatch.Parallel

namespace KernelDispatch

/-- The backend of the reference kernels. -/
def Reference.backend : Backend ReferenceKernel :=
  ⟨"cpu", "cpu", catalogs, fun _ => .ok (.fresh "cpu")⟩

/-- The backend of the parallel kernels. -/
def Parallel.backend : Backend ParallelKernel :=
  ⟨"par", "par", catalogs, fun _ => .ok (.fresh "par")⟩

/-- A kernel of either built-in family. -/
abbrev BuiltinKernel := ReferenceKernel ⊕ ParallelKernel

/-- The reference backend beside the parallel one. -/
def Builtin.cpu : Backend BuiltinKernel := Reference.backend.map .inl

/-- The parallel backend beside the reference one. -/
def Builtin.par : Backend BuiltinKernel := Parallel.backend.map .inr

/-- The registry of the built-in backends. -/
def Builtin.registry : Registry BuiltinKernel := ⟨[Builtin.par, Builtin.cpu]⟩

end KernelDispatch
