import KernelDispatch.Kernel.Basic

/-!
# Scripted kernels

A kernel with a prescribed behaviour, for trying a dispatch policy without arithmetic: it refuses
given attributes, and then either fails with a given text or hands its inputs back.
-/

namespace KernelDispatch

/-- A kernel that does what its fields say. -/
structure Scripted where
  kind : String
  /-- Attributes to refuse; the first of them that is present is reported. -/
  refused : List String
  /-- The text every invocation fails with, if it fails. -/
  failure : Option String
deriving DecidableEq, Inhabited, Repr

namespace Scripted

/-- Refuse the first unwanted attribute. -/
def check (k : Scripted) (attrs : Attributes) : Except AttributeError Unit :=
  match k.refused.find? attrs.contains with
  | some name => .error (.invalid name .scripted)
  | none => .ok ()

/-- Fail as prescribed, or hand the inputs back. -/
def invoke (k : Scripted) (inputs : List Tensor) : Except InvokeError (List Tensor) :=
  match k.failure with
  | some text => .error (.scripted text)
  | none => .ok inputs

instance : Kernel Scripted where
  kind := kind
  configure k attrs := (k.check attrs, k)
  invoke := invoke
  kind_configure _ _ := rfl

end Scripted

end KernelDispatch
