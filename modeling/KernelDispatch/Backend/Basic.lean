import KernelDispatch.Catalog.Set
import KernelDispatch.Kernel.Basic
import KernelDispatch.Operator.Identity

/-!
# Backends

A backend owns catalogs of fresh kernels and hands out inference handlers, in which kernels are run.
A handler may be refused, and whether it is may depend on how many were requested before.
-/

namespace KernelDispatch

/-- The context in which a session runs the kernels of one backend. -/
structure InferenceHandler where
  /-- The name of the backend that gave the handler. -/
  backend : String
  /-- How many kernels have been run. -/
  runs : Nat
deriving DecidableEq, Inhabited, Repr

namespace InferenceHandler

/-- A handler that has not run anything. -/
def fresh (backend : String) : InferenceHandler := ⟨backend, 0⟩

/-- Run a kernel; the run counts even if it fails. -/
def run {κ : Type} [Kernel κ] (h : InferenceHandler) (k : κ) (inputs : List Tensor) :
    Except InvokeError (List Tensor) × InferenceHandler :=
  (Kernel.invoke k inputs, { h with runs := h.runs + 1 })

end InferenceHandler

/-- A source of kernels. -/
structure Backend (κ : Type) where
  name : String
  /-- Tells backends of one name apart. -/
  label : String
  /-- The catalogs of fresh kernels. -/
  catalogs : CatalogSet κ
  /-- The answer to a request for a handler, by the number of earlier requests. -/
  openHandler : Nat → Except String InferenceHandler

namespace Backend

variable {κ : Type}

/-- Whether two backends are one and the same. -/
def same (b c : Backend κ) : Bool := b.name = c.name && b.label = c.label

/-- The catalog of a domain. -/
def catalogFor (b : Backend κ) (domain : String) : Option (Catalog κ) := b.catalogs.get? domain

/-- Whether an operator is served at a version. -/
def supports (b : Backend κ) (op domain : String) (version : UInt32) : Bool :=
  (b.catalogFor domain).any fun c => c.contains op domain version

/-- The fresh kernel that serves an identity. -/
def find? (b : Backend κ) (id : Identity) : Option κ :=
  (b.catalogFor id.domain).bind fun c => c.lookup id.op id.domain id.version

/-- The backend with its kernels taken as kernels of another type. -/
def map {μ : Type} (f : κ → μ) (b : Backend κ) : Backend μ :=
  ⟨b.name, b.label, b.catalogs.map f, b.openHandler⟩

end Backend

end KernelDispatch
