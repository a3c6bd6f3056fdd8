import KernelDispatch.Backend.Basic
import KernelDispatch.Ordered

/-!
# Registries of backends

Backends are registered once each under their names and found by name.
-/

namespace KernelDispatch

/-- Why a backend could not be registered. -/
inductive RegistryError where
  | duplicateBackend (name : String)
deriving DecidableEq, Repr

/-- The wording of a registry error. -/
def RegistryError.message : RegistryError → String
  | duplicateBackend name => s!"backend '{name}' is already registered"

/-- Backends of different names, in order of registration. -/
structure Registry (κ : Type) where
  backends : List (Backend κ)

namespace Registry

variable {κ : Type}

/-- No backends. -/
def empty : Registry κ := ⟨[]⟩

/-- The backend of a name. -/
def get? (r : Registry κ) (name : String) : Option (Backend κ) :=
  r.backends.find? fun b => b.name = name

/-- Whether a name is registered. -/
def contains (r : Registry κ) (name : String) : Bool := (r.get? name).isSome

/-- The registered names in order. -/
def names (r : Registry κ) : List String :=
  sortStably (fun a b => a ≤ b) (r.backends.map (·.name))

/-- Register a backend, whose name must be new. -/
def register (r : Registry κ) (b : Backend κ) : Except RegistryError (Registry κ) :=
  if r.contains b.name then .error (.duplicateBackend b.name) else .ok ⟨r.backends ++ [b]⟩

/-- Register backends in order. -/
def ofList (backends : List (Backend κ)) : Except RegistryError (Registry κ) :=
  backends.foldlM register empty

end Registry

end KernelDispatch
