import KernelDispatch.Operator.Identity

/-!
# Opset imports

A graph imports one version per domain. Importing a domain again changes its version and keeps its
place.
-/

namespace KernelDispatch

/-- A version of the operators of a domain. -/
structure Opset where
  domain : String
  version : UInt32
deriving DecidableEq, Inhabited, Repr

/-- The opset of a domain, which is kept in normalized spelling. -/
def Opset.of (domain : String) (version : UInt32) : Opset := ⟨Domain.normalize domain, version⟩

/-- The opsets a session imports, in the order in which their domains were first imported. -/
structure OpsetImports where
  imports : List Opset
deriving DecidableEq, Inhabited, Repr

namespace OpsetImports

/-- No imports. -/
def empty : OpsetImports := ⟨[]⟩

/-- Replace the version of the opset's domain, or add the opset at the end. -/
def insertInto (o : Opset) : List Opset → List Opset
  | [] => [o]
  | p :: rest => if p.domain = o.domain then o :: rest else p :: insertInto o rest

/-- Import an opset. -/
def insert (is : OpsetImports) (o : Opset) : OpsetImports := ⟨insertInto o is.imports⟩

/-- Import a list of opsets in order. -/
def ofList (os : List Opset) : OpsetImports := os.foldl insert empty

/-- The imported version of a domain. -/
def versionFor (is : OpsetImports) (domain : String) : Option UInt32 :=
  (is.imports.find? fun o => o.domain = Domain.normalize domain).map (·.version)

/-- Either spelling of a domain finds its import. -/
@[simp] theorem versionFor_normalize (is : OpsetImports) (domain : String) :
    is.versionFor (Domain.normalize domain) = is.versionFor domain := by
  simp [versionFor]

end OpsetImports

end KernelDispatch
