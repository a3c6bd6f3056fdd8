/-!
# Operator identities

Operators live in named domains. The empty name is an alias of the standard domain, and every part
of the library compares domains in their normalized spelling. What a catalog is asked for is an
operator's name in a domain at a version.
-/

namespace KernelDispatch.Domain

/-- The domain of the standard operators. -/
def standard : String := "ai.onnx"

/-- The domain of the contributed operators. -/
def contributed : String := "com.microsoft"

/-- The one spelling of a domain: the empty name means the standard domain. -/
def normalize (domain : String) : String := if domain.isEmpty then standard else domain

/-- A normalized domain is in its one spelling. -/
@[simp] theorem normalize_normalize (domain : String) :
    normalize (normalize domain) = normalize domain := by
  by_cases h : domain.isEmpty = true
  · have hstandard : standard.isEmpty = false := by decide
    simp [normalize, h, hstandard]
  · simp [normalize, h]

end KernelDispatch.Domain

namespace KernelDispatch

/-- An operator of a domain at a version. -/
structure Identity where
  op : String
  domain : String
  version : UInt32
deriving DecidableEq, Inhabited, Repr

namespace Identity

/-- The identity of an operator, with its domain in normalized spelling. -/
def of (op domain : String) (version : UInt32) : Identity :=
  ⟨op, Domain.normalize domain, version⟩

/-- An identity is written `domain::op@version`. -/
def render (i : Identity) : String := s!"{i.domain}::{i.op}@{i.version}"

end Identity

end KernelDispatch
