import KernelDispatch.Catalog.Basic

/-!
# Sets of catalogs

A backend owns at most one catalog per domain.
-/

namespace KernelDispatch

/-- Catalogs of different domains, in the order in which they were given. -/
structure CatalogSet (α : Type) where
  catalogs : List (Catalog α)
deriving Repr

namespace CatalogSet

variable {α : Type}

/-- The first catalog whose domain an earlier one has. -/
def firstRepeated? (earlier : List String) : List (Catalog α) → Option String
  | [] => none
  | c :: rest =>
    if earlier.contains c.domain then some c.domain
    else firstRepeated? (earlier ++ [c.domain]) rest

/-- The set of the given catalogs, whose domains must differ. -/
def ofList (catalogs : List (Catalog α)) : Except CatalogError (CatalogSet α) :=
  match firstRepeated? [] catalogs with
  | some domain => .error (.duplicateDomain domain)
  | none => .ok ⟨catalogs⟩

/-- The catalog of a domain. -/
def get? (s : CatalogSet α) (domain : String) : Option (Catalog α) :=
  s.catalogs.find? fun c => c.domain = Domain.normalize domain

/-- The domains in order. -/
def domains (s : CatalogSet α) : List String := s.catalogs.map (·.domain)

/-- The set with other values. -/
def map {β : Type} (f : α → β) (s : CatalogSet α) : CatalogSet β := ⟨s.catalogs.map (·.map f)⟩

end CatalogSet

end KernelDispatch
