import KernelDispatch.Catalog.Set

/-!
# Catalogs known to be sound

A catalog whose registrations are fixed in the program needs no check when it runs: that they have
no fault is shown once, where the catalog is written down.
-/

namespace KernelDispatch

variable {α : Type}

/-- The catalog of registrations without fault. -/
def Catalog.ofSound (domain : String) (registrations : List (Registration α))
    (_sound : Registration.firstFault? (Domain.normalize domain) [] registrations = none) :
    Catalog α :=
  ⟨Domain.normalize domain, sortLatestFirst Registration.preferred registrations⟩

/-- Building from sound registrations succeeds with that catalog. -/
theorem Catalog.build_eq_ofSound (domain : String) (registrations : List (Registration α))
    (sound : Registration.firstFault? (Domain.normalize domain) [] registrations = none) :
    Catalog.build domain registrations = .ok (Catalog.ofSound domain registrations sound) := by
  simp [Catalog.build, Catalog.ofSound, sound]

/-- The set of catalogs with different domains. -/
def CatalogSet.ofSound (catalogs : List (Catalog α))
    (_sound : CatalogSet.firstRepeated? [] catalogs = none) : CatalogSet α := ⟨catalogs⟩

/-- Collecting catalogs with different domains succeeds with that set. -/
theorem CatalogSet.ofList_eq_ofSound (catalogs : List (Catalog α))
    (sound : CatalogSet.firstRepeated? [] catalogs = none) :
    CatalogSet.ofList catalogs = .ok (CatalogSet.ofSound catalogs sound) := by
  simp [CatalogSet.ofList, CatalogSet.ofSound, sound]

end KernelDispatch
