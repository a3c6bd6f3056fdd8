import KernelDispatch.Proofs.Operator.Imports
import KernelDispatch.Session.Resolution

/-!
# The effective imports

The configuration of a resolution imports the standard domain first and then everything once more, which
changes no version: of the imports of a domain the last one counts, and each domain is kept once.
-/

namespace KernelDispatch

namespace SessionConfig

/-- Further opsets are inserted into the imports one after another. -/
theorem foldl_withOpset (c : SessionConfig) (os : List Opset) :
    os.foldl withOpset c = { c with opsets := os.foldl OpsetImports.insert c.opsets } := by
  induction os generalizing c with
  | nil => rfl
  | cons o os ih => exact ih (c.withOpset o)

/-- There is a configuration exactly if the standard domain is imported. -/
theorem exists_ofImports?_iff {is : OpsetImports} :
    (∃ config, ofImports? is = some config) ↔ (is.versionFor Domain.standard).isSome = true := by
  rw [← Option.isSome_iff_exists, ofImports?, Option.isSome_map]

/-- The configuration imports every domain as the imports do. -/
theorem versionFor_of_ofImports? {os : List Opset} {config : SessionConfig}
    (h : ofImports? (.ofList os) = some config) (domain : String) :
    config.opsets.versionFor domain = lastVersion os domain := by
  obtain ⟨version, hversion, rfl⟩ := Option.map_eq_some_iff.mp h
  rw [OpsetImports.versionFor_ofList] at hversion
  rw [foldl_withOpset, OpsetImports.versionFor_foldl_insert,
    OpsetImports.lastVersion_imports (OpsetImports.nodup_ofList os), OpsetImports.versionFor_ofList,
    ofOpset, OpsetImports.versionFor_insert]
  -- the import that comes first is one of the standard domain, and that one comes again
  by_cases hstandard : Domain.normalize Domain.standard = Domain.normalize domain
  · have hlast : lastVersion os domain = some version := by
      rw [lastVersion, ← hstandard]
      exact hversion
    rw [hlast]
    rfl
  · rw [Opset.of, if_neg hstandard]
    exact Option.or_none

/-- A configuration imports a list of opsets: each domain has the version of its last import, the
standard domain is listed first, the others follow in the order of their first imports, and none is
listed twice. -/
structure ImportsOf (config : SessionConfig) (os : List Opset) : Prop where
  versions : ∀ domain, config.opsets.versionFor domain = lastVersion os domain
  domains : config.opsets.imports.map (·.domain) =
    (Domain.standard :: os.map (·.domain)).eraseDups
  distinct : (config.opsets.imports.map (·.domain)).Nodup

/-- The imports are in place before they are imported once more. -/
theorem importsOf_of_ofImports? {os : List Opset} {config : SessionConfig}
    (h : ofImports? (.ofList os) = some config) : config.ImportsOf os := by
  have hdomains : config.opsets.imports.map (·.domain) =
      (Domain.standard :: os.map (·.domain)).eraseDups := by
    obtain ⟨version, -, rfl⟩ := Option.map_eq_some_iff.mp h
    have hfirst : (ofOpset (.of Domain.standard version)).opsets.imports.map (·.domain) =
        [Domain.standard] := rfl
    rw [foldl_withOpset, OpsetImports.map_domain_foldl_insert (hfirst ▸ List.nodup_singleton _),
      OpsetImports.map_domain_ofList, eraseDups_append_eraseDups, hfirst, List.singleton_append]
  exact ⟨versionFor_of_ofImports? h, hdomains, hdomains ▸ nodup_eraseDups _⟩

end SessionConfig

end KernelDispatch
