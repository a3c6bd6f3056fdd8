import KernelDispatch.Operator.Opset
import KernelDispatch.Proofs.Keys
import Mathlib.Data.List.Sort

/-!
# Tables of imports

Importing a domain again replaces its version, so of the imports of a domain the last one counts. A
table keeps every domain once, at the place of its first import. These facts determine the table of a
sequence of imports, however the sequence was imported: as a list, or one after another.
-/

namespace KernelDispatch

/-- The version in the last import of a domain. -/
def lastVersion (os : List Opset) (domain : String) : Option UInt32 :=
  (os.reverse.find? fun o => o.domain = Domain.normalize domain).map (·.version)

section LastVersions

variable {os : List Opset} {domain : String} {version : UInt32}

/-- The last version of a domain is that of the last import of it. -/
theorem lastVersion_eq_some_iff :
    lastVersion os domain = some version ↔ LastOfKey Opset.domain os (.of domain version) := by
  rw [lastVersion, Option.map_eq_some_iff]
  simp only [find?_reverse_eq_some_iff]
  constructor
  · rintro ⟨⟨_, _⟩, ⟨hlast, rfl⟩, rfl⟩
    exact hlast
  · intro hlast
    exact ⟨_, ⟨hlast, rfl⟩, rfl⟩

/-- A domain has a version if it is imported at all. -/
theorem isSome_lastVersion_iff :
    (lastVersion os domain).isSome = true ↔ ∃ o ∈ os, o.domain = Domain.normalize domain := by
  rw [lastVersion, Option.isSome_map, List.find?_isSome]
  simp

/-- A domain has no last version if it is not imported. -/
theorem lastVersion_eq_none_iff :
    lastVersion os domain = none ↔ ∀ o ∈ os, o.domain ≠ Domain.normalize domain := by
  rw [← Option.not_isSome_iff_eq_none, isSome_lastVersion_iff]
  simp

end LastVersions

namespace OpsetImports

variable {is is' : OpsetImports} {os : List Opset} {o : Opset}

/-! ### One import -/

/-- An inserted import is found under its domain, and the others are found as before. -/
theorem find?_insertInto (o : Opset) (os : List Opset) (domain : String) :
    (insertInto o os).find? (fun p => p.domain = domain) =
      if o.domain = domain then some o else os.find? fun p => p.domain = domain := by
  induction os with
  | nil => by_cases h : o.domain = domain <;> simp [insertInto, h]
  | cons p os ih =>
    rw [insertInto]
    by_cases hsame : p.domain = o.domain
    · rw [if_pos hsame, List.find?_cons, List.find?_cons, hsame]
      by_cases h : o.domain = domain <;> simp [h]
    · rw [if_neg hsame, List.find?_cons, List.find?_cons, ih]
      by_cases hp : p.domain = domain
      · have ho : o.domain ≠ domain := fun h => hsame (hp.trans h.symm)
        simp [hp, ho]
      · simp [hp]

/-- An import sets the version of its own domain alone. -/
theorem versionFor_insert (is : OpsetImports) (o : Opset) (domain : String) :
    (is.insert o).versionFor domain =
      if o.domain = Domain.normalize domain then some o.version else is.versionFor domain := by
  rw [versionFor, insert, find?_insertInto, apply_ite (Option.map _)]
  rfl

/-- A domain that is imported keeps its place, and one that is not comes last. -/
theorem map_domain_insertInto (o : Opset) (os : List Opset) :
    (insertInto o os).map (·.domain) =
      if o.domain ∈ os.map (·.domain) then os.map (·.domain) else os.map (·.domain) ++ [o.domain] := by
  induction os with
  | nil => rfl
  | cons p os ih =>
    rw [insertInto]
    by_cases hsame : p.domain = o.domain
    · simp [hsame]
    · rw [if_neg hsame, List.map_cons, ih]
      by_cases hmem : o.domain ∈ os.map (·.domain)
      · simp [hmem]
      · simp [hmem, Ne.symm hsame]

/-! ### Many imports -/

/-- Further imports replace those of their domains, the last one of each. -/
theorem find?_foldl_insert (os : List Opset) (is : OpsetImports) (domain : String) :
    (os.foldl insert is).imports.find? (fun p => p.domain = domain) =
      (os.reverse.find? fun p => p.domain = domain).or
        (is.imports.find? fun p => p.domain = domain) :=
  find?_foldl_put imports insert (fun is o domain => find?_insertInto o is.imports domain) os is domain

/-- Further imports set the versions of their domains, the last one of each. -/
theorem versionFor_foldl_insert (os : List Opset) (is : OpsetImports) (domain : String) :
    (os.foldl insert is).versionFor domain = (lastVersion os domain).or (is.versionFor domain) := by
  rw [versionFor, find?_foldl_insert, Option.map_or]
  rfl

/-- The effective version of a domain is that of its last import. -/
theorem versionFor_ofList (os : List Opset) (domain : String) :
    (ofList os).versionFor domain = lastVersion os domain := by
  rw [ofList, versionFor_foldl_insert]
  exact Option.or_none

/-- The domains are listed in the order in which they were first imported. -/
theorem map_domain_foldl_insert (h : (is.imports.map (·.domain)).Nodup) (os : List Opset) :
    (os.foldl insert is).imports.map (·.domain) =
      (is.imports.map (·.domain) ++ os.map (·.domain)).eraseDups := by
  induction os using List.reverseRecOn with
  | nil => rw [List.map_nil, List.append_nil, eraseDups_of_nodup h, List.foldl_nil]
  | append_singleton os o ih =>
    rw [List.foldl_append, List.foldl_cons, List.foldl_nil, insert, map_domain_insertInto, ih,
      List.map_append, List.map_singleton, ← List.append_assoc, eraseDups_concat]
    simp only [List.mem_eraseDups]

/-- The domains of a table stand in the order in which they were first imported. -/
theorem map_domain_ofList (os : List Opset) :
    (ofList os).imports.map (·.domain) = (os.map (·.domain)).eraseDups := by
  have hempty : (empty.imports.map (·.domain)).Nodup := List.nodup_nil
  exact map_domain_foldl_insert hempty os

/-- Each domain is kept once. -/
theorem nodup_ofList (os : List Opset) : ((ofList os).imports.map (·.domain)).Nodup :=
  map_domain_ofList os ▸ nodup_eraseDups _

/-- In a table that imports a domain once its last version is the one that is looked up. -/
theorem lastVersion_imports (h : (is.imports.map (·.domain)).Nodup) (domain : String) :
    lastVersion is.imports domain = is.versionFor domain := by
  rw [lastVersion, find?_reverse_of_nodup h, versionFor]

/-! ### The table of a sequence of imports -/

/-- Imports that follow a list of imports continue the list. -/
theorem foldl_insert_ofList (front rest : List Opset) :
    rest.foldl insert (ofList front) = ofList (front ++ rest) := by
  rw [ofList, ofList, List.foldl_append]

/-- A table records a sequence of imports: it has the domains of the sequence, each domain once, in the
order of their first imports, and each with its last import. -/
structure Records (is : OpsetImports) (os : List Opset) : Prop where
  domains : ∀ domain, domain ∈ is.imports.map (·.domain) ↔ domain ∈ os.map (·.domain)
  distinct : (is.imports.map (·.domain)).Nodup
  ordered : is.imports.Pairwise fun p q =>
    (os.map (·.domain)).idxOf p.domain < (os.map (·.domain)).idxOf q.domain
  latest : ∀ o ∈ is.imports, LastOfKey Opset.domain os o

/-- The table of a list of imports records the list. -/
theorem records_ofList (os : List Opset) : (ofList os).Records os where
  domains domain := by rw [map_domain_ofList, List.mem_eraseDups]
  distinct := nodup_ofList os
  ordered := by
    have hplaces := pairwise_eraseDups (os.map (·.domain))
    rwa [← map_domain_ofList, List.pairwise_map] at hplaces
  latest o ho := by
    have hfind := (find?_eq_some_iff_of_nodup (nodup_ofList os)).mpr ⟨ho, rfl⟩
    rw [ofList, find?_foldl_insert, empty, List.find?_nil, Option.or_none] at hfind
    exact (find?_reverse_eq_some_iff.mp hfind).1

/-- The imports of a table are the last ones of their domains. -/
theorem Records.mem_iff (h : is.Records os) : o ∈ is.imports ↔ LastOfKey Opset.domain os o := by
  refine ⟨h.latest o, fun hlast => ?_⟩
  -- what the table has for the domain is a last import as well, and there is only one
  obtain ⟨p, hp, hdomain⟩ := List.mem_map.mp ((h.domains o.domain).mpr (List.mem_map_of_mem hlast.mem))
  exact (h.latest p hp).unique hlast hdomain ▸ hp

/-- There is only one such table. -/
theorem Records.unique (h : is.Records os) (h' : is'.Records os) : is = is' := by
  have hasymm : Std.Asymm fun p q : Opset =>
      (os.map (·.domain)).idxOf p.domain < (os.map (·.domain)).idxOf q.domain :=
    ⟨fun _ _ => Nat.lt_asymm⟩
  have himports : is.imports = is'.imports :=
    h.ordered.eq_of_mem_iff h'.ordered fun o => h.mem_iff.trans h'.mem_iff.symm
  exact congrArg OpsetImports.mk himports

/-- Import any sequence of versions of domains, a part of it as a list and the rest one after another.
The one table that records the sequence results: it has every normalized domain once, in the order of
their first imports, with the version of its last import. Looking a domain up, in any spelling of it,
answers that version, and nothing for a domain that was not imported. -/
theorem insertions_recorded (front rest : List (String × UInt32)) :
    let os := (front ++ rest).map fun w => Opset.of w.1 w.2
    let is := rest.foldl (fun is w => is.insert (.of w.1 w.2))
      (ofList (front.map fun w => .of w.1 w.2))
    (∀ table : OpsetImports, table.Records os ↔ table = is) ∧
      (∀ domain version, is.versionFor domain = some version ↔
        LastOfKey Opset.domain os (.of domain version)) ∧
      (∀ domain, is.versionFor domain = none ↔
        ∀ w ∈ front ++ rest, Domain.normalize w.1 ≠ Domain.normalize domain) ∧
      is.versionFor "" = is.versionFor Domain.standard := by
  intro os is
  have his : is = ofList os := by
    have hrest : is = (rest.map fun w => Opset.of w.1 w.2).foldl insert
        (ofList (front.map fun w => Opset.of w.1 w.2)) := List.foldl_map.symm
    rw [hrest, foldl_insert_ofList, ← List.map_append]
  refine ⟨fun table => ⟨fun h => ?_, fun h => ?_⟩, fun domain version => ?_, fun domain => ?_, rfl⟩
  · rw [his]
    exact h.unique (records_ofList os)
  · rw [h, his]
    exact records_ofList os
  · rw [his, versionFor_ofList]
    exact lastVersion_eq_some_iff
  · rw [his, versionFor_ofList, lastVersion_eq_none_iff]
    exact List.forall_mem_map

/-- The standard domain in both of its spellings, with another domain in between. -/
example : (ofList [.of "" 7, .of "com.microsoft" 1]).insert (.of "ai.onnx" 13) =
    ⟨[⟨"ai.onnx", 13⟩, ⟨"com.microsoft", 1⟩]⟩ := by decide

end OpsetImports

end KernelDispatch
