import KernelDispatch.Kernel.Scripted
import KernelDispatch.Proofs.Catalog.Faults
import KernelDispatch.Proofs.Ordered
import KernelDispatch.Proofs.Session.Policy
import Mathlib.Data.List.Forall2

/-!
# What a set of catalogs serves

Catalogs make a set if their domains differ, and otherwise the first domain that comes again is
reported. Where the domains differ there is one catalog to look into for each, wherever it stands in
the list. So what a backend says it supports, and what a session finds when it dispatches a node, can
both be read off the registrations that the catalogs were built from: they agree with each other, and
neither depends on the order of the catalogs.
-/

namespace KernelDispatch

variable {α κ : Type}

namespace CatalogSet

variable {catalogs : List (Catalog α)} {set set' : CatalogSet α}

/-! ### Sets of catalogs -/

/-- Behind different domains, the domain that is reported is the first repeated one of all. -/
theorem firstRepeated?_eq_some_iff {earlier : List String} {domain : String}
    (hnodup : earlier.Nodup) :
    firstRepeated? earlier catalogs = some domain ↔
      FirstRepeated id (earlier ++ catalogs.map (·.domain)) domain := by
  induction catalogs generalizing earlier with
  | nil =>
    refine iff_of_false nofun fun hfirst => ?_
    have hrepeats := exists_firstRepeated_iff.mp ⟨domain, hfirst⟩
    simp [hnodup] at hrepeats
  | cons c rest ih =>
    rw [firstRepeated?, List.map_cons]
    by_cases hc : c.domain ∈ earlier
    · have hfirst : FirstRepeated id (earlier ++ c.domain :: rest.map (·.domain)) c.domain :=
        ⟨earlier, _, rfl, by rwa [List.map_id], by rwa [List.map_id]⟩
      rw [if_pos (by simpa using hc), Option.some.injEq]
      constructor
      · rintro rfl
        exact hfirst
      · exact hfirst.unique
    · have hlonger : (earlier ++ [c.domain]).Nodup :=
        List.nodup_append_comm.mp (List.nodup_cons.mpr ⟨hc, hnodup⟩)
      rw [if_neg (by simpa using hc), ih hlonger, List.append_assoc, List.singleton_append]

/-- A repeated domain is found exactly if there is one. -/
theorem exists_firstRepeated?_iff :
    (∃ domain, firstRepeated? [] catalogs = some domain) ↔ ¬ (catalogs.map (·.domain)).Nodup := by
  simp only [firstRepeated?_eq_some_iff List.nodup_nil, List.nil_append, exists_firstRepeated_iff,
    List.map_id]

/-- Catalogs of different domains make a set of just these catalogs. -/
theorem ofList_eq_ok_iff :
    ofList catalogs = .ok set ↔ (catalogs.map (·.domain)).Nodup ∧ set = ⟨catalogs⟩ := by
  rw [← not_iff_comm.mp exists_firstRepeated?_iff.symm, ofList]
  cases firstRepeated? [] catalogs with
  | some domain => simp
  | none => simp [eq_comm]

/-- Otherwise the first domain that comes again is reported. -/
theorem ofList_eq_error_iff {e : CatalogError} :
    ofList catalogs = .error e ↔
      ∃ domain, FirstRepeated id (catalogs.map (·.domain)) domain ∧ e = .duplicateDomain domain := by
  have hfirst (domain : String) : FirstRepeated id (catalogs.map (·.domain)) domain ↔
      firstRepeated? [] catalogs = some domain := (firstRepeated?_eq_some_iff List.nodup_nil).symm
  simp only [hfirst, ofList]
  cases firstRepeated? [] catalogs with
  | some domain => simp [eq_comm]
  | none => simp

/-- In a set there is one catalog to find for each domain. -/
theorem get?_eq_some_iff (hnodup : set.domains.Nodup) {domain : String} {c : Catalog α} :
    set.get? domain = some c ↔ c ∈ set.catalogs ∧ c.domain = Domain.normalize domain :=
  find?_eq_some_iff_of_nodup hnodup

/-- It does not matter in which order the catalogs stand. -/
theorem get?_of_perm (hnodup : set.domains.Nodup) (hperm : set'.catalogs.Perm set.catalogs)
    (domain : String) : set'.get? domain = set.get? domain := by
  have hnodup' : set'.domains.Nodup := (hperm.map _).nodup_iff.mpr hnodup
  apply Option.ext
  intro c
  rw [get?_eq_some_iff hnodup', get?_eq_some_iff hnodup, hperm.mem_iff]

end CatalogSet

/-! ### What is supported -/

/-- A catalog contains what it was built with. -/
theorem Catalog.contains_iff {domain : String} {rs : List (Registration α)} {c : Catalog α}
    (h : build domain rs = .ok c) {op d : String} {version : UInt32} :
    c.contains op d version = true ↔ Domain.normalize domain = Domain.normalize d ∧
      ∃ r ∈ rs, r.op = op ∧ r.range.contains version = true := by
  obtain ⟨-, rfl⟩ := build_eq_ok_iff_sound.mp h
  have hserved : ((sortLatestFirst Registration.preferred rs).find? (·.serves op version)).isSome ↔
      ∃ r ∈ rs, r.op = op ∧ r.range.contains version = true := by
    simp [List.find?_isSome, (perm_sortLatestFirst _ rs).mem_iff, Registration.serves]
  rw [← hserved, contains, lookup, Option.isSome_map, find?]
  split
  · next heq => simp [heq]
  · next hne => simp [Ne.symm hne]

/-- A catalog that contains anything under a domain is the one of the domain. -/
theorem Catalog.domain_eq_of_contains {c : Catalog α} {op domain : String} {version : UInt32}
    (h : c.contains op domain version = true) : c.domain = Domain.normalize domain := by
  rw [contains, lookup, Option.isSome_map, find?] at h
  split at h
  · next heq => exact heq.symm
  · cases h

namespace Backend

variable {b b' : Backend κ} {op domain : String} {version : UInt32}

/-- An operator is supported if some catalog contains it. -/
theorem supports_iff (hnodup : b.catalogs.domains.Nodup) :
    b.supports op domain version = true ↔
      ∃ c ∈ b.catalogs.catalogs, c.contains op domain version = true := by
  simp only [supports, catalogFor, Option.any_eq_true, CatalogSet.get?_eq_some_iff hnodup]
  constructor
  · rintro ⟨c, ⟨hc, -⟩, hcontains⟩
    exact ⟨c, hc, hcontains⟩
  · rintro ⟨c, hc, hcontains⟩
    exact ⟨c, ⟨hc, Catalog.domain_eq_of_contains hcontains⟩, hcontains⟩

/-- An operator is supported if a kernel is found under its identity. -/
theorem supports_eq_isSome_find? :
    b.supports op domain version = (b.find? (.of op domain version)).isSome := by
  simp only [supports, find?, catalogFor, Identity.of, CatalogSet.get?, Catalog.contains,
    Catalog.lookup, Catalog.find?, Domain.normalize_normalize, Option.isSome_bind]

/-- Backends with the same catalogs to find find the same kernels. -/
theorem find?_of_catalogFor (h : ∀ domain, b'.catalogFor domain = b.catalogFor domain)
    (id : Identity) : b'.find? id = b.find? id := by
  rw [find?, find?, h]

/-- Backends with the same catalog for every domain support the same operators. -/
theorem supports_of_catalogFor (h : ∀ domain, b'.catalogFor domain = b.catalogFor domain) :
    b'.supports op domain version = b.supports op domain version := by
  rw [supports, supports, h]

end Backend

/-! ### What sessions find -/

namespace Session

variable [Kernel κ] {s : Session κ} {node : Node} {id : Identity}

/-- Without a fallback, a node whose identity the primary has is bound or refused by the kernel, and
a node of any other identity is neither. -/
theorem isSome_find?_iff (hactive : s.phase = .active) (hidle : s.context.activeFallback = none)
    (hid : s.context.Identifies node id) :
    (s.context.primary.find? id).isSome = true ↔
      (∃ place, (s.resolve node).1 = .ok place) ∨ ∃ op name cause,
        (s.resolve node).1 = .error (.invalidConfiguration op name cause) := by
  have hresolve : s.resolve node = s.dispatch node id := by
    rw [resolve, hactive, hid.identityOf_eq]
  rw [hresolve]
  cases hfind : s.context.primary.find? id with
  | some k =>
    rw [dispatch_of_serves node (.primary hfind)]
    refine iff_of_true rfl ?_
    rcases Kernel.configure k node.attributes with ⟨_ | _, k'⟩
    · exact .inr ⟨_, _, _, rfl⟩
    · exact .inl ⟨_, rfl⟩
  | none =>
    have hunserved := Context.unserved_iff.mpr ⟨hfind, by simp [hidle]⟩
    rw [dispatch_of_unserved node hunserved]
    simp

end Session

/-! ### Built catalogs -/

namespace CatalogSet

section Built

variable {written : List (String × List (Registration α))} {catalogs : List (Catalog α)}
  (hbuilt : List.Forall₂ (fun w c => Catalog.build w.1 w.2 = .ok c) written catalogs)
include hbuilt

/-- Built catalogs have the domains they were built for, in normalized spelling. -/
theorem map_domain_of_built :
    catalogs.map (·.domain) = written.map fun w => Domain.normalize w.1 := by
  induction hbuilt with
  | nil => rfl
  | cons hfirst _ ih =>
    obtain ⟨-, rfl⟩ := Catalog.build_eq_ok_iff_sound.mp hfirst
    rw [List.map_cons, List.map_cons, ih]

/-- Some built catalog contains an operator if it was registered for its domain. -/
theorem exists_contains_iff_of_built {op domain : String} {version : UInt32} :
    (∃ c ∈ catalogs, c.contains op domain version = true) ↔
      ∃ w ∈ written, Domain.normalize w.1 = Domain.normalize domain ∧
        ∃ r ∈ w.2, r.op = op ∧ r.range.contains version = true := by
  induction hbuilt with
  | nil => simp
  | cons hfirst _ ih =>
    rw [List.exists_mem_cons_iff, List.exists_mem_cons_iff, ih, Catalog.contains_iff hfirst]

end Built

/-- Built catalogs make a set exactly if their normalized domains differ, and otherwise the first
domain that comes again is reported. A backend with such a set supports an operator of a domain at a
version exactly if it was registered for the domain and a range that contains the version, and exactly
if an active session with this primary and no fallback to use binds such a node or has it refused by
its kernel. In any other order the catalogs make a set as well, of which the same is supported, and
with it every session resolves a node as before. -/
theorem ofList_serves [Kernel κ] {written : List (String × List (Registration κ))}
    {catalogs : List (Catalog κ)}
    (hbuilt : List.Forall₂ (fun w c => Catalog.build w.1 w.2 = .ok c) written catalogs) :
    let domains := written.map fun w => Domain.normalize w.1
    ((∃ set, ofList catalogs = .ok set) ↔ domains.Nodup) ∧
      (∀ e, ofList catalogs = .error e ↔
        ∃ domain, FirstRepeated id domains domain ∧ e = .duplicateDomain domain) ∧
      ∀ b : Backend κ, ofList catalogs = .ok b.catalogs →
        (∀ op domain version, b.supports op domain version = true ↔
          ∃ w ∈ written, Domain.normalize w.1 = Domain.normalize domain ∧
            ∃ r ∈ w.2, r.op = op ∧ r.range.contains version = true) ∧
        (∀ s : Session κ, s.phase = .active → s.context.primary = b →
          s.context.activeFallback = none → ∀ node op domain version,
            s.context.Identifies node (.of op domain version) →
              (b.supports op domain version = true ↔
                (∃ place, (s.resolve node).1 = .ok place) ∨ ∃ op name cause,
                  (s.resolve node).1 = .error (.invalidConfiguration op name cause))) ∧
        ∀ catalogs', catalogs'.Perm catalogs → ∃ set', ofList catalogs' = .ok set' ∧
          let b' : Backend κ := { b with catalogs := set' }
          (∀ op domain version, b'.supports op domain version = b.supports op domain version) ∧
          ∀ s : Session κ, s.context.primary = b → ∀ node,
            let c' : Context κ := { s.context with primary := b' }
            Session.resolve { s with context := c' } node =
              ((s.resolve node).1, { (s.resolve node).2 with context := c' }) := by
  intro domains
  have hdomains : catalogs.map (·.domain) = domains := map_domain_of_built hbuilt
  refine ⟨?_, fun e => ?_, fun b hb => ?_⟩
  · simp [ofList_eq_ok_iff, hdomains]
  · rw [ofList_eq_error_iff, hdomains]
  obtain ⟨hnodup, hset⟩ := ofList_eq_ok_iff.mp hb
  have hdiffer : b.catalogs.domains.Nodup := by rwa [hset]
  refine ⟨fun op domain version => ?_, ?_, fun catalogs' hperm => ?_⟩
  · rw [Backend.supports_iff hdiffer, ← exists_contains_iff_of_built hbuilt, hset]
  · rintro s hactive rfl hidle node op domain version hid
    rw [Backend.supports_eq_isSome_find?, Session.isSome_find?_iff hactive hidle hid]
  · have hnodup' : (catalogs'.map (·.domain)).Nodup := (hperm.map _).nodup_iff.mpr hnodup
    refine ⟨⟨catalogs'⟩, ofList_eq_ok_iff.mpr ⟨hnodup', rfl⟩, ?_⟩
    intro b'
    have hfor (domain : String) : b'.catalogFor domain = b.catalogFor domain :=
      get?_of_perm hdiffer (by rwa [hset]) domain
    refine ⟨fun op domain version => Backend.supports_of_catalogFor hfor, ?_⟩
    rintro s rfl node c'
    have halike : s.context.Alike c' :=
      ⟨rfl, Backend.find?_of_catalogFor hfor, rfl, rfl, fun _ => rfl⟩
    exact Session.resolve_of_alike halike node

/-- The unnamed domain is the standard one, so it may not come again under its name. Beside a catalog of
another domain it may, and what that one supports is dispatched to its kernel even if this refuses the
attributes, whichever of the two catalogs comes first. -/
theorem ofList_serves_refused :
    let relu : Registration Scripted := ⟨"Relu", .between 6 13, ⟨"Relu", [], none⟩⟩
    let gelu : Registration Scripted := ⟨"Gelu", .since 1, ⟨"Gelu", ["axis"], none⟩⟩
    let standard : Catalog Scripted := ⟨"ai.onnx", [relu]⟩
    let contributed : Catalog Scripted := ⟨"com.microsoft", [gelu]⟩
    let b : Backend Scripted :=
      ⟨"cpu", "cpu", ⟨[standard, contributed]⟩, fun _ => .ok (.fresh "cpu")⟩
    let s : Session Scripted := .ofContext ⟨b, none, .ofOpset (.of "" 13)⟩
    let node : Node := { Node.ofOp "Gelu" with
      domain := some "com.microsoft", version := some 1, attributes := .ofList [("axis", .int 0)] }
    Catalog.build "" [relu] = .ok standard ∧ Catalog.build "com.microsoft" [gelu] = .ok contributed ∧
      ofList [standard, contributed, standard] = .error (.duplicateDomain "ai.onnx") ∧
      b.supports "Gelu" "com.microsoft" 1 = true ∧ b.supports "Gelu" "" 1 = false ∧
      ((∃ place, (s.resolve node).1 = .ok place) ∨ ∃ op name cause,
        (s.resolve node).1 = .error (.invalidConfiguration op name cause)) ∧
      ∃ set', ofList [contributed, standard] = .ok set' ∧
        Backend.supports { b with catalogs := set' } "Gelu" "com.microsoft" 1 = true := by
  intro relu gelu standard contributed b s node
  have hrelu : Catalog.build "" [relu] = .ok standard := rfl
  have hgelu : Catalog.build "com.microsoft" [gelu] = .ok contributed := rfl
  have hpair : List.Forall₂ (fun w c => Catalog.build w.1 w.2 = .ok c)
      [("", [relu]), ("com.microsoft", [gelu])] [standard, contributed] :=
    .cons hrelu (.cons hgelu .nil)
  have htriple : List.Forall₂ (fun w c => Catalog.build w.1 w.2 = .ok c)
      [("", [relu]), ("com.microsoft", [gelu]), ("", [relu])] [standard, contributed, standard] :=
    .cons hrelu (.cons hgelu (.cons hrelu .nil))
  obtain ⟨-, hrepeated, -⟩ := ofList_serves htriple
  obtain ⟨-, -, hserves⟩ := ofList_serves hpair
  obtain ⟨hsupports, hresolve, horder⟩ := hserves b rfl
  have hgelus : b.supports "Gelu" "com.microsoft" 1 = true :=
    (hsupports _ _ _).mpr ⟨_, .tail _ (.head _), rfl, gelu, .head _, rfl, rfl⟩
  have hid : s.context.Identifies node (.of "Gelu" "com.microsoft" 1) := .own rfl
  obtain ⟨set', hset', hsame, -⟩ := horder [contributed, standard] (.swap _ _ _)
  refine ⟨hrelu, hgelu, (hrepeated _).mpr ⟨"ai.onnx", ?_, rfl⟩, hgelus, rfl, ?_, set', hset', ?_⟩
  · exact ⟨["ai.onnx", "com.microsoft"], [], rfl, by decide, by decide⟩
  · exact (hresolve s rfl rfl rfl node _ _ _ hid).mp hgelus
  · exact (hsame _ _ _).trans hgelus

end CatalogSet

end KernelDispatch
