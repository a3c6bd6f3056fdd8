import KernelDispatch.Kernel.Scripted
import KernelDispatch.Proofs.Session.Requests
import Mathlib.Data.List.Forall2

/-!
# Spellings of a domain

The standard domain has two spellings, and a node may also leave it out. Two ways of writing down
catalogs, imports and nodes are compared that differ only in such spellings, each occurrence by
itself. They build the same catalogs or fail with the same error, they import the same, and under
every request a session answers the same and becomes the same.

Everything that takes a domain looks only at its normalized spelling. So the comparison comes down
to one fact, that two domains are spellings of one exactly if they are equal when normalized, and
to an induction over the nodes of a list and the requests of a run.
-/

namespace KernelDispatch

namespace Domain

/-- Two spellings of one domain. -/
inductive Alias : String → String → Prop where
  | same (domain : String) : Alias domain domain
  | named : Alias "" standard
  | unnamed : Alias standard ""

/-- Two domains are spellings of one exactly if they are equal when normalized. -/
theorem alias_iff {d d' : String} : Alias d d' ↔ normalize d = normalize d' := by
  constructor
  · intro h
    cases h <;> rfl
  · intro h
    by_cases hd : d = "" <;> by_cases hd' : d' = "" <;>
      simp only [normalize, String.isEmpty_iff, hd, hd', if_true, if_false] at h
    · rw [hd, hd']
      exact .same ""
    · rw [hd, ← h]
      exact .named
    · rw [hd', h]
      exact .unnamed
    · rw [h]
      exact .same d'

/-- Something under two spellings of one domain. -/
def Respelled {α : Type} (p q : String × α) : Prop := Alias p.1 q.1 ∧ p.2 = q.2

/-- What does not depend on the spelling of a domain is the same all along respelled lists. -/
theorem map_respelled {α β : Type} {f : String × α → β} (hf : ∀ p q, Respelled p q → f p = f q)
    {ps qs : List (String × α)} (h : List.Forall₂ Respelled ps qs) : ps.map f = qs.map f := by
  induction h with
  | nil => rfl
  | cons hpq _ ih => rw [List.map_cons, List.map_cons, hf _ _ hpq, ih]

end Domain

variable {α κ : Type} {d d' : String}

/-- Registrations under either spelling make the same catalog, or fail in the same way. -/
theorem Catalog.build_respelled (h : Domain.Alias d d') (rs : List (Registration α)) :
    Catalog.build d rs = Catalog.build d' rs := by
  rw [build, build, Domain.alias_iff.mp h]

/-- Either spelling finds the same entry of a catalog. -/
theorem Catalog.lookup_respelled (h : Domain.Alias d d') (c : Catalog α) (op : String)
    (version : UInt32) : c.lookup op d version = c.lookup op d' version := by
  rw [lookup, lookup, find?, find?, Domain.alias_iff.mp h]

/-- Either spelling finds the same catalog of a set. -/
theorem CatalogSet.get?_respelled (h : Domain.Alias d d') (s : CatalogSet α) :
    s.get? d = s.get? d' := by
  rw [get?, get?, Domain.alias_iff.mp h]

/-- A backend supports an operator under either spelling or under none. -/
theorem Backend.supports_respelled (h : Domain.Alias d d') (b : Backend κ) (op : String)
    (version : UInt32) : b.supports op d version = b.supports op d' version := by
  simp only [supports, catalogFor, Catalog.contains, CatalogSet.get?_respelled h,
    Catalog.lookup_respelled h]

/-- Either spelling finds the same import. -/
theorem OpsetImports.versionFor_respelled (h : Domain.Alias d d') (is : OpsetImports) :
    is.versionFor d = is.versionFor d' := by
  rw [← versionFor_normalize, Domain.alias_iff.mp h, versionFor_normalize]

/-- The set of catalogs that are written down as domains with their registrations: they are built in
order, and then their domains must differ. -/
def CatalogSet.assemble (written : List (String × List (Registration α))) :
    Except CatalogError (CatalogSet α) := do
  let catalogs ← written.mapM fun p => Catalog.build p.1 p.2
  CatalogSet.ofList catalogs

/-- The imports that are written down as domains with their versions. -/
def OpsetImports.assemble (written : List (String × UInt32)) : OpsetImports :=
  .ofList (written.map fun p => Opset.of p.1 p.2)

/-- Other spellings of the domains give the same catalogs. -/
theorem CatalogSet.assemble_respelled {written written' : List (String × List (Registration α))}
    (h : List.Forall₂ Domain.Respelled written written') :
    CatalogSet.assemble written = CatalogSet.assemble written' := by
  -- The catalogs are compared one by one, before the first failure among them is picked.
  have hbuild : written.map (fun p => Catalog.build p.1 p.2) =
      written'.map fun p => Catalog.build p.1 p.2 := by
    apply Domain.map_respelled ?_ h
    intro p q ⟨halias, hvalue⟩
    rw [Catalog.build_respelled halias, hvalue]
  have hmapM := congrArg (List.mapM id) hbuild
  simp only [List.mapM_map, Function.comp_def, id] at hmapM
  rw [assemble, assemble, hmapM]

/-- Other spellings of the domains give the same imports. -/
theorem OpsetImports.assemble_respelled {written written' : List (String × UInt32)}
    (h : List.Forall₂ Domain.Respelled written written') :
    OpsetImports.assemble written = OpsetImports.assemble written' := by
  rw [assemble, assemble]
  apply congrArg OpsetImports.ofList
  apply Domain.map_respelled ?_ h
  intro p q ⟨halias, hvalue⟩
  rw [Opset.of, Opset.of, Domain.alias_iff.mp halias, hvalue]

/-- Two nodes that differ at most in the spelling of their domain, which is the standard one if it is
left out. -/
def Node.Respelled (node node' : Node) : Prop :=
  node' = { node with domain := node'.domain } ∧
    Domain.Alias (node.domain.getD Domain.standard) (node'.domain.getD Domain.standard)

/-- Two requests that differ at most in the spellings of the domains of their nodes. -/
inductive Request.Respelled : Request → Request → Prop where
  | resolve {node node' : Node} (h : node.Respelled node') :
      Request.Respelled (.resolve node) (.resolve node')
  | resolveGraph {nodes nodes' : List Node} (h : List.Forall₂ Node.Respelled nodes nodes') :
      Request.Respelled (.resolveGraph nodes) (.resolveGraph nodes')
  | same (r : Request) : Request.Respelled r r

/-- What a session answers to a request. -/
inductive Reply where
  | resolved (result : Except ResolveError KernelId)
  | resolvedGraph (result : Except ResolveError (List KernelId))
  | invoked (result : Except SessionError (List Tensor))
  | created (result : Except SessionError InferenceHandler)
  | reconfigured (result : Option (Except AttributeError Unit))
  | disposed

/-- Respelled nodes have the same identity, or lack an import in the same way. -/
theorem Context.identityOf_respelled (c : Context κ) {node node' : Node}
    (h : node.Respelled node') : c.identityOf node = c.identityOf node' := by
  obtain ⟨heq, halias⟩ := h
  have hnormal := Domain.alias_iff.mp halias
  have hversion := OpsetImports.versionFor_respelled halias c.config.opsets
  rw [heq]
  simp only [identityOf, Identity.of, hnormal, hversion]

/-- Two domains are spellings of one exactly if every operator has the same identity under both. -/
theorem Identity.of_eq_iff :
    (∀ op version, Identity.of op d version = .of op d' version) ↔ Domain.Alias d d' := by
  rw [Domain.alias_iff]
  constructor
  · intro h
    exact congrArg Identity.domain (h "" 0)
  · intro h op version
    rw [of, of, h]

namespace Session

variable [Kernel κ]

/-- What a session answers to a request. -/
def reply (s : Session κ) : Request → Reply
  | .resolve node => .resolved (s.resolve node).1
  | .resolveGraph nodes => .resolvedGraph (s.resolveGraph nodes).1
  | .invoke id inputs => .invoked (s.invoke id inputs).1
  | .createHandler => .created s.createHandler.1
  | .reconfigure id attrs => .reconfigured (s.reconfigure id attrs).1
  | .dispose => .disposed

/-- What a session answers to requests in order. -/
def replies (s : Session κ) (requests : List Request) : List Reply :=
  s.record (fun s r => [s.reply r]) requests

/-- Respelled nodes are resolved alike. -/
theorem resolve_respelled (s : Session κ) {node node' : Node} (h : node.Respelled node') :
    s.resolve node = s.resolve node' := by
  have hidentity := s.context.identityOf_respelled h
  have hdispatch : ∀ id, s.dispatch node id = s.dispatch node' id := by
    intro id
    rw [h.1]
    rfl
  simp only [resolve, hidentity, hdispatch]

/-- So are lists of respelled nodes. -/
theorem resolveGraph_respelled (s : Session κ) {nodes nodes' : List Node}
    (h : List.Forall₂ Node.Respelled nodes nodes') :
    s.resolveGraph nodes = s.resolveGraph nodes' := by
  induction h generalizing s with
  | nil => rfl
  | cons hnode _ ih => simp only [resolveGraph, s.resolve_respelled hnode, ih]

/-- Respelled requests are answered alike and leave the same session. -/
theorem request_respelled (s : Session κ) {r r' : Request} (h : r.Respelled r') :
    s.reply r = s.reply r' ∧ s.after r = s.after r' := by
  cases h with
  | resolve hnode => simp only [reply, after, s.resolve_respelled hnode, and_self]
  | resolveGraph hnodes => simp only [reply, after, s.resolveGraph_respelled hnodes, and_self]
  | same => exact ⟨rfl, rfl⟩

/-- Respelled runs are answered alike and end in the same session. -/
theorem run_respelled (s : Session κ) {requests requests' : List Request}
    (h : List.Forall₂ Request.Respelled requests requests') :
    s.replies requests = s.replies requests' ∧ s.run requests = s.run requests' := by
  induction h generalizing s with
  | nil => exact ⟨rfl, rfl⟩
  | cons hr _ ih =>
    obtain ⟨hreply, hafter⟩ := s.request_respelled hr
    obtain ⟨hreplies, hrun⟩ := ih (s.after _)
    rw [replies, replies, record, record, run, run, hreply, ← hafter]
    exact ⟨congrArg _ hreplies, hrun⟩

/-- Catalogs, imports and requests that differ only in the spellings of their domains are the same to
a session: the catalogs make the same set or fail with the same error, the imports are the same, and
any session answers the requests alike and ends in the same state. Respelled nodes have the same
identity, all operators have the same identity under two domains exactly if these are spellings of
one, and wherever something is looked up under a domain, another spelling finds the same. -/
theorem respelling_unobserved {catalogs catalogs' : List (String × List (Registration κ))}
    {opsets opsets' : List (String × UInt32)} {requests requests' : List Request}
    (hcatalogs : List.Forall₂ Domain.Respelled catalogs catalogs')
    (hopsets : List.Forall₂ Domain.Respelled opsets opsets')
    (hrequests : List.Forall₂ Request.Respelled requests requests') :
    CatalogSet.assemble catalogs = CatalogSet.assemble catalogs' ∧
      OpsetImports.assemble opsets = OpsetImports.assemble opsets' ∧
      (∀ s : Session κ, s.replies requests = s.replies requests' ∧
        s.run requests = s.run requests') ∧
      (∀ (c : Context κ) (node node' : Node), node.Respelled node' →
        c.identityOf node = c.identityOf node') ∧
      (∀ d d', Domain.Alias d d' ↔ ∀ op version, Identity.of op d version = .of op d' version) ∧
      ∀ d d', Domain.Alias d d' →
        (∀ is : OpsetImports, is.versionFor d = is.versionFor d') ∧
          (∀ set : CatalogSet κ, set.get? d = set.get? d') ∧
          (∀ (c : Catalog κ) op version, c.lookup op d version = c.lookup op d' version) ∧
          ∀ (b : Backend κ) op version, b.supports op d version = b.supports op d' version := by
  refine ⟨CatalogSet.assemble_respelled hcatalogs, OpsetImports.assemble_respelled hopsets,
    fun s => s.run_respelled hrequests, fun c _ _ => c.identityOf_respelled,
    fun d d' => Identity.of_eq_iff.symm, fun d d' h => ⟨?_, ?_, ?_, ?_⟩⟩
  · exact OpsetImports.versionFor_respelled h
  · exact CatalogSet.get?_respelled h
  · exact Catalog.lookup_respelled h
  · exact Backend.supports_respelled h

/-- Two catalogs of the standard domain make no set, however they spell it, and a node is bound to the
kernel of that domain under either spelling and under none. -/
theorem respelled_relu :
    let relu : Registration Scripted := ⟨"Relu", .since 6, ⟨"Relu", [], none⟩⟩
    let c : Context Scripted := ⟨⟨"cpu", "cpu", ⟨[⟨"ai.onnx", [relu]⟩]⟩,
      fun _ => .ok (.fresh "cpu")⟩, none, ⟨OpsetImports.assemble [("", 13)], true⟩⟩
    let node (domain : Option String) : Node := { Node.ofOp "Relu" with domain }
    CatalogSet.assemble [("", [relu]), ("ai.onnx", [])] =
        CatalogSet.assemble [("ai.onnx", [relu]), ("ai.onnx", [])] ∧
      OpsetImports.assemble [("", 13)] = OpsetImports.assemble [("ai.onnx", 13)] ∧
      (ofContext c).replies [.resolve (node none), .resolve (node (some "ai.onnx"))] =
        (ofContext c).replies [.resolve (node (some "")), .resolve (node none)] ∧
      (ofContext c).replies [.resolve (node none), .resolve (node (some "ai.onnx"))] =
        [.resolved (.ok ⟨0⟩), .resolved (.ok ⟨1⟩)] := by
  intro relu c node
  have hcatalogs : List.Forall₂ Domain.Respelled [("", [relu]), ("ai.onnx", [])]
      [("ai.onnx", [relu]), ("ai.onnx", [])] :=
    .cons ⟨.named, rfl⟩ (.cons ⟨.same _, rfl⟩ .nil)
  have hopsets : List.Forall₂ Domain.Respelled [("", (13 : UInt32))] [("ai.onnx", 13)] :=
    .cons ⟨.named, rfl⟩ .nil
  have hrequests : List.Forall₂ Request.Respelled
      [.resolve (node none), .resolve (node (some "ai.onnx"))]
      [.resolve (node (some "")), .resolve (node none)] :=
    .cons (.resolve ⟨rfl, .unnamed⟩) (.cons (.resolve ⟨rfl, .same _⟩) .nil)
  obtain ⟨hset, himports, hsession, -⟩ := respelling_unobserved hcatalogs hopsets hrequests
  exact ⟨hset, himports, (hsession (ofContext c)).1, rfl⟩

end Session

end KernelDispatch
