import KernelDispatch.CommandLine.Run
import KernelDispatch.Proofs.Session.Imports
import KernelDispatch.Proofs.Session.NodeLists
import KernelDispatch.Proofs.Session.Registration

/-!
# The lines of a resolved graph file

Resolving a graph file prints nothing but an error, or one line for each of its nodes. Which of the
two it is, and what the lines are, is given by the dispatch policy node by node, in the context of
the chosen backends and the effective imports. As contexts that agree on these bind a node to the
same kernel, a line survives any change of the file that leaves its node in place and the others
resolvable.
-/

namespace KernelDispatch

variable {κ : Type}

namespace Context

/-! ### Nodes by themselves -/

/-- The kernel that a node is bound to, whatever the other nodes are. -/
def Binds [Kernel κ] (c : Context κ) (node : Node) (b : BoundKernel κ) : Prop :=
  ∃ asked, c.Dispatches node (.ok b) asked

/-- Contexts with the same backends and the same version for every domain. -/
structure Agrees (c c' : Context κ) : Prop where
  primary : c'.primary = c.primary
  fallback : c'.fallback = c.fallback
  enabled : c'.config.fallbackEnabled = c.config.fallbackEnabled
  versions : ∀ domain, c'.config.opsets.versionFor domain = c.config.opsets.versionFor domain

namespace Agrees

variable {c c' : Context κ} (h : c.Agrees c')
include h

/-- For the dispatch policy such contexts are alike. -/
theorem alike : c.Alike c' where
  name := by rw [h.primary]
  hits _ := by rw [h.primary]
  fallback := h.fallback
  enabled := h.enabled
  versions := h.versions

/-- What a node is bound to depends on the backends and the versions alone. -/
theorem binds [Kernel κ] {node : Node} {b : BoundKernel κ} (hbinds : c.Binds node b) :
    c'.Binds node b := by
  obtain ⟨asked, hrule⟩ := hbinds
  exact ⟨asked, h.alike.dispatches hrule⟩

end Agrees

/-- A node is bound to one kernel at most. -/
theorem Binds.unique [Kernel κ] {c : Context κ} {node : Node} {b b' : BoundKernel κ}
    (h : c.Binds node b) (h' : c.Binds node b') : b = b' := by
  obtain ⟨_, hrule⟩ := h
  obtain ⟨_, hrule'⟩ := h'
  have hsame := (Session.resolve_of_dispatches (s := Session.ofContext c) rfl hrule).symm.trans
    (Session.resolve_of_dispatches rfl hrule')
  exact List.singleton_inj.mp (congrArg (·.2.kernels) hsame)

/-- The context in which a graph is resolved: the chosen backends of a registry, and the last of the
given versions of each domain, which must include the standard one. -/
structure ChosenBy (r : Registry κ) (choice : BackendChoice) (os : List Opset) (c : Context κ) :
    Prop where
  primary : r.get? choice.primary = some c.primary
  fallback : choice.fallback?.map r.get? = c.fallback.map some
  enabled : c.config.fallbackEnabled = choice.fallback?.isSome
  versions : ∀ domain, c.config.opsets.versionFor domain = lastVersion os domain
  standard : (lastVersion os Domain.standard).isSome = true

/-- The backends that are used and the effective imports determine the context. -/
theorem ChosenBy.agrees {r : Registry κ} {choice choice' : BackendChoice} {os os' : List Opset}
    {c c' : Context κ} (h : c.ChosenBy r choice os) (h' : c'.ChosenBy r choice' os')
    (hprimary : choice'.primary = choice.primary) (hfallback : choice'.fallback? = choice.fallback?)
    (hversions : ∀ domain, lastVersion os' domain = lastVersion os domain) : c.Agrees c' where
  primary := by
    have hsame := h'.primary
    rw [hprimary, h.primary] at hsame
    exact (Option.some.inj hsame).symm
  fallback := by
    have hsame := h'.fallback
    rw [hfallback, h.fallback] at hsame
    exact (Option.map_injective (Option.some_injective _) hsame).symm
  enabled := by rw [h'.enabled, h.enabled, hfallback]
  versions domain := by rw [h'.versions, h.versions, hversions]

end Context

variable {r : Registry κ} {choice : BackendChoice} {config : SessionConfig} {nodes : List Node}
  {lines : List String}

variable [Kernel κ]

/-- Lists of kernels have one list of lines. -/
theorem BoundKernel.forall₂_isLine_iff {bound : List (BoundKernel κ)} :
    List.Forall₂ BoundKernel.IsLine bound lines ↔ lines = bound.map BoundKernel.line := by
  have hlines : List.Forall₂ BoundKernel.IsLine bound lines ↔
      List.Forall₂ (fun b l => b.line = l) bound lines :=
    ⟨fun h => h.imp fun _ _ hline => (BoundKernel.isLine_iff.mp hline).symm,
      fun h => h.imp fun _ _ hline => BoundKernel.isLine_iff.mpr hline.symm⟩
  rw [hlines, eq_comm, ← List.forall₂_map_left_iff (R := Eq), List.forall₂_eq_eq_eq]

/-- Lines that render what the policy binds the nodes of a graph file to, one for each node and in
file order. -/
def GraphFile.Renders (r : Registry κ) (choice : BackendChoice) (file : GraphFile)
    (lines : List String) : Prop :=
  ∃ (c : Context κ) (bound : List (BoundKernel κ)), c.ChosenBy r choice file.opsets ∧
    List.Forall₂ c.Binds file.nodes bound ∧ List.Forall₂ BoundKernel.IsLine bound lines

/-- The lines of two files agree at a place where their nodes agree, provided that the backends that
are used and the effective imports do. -/
theorem GraphFile.Renders.getElem?_eq {choice' : BackendChoice} {file file' : GraphFile}
    {lines' : List String} (h : file.Renders r choice lines) (h' : file'.Renders r choice' lines')
    (hprimary : choice'.primary = choice.primary) (hfallback : choice'.fallback? = choice.fallback?)
    (hversions : ∀ domain, lastVersion file'.opsets domain = lastVersion file.opsets domain)
    {i : Nat} (hnode : file'.nodes[i]? = file.nodes[i]?) : lines'[i]? = lines[i]? := by
  obtain ⟨c, bound, hchosen, hbound, hlines⟩ := h
  obtain ⟨c', bound', hchosen', hbound', hlines'⟩ := h'
  rw [BoundKernel.forall₂_isLine_iff.mp hlines, BoundKernel.forall₂_isLine_iff.mp hlines']
  have hagrees := hchosen.agrees hchosen' hprimary hfallback hversions
  rw [List.getElem?_map, List.getElem?_map]
  congr 1
  cases hnode' : file.nodes[i]? with
  | none =>
    rw [hnode'] at hnode
    rw [getElem?_eq_none_of_forall₂ hbound hnode', getElem?_eq_none_of_forall₂ hbound' hnode]
  | some node =>
    rw [hnode'] at hnode
    obtain ⟨b, hb, hbinds⟩ := exists_getElem?_of_forall₂ hbound hnode'
    obtain ⟨b', hb', hbinds'⟩ := exists_getElem?_of_forall₂ hbound' hnode
    rw [hb, hb', (hagrees.binds hbinds).unique hbinds']

/-- There is one line for each node. -/
theorem GraphFile.Renders.length_eq {file : GraphFile} (h : file.Renders r choice lines) :
    lines.length = file.nodes.length := by
  obtain ⟨c, bound, -, hbound, hlines⟩ := h
  exact (hbound.length_eq.trans hlines.length_eq).symm

/-- A graph file comes of what has been read of its members. -/
theorem GraphFile.exists_draft_of_parse {text : String} {file : GraphFile}
    (h : parse text = .ok file) :
    ∃ d, Json.readRecord ["opset_import", "nodes"] Draft.field ⟨none, none⟩
        (Json.Document.read text).root = .ok d ∧ d.finish = .ok file := by
  rw [parse, ofDocument, bind_eq_ok_iff] at h
  obtain ⟨d, hdraft, h⟩ := h
  rw [bind_eq_ok_iff] at h
  obtain ⟨file', hfinish, h⟩ := h
  obtain rfl : file' = file := by
    split at h
    · exact Except.ok.inj h
    · cases h
  exact ⟨d, hdraft, hfinish⟩

namespace CommandLine

variable {files : Files} {path text : String}

end CommandLine

end KernelDispatch
