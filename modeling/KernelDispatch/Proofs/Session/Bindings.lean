import KernelDispatch.Proofs.Session.Requests
import KernelDispatch.Session.Report

/-!
# Ids and bindings

An id is the place of a kernel in its session. Nothing but disposing removes or moves a kernel, so
ids are given out in order and each keeps addressing the binding for which it was answered. What
is fixed of a binding is its signature: a kernel may be run and configured again, but it stays a
kernel of the same implementation, bound for the same node.
-/

namespace KernelDispatch

/-- What is fixed of a binding. -/
structure Signature where
  node : String
  identity : Identity
  backend : String
  origin : Origin
  kind : String
deriving DecidableEq, Repr

variable {κ : Type} [Kernel κ]

/-- The signature of a bound kernel. -/
def BoundKernel.signature (b : BoundKernel κ) : Signature :=
  ⟨b.node, b.identity, b.backend, b.origin, b.kind⟩

/-- No request but disposing changes a signature. -/
theorem Request.keeps_signature {r : Request} (hr : r ≠ .dispose) :
    r.Keeps (BoundKernel.signature (κ := κ)) := by
  cases r with
  | invoke id inputs =>
    intro b
    simp only [BoundKernel.signature, BoundKernel.kind, Kernel.kind_afterInvoke]
  | reconfigure id attrs =>
    intro b
    simp only [BoundKernel.signature, BoundKernel.kind, Kernel.kind_configure]
  | dispose => exact absurd rfl hr
  | _ => trivial

namespace Session

variable {β : Type} {view : BoundKernel κ → β} {s t : Session κ} {added : List (Assignment κ)}

/-- From a session without kernels on, the ids count from zero. -/
theorem Extends.ids_eq (h : Extends view s t added) (hempty : s.kernels = []) :
    added.map (·.id) = (List.range t.size).map KernelId.mk := by
  have hstart : s.size = 0 := by rw [size, hempty, List.length_nil]
  rw [h.size_eq, hstart, Nat.zero_add, List.range_eq_range', ← hstart, ← h.ids, List.map_map]
  rfl

/-- From a session without kernels on, the bindings are those of the new nodes, in order. -/
theorem Extends.bindings_eq (h : Extends view s t added) (hempty : s.kernels = []) :
    t.bindings.map (fun p => (p.1, some (view p.2))) =
      added.map fun e => (e.id, e.found.map view) := by
  apply List.ext_getElem?
  intro i
  have hkernel := congrArg (·[i]?) h.kernels
  simp only [hempty, List.map_nil, List.nil_append, List.getElem?_map] at hkernel
  simp only [bindings, List.getElem?_map, List.getElem?_zipIdx]
  cases he : added[i]? with
  | none =>
    rw [he, Option.map_none, Option.map_eq_none_iff] at hkernel
    simp [hkernel]
  | some e =>
    rw [he, Option.map_some, Option.map_eq_some_iff] at hkernel
    obtain ⟨b, hb, hview⟩ := hkernel
    simp [hb, hview, h.id_eq he, size, hempty]

/-- Until a session is disposed, the ids count the bound nodes, the bindings are listed under them
in order and keep their signatures, the context stays, and a failed resolution changes nothing but
the counts. -/
theorem run_bindings (c : Context κ) {requests : List Request} (hlive : .dispose ∉ requests) :
    let s := (ofContext c).run requests
    let history := (ofContext c).history requests
    history.map (·.id) = (List.range s.size).map KernelId.mk ∧
      s.bindings.map (fun p => (p.1, some p.2.signature)) =
        history.map (fun e => (e.id, e.found.map BoundKernel.signature)) ∧
      (∀ e ∈ history, ∃ b, e.found = some b ∧
        (s.kernel? e.id).map BoundKernel.signature = some b.signature) ∧
      s.context = c ∧ s.phase = .active ∧
      ∀ node e t, s.resolve node = (.error e, t) → t = { s with traffic := t.traffic } := by
  intro s history
  have hextends : Extends BoundKernel.signature (ofContext c) s history :=
    run_extends _ fun r hr => Request.keeps_signature fun h => hlive (h ▸ hr)
  refine ⟨hextends.ids_eq rfl, hextends.bindings_eq rfl, fun e he => ?_, hextends.context,
    hextends.phase, fun node e t => resolve_of_error⟩
  obtain ⟨b, asked, hfound, -⟩ := hextends.policy e he
  have hkernel := hextends.kernel?_eq he
  rw [hfound, Option.map_some] at hkernel
  exact ⟨b, hfound, hkernel⟩

/-- A node in front of the failing one of a graph is bound, and an invocation and a configuration
leave its binding as it was. -/
theorem bindings_after_failed_graph :
    let c : Context BuiltinKernel := ⟨Builtin.par, some Builtin.cpu, .ofOpset (.of "" 13)⟩
    let requests : List Request :=
      [.resolveGraph [.ofOp "Relu", .ofOp "Nope", .ofOp "Add"], .invoke ⟨0⟩ [],
        .resolve (.ofOp "Tanh"), .reconfigure ⟨0⟩ .empty, .createHandler]
    let s := (ofContext c).run requests
    .dispose ∉ requests ∧ s.phase = .active ∧
      s.bindings.map (fun p => (p.1, some p.2.signature)) =
        [(⟨0⟩, some ⟨"Relu", ⟨"Relu", "ai.onnx", 13⟩, "par", .primary, "par.Unary"⟩),
          (⟨1⟩, some ⟨"Tanh", ⟨"Tanh", "ai.onnx", 13⟩, "cpu", .fallback, "cpu.Unary"⟩)] := by
  intro c requests s
  have hlive : .dispose ∉ requests := by simp [requests]
  obtain ⟨-, hbindings, -, -, hphase, -⟩ := run_bindings c hlive
  exact ⟨hlive, hphase, hbindings.trans (by decide +kernel)⟩

end Session

end KernelDispatch
