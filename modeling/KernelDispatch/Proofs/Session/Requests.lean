import KernelDispatch.Proofs.Loops
import KernelDispatch.Proofs.Session.Policy

/-!
# Runs of a session

A run is a list of requests, made one after another whether they fail or not. Its history lists the
nodes that were bound, also those in front of the failing one of a list, each with the id that was
answered and with what the session showed under that id at once.

Between two states of a session it is said once what may happen: the kernels that were there stay
in place and look as before, and the newly bound ones follow in the order of their ids. What is
meant by looking as before is a parameter, since a request may change the inside of a kernel. One
step of a run extends its session in this sense, and so does a whole run.
-/

namespace KernelDispatch

/-- What is asked of a session. -/
inductive Request where
  | resolve (node : Node)
  | resolveGraph (nodes : List Node)
  | invoke (id : KernelId) (inputs : List Tensor)
  | createHandler
  /-- Configure a bound kernel again. -/
  | reconfigure (id : KernelId) (attrs : Attributes)
  | dispose

/-- A node that was bound. -/
structure Assignment (κ : Type) where
  /-- The id that was answered. -/
  id : KernelId
  node : Node
  /-- What the session showed under the id when it was answered. -/
  found : Option (BoundKernel κ)

/-- A session is disposed or active. -/
theorem Phase.disposed_or_active (p : Phase) : p = .disposed ∨ p = .active := by
  cases p <;> simp

variable {κ : Type}

/-- A handler for a kernel is found or requested without any change to the kernels. -/
theorem Session.handlerFor_kept {s t : Session κ} {bound : BoundKernel κ}
    {result : Except SessionError InferenceHandler} (h : s.handlerFor bound = (result, t)) :
    t = { s with handlers := t.handlers, traffic := t.traffic } := by
  obtain rfl : (s.handlerFor bound).2 = t := by rw [h]
  unfold handlerFor
  cases s.handlers.get bound.origin with
  | some h => rfl
  | none =>
    cases s.context.backend? bound.origin with
    | none => rfl
    | some b =>
      simp only [requestHandler]
      cases b.openHandler (s.traffic.get bound.origin).handlers <;> rfl

/-- Replacing a kernel by one that looks the same changes nothing in view. -/
theorem map_set_kernel {β : Type} {view : BoundKernel κ → β} {kernels : List (BoundKernel κ)}
    {i : Nat} {b b' : BoundKernel κ} (hb : kernels[i]? = some b) (hview : view b' = view b) :
    (kernels.set i b').map view = kernels.map view := by
  obtain ⟨hi, rfl⟩ := List.getElem?_eq_some_iff.mp hb
  have hi' : i < (kernels.map view).length := by simpa using hi
  rw [List.map_set, hview, ← List.getElem_map view (h := hi'), List.set_getElem_self]

variable [Kernel κ]

namespace Session

/-- The session after a request. -/
def after (s : Session κ) : Request → Session κ
  | .resolve node => (s.resolve node).2
  | .resolveGraph nodes => (s.resolveGraph nodes).2
  | .invoke id inputs => (s.invoke id inputs).2
  | .createHandler => s.createHandler.2
  | .reconfigure id attrs => (s.reconfigure id attrs).2
  | .dispose => s.dispose

/-- The session after requests in order. -/
def run (s : Session κ) : List Request → Session κ
  | [] => s
  | r :: rest => (s.after r).run rest

/-- What every request keeps holds after every run. -/
theorem run_invariant {I : Session κ → Prop} (hkeep : ∀ s r, I s → I (s.after r)) {s : Session κ}
    (hs : I s) (requests : List Request) : I (s.run requests) := by
  induction requests generalizing s with
  | nil => exact hs
  | cons r rest ih => exact ih (hkeep s r hs)

/-- What is noted of the requests of a run, in order. -/
def record {β : Type} (note : Session κ → Request → List β) (s : Session κ) : List Request → List β
  | [] => []
  | r :: rest => note s r ++ (s.after r).record note rest

/-- What every request keeps, of the session and of all that was noted so far, holds of the session
after a run and of what is noted of the run. -/
theorem run_record {β : Type} {note : Session κ → Request → List β}
    {I : Session κ → List β → Prop}
    (hkeep : ∀ s seen r, I s seen → I (s.after r) (seen ++ note s r)) {s : Session κ}
    (hs : I s []) (requests : List Request) : I (s.run requests) (s.record note requests) := by
  suffices h : ∀ seen, I s seen → I (s.run requests) (seen ++ s.record note requests) from h [] hs
  clear hs
  induction requests generalizing s with
  | nil =>
    intro seen hseen
    rw [record, List.append_nil]
    exact hseen
  | cons r rest ih =>
    intro seen hseen
    rw [record, ← List.append_assoc]
    exact ih _ (hkeep s seen r hseen)

/-- The nodes that are bound when nodes are resolved in order, up to the first failure. -/
def boundNodes (s : Session κ) : List Node → List (Assignment κ)
  | [] => []
  | node :: rest =>
    match s.resolve node with
    | (.error _, _) => []
    | (.ok id, t) => ⟨id, node, t.kernel? id⟩ :: t.boundNodes rest

/-- The nodes that a request binds. -/
def assigned (s : Session κ) : Request → List (Assignment κ)
  | .resolve node => s.boundNodes [node]
  | .resolveGraph nodes => s.boundNodes nodes
  | _ => []

/-- The nodes that requests bind in order. -/
def history (s : Session κ) : List Request → List (Assignment κ)
  | [] => []
  | r :: rest => s.assigned r ++ (s.after r).history rest

variable {β : Type} {view : BoundKernel κ → β}

/-- What may happen to a session that is not disposed, as far as its kernels are looked at through
`view`. -/
structure Extends (view : BoundKernel κ → β) (s t : Session κ) (added : List (Assignment κ)) :
    Prop where
  context : t.context = s.context
  phase : t.phase = s.phase
  /-- The old kernels look as before, and the new ones as they did when they were bound. -/
  kernels : t.kernels.map (fun b => some (view b)) =
    s.kernels.map (fun b => some (view b)) ++ added.map fun e => e.found.map view
  /-- The new ids go on where the old ones end. -/
  ids : added.map (·.id.index) = List.range' s.size added.length
  /-- The new kernels are those of the dispatch policy. -/
  policy : ∀ e ∈ added, ∃ b asked, e.found = some b ∧ s.context.Dispatches e.node (.ok b) asked

namespace Extends

/-- A session without new kernels that shows the old ones as before. -/
theorem of_kernels {s t : Session κ} (hcontext : t.context = s.context) (hphase : t.phase = s.phase)
    (hkernels : t.kernels.map view = s.kernels.map view) : Extends view s t [] where
  context := hcontext
  phase := hphase
  kernels := by
    have h := congrArg (List.map some) hkernels
    simpa only [List.map_map, Function.comp_def, List.map_nil, List.append_nil] using h
  ids := rfl
  policy := by simp

/-- A session extends itself by nothing. -/
theorem refl (s : Session κ) : Extends view s s [] := of_kernels rfl rfl rfl

/-- The number of kernels grows by the number of new ones. -/
theorem size_eq {s t : Session κ} {added : List (Assignment κ)} (h : Extends view s t added) :
    t.size = s.size + added.length := by
  have hlength := congrArg List.length h.kernels
  simp only [List.length_map, List.length_append] at hlength
  exact hlength

/-- Extensions one after another bind the kernels of both. -/
theorem trans {s t u : Session κ} {first second : List (Assignment κ)}
    (hst : Extends view s t first) (htu : Extends view t u second) :
    Extends view s u (first ++ second) where
  context := htu.context.trans hst.context
  phase := htu.phase.trans hst.phase
  kernels := by rw [htu.kernels, hst.kernels, List.map_append, List.append_assoc]
  ids := by
    rw [List.map_append, hst.ids, htu.ids, hst.size_eq, List.length_append, List.range'_append_1]
  policy := by
    intro e he
    rcases List.mem_append.mp he with he | he
    · exact hst.policy e he
    · rw [← hst.context]
      exact htu.policy e he

/-- The new ids go on where the old ones end. -/
theorem id_eq {s t : Session κ} {added : List (Assignment κ)} (h : Extends view s t added) {i : Nat}
    {e : Assignment κ} (he : added[i]? = some e) : e.id = ⟨s.size + i⟩ := by
  have hi : i < added.length := (List.getElem?_eq_some_iff.mp he).1
  have hid := congrArg (·[i]?) h.ids
  simp only [List.getElem?_map, he, Option.map_some, List.getElem?_range', hi, Option.some.injEq,
    Nat.one_mul] at hid
  rw [← hid]

/-- Under the id of a new node the session shows what it showed when the node was bound. -/
theorem kernel?_eq {s t : Session κ} {added : List (Assignment κ)} (h : Extends view s t added)
    {e : Assignment κ} (he : e ∈ added) : (t.kernel? e.id).map view = e.found.map view := by
  obtain ⟨i, hi⟩ := List.mem_iff_getElem?.mp he
  have hkernel := congrArg (·[s.size + i]?) h.kernels
  rw [List.getElem?_map, List.getElem?_append_right (by simp [size]), List.length_map, size,
    Nat.add_sub_cancel_left, List.getElem?_map, hi, Option.map_some,
    Option.map_eq_some_iff] at hkernel
  obtain ⟨b, hb, hview⟩ := hkernel
  rw [h.id_eq hi, kernel?, size, hb, Option.map_some, hview]

end Extends

/-- A disposed session resolves nothing. -/
theorem resolve_of_disposed {s : Session κ} (hphase : s.phase = .disposed) (node : Node) :
    s.resolve node = (.error .disposed, s) := by
  rw [resolve, hphase]

/-- A failed resolution changes nothing but the counts. -/
theorem resolve_of_error {s t : Session κ} {node : Node} {e : ResolveError}
    (h : s.resolve node = (.error e, t)) : t = { s with traffic := t.traffic } := by
  rcases s.phase.disposed_or_active with hphase | hphase
  · rw [resolve_of_disposed hphase, Prod.mk.injEq] at h
    rw [← h.2]
  · obtain ⟨outcome, asked, hrule⟩ := s.context.exists_dispatches node
    rw [resolve_of_dispatches hphase hrule, Prod.mk.injEq] at h
    obtain ⟨hresult, rfl⟩ := h
    cases outcome with
    | ok b => cases hresult
    | error e => simp [settled, Except.toOption]

/-- A successful resolution binds the kernel of the policy under the next id. -/
theorem resolve_of_ok {s t : Session κ} {node : Node} {id : KernelId}
    (h : s.resolve node = (.ok id, t)) :
    ∃ b asked, s.context.Dispatches node (.ok b) asked ∧ id = ⟨s.size⟩ ∧
      t = { s with kernels := s.kernels ++ [b], traffic := t.traffic } := by
  rcases s.phase.disposed_or_active with hphase | hphase
  · rw [resolve_of_disposed hphase] at h
    cases h
  · obtain ⟨outcome, asked, hrule⟩ := s.context.exists_dispatches node
    rw [resolve_of_dispatches hphase hrule, Prod.mk.injEq] at h
    obtain ⟨hresult, rfl⟩ := h
    cases outcome with
    | error e => cases hresult
    | ok b => exact ⟨b, asked, hrule, (Except.ok.inj hresult).symm, rfl⟩

/-- Resolving a node extends the session by the bound node. -/
theorem resolve_extends (view : BoundKernel κ → β) (s : Session κ) (node : Node) :
    Extends view s (s.resolve node).2 (s.boundNodes [node]) := by
  cases hresolve : s.resolve node with
  | mk result t =>
    cases result with
    | error e =>
      rw [boundNodes, hresolve, resolve_of_error hresolve]
      exact .of_kernels rfl rfl rfl
    | ok id =>
      obtain ⟨b, asked, hrule, rfl, ht⟩ := resolve_of_ok hresolve
      have hfound : t.kernel? ⟨s.size⟩ = some b := by
        rw [ht]
        simp [kernel?, size]
      simp only [boundNodes, hresolve, hfound]
      rw [ht]
      exact {
        context := rfl
        phase := rfl
        kernels := by simp
        ids := by simp
        policy := by simpa using ⟨asked, hrule⟩ }

/-- A node that fails ends the list. -/
theorem resolveGraph_cons_of_error {s t : Session κ} {node : Node} {e : ResolveError}
    (h : s.resolve node = (.error e, t)) (rest : List Node) :
    s.resolveGraph (node :: rest) = (.error e, t) := by
  rw [resolveGraph, h]

/-- After a node that is bound the rest of the nodes is resolved. -/
theorem resolveGraph_cons_of_ok {s t : Session κ} {node : Node} {id : KernelId}
    (h : s.resolve node = (.ok id, t)) (rest : List Node) :
    s.resolveGraph (node :: rest) =
      ((t.resolveGraph rest).1.map (id :: ·), (t.resolveGraph rest).2) := by
  rw [resolveGraph, h]
  rcases hrest : t.resolveGraph rest with ⟨_ | more, u⟩ <;> simp [hrest, Except.map]

/-- A first node that is bound stands ahead of those that the session binds after it. -/
theorem boundNodes_cons {s t : Session κ} {node : Node} {id : KernelId}
    (h : s.resolve node = (.ok id, t)) (rest : List Node) :
    s.boundNodes (node :: rest) = ⟨id, node, t.kernel? id⟩ :: t.boundNodes rest := by
  rw [boundNodes, h]

/-- Resolving a list of nodes extends the session by those that were bound. -/
theorem resolveGraph_extends (view : BoundKernel κ → β) (s : Session κ) (nodes : List Node) :
    Extends view s (s.resolveGraph nodes).2 (s.boundNodes nodes) := by
  induction nodes generalizing s with
  | nil => exact .refl s
  | cons node rest ih =>
    have hfirst := resolve_extends view s node
    rcases hresolve : s.resolve node with ⟨_ | id, t⟩
    · simpa only [boundNodes, resolveGraph, hresolve] using hfirst
    · rw [resolveGraph_cons_of_ok hresolve, boundNodes_cons hresolve]
      rw [hresolve, boundNodes_cons hresolve] at hfirst
      exact hfirst.trans (ih t)

/-- An invocation shows the kernels as before if what it leaves of a kernel looks the same. -/
theorem invoke_extends (s : Session κ) (id : KernelId) {inputs : List Tensor}
    (hview : ∀ b : BoundKernel κ,
      view { b with kernel := Kernel.afterInvoke b.kernel inputs } = view b) :
    Extends view s (s.invoke id inputs).2 [] := by
  rcases s.phase.disposed_or_active with hphase | hphase
  · simp only [invoke, hphase]
    exact .refl s
  · cases hbound : s.kernel? id with
    | none =>
      simp only [invoke, hphase, hbound]
      exact .refl s
    | some bound =>
      rcases hhandler : s.handlerFor bound with ⟨_ | h, t⟩
      · simp only [invoke, hphase, hbound, hhandler]
        rw [handlerFor_kept hhandler]
        exact .of_kernels rfl rfl rfl
      · simp only [invoke, hphase, hbound, hhandler]
        rw [handlerFor_kept hhandler]
        exact .of_kernels rfl rfl (map_set_kernel hbound (hview bound))

/-- Requesting a handler leaves the kernels alone. -/
theorem createHandler_extends (view : BoundKernel κ → β) (s : Session κ) :
    Extends view s s.createHandler.2 [] := by
  unfold createHandler
  cases s.phase with
  | active => exact .of_kernels rfl rfl rfl
  | disposed => exact .refl s

/-- Configuring again shows the kernels as before if what it leaves of a kernel looks the same. -/
theorem reconfigure_extends (s : Session κ) (id : KernelId) {attrs : Attributes}
    (hview : ∀ b : BoundKernel κ,
      view { b with kernel := (Kernel.configure b.kernel attrs).2 } = view b) :
    Extends view s (s.reconfigure id attrs).2 [] := by
  cases hbound : s.kernel? id with
  | none =>
    simp only [reconfigure, hbound]
    exact .refl s
  | some bound =>
    simp only [reconfigure, hbound]
    exact .of_kernels rfl rfl (map_set_kernel hbound (hview bound))

end Session

/-- Whether every kernel looks the same after a request that may change its inside. -/
def Request.Keeps (view : BoundKernel κ → β) : Request → Prop
  | .invoke _ inputs => ∀ b, view { b with kernel := Kernel.afterInvoke b.kernel inputs } = view b
  | .reconfigure _ attrs =>
    ∀ b, view { b with kernel := (Kernel.configure b.kernel attrs).2 } = view b
  | .dispose => False
  | _ => True

namespace Session

/-- One request extends the session by the nodes it binds. -/
theorem after_extends (s : Session κ) {r : Request} (hkeeps : r.Keeps view) :
    Extends view s (s.after r) (s.assigned r) := by
  cases r with
  | resolve node => exact resolve_extends view s node
  | resolveGraph nodes => exact resolveGraph_extends view s nodes
  | invoke id inputs => exact invoke_extends s id hkeeps
  | createHandler => exact createHandler_extends view s
  | reconfigure id attrs => exact reconfigure_extends s id hkeeps
  | dispose => exact hkeeps.elim

/-- A run extends the session by its history. -/
theorem run_extends (s : Session κ) {requests : List Request}
    (hkeeps : ∀ r ∈ requests, r.Keeps view) :
    Extends view s (s.run requests) (s.history requests) := by
  induction requests generalizing s with
  | nil => exact .refl s
  | cons r rest ih =>
    rw [List.forall_mem_cons] at hkeeps
    exact (s.after_extends hkeeps.1).trans (ih (s.after r) hkeeps.2)

end Session

end KernelDispatch
