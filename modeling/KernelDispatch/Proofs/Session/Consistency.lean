import KernelDispatch.Backend.Builtin
import KernelDispatch.Proofs.Session.Bindings

/-!
# Bindings and handlers belong to the context

A session records of each kernel the name of its backend and an origin, and it keeps one handler per
origin. Neither record is looked at again when a kernel is bound, so that they stay in line with the
context is an invariant: every binding is one that the dispatch policy allows in this context, and
every handler in use was granted by the backend that stands at its origin.

The bindings follow from the extension of a session by a run. Of the handlers it is enough to say
what a single request does to them.
-/

namespace KernelDispatch

namespace PerOrigin

variable {α : Type}

/-- Replacing the value of one origin leaves the other alone. -/
@[simp] theorem get_set (p : PerOrigin α) (o o' : Origin) (a : α) :
    (p.set o a).get o' = if o' = o then a else p.get o' := by
  cases o <;> cases o' <;> rfl

/-- Values are added up origin by origin. -/
@[simp] theorem get_add [Add α] (p q : PerOrigin α) (o : Origin) :
    (p + q).get o = p.get o + q.get o := by
  cases o <;> rfl

end PerOrigin

/-- Requests for handlers are added up. -/
@[simp] theorem Traffic.handlers_add (t u : Traffic) :
    (t + u).handlers = t.handlers + u.handlers := rfl

variable {κ : Type}

/-- Whether the policy allows a kernel with this signature in a context. -/
def Context.Allows (c : Context κ) (s : Signature) : Prop :=
  ∃ b k, c.Serves s.identity s.origin b k ∧ b.name = s.backend

/-- Whether the backend of an origin granted a handler on one of its first requests; the handler may
have run kernels since. -/
def Context.Grants (c : Context κ) (o : Origin) (requests : Nat) (h : InferenceHandler) : Prop :=
  ∃ b n granted runs, c.backend? o = some b ∧ n < requests ∧ b.openHandler n = .ok granted ∧
    h = { granted with runs := granted.runs + runs }

namespace Context.Grants

variable {c : Context κ} {o : Origin} {m n : Nat} {h : InferenceHandler}

/-- More requests do not take a handler back. -/
theorem mono (hgrants : c.Grants o m h) (hle : m ≤ n) : c.Grants o n h := by
  obtain ⟨b, i, granted, runs, hb, hi, hopen, heq⟩ := hgrants
  exact ⟨b, i, granted, runs, hb, Nat.lt_of_lt_of_le hi hle, hopen, heq⟩

/-- A handler stays the one that was granted when it runs a kernel. -/
theorem run [Kernel κ] (hgrants : c.Grants o n h) (k : κ) (inputs : List Tensor) :
    c.Grants o n (h.run k inputs).2 := by
  obtain ⟨b, i, granted, runs, hb, hi, hopen, rfl⟩ := hgrants
  exact ⟨b, i, granted, runs + 1, hb, hi, hopen, rfl⟩

end Context.Grants

namespace Session

/-- Every handler in use was granted by the backend of its origin. -/
def HandlersGranted (s : Session κ) : Prop :=
  ∀ o h, s.handlers.get o = some h → s.context.Grants o (s.traffic.get o).handlers h

/-- A session that uses the same handlers and has requested no fewer. -/
theorem HandlersGranted.of_le {s t : Session κ} (hs : s.HandlersGranted)
    (hcontext : t.context = s.context) (hhandlers : t.handlers = s.handlers)
    (hcount : ∀ o, (s.traffic.get o).handlers ≤ (t.traffic.get o).handlers) :
    t.HandlersGranted := by
  intro o h hget
  rw [hhandlers] at hget
  rw [hcontext]
  exact (hs o h hget).mono (hcount o)

/-- Taking a granted handler into use. -/
theorem HandlersGranted.set {s : Session κ} (hs : s.HandlersGranted) {o : Origin}
    {h : InferenceHandler} (hgrants : s.context.Grants o (s.traffic.get o).handlers h)
    (kernels : List (BoundKernel κ)) :
    ({ s with kernels, handlers := s.handlers.set o (some h) } : Session κ).HandlersGranted := by
  intro o' h' hget
  simp only [PerOrigin.get_set] at hget
  split at hget
  · next heq =>
    obtain rfl := heq
    obtain rfl := Option.some.inj hget
    exact hgrants
  · exact hs o' h' hget

/-- A request for a handler adds one to the requests of its origin, and nothing else. -/
theorem requestHandler_traffic (s : Session κ) (o o' : Origin) (b : Backend κ) :
    (s.requestHandler o b).2.traffic.get o' =
      s.traffic.get o' + if o' = o then ⟨0, 0, 1⟩ else .none := by
  simp only [requestHandler, count, PerOrigin.get_set]
  split
  · next heq =>
    rw [heq]
    rfl
  · rfl

/-- A session has requested no fewer handlers after a request for one. -/
theorem handlers_le_requestHandler (s : Session κ) (o o' : Origin) (b : Backend κ) :
    (s.traffic.get o').handlers ≤ ((s.requestHandler o b).2.traffic.get o').handlers := by
  rw [requestHandler_traffic, Traffic.handlers_add]
  exact Nat.le_add_right _ _

/-- The handler for a kernel is found or granted by the backend of the kernel's origin. -/
theorem handlerFor_granted {s t : Session κ} {bound : BoundKernel κ}
    {result : Except SessionError InferenceHandler} (hs : s.HandlersGranted)
    (hfor : s.handlerFor bound = (result, t)) :
    t.HandlersGranted ∧
      ∀ h, result = .ok h →
        t.context.Grants bound.origin (t.traffic.get bound.origin).handlers h := by
  unfold handlerFor at hfor
  cases hslot : s.handlers.get bound.origin with
  | some h =>
    simp only [hslot, Prod.mk.injEq] at hfor
    obtain ⟨rfl, rfl⟩ := hfor
    refine ⟨hs, fun h' hok => ?_⟩
    obtain rfl := Except.ok.inj hok
    exact hs _ _ hslot
  | none =>
    cases hb : s.context.backend? bound.origin with
    | none =>
      simp only [hslot, hb, Prod.mk.injEq] at hfor
      obtain ⟨rfl, rfl⟩ := hfor
      exact ⟨hs, fun h hok => by cases hok⟩
    | some b =>
      -- the request is counted whether it is granted or not
      have hrequested : (s.requestHandler bound.origin b).2.HandlersGranted :=
        hs.of_le rfl rfl fun o => s.handlers_le_requestHandler bound.origin o b
      cases hopen : b.openHandler (s.traffic.get bound.origin).handlers with
      | error text =>
        simp only [hslot, hb, requestHandler, hopen] at hfor
        obtain ⟨rfl, rfl⟩ := Prod.mk.inj hfor
        exact ⟨hrequested, fun h hok => by cases hok⟩
      | ok h =>
        have hgrants : s.context.Grants bound.origin
            ((s.requestHandler bound.origin b).2.traffic.get bound.origin).handlers h := by
          rw [requestHandler_traffic, if_pos rfl, Traffic.handlers_add]
          exact ⟨b, _, h, 0, hb, Nat.lt_succ_self _, hopen, rfl⟩
        simp only [hslot, hb, requestHandler, hopen] at hfor
        obtain ⟨rfl, rfl⟩ := Prod.mk.inj hfor
        refine ⟨hrequested.set hgrants _, fun h' hok => ?_⟩
        obtain rfl := Except.ok.inj hok
        exact hgrants

/-- If there is a backend at the origin of a kernel, only that backend can refuse a handler. -/
theorem handlerFor_error {s t : Session κ} {bound : BoundKernel κ} {b : Backend κ}
    {e : SessionError} (hb : s.context.backend? bound.origin = some b)
    (h : s.handlerFor bound = (.error e, t)) : ∃ failure, e = .backend failure := by
  unfold handlerFor at h
  cases hslot : s.handlers.get bound.origin with
  | some handler => simp [hslot] at h
  | none =>
    simp only [hslot, hb, requestHandler] at h
    cases hopen : b.openHandler (s.traffic.get bound.origin).handlers with
    | error text =>
      simp only [hopen] at h
      exact ⟨_, (Except.error.inj (Prod.mk.inj h).1).symm⟩
    | ok handler =>
      rw [hopen] at h
      cases h

/-- A session is made on a fallback that is not the primary. -/
theorem of_eq_ok_iff {primary : Backend κ} {fallback : Option (Backend κ)} {config : SessionConfig}
    {s : Session κ} :
    Session.of primary fallback config = .ok s ↔
      (∀ f, fallback = some f → primary.same f = false) ∧
        ofContext ⟨primary, fallback, config⟩ = s := by
  cases fallback with
  | none => simp [Session.of, Context.of, Except.map]
  | some f =>
    cases hsame : primary.same f <;>
      simp [Session.of, Context.of, Option.filter, hsame, Except.map]

variable [Kernel κ]

/-- Resolving a node requests no handler. -/
theorem HandlersGranted.resolve {s : Session κ} (hs : s.HandlersGranted) (node : Node) :
    (s.resolve node).2.HandlersGranted := by
  rcases s.phase.disposed_or_active with hphase | hphase
  · rwa [resolve_of_disposed hphase]
  · obtain ⟨outcome, asked, hrule⟩ := s.context.exists_dispatches node
    rw [resolve_of_dispatches hphase hrule]
    refine hs.of_le rfl rfl fun o => ?_
    rw [settled, PerOrigin.get_add, Traffic.handlers_add]
    exact Nat.le_add_right _ _

/-- Neither does resolving a list of nodes. -/
theorem HandlersGranted.resolveGraph {s : Session κ} (hs : s.HandlersGranted) (nodes : List Node) :
    (s.resolveGraph nodes).2.HandlersGranted := by
  induction nodes generalizing s with
  | nil => exact hs
  | cons node rest ih =>
    have hfirst := hs.resolve node
    rcases hresolve : s.resolve node with ⟨_ | id, t⟩
    · simpa only [Session.resolveGraph, hresolve] using hfirst
    · rw [resolveGraph_cons_of_ok hresolve]
      rw [hresolve] at hfirst
      exact ih hfirst

/-- An invocation takes at most a granted handler into use, and runs the kernel in it. -/
theorem HandlersGranted.invoke {s : Session κ} (hs : s.HandlersGranted) (id : KernelId)
    (inputs : List Tensor) : (s.invoke id inputs).2.HandlersGranted := by
  rcases s.phase.disposed_or_active with hphase | hphase
  · simpa only [Session.invoke, hphase] using hs
  · cases hbound : s.kernel? id with
    | none => simpa only [Session.invoke, hphase, hbound] using hs
    | some bound =>
      rcases hfor : s.handlerFor bound with ⟨e | h, t⟩
      · simpa only [Session.invoke, hphase, hbound, hfor] using (handlerFor_granted hs hfor).1
      · obtain ⟨ht, hgrants⟩ := handlerFor_granted hs hfor
        simp only [Session.invoke, hphase, hbound, hfor]
        exact ht.set ((hgrants h rfl).run bound.kernel inputs) _

/-- Every handler stays one that was granted, whatever is requested. -/
theorem HandlersGranted.after {s : Session κ} (hs : s.HandlersGranted) (r : Request) :
    (s.after r).HandlersGranted := by
  cases r with
  | resolve node => exact hs.resolve node
  | resolveGraph nodes => exact hs.resolveGraph nodes
  | invoke id inputs => exact hs.invoke id inputs
  | createHandler =>
    rw [Session.after, createHandler]
    cases s.phase with
    | disposed => exact hs
    | active =>
      exact hs.of_le rfl rfl fun o => s.handlers_le_requestHandler .primary o s.context.primary
  | reconfigure id attrs =>
    rw [Session.after, reconfigure]
    cases s.kernel? id with
    | none => exact hs
    | some bound => exact hs.of_le rfl rfl fun _ => Nat.le_refl _
  | dispose =>
    rw [Session.after, dispose]
    cases s.phase with
    | disposed => exact hs
    | active => exact fun o h hget => by cases o <;> cases hget

/-- Every binding is one that the policy allows in the context of the session. -/
def BindingsAllowed (s : Session κ) : Prop := ∀ b ∈ s.kernels, s.context.Allows b.signature

/-- What extends a session binds only what the policy allows. -/
theorem Extends.bindingsAllowed {s t : Session κ} {added : List (Assignment κ)}
    (h : Extends BoundKernel.signature s t added) (hs : s.BindingsAllowed) :
    t.BindingsAllowed := by
  intro b hb
  have hsig : some b.signature ∈ t.kernels.map fun b => some b.signature :=
    List.mem_map_of_mem hb
  rw [h.kernels, List.mem_append, List.mem_map, List.mem_map] at hsig
  rw [h.context]
  rcases hsig with ⟨old, hold, heq⟩ | ⟨e, he, heq⟩
  · rw [← Option.some.inj heq]
    exact hs old hold
  · obtain ⟨new, asked, hfound, hrule⟩ := h.policy e he
    rw [hfound] at heq
    rw [← Option.some.inj heq]
    cases hrule with
    | bound identified served accepted => exact ⟨_, _, served, rfl⟩

/-- Every binding stays allowed, whatever is requested. -/
theorem BindingsAllowed.after {s : Session κ} (hs : s.BindingsAllowed) (r : Request) :
    (s.after r).BindingsAllowed := by
  by_cases hr : r = .dispose
  · subst hr
    rw [Session.after, dispose]
    cases s.phase with
    | disposed => exact hs
    | active => exact List.forall_mem_nil _
  · exact (s.after_extends (Request.keeps_signature hr)).bindingsAllowed hs

/-- No request replaces the context. -/
theorem after_context (s : Session κ) (r : Request) : (s.after r).context = s.context := by
  by_cases hr : r = .dispose
  · subst hr
    rw [Session.after, dispose]
    cases s.phase <;> rfl
  · exact (s.after_extends (Request.keeps_signature hr)).context

/-- A kernel that the policy allows is never without a backend to run it. -/
theorem invoke_ne_unknownBackend {s : Session κ} (hs : s.BindingsAllowed) (id : KernelId)
    (inputs : List Tensor) (name : String) :
    (s.invoke id inputs).1 ≠ .error (.unknownBackend name) := by
  unfold Session.invoke
  cases s.phase with
  | disposed => simp
  | active =>
    cases hbound : s.kernel? id with
    | none => simp
    | some bound =>
      obtain ⟨b, k, hserves, -⟩ := hs bound (List.mem_of_getElem? hbound)
      rcases hfor : s.handlerFor bound with ⟨e | h, t⟩
      · obtain ⟨failure, rfl⟩ := handlerFor_error hserves.backend?_eq hfor
        simp [hfor]
      · simp only [hfor, InferenceHandler.run]
        cases Kernel.invoke bound.kernel inputs <;> exact fun h => by cases h

/-- After any run every binding is consistent with the context: one of the primary names it, and the
primary serves the identity; one of the fallback names a fallback that is configured and enabled and
is not the primary, and the primary does not serve the identity. So an invocation always knows its
backend, and a handler in use was granted by the backend of its origin. -/
theorem run_consistent {primary : Backend κ} {fallback : Option (Backend κ)}
    {config : SessionConfig} {start : Session κ}
    (hstart : Session.of primary fallback config = .ok start) (requests : List Request) :
    let s := start.run requests
    s.context = ⟨primary, fallback, config⟩ ∧
      (∀ b ∈ s.kernels,
        (b.origin = .primary →
          b.backend = primary.name ∧ (primary.find? b.identity).isSome = true) ∧
        (b.origin = .fallback → ∃ f, fallback = some f ∧ config.fallbackEnabled = true ∧
          primary.same f = false ∧ b.backend = f.name ∧ (f.find? b.identity).isSome = true ∧
          primary.find? b.identity = none)) ∧
      (∀ id inputs name, (s.invoke id inputs).1 ≠ .error (.unknownBackend name)) ∧
      ∀ o h, s.handlers.get o = some h → s.context.Grants o (s.traffic.get o).handlers h := by
  intro s
  obtain ⟨hsame, rfl⟩ := of_eq_ok_iff.mp hstart
  have hcontext : s.context = ⟨primary, fallback, config⟩ :=
    run_invariant (I := fun s => s.context = ⟨primary, fallback, config⟩)
      (fun s r hs => (s.after_context r).trans hs) rfl requests
  have hbindings : s.BindingsAllowed :=
    run_invariant (fun _ r hs => hs.after r) (List.forall_mem_nil _) requests
  have hhandlers : s.HandlersGranted :=
    run_invariant (fun _ r hs => hs.after r) (fun o h hget => by cases o <;> cases hget) requests
  refine ⟨hcontext, fun b hb => ?_, invoke_ne_unknownBackend hbindings, hhandlers⟩
  obtain ⟨backend, k, hserves, hname⟩ := hbindings b hb
  rw [hcontext, BoundKernel.signature] at hserves
  generalize b.origin = o at hserves
  cases hserves with
  | primary hit =>
    refine ⟨fun _ => ⟨hname.symm, by simp [hit]⟩, fun hother => ?_⟩
    cases hother
  | fallback miss configured enabled hit =>
    refine ⟨fun hother => ?_, fun _ => ⟨_, configured, enabled, hsame _ configured, hname.symm,
      by simp [hit], miss⟩⟩
    cases hother

/-- After a kernel of each backend was bound and the second one was run, the handler at the origin
of the fallback is the one that the fallback granted first. -/
theorem consistent_after_fallback_run :
    let c : Context BuiltinKernel := ⟨Builtin.par, some Builtin.cpu, .ofOpset (.of "" 13)⟩
    let s := (ofContext c).run
      [.resolve (.ofOp "Relu"), .resolve (.ofOp "Tanh"), .invoke ⟨1⟩ [], .createHandler]
    Session.of c.primary c.fallback c.config = .ok (ofContext c) ∧
      s.kernels.map (fun b => (b.identity.op, b.backend, b.origin)) =
        [("Relu", "par", .primary), ("Tanh", "cpu", .fallback)] ∧
      c.Grants .fallback 1 ⟨"cpu", 1⟩ ∧
      ∀ name, (s.invoke ⟨1⟩ []).1 ≠ .error (.unknownBackend name) := by
  intro c s
  have hstart : Session.of c.primary c.fallback c.config = .ok (ofContext c) :=
    of_eq_ok_iff.mpr ⟨fun f hf => by obtain rfl := Option.some.inj hf; decide, rfl⟩
  obtain ⟨hcontext, -, hinvoke, hhandlers⟩ := run_consistent hstart
    [.resolve (.ofOp "Relu"), .resolve (.ofOp "Tanh"), .invoke ⟨1⟩ [], .createHandler]
  refine ⟨hstart, by decide +kernel, ?_, hinvoke ⟨1⟩ []⟩
  have hgrants := hhandlers .fallback ⟨"cpu", 1⟩ (by decide +kernel)
  rw [hcontext] at hgrants
  exact hgrants

end Session

end KernelDispatch
