import KernelDispatch.Backend.Builtin
import KernelDispatch.Proofs.Session.Consistency

/-!
# Disposed sessions

No request takes a disposed session back into use, so whatever is asked of it later is refused. The
one exception is a list without nodes: a list is resolved node by node, and only the nodes ask
whether the session is disposed.

Nor does a request leave a trace. A session that is disposed holds neither kernels nor handlers, and
such a session is a fixed point of every request: what it shows and what it has asked of its backends
is what it was when it was disposed.
-/

namespace KernelDispatch

variable {κ : Type}

namespace Session

/-- A session is disposed after disposal. -/
theorem dispose_phase (s : Session κ) : s.dispose.phase = .disposed := by
  unfold dispose
  cases hs : s.phase with
  | active => rfl
  | disposed => exact hs

variable {s : Session κ}

/-- Disposing again changes nothing. -/
theorem dispose_of_disposed (hs : s.phase = .disposed) : s.dispose = s := by
  rw [dispose, hs]

/-- A disposed session that holds nothing any more. -/
structure Released (s : Session κ) : Prop where
  phase : s.phase = .disposed
  kernels : s.kernels = []
  handlers : s.handlers = ⟨none, none⟩

/-- Disposing releases whatever is held. -/
theorem dispose_eq (hs : s.phase = .disposed → s.Released) :
    s.dispose = { s with phase := .disposed, kernels := [], handlers := ⟨none, none⟩ } := by
  rcases s.phase.disposed_or_active with hphase | hphase
  · have hreleased := hs hphase
    rw [dispose_of_disposed hphase, ← hreleased.phase, ← hreleased.kernels, ← hreleased.handlers]
  · simp only [dispose, hphase]

/-- Disposal releases what a session holds, and a disposed one has released it already. -/
theorem released_dispose (hs : s.phase = .disposed → s.Released) : s.dispose.Released := by
  rw [dispose_eq hs]
  exact ⟨rfl, rfl, rfl⟩

/-- A disposed session hands out no handler. -/
theorem createHandler_of_disposed (hs : s.phase = .disposed) :
    s.createHandler = (.error .disposed, s) := by
  rw [createHandler, hs]

variable [Kernel κ]

/-- The first node of a list is refused. -/
theorem resolveGraph_of_disposed (hs : s.phase = .disposed) (nodes : List Node) :
    s.resolveGraph nodes = (if nodes = [] then .ok [] else .error .disposed, s) := by
  cases nodes with
  | nil => rfl
  | cons node rest => simp only [resolveGraph, resolve_of_disposed hs, reduceCtorEq, if_false]

/-- A disposed session runs no kernel. -/
theorem invoke_of_disposed (hs : s.phase = .disposed) (id : KernelId) (inputs : List Tensor) :
    s.invoke id inputs = (.error .disposed, s) := by
  rw [invoke, hs]

/-- No request but configuring a kernel that it still holds changes a disposed session. -/
theorem after_eq_of_disposed (hs : s.phase = .disposed) {r : Request}
    (hr : ∀ id attrs, r ≠ .reconfigure id attrs) : s.after r = s := by
  cases r with
  | resolve node => rw [after, resolve_of_disposed hs]
  | resolveGraph nodes => rw [after, resolveGraph_of_disposed hs]
  | invoke id inputs => rw [after, invoke_of_disposed hs]
  | createHandler => rw [after, createHandler_of_disposed hs]
  | reconfigure id attrs => exact absurd rfl (hr id attrs)
  | dispose => rw [after, dispose_of_disposed hs]

/-- A disposed session is the same after a request, but for its kernels. -/
theorem after_of_disposed (hs : s.phase = .disposed) (r : Request) :
    s.after r = { s with kernels := (s.after r).kernels } := by
  cases r with
  | reconfigure id attrs =>
    rw [after, reconfigure]
    cases s.kernel? id <;> rfl
  | _ => rw [after_eq_of_disposed hs (by simp)]

/-- A disposed session stays disposed under every request. -/
theorem after_phase_of_disposed (hs : s.phase = .disposed) (r : Request) :
    (s.after r).phase = .disposed := by
  rw [after_of_disposed hs]
  exact hs

/-- A disposed session stays disposed under any requests. -/
theorem run_phase_of_disposed (hs : s.phase = .disposed) (requests : List Request) :
    (s.run requests).phase = .disposed :=
  run_invariant (I := fun s => s.phase = .disposed) (fun _ r hs => after_phase_of_disposed hs r) hs
    requests

/-- A run of two lists of requests is a run of the first and then of the second. -/
theorem run_append (s : Session κ) (first second : List Request) :
    s.run (first ++ second) = (s.run first).run second := by
  induction first generalizing s with
  | nil => rfl
  | cons r rest ih => exact ih (s.after r)

/-- Once a session has been disposed it refuses everything that asks for a kernel or a handler,
whatever was asked before and after, but for a list without nodes, which it resolves to no ids; and
it stays as it is. -/
theorem run_dispose_answers (s : Session κ) (earlier later : List Request) :
    let t := s.run (earlier ++ .dispose :: later)
    (∀ node, t.resolve node = (.error .disposed, t)) ∧
      (∀ nodes, t.resolveGraph nodes = (if nodes = [] then .ok [] else .error .disposed, t)) ∧
      (∀ id inputs, t.invoke id inputs = (.error .disposed, t)) ∧
      t.createHandler = (.error .disposed, t) := by
  intro t
  have ht : t.phase = .disposed := by
    simp only [t, run_append]
    exact run_phase_of_disposed (dispose_phase _) later
  exact ⟨resolve_of_disposed ht, resolveGraph_of_disposed ht, invoke_of_disposed ht,
    createHandler_of_disposed ht⟩

/-- A disposed session on the parallel backend resolves a list without nodes. -/
theorem resolveGraph_nil_after_dispose :
    let c : Context BuiltinKernel := ⟨Builtin.par, none, .ofOpset (.of "" 13)⟩
    ((ofContext c).dispose.resolveGraph []).1 = .ok [] ∧
      ((ofContext c).dispose.resolveGraph [.ofOp "Relu"]).1 = .error .disposed :=
  ⟨rfl, rfl⟩

/-- In a released session there is no kernel to configure. -/
theorem Released.reconfigure_eq (hs : s.Released) (id : KernelId) (attrs : Attributes) :
    s.reconfigure id attrs = (none, s) := by
  have hkernel : s.kernel? id = none := by rw [kernel?, hs.kernels, List.getElem?_nil]
  rw [reconfigure, hkernel]

/-- No request changes a released session. -/
theorem Released.after_eq (hs : s.Released) (r : Request) : s.after r = s := by
  cases r with
  | reconfigure id attrs => rw [after, hs.reconfigure_eq]
  | _ => exact after_eq_of_disposed hs.phase (by simp)

/-- No requests change a released session. -/
theorem Released.run_eq (hs : s.Released) (requests : List Request) : s.run requests = s := by
  induction requests with
  | nil => rfl
  | cons r rest ih => rw [run, hs.after_eq, ih]

/-- A session that holds something when it is disposed does not come about. -/
theorem released_after (hs : s.phase = .disposed → s.Released) (r : Request)
    (hafter : (s.after r).phase = .disposed) : (s.after r).Released := by
  by_cases hr : r = .dispose
  · subst hr
    exact released_dispose hs
  · -- Any other request keeps the phase, so the session was disposed, and empty, before.
    have hphase := (s.after_extends (Request.keeps_signature hr)).phase
    have hreleased := hs (hphase.symm.trans hafter)
    rwa [hreleased.after_eq]

/-- Whatever is asked of a session after it has been disposed, it stays disposed and empty, hands out
no binding under any id, keeps its context, and asks nothing of its backends. -/
theorem run_dispose_released (c : Context κ) (earlier later : List Request) :
    let s := (ofContext c).run earlier
    let t := s.run (.dispose :: later)
    t.phase = .disposed ∧ t.size = 0 ∧ t.bindings = [] ∧
      (∀ id, t.kernel? id = none) ∧ (∀ id attrs, t.reconfigure id attrs = (none, t)) ∧
      t.handlers = ⟨none, none⟩ ∧ t.context = c ∧ t.traffic = s.traffic := by
  intro s t
  have hs : s.phase = .disposed → s.Released :=
    run_invariant (I := fun s => s.phase = .disposed → s.Released)
      (fun s r hs => released_after hs r) (fun h => by cases h) earlier
  have hcontext : s.context = c :=
    run_invariant (I := fun s => s.context = c) (fun s r hs => (s.after_context r).trans hs) rfl
      earlier
  have hreleased := released_dispose hs
  have ht : t = s.dispose := hreleased.run_eq later
  rw [ht]
  refine ⟨hreleased.phase, ?_, ?_, fun id => ?_, hreleased.reconfigure_eq, hreleased.handlers, ?_, ?_⟩
  · rw [size, hreleased.kernels, List.length_nil]
  · rw [bindings, hreleased.kernels]
    rfl
  · rw [kernel?, hreleased.kernels, List.getElem?_nil]
  · rw [dispose_eq hs]
    exact hcontext
  · rw [dispose_eq hs]

end Session

end KernelDispatch
