import KernelDispatch.Kernel.Scripted
import KernelDispatch.Proofs.Session.Consistency
import KernelDispatch.Proofs.Session.Disposal
import KernelDispatch.Proofs.Session.NodeLists

/-!
# Requests for handlers

An invocation may ask the backend of its kernel for a handler, and the backend may refuse. What an
invocation has asked for is read off the counts before and after it: the requests are numbered, and
a backend answers each number. The answers of a run are kept in order, so that it can be said which
of them a later one follows.

The invariant of a run ties the handlers in use to these answers: an origin has a handler exactly if
one was granted, and behind a granted request there is no other for the same origin.
-/

namespace KernelDispatch

/-- A request for a handler that an invocation made. -/
structure Opening where
  /-- The origin whose backend was asked. -/
  origin : Origin
  answer : Except String InferenceHandler

/-- Whether the backend handed out a handler. -/
def Opening.granted (e : Opening) : Bool := e.answer.isOk

variable {κ : Type}

namespace Session

/-- What the backends were asked for between two states, in the order of the requests. -/
def requestsUntil (s t : Session κ) : List Opening :=
  [Origin.primary, Origin.fallback].flatMap fun o =>
    (s.context.backend? o).toList.flatMap fun b =>
      let first := (s.traffic.get o).handlers
      (List.range' first ((t.traffic.get o).handlers - first)).map fun n => ⟨o, b.openHandler n⟩

/-- Without a count more there was no request. -/
theorem requestsUntil_of_eq {s t : Session κ} (h : t.traffic = s.traffic) :
    s.requestsUntil t = [] := by
  simp [requestsUntil, h]

/-- A single request is found with its answer. -/
theorem requestsUntil_of_count {s t : Session κ} {o : Origin} {b : Backend κ}
    (hb : s.context.backend? o = some b)
    (ht : t.traffic = (s.requestHandler o b).2.traffic) :
    s.requestsUntil t = [⟨o, b.openHandler (s.traffic.get o).handlers⟩] := by
  have hcount (p : Origin) : (t.traffic.get p).handlers =
      (s.traffic.get p).handlers + if p = o then 1 else 0 := by
    rw [ht, requestHandler_traffic, Traffic.handlers_add]
    split <;> rfl
  cases o <;> simp [requestsUntil, hcount, hb]

/-- Asking an active session for a handler asks the primary once, and nothing but the count of that
changes. -/
theorem createHandler_of_active {s : Session κ} (hactive : s.phase = .active) :
    s.createHandler =
      ((s.context.primary.openHandler s.traffic.primary.handlers).mapError
        fun text => .backend (.handler text),
      { s with traffic := s.traffic + ⟨⟨0, 0, 1⟩, .none⟩ }) := by
  have hrequest : s.createHandler = s.requestHandler .primary s.context.primary := by
    rw [createHandler, hactive]
  exact hrequest

/-- A handler in use is found without a request. -/
theorem handlerFor_of_slot {s : Session κ} {bound : BoundKernel κ} {h : InferenceHandler}
    (hslot : s.handlers.get bound.origin = some h) : s.handlerFor bound = (.ok h, s) := by
  rw [handlerFor, hslot]

/-- Without a handler in use the backend of the origin is asked for one, and a granted one is taken
into use. -/
theorem handlerFor_of_empty {s : Session κ} {bound : BoundKernel κ} {b : Backend κ}
    (hslot : s.handlers.get bound.origin = none)
    (hb : s.context.backend? bound.origin = some b) :
    s.handlerFor bound =
      match b.openHandler (s.traffic.get bound.origin).handlers with
      | .error text =>
        (.error (.backend (.handler text)), (s.requestHandler bound.origin b).2)
      | .ok h =>
        (.ok h, { (s.requestHandler bound.origin b).2 with
          handlers := s.handlers.set bound.origin (some h) }) := by
  rw [handlerFor, hslot, hb]
  simp only [requestHandler]
  cases b.openHandler (s.traffic.get bound.origin).handlers <;> rfl

variable [Kernel κ]

/-- The requests for handlers that a request to the session leads to, if it is an invocation. -/
def openings (s : Session κ) : Request → List Opening
  | .invoke id inputs => s.requestsUntil (s.invoke id inputs).2
  | _ => []

variable {s : Session κ} {id : KernelId} {bound : BoundKernel κ} {b : Backend κ}

/-- Without a kernel under the id nothing happens. -/
theorem invoke_of_unknown (hunknown : s.phase = .disposed ∨ s.kernel? id = none)
    (inputs : List Tensor) : (s.invoke id inputs).2 = s := by
  rcases s.phase.disposed_or_active with hphase | hphase
  · rw [invoke_of_disposed hphase]
  · have hid : s.kernel? id = none := hunknown.resolve_left (by rw [hphase]; nofun)
    simp only [invoke, hphase, hid]

/-- The kernel of an id is bound in an active session, and its origin has no handler in use. -/
structure NeedsHandler (s : Session κ) (id : KernelId) (bound : BoundKernel κ) (b : Backend κ) :
    Prop where
  active : s.phase = .active
  kernel : s.kernel? id = some bound
  backend : s.context.backend? bound.origin = some b
  empty : s.handlers.get bound.origin = none

/-- Under an id there is no kernel, or one whose origin has a handler in use, or one without. -/
theorem invoke_cases (hs : s.BindingsAllowed) (id : KernelId) :
    (s.phase = .disposed ∨ s.kernel? id = none) ∨
      (∃ bound h, s.phase = .active ∧ s.kernel? id = some bound ∧
        s.handlers.get bound.origin = some h) ∨
      ∃ bound b, s.NeedsHandler id bound b := by
  rcases s.phase.disposed_or_active with hphase | hphase
  · exact .inl (.inl hphase)
  · cases hbound : s.kernel? id with
    | none => exact .inl (.inr rfl)
    | some bound =>
      cases hslot : s.handlers.get bound.origin with
      | some h => exact .inr (.inl ⟨bound, h, hphase, rfl, hslot⟩)
      | none =>
        obtain ⟨b, k, hserves, -⟩ := hs bound (List.mem_of_getElem? hbound)
        exact .inr (.inr ⟨bound, b, hphase, hbound, hserves.backend?_eq, hslot⟩)

/-- A refused request is the answer, and nothing but the count of it changes. -/
theorem NeedsHandler.invoke_of_refused (h : s.NeedsHandler id bound b) {text : String}
    (hopen : b.openHandler (s.traffic.get bound.origin).handlers = .error text)
    (inputs : List Tensor) :
    s.invoke id inputs =
      (.error (.backend (.handler text)), (s.requestHandler bound.origin b).2) := by
  simp only [invoke, h.active, h.kernel, handlerFor_of_empty h.empty h.backend, hopen]

/-- With a handler at hand the kernel is run in it, and it stays in use. -/
theorem invoke_of_handler (hactive : s.phase = .active) (hbound : s.kernel? id = some bound)
    {h : InferenceHandler} {t : Session κ} (hfor : s.handlerFor bound = (.ok h, t))
    (inputs : List Tensor) :
    (s.invoke id inputs).2.traffic = t.traffic ∧
      ∀ o, ((s.invoke id inputs).2.handlers.get o).isSome =
        ((t.handlers.get o).isSome || o = bound.origin) := by
  simp only [invoke, hactive, hbound, hfor, PerOrigin.get_set, true_and]
  intro o
  by_cases ho : o = bound.origin <;> simp [ho]

/-- An invocation without a bound kernel, or with a handler in use, asks for nothing. -/
theorem openings_of_unknown (hunknown : s.phase = .disposed ∨ s.kernel? id = none)
    (inputs : List Tensor) : s.openings (.invoke id inputs) = [] := by
  rw [openings, invoke_of_unknown hunknown]
  exact requestsUntil_of_eq rfl

/-- With a handler in use an invocation requests none and keeps the ones in use. -/
theorem openings_of_slot (hactive : s.phase = .active) (hbound : s.kernel? id = some bound)
    {h : InferenceHandler} (hslot : s.handlers.get bound.origin = some h) (inputs : List Tensor) :
    s.openings (.invoke id inputs) = [] ∧
      ∀ o, ((s.invoke id inputs).2.handlers.get o).isSome = (s.handlers.get o).isSome := by
  obtain ⟨htraffic, hhandlers⟩ := invoke_of_handler hactive hbound (handlerFor_of_slot hslot) inputs
  refine ⟨requestsUntil_of_eq htraffic, fun o => ?_⟩
  rw [hhandlers]
  by_cases ho : o = bound.origin
  · simp [ho, hslot]
  · simp [ho]

/-- Where a handler is missing the backend is asked once, and then there is a handler for the origin
exactly if the backend handed one out. -/
theorem NeedsHandler.openings_eq (h : s.NeedsHandler id bound b) (inputs : List Tensor) :
    let e : Opening := ⟨bound.origin, b.openHandler (s.traffic.get bound.origin).handlers⟩
    s.openings (.invoke id inputs) = [e] ∧
      ∀ o, ((s.invoke id inputs).2.handlers.get o).isSome =
        ((s.handlers.get o).isSome || (e.origin = o && e.granted)) := by
  have hfor := handlerFor_of_empty h.empty h.backend
  cases hopen : b.openHandler (s.traffic.get bound.origin).handlers with
  | error text =>
    have hinvoke := h.invoke_of_refused hopen inputs
    refine ⟨?_, fun o => ?_⟩
    · rw [openings, requestsUntil_of_count h.backend (congrArg (·.2.traffic) hinvoke), hopen]
    · rw [hinvoke]
      simp [Opening.granted, Except.isOk, Except.toBool, requestHandler, count]
  | ok handler =>
    rw [hopen] at hfor
    obtain ⟨htraffic, hhandlers⟩ := invoke_of_handler h.active h.kernel hfor inputs
    refine ⟨?_, fun o => ?_⟩
    · rw [openings, requestsUntil_of_count h.backend htraffic, hopen]
    · rw [hhandlers, PerOrigin.get_set]
      by_cases ho : o = bound.origin
      · simp [ho, Opening.granted, Except.isOk, Except.toBool]
      · simp [ho, Ne.symm ho]

/-- In an active session only an invocation takes a handler into use. -/
theorem after_handlers {r : Request} (hr : ∀ id inputs, r ≠ .invoke id inputs)
    (hactive : (s.after r).phase = .active) : (s.after r).handlers = s.handlers := by
  rcases s.phase.disposed_or_active with hphase | hphase
  · rw [after_of_disposed hphase]
  · cases r with
    | resolve node =>
      obtain ⟨outcome, asked, hrule⟩ := s.context.exists_dispatches node
      rw [after, resolve_of_dispatches hphase hrule, settled]
    | resolveGraph nodes =>
      obtain ⟨bound, failure, asked, hlist⟩ := s.context.exists_dispatchesList nodes
      rw [after, resolveGraph_of_dispatchesList hlist hphase rfl]
    | invoke id inputs => exact absurd rfl (hr id inputs)
    | createHandler => rw [after, createHandler_of_active hphase]
    | reconfigure id attrs =>
      rw [after, reconfigure]
      cases s.kernel? id <;> rfl
    | dispose =>
      rw [after, dispose_phase] at hactive
      cases hactive

/-- Only an invocation that misses a handler asks for one. -/
theorem needsHandler_of_mem_openings (hs : s.BindingsAllowed) {r : Request} {e : Opening}
    (he : e ∈ s.openings r) :
    ∃ id inputs bound b, r = .invoke id inputs ∧ s.NeedsHandler id bound b ∧
      e = ⟨bound.origin, b.openHandler (s.traffic.get bound.origin).handlers⟩ := by
  cases r with
  | invoke id inputs =>
    rcases invoke_cases hs id with hunknown | ⟨bound, h, hactive, hbound, hslot⟩ | ⟨bound, b, hneeds⟩
    · rw [openings_of_unknown hunknown] at he
      cases he
    · rw [(openings_of_slot hactive hbound hslot inputs).1] at he
      cases he
    · rw [(hneeds.openings_eq inputs).1, List.mem_singleton] at he
      exact ⟨id, inputs, bound, b, rfl, hneeds, he⟩
  | _ => cases he

/-- A request leads to at most one request for a handler. -/
theorem length_openings_le_one (hs : s.BindingsAllowed) (r : Request) :
    (s.openings r).length ≤ 1 := by
  cases hopenings : s.openings r with
  | nil => exact Nat.zero_le 1
  | cons e rest =>
    obtain ⟨id, inputs, bound, b, rfl, hneeds, -⟩ :=
      needsHandler_of_mem_openings hs (hopenings ▸ List.mem_cons_self)
    rw [← hopenings, (hneeds.openings_eq inputs).1]
    exact Nat.le_refl 1

/-- A request leaves a handler in use for an origin if there was one or if it was handed one out. -/
theorem after_slots (hs : s.BindingsAllowed) {r : Request} (hactive : (s.after r).phase = .active)
    (o : Origin) :
    ((s.after r).handlers.get o).isSome =
      ((s.handlers.get o).isSome || (s.openings r).any fun e => e.origin = o && e.granted) := by
  cases r with
  | invoke id inputs =>
    rw [after]
    rcases invoke_cases hs id with hunknown | ⟨bound, h, hphase, hbound, hslot⟩ | ⟨bound, b, hneeds⟩
    · rw [openings_of_unknown hunknown, invoke_of_unknown hunknown, List.any_nil, Bool.or_false]
    · obtain ⟨hopenings, hhandlers⟩ := openings_of_slot hphase hbound hslot inputs
      rw [hopenings, hhandlers, List.any_nil, Bool.or_false]
    · obtain ⟨hopenings, hhandlers⟩ := hneeds.openings_eq inputs
      rw [hopenings, hhandlers, List.any_cons, List.any_nil, Bool.or_false]
  | _ => simp only [after_handlers (by simp) hactive, openings, List.any_nil, Bool.or_false]

/-- What the answers of a run say of the session after it. -/
structure Tallies (s : Session κ) (log : List Opening) : Prop where
  bindings : s.BindingsAllowed
  /-- An origin has a handler in use exactly if one was handed out. -/
  slots : s.phase = .active →
    ∀ o, (s.handlers.get o).isSome = log.any fun e => e.origin = o && e.granted
  /-- A request that is followed by another one for the same origin was refused. -/
  order : log.Pairwise fun e f => e.origin = f.origin → e.granted = false

/-- An active session has no handler in use for an origin as long as all its requests are refused. -/
theorem Tallies.slot_eq_none_iff {log : List Opening} (h : s.Tallies log)
    (hactive : s.phase = .active) {o : Origin} :
    s.handlers.get o = none ↔ ∀ e ∈ log, e.origin = o → e.granted = false := by
  rw [← Option.isNone_iff_eq_none, ← Option.not_isSome, h.slots hactive]
  simp

/-- An invocation asks for a handler exactly if the id is bound in an active session and all earlier
requests for the origin of its kernel were refused. -/
theorem Tallies.exists_opening_iff {log : List Opening} (h : s.Tallies log) (id : KernelId)
    (inputs : List Tensor) (o : Origin) :
    (∃ e ∈ s.openings (.invoke id inputs), e.origin = o) ↔
      s.phase = .active ∧ (∃ bound, s.kernel? id = some bound ∧ bound.origin = o) ∧
        ∀ e ∈ log, e.origin = o → e.granted = false := by
  constructor
  · rintro ⟨e, he, rfl⟩
    obtain ⟨_, _, bound, b, heq, hneeds, rfl⟩ := needsHandler_of_mem_openings h.bindings he
    cases heq
    have hrefused := (h.slot_eq_none_iff hneeds.active).mp hneeds.empty
    exact ⟨hneeds.active, ⟨bound, hneeds.kernel, rfl⟩, hrefused⟩
  · rintro ⟨hactive, ⟨bound, hbound, rfl⟩, hrefused⟩
    obtain ⟨b, k, hserves, -⟩ := h.bindings bound (List.mem_of_getElem? hbound)
    have hempty := (h.slot_eq_none_iff hactive).mpr hrefused
    have hneeds : s.NeedsHandler id bound b := ⟨hactive, hbound, hserves.backend?_eq, hempty⟩
    rw [(hneeds.openings_eq inputs).1]
    exact ⟨_, List.mem_singleton_self _, rfl⟩

/-- A refusal is the answer of the invocation, which runs no kernel and changes only a count. -/
theorem invoke_of_mem_openings (hs : s.BindingsAllowed) {inputs : List Tensor} {o : Origin}
    {text : String} (he : ⟨o, .error text⟩ ∈ s.openings (.invoke id inputs)) :
    s.handlers.get o = none ∧
      s.invoke id inputs =
        (.error (.backend (.handler text)), { s with traffic := (s.invoke id inputs).2.traffic }) := by
  obtain ⟨_, _, bound, b, heq, hneeds, hanswer⟩ := needsHandler_of_mem_openings hs he
  cases heq
  obtain ⟨rfl, hopen⟩ := (Opening.mk.injEq ..).mp hanswer
  rw [hneeds.invoke_of_refused hopen.symm]
  exact ⟨hneeds.empty, rfl⟩

/-- The answers of a run stay in line with the session. -/
theorem Tallies.after {log : List Opening} (h : s.Tallies log) (r : Request) :
    (s.after r).Tallies (log ++ s.openings r) where
  bindings := h.bindings.after r
  slots := by
    intro hactive o
    have hphase : s.phase = .active := by
      rcases s.phase.disposed_or_active with hphase | hphase
      · rw [after_phase_of_disposed hphase r] at hactive
        cases hactive
      · exact hphase
    rw [after_slots h.bindings hactive, h.slots hphase, List.any_append]
  order := by
    rw [List.pairwise_append]
    refine ⟨h.order, ?_, fun e he f hf horigin => ?_⟩
    · have hlength := length_openings_le_one h.bindings r
      match s.openings r, hlength with
      | [], _ => exact .nil
      | [f], _ => exact List.pairwise_singleton _ f
    · -- A request is only made without a handler in use, so all before it were refused.
      obtain ⟨id, inputs, bound, b, -, hneeds, rfl⟩ := needsHandler_of_mem_openings h.bindings hf
      exact (h.slot_eq_none_iff hneeds.active).mp hneeds.empty e he horigin

/-- Over any run the requests for handlers that invocations make are in this order: all refused, but
for the last one of an origin. An invocation makes one exactly if the session is active, the id is
bound, and no earlier request for the origin was granted, so it makes one again after a refusal. A
refusal is the answer of the invocation, and it changes nothing but a count, as does asking for a
handler otherwise; without a kernel under the id nothing changes at all. -/
theorem run_openings (c : Context κ) (requests : List Request) :
    let s := (ofContext c).run requests
    let log := (ofContext c).record openings requests
    (log.Pairwise fun e f => e.origin = f.origin → e.granted = false) ∧
      (∀ id inputs o,
        (∃ e ∈ s.openings (.invoke id inputs), e.origin = o) ↔
          s.phase = .active ∧ (∃ bound, s.kernel? id = some bound ∧ bound.origin = o) ∧
            ∀ e ∈ log, e.origin = o → e.granted = false) ∧
      (∀ id inputs, (s.openings (.invoke id inputs)).length ≤ 1) ∧
      (∀ id inputs o text, ⟨o, .error text⟩ ∈ s.openings (.invoke id inputs) →
        s.handlers.get o = none ∧ s.invoke id inputs =
          (.error (.backend (.handler text)),
            { s with traffic := (s.invoke id inputs).2.traffic })) ∧
      (∀ id inputs, s.phase = .disposed ∨ s.kernel? id = none →
        (s.invoke id inputs).2 = s) ∧
      (s.phase = .active → s.createHandler =
        ((c.primary.openHandler s.traffic.primary.handlers).mapError
          fun text => .backend (.handler text),
        { s with traffic := s.traffic + ⟨⟨0, 0, 1⟩, .none⟩ })) := by
  intro s log
  have htallies : s.Tallies log := by
    apply run_record (I := Tallies) fun t seen r ht => ht.after r
    refine ⟨List.forall_mem_nil _, fun _ o => ?_, .nil⟩
    cases o <;> rfl
  have hcontext : s.context = c :=
    run_invariant (I := fun s => s.context = c) (fun t r ht => (t.after_context r).trans ht) rfl
      requests
  refine ⟨htallies.order, htallies.exists_opening_iff, fun id inputs => ?_,
    fun id inputs o text => invoke_of_mem_openings htallies.bindings,
    fun id inputs hunknown => invoke_of_unknown hunknown inputs, fun hactive => ?_⟩
  · exact length_openings_le_one htallies.bindings _
  · rw [← hcontext]
    exact createHandler_of_active hactive

/-- A backend that refuses its first handler is asked again by the next invocation, and then no
more. -/
theorem openings_of_busy_backend :
    let busy : Backend Scripted :=
      ⟨"busy", "busy", ⟨[⟨"ai.onnx", [⟨"Relu", .since 1, ⟨"busy.Relu", [], none⟩⟩]⟩]⟩,
        fun n => if n = 0 then .error "busy" else .ok (.fresh "busy")⟩
    let c : Context Scripted := ⟨busy, none, .ofOpset (.of "" 13)⟩
    let once : List Request := [.resolve (.ofOp "Relu"), .invoke ⟨0⟩ []]
    let twice : List Request := once ++ [.invoke ⟨0⟩ []]
    (∃ e ∈ ((ofContext c).run once).openings (.invoke ⟨0⟩ []), e.origin = .primary) ∧
      ¬ ∃ e ∈ ((ofContext c).run twice).openings (.invoke ⟨0⟩ []), e.origin = .primary := by
  intro busy c once twice
  obtain ⟨-, honce, -⟩ := run_openings c once
  obtain ⟨-, htwice, -⟩ := run_openings c twice
  have hrefused : ∀ e ∈ (ofContext c).record openings once, e.origin = .primary →
      e.granted = false := by decide +kernel
  have hgranted : ¬ ∀ e ∈ (ofContext c).record openings twice, e.origin = .primary →
      e.granted = false := by decide +kernel
  refine ⟨(honce ⟨0⟩ [] .primary).mpr ⟨rfl, ⟨_, rfl, rfl⟩, hrefused⟩, fun hasked => ?_⟩
  exact hgranted ((htwice ⟨0⟩ [] .primary).mp hasked).2.2

end Session

end KernelDispatch
