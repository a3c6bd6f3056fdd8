import KernelDispatch.Proofs.Session.Requests

/-!
# Invocations of built-in kernels

A built-in kernel is not changed by running it, and the built-in backends grant every handler. So
what a session answers to an invocation is what a fresh kernel answers that is configured with the
attributes of the node, whatever was asked of the session before.
-/

namespace KernelDispatch

/-- Running a built-in kernel leaves it as it is. -/
theorem BuiltinKernel.afterInvoke_eq (k : BuiltinKernel) (inputs : List Tensor) :
    Kernel.afterInvoke k inputs = k := by
  cases k with
  | inl k => cases k <;> rfl
  | inr k => rfl

/-- No request but configuring again and disposing changes a built-in kernel. -/
theorem Request.keeps_builtin {r : Request} (hreconfigure : ∀ id attrs, r ≠ .reconfigure id attrs)
    (hdispose : r ≠ .dispose) : r.Keeps (id : BoundKernel BuiltinKernel → _) := by
  cases r with
  | invoke id inputs =>
    intro b
    rw [BuiltinKernel.afterInvoke_eq]
  | reconfigure id attrs => exact absurd rfl (hreconfigure id attrs)
  | dispose => exact absurd rfl hdispose
  | _ => trivial

/-- The backends of the context are the built-in ones, in any roles and under any labels. -/
def Context.BuiltIn (c : Context BuiltinKernel) : Prop :=
  ∀ o b, c.backend? o = some b →
    ∃ label, b = { Builtin.cpu with label } ∨ b = { Builtin.par with label }

/-- The built-in backends grant every handler. -/
theorem Context.BuiltIn.grants {c : Context BuiltinKernel} (hbuiltin : c.BuiltIn) {o : Origin}
    {b : Backend BuiltinKernel} (hb : c.backend? o = some b) (n : Nat) :
    ∃ h, b.openHandler n = .ok h := by
  obtain ⟨label, rfl | rfl⟩ := hbuiltin o b hb <;> exact ⟨_, rfl⟩

namespace Session

variable {κ : Type}

/-- A handler that is in use or granted is found. -/
theorem handlerFor_of_granted {s : Session κ} {bound : BoundKernel κ} {b : Backend κ}
    (hb : s.context.backend? bound.origin = some b) (hgranted : ∀ n, ∃ h, b.openHandler n = .ok h) :
    ∃ h t, s.handlerFor bound = (.ok h, t) := by
  unfold handlerFor
  cases s.handlers.get bound.origin with
  | some h => exact ⟨h, s, rfl⟩
  | none =>
    obtain ⟨h, hopen⟩ := hgranted (s.traffic.get bound.origin).handlers
    simp only [hb, requestHandler, hopen]
    exact ⟨h, _, rfl⟩

variable [Kernel κ]

/-- With a handler at hand an invocation answers what the bound kernel computes. -/
theorem invoke_fst {s : Session κ} (hactive : s.phase = .active) {id : KernelId}
    {bound : BoundKernel κ} (hbound : s.kernel? id = some bound)
    (hhandler : ∃ h t, s.handlerFor bound = (.ok h, t)) (inputs : List Tensor) :
    (s.invoke id inputs).1 =
      (Kernel.invoke bound.kernel inputs).mapError fun e => .backend (.kernel e) := by
  obtain ⟨h, t, hhandler⟩ := hhandler
  simp only [invoke, hactive, hbound, hhandler, InferenceHandler.run]

/-- After any run without configuring again and disposing, an invocation answers what a fresh
kernel of the serving backend answers under the node's attributes. -/
theorem run_invoke_eq_fresh {c : Context BuiltinKernel} (hbuiltin : c.BuiltIn)
    {requests : List Request} (hreconfigure : ∀ id attrs, .reconfigure id attrs ∉ requests)
    (hdispose : .dispose ∉ requests) :
    let s := (ofContext c).run requests
    ∀ e ∈ (ofContext c).history requests, ∃ bound b fresh configured,
      s.kernel? e.id = some bound ∧ c.backend? bound.origin = some b ∧ b.name = bound.backend ∧
        b.find? bound.identity = some fresh ∧
        Kernel.configure fresh e.node.attributes = (.ok (), configured) ∧
        ∀ inputs, (s.invoke e.id inputs).1 =
          (Kernel.invoke configured inputs).mapError fun cause => .backend (.kernel cause) := by
  intro s e he
  have hkeeps : ∀ r ∈ requests, r.Keeps (id : BoundKernel BuiltinKernel → _) := fun r hr =>
    Request.keeps_builtin (fun id attrs h => hreconfigure id attrs (h ▸ hr))
      (fun h => hdispose (h ▸ hr))
  have hextends := (ofContext c).run_extends hkeeps
  obtain ⟨bound, asked, hfound, hrule⟩ := hextends.policy e he
  have hbound : s.kernel? e.id = some bound := by
    simpa only [Option.map_id, id, hfound] using hextends.kernel?_eq he
  cases hrule with
  | @bound id o b fresh configured identified served accepted =>
    have hb := served.backend?_eq
    have hserving : s.context.backend? o = some b := by rwa [hextends.context]
    have hhandler : ∃ h t, s.handlerFor ⟨e.node.name, id, b.name, o, configured⟩ = (.ok h, t) :=
      handlerFor_of_granted hserving (hbuiltin.grants hb)
    exact ⟨_, b, fresh, configured, hbound, hb, rfl, served.find?_eq, accepted,
      invoke_fst hextends.phase hbound hhandler⟩

/-- The node behind a failed graph is served by the fallback, and its kernel answers like a fresh
one although another kernel has run before. -/
theorem invoke_after_failed_graph :
    let c : Context BuiltinKernel := ⟨Builtin.par, some Builtin.cpu, .ofOpset (.of "" 13)⟩
    let requests : List Request :=
      [.resolveGraph [.ofOp "Relu", .ofOp "Nope"], .invoke ⟨0⟩ [], .createHandler,
        .resolve (.ofOp "Tanh")]
    let s := (ofContext c).run requests
    c.BuiltIn ∧ (∀ id attrs, .reconfigure id attrs ∉ requests) ∧ .dispose ∉ requests ∧
      ∀ inputs, (s.invoke ⟨1⟩ inputs).1 =
        (Kernel.invoke (.inl (.unary ⟨.tanh, true⟩) : BuiltinKernel) inputs).mapError
          fun cause => .backend (.kernel cause) := by
  intro c requests s
  have hbuiltin : c.BuiltIn := by
    intro o b hb
    cases o with
    | primary =>
      obtain rfl := Option.some.inj hb
      exact ⟨"par", .inr rfl⟩
    | fallback =>
      obtain rfl := Option.some.inj hb
      exact ⟨"cpu", .inl rfl⟩
  have hreconfigure : ∀ id attrs, .reconfigure id attrs ∉ requests := by simp [requests]
  have hdispose : .dispose ∉ requests := by simp [requests]
  have hhistory : (⟨⟨1⟩, .ofOp "Tanh", some ⟨"Tanh", ⟨"Tanh", "ai.onnx", 13⟩, "cpu", .fallback,
      .inl (.unary ⟨.tanh, true⟩)⟩⟩ : Assignment BuiltinKernel) ∈ (ofContext c).history requests :=
    List.mem_of_getElem? (i := 1) (by rfl)
  refine ⟨hbuiltin, hreconfigure, hdispose, ?_⟩
  obtain ⟨bound, b, fresh, configured, hbound, hb, -, hfresh, haccepted, hinvoke⟩ :=
    run_invoke_eq_fresh hbuiltin hreconfigure hdispose _ hhistory
  obtain rfl : (⟨"Tanh", ⟨"Tanh", "ai.onnx", 13⟩, "cpu", .fallback,
      .inl (.unary ⟨.tanh, true⟩)⟩ : BoundKernel BuiltinKernel) = bound := Option.some.inj hbound
  obtain rfl : Builtin.cpu = b := Option.some.inj hb
  obtain rfl : .inl (.unary ⟨.tanh, false⟩) = fresh := Option.some.inj hfresh
  obtain rfl : .inl (.unary ⟨.tanh, true⟩) = configured := (Prod.mk.inj haccepted).2
  exact hinvoke

end Session

end KernelDispatch
