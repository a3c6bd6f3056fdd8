import KernelDispatch.Proofs.Session.NodeLists

/-!
# What a fallback changes

Two sessions are compared that differ only in their fallback, of which one may not use any. The
policy of the one is carried over to the other rule by rule: a node that is bound, refused or not
imported without the fallback ends in the same way with it, and the fallback is not asked. Only a
miss may end differently. By induction the same holds of lists of nodes.
-/

namespace KernelDispatch

variable {κ : Type}

/-- A context without a fallback that it may use, and one with the same primary and the same imports
but any fallback. -/
structure Context.Widens (c c' : Context κ) : Prop where
  idle : c.activeFallback = none
  primary : c'.primary = c.primary
  opsets : c'.config.opsets = c.config.opsets

namespace Context.Widens

variable {c c' : Context κ} (h : c.Widens c')
include h

/-- A wider context has the same imports, so a node has the same identity in it. -/
theorem identifies {node : Node} {id : Identity} (hid : c.Identifies node id) :
    c'.Identifies node id :=
  hid.of_versionFor fun _ => by rw [h.opsets]

/-- Whatever is served without a fallback is served by the primary, with and without it. -/
theorem serves {id : Identity} {o : Origin} {b : Backend κ} {k : κ} (hserves : c.Serves id o b k) :
    o = .primary ∧ c'.Serves id .primary b k := by
  cases hserves with
  | primary hit =>
    rw [← h.primary] at hit ⊢
    exact ⟨rfl, .primary hit⟩
  | fallback _ configured enabled =>
    have hidle := h.idle
    simp [activeFallback, configured, enabled] at hidle

variable [Kernel κ]

/-- Unless it is a miss, a node ends with a fallback as it does without one, and the fallback is not
asked. -/
theorem dispatches {node : Node} {outcome : Except ResolveError (BoundKernel κ)}
    {asked : PerOrigin Traffic} (hrule : c.Dispatches node outcome asked)
    (hmiss : ∀ id, outcome ≠ .error (.unsupported id)) :
    c'.Dispatches node outcome asked ∧ asked.fallback = .none := by
  cases hrule with
  | missingImport bare unimported => exact ⟨.missingImport bare (h.opsets ▸ unimported), rfl⟩
  | unsupported => exact absurd rfl (hmiss _)
  | rejected identified served refused =>
    obtain ⟨rfl, hserves⟩ := h.serves served
    exact ⟨.rejected (h.identifies identified) hserves refused, rfl⟩
  | bound identified served accepted =>
    obtain ⟨rfl, hserves⟩ := h.serves served
    exact ⟨.bound (h.identifies identified) hserves accepted, rfl⟩

/-- A node that is bound without a fallback is bound to a kernel of the primary. -/
theorem origin_eq {node : Node} {b : BoundKernel κ} {asked : PerOrigin Traffic}
    (hrule : c.Dispatches node (.ok b) asked) : b.origin = .primary := by
  cases hrule with
  | bound identified served => exact (h.serves served).1

/-- Unless a miss ends it, a list of nodes ends with a fallback as it does without one, and the
fallback is not asked. -/
theorem dispatchesList {nodes : List Node} {bound : List (BoundKernel κ)}
    {failure : Option ResolveError} {asked : PerOrigin Traffic}
    (hlist : c.DispatchesList nodes bound failure asked)
    (hmiss : ∀ id, failure ≠ some (.unsupported id)) :
    c'.DispatchesList nodes bound failure asked ∧ asked.fallback = .none := by
  induction hlist with
  | nil => exact ⟨.nil, rfl⟩
  | stop failed =>
    obtain ⟨hfailed, hasked⟩ := h.dispatches failed fun id heq =>
      hmiss id (congrArg some (Except.error.inj heq))
    exact ⟨.stop hfailed, hasked⟩
  | next first others ih =>
    obtain ⟨hfirst, hasked⟩ := h.dispatches first nofun
    obtain ⟨hothers, hmore⟩ := ih hmiss
    refine ⟨.next hfirst hothers, ?_⟩
    change _ + _ = _
    rw [hasked, hmore, Traffic.none_add]

/-- Without a fallback all kernels of a list are of the primary. -/
theorem origins_eq {nodes : List Node} {bound : List (BoundKernel κ)}
    {failure : Option ResolveError} {asked : PerOrigin Traffic}
    (hlist : c.DispatchesList nodes bound failure asked) : ∀ b ∈ bound, b.origin = .primary := by
  induction hlist with
  | nil => exact List.forall_mem_nil _
  | stop => exact List.forall_mem_nil _
  | next first others ih => exact List.forall_mem_cons.mpr ⟨h.origin_eq first, ih⟩

end Context.Widens

namespace Session

variable [Kernel κ] {c c' : Context κ}

/-- Unless it ends in a miss, a run with a fallback is the run without it, in the other context. -/
theorem resolveGraph_widened_eq (h : c.Widens c') (nodes : List Node)
    (hmiss : ∀ id, ((ofContext c).resolveGraph nodes).1 ≠ .error (.unsupported id)) :
    let without := (ofContext c).resolveGraph nodes
    (ofContext c').resolveGraph nodes = (without.1, { without.2 with context := c' }) ∧
      (∀ b ∈ without.2.kernels, b.origin = .primary) ∧ without.2.traffic.fallback = .none := by
  intro without
  obtain ⟨bound, failure, asked, hlist⟩ := c.exists_dispatchesList nodes
  have hwithout := resolveGraph_of_dispatchesList (s := ofContext c) hlist rfl rfl
  rw [hwithout] at hmiss
  obtain ⟨hlist', hasked⟩ := h.dispatchesList hlist fun id heq =>
    hmiss id (listAnswer_eq_error_iff.mpr heq)
  have hwithin := resolveGraph_of_dispatchesList (s := ofContext c') hlist' rfl rfl
  simp only [without, hwithout, hwithin]
  refine ⟨rfl, h.origins_eq hlist, ?_⟩
  change Traffic.none + asked.fallback = .none
  rw [hasked, Traffic.none_add]

/-- A failure that is not a miss happens with a fallback at the same node. -/
theorem FailsAt.widened (h : c.Widens c') {nodes : List Node} {i : Nat} {e : ResolveError}
    (hfails : (ofContext c).FailsAt nodes i e) (hmiss : ∀ id, e ≠ .unsupported id) :
    (ofContext c').FailsAt nodes i e := by
  obtain ⟨bound, asked, hlist, hplace⟩ := (failsAt_iff rfl).mp hfails
  obtain ⟨hlist', -⟩ := h.dispatchesList hlist fun id heq => hmiss id (Option.some.inj heq)
  exact (failsAt_iff rfl).mpr ⟨bound, asked, hlist', hplace⟩

/-- A list that is resolved without a fallback is resolved with one to the same ids and bindings,
all of the primary, and the fallback is never asked. A list that first fails at a node otherwise
than by a miss fails with a fallback at the same node, with the same error and behind the same
bindings. -/
theorem resolveGraph_widened (h : c.Widens c') (nodes : List Node) :
    let without := (ofContext c).resolveGraph nodes
    let within := (ofContext c').resolveGraph nodes
    (∀ ids, without.1 = .ok ids →
      within.1 = .ok ids ∧ within.2.bindings = without.2.bindings ∧
        (∀ b ∈ within.2.kernels, b.origin = .primary) ∧ within.2.traffic.fallback = .none) ∧
      ∀ i e, (ofContext c).FailsAt nodes i e → (∀ id, e ≠ .unsupported id) →
        (ofContext c').FailsAt nodes i e ∧ without.1 = .error e ∧ within.1 = .error e ∧
          within.2.bindings = without.2.bindings := by
  intro without within
  constructor
  · intro ids hids
    obtain ⟨hwithin, horigins, hfallback⟩ := resolveGraph_widened_eq h nodes fun id herr =>
      nomatch hids.symm.trans herr
    simp only [within, hwithin]
    exact ⟨hids, rfl, horigins, hfallback⟩
  · intro i e hfails hmiss
    have herror : without.1 = .error e := (resolveGraph_error_iff rfl).mpr ⟨i, hfails⟩
    obtain ⟨hwithin, -⟩ := resolveGraph_widened_eq h nodes fun id herr =>
      hmiss id (Except.error.inj (herror.symm.trans herr))
    simp only [within, hwithin]
    exact ⟨hfails.widened h hmiss, herror, herror, rfl⟩

/-- A softmax over another axis is refused by the parallel backend, and the reference backend, which
would accept it, does not get the node. -/
theorem refused_node_with_fallback :
    let c : Context BuiltinKernel :=
      ⟨Builtin.par, some Builtin.cpu, (SessionConfig.ofOpset (.of "" 13)).withFallback false⟩
    let c' : Context BuiltinKernel := { c with config := c.config.withFallback true }
    let nodes : List Node :=
      [.ofOp "Relu", { Node.ofOp "Softmax" with attributes := .ofList [("axis", .int 1)] },
        .ofOp "Tanh"]
    let refusal : ResolveError :=
      .invalidConfiguration "Softmax" "par" (.invalid "axis" (.notLastAxis 1))
    c.Widens c' ∧ (ofContext c).FailsAt nodes 1 refusal ∧ (ofContext c').FailsAt nodes 1 refusal ∧
      ((ofContext c').resolveGraph (nodes.take 1)).1 = .ok [⟨0⟩] := by
  intro c c' nodes refusal
  have hwidens : c.Widens c' := ⟨rfl, rfl, rfl⟩
  have hfails : (ofContext c).FailsAt nodes 1 refusal := ⟨_, _, _, rfl, rfl, rfl⟩
  refine ⟨hwidens, hfails, ?_, ?_⟩
  · exact ((resolveGraph_widened hwidens nodes).2 1 refusal hfails nofun).1
  · exact ((resolveGraph_widened hwidens (nodes.take 1)).1 [⟨0⟩] rfl).1

end Session

end KernelDispatch
