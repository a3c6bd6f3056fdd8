import KernelDispatch.Proofs.Session.Policy

/-!
# Lists of nodes

The dispatch policy for a list of nodes: they are dispatched in order, and the first failure ends
the list. As the rules for one node speak of the context alone, so do these, and what a list of
nodes leaves of a session can be read off them: the kernels of the nodes in front of the failing
one, and what was asked of the backends up to it.

Every list falls under the rules, and an active session follows them. In particular it resolves a
list exactly if every node of it can be bound.
-/

namespace KernelDispatch

/-- Requests are added up in any grouping. -/
theorem Traffic.add_assoc (t u v : Traffic) : t + u + v = t + (u + v) :=
  (Traffic.mk.injEq ..).mpr ⟨Nat.add_assoc .., Nat.add_assoc .., Nat.add_assoc ..⟩

/-- No requests add nothing. -/
@[simp] theorem Traffic.none_add (t : Traffic) : Traffic.none + t = t :=
  (Traffic.mk.injEq ..).mpr ⟨Nat.zero_add _, Nat.zero_add _, Nat.zero_add _⟩

namespace PerOrigin

/-- The requests of both origins are added up in any grouping. -/
theorem traffic_add_assoc (p q r : PerOrigin Traffic) : p + q + r = p + (q + r) :=
  (PerOrigin.mk.injEq ..).mpr ⟨Traffic.add_assoc .., Traffic.add_assoc ..⟩

/-- Adding no requests behind leaves those of both origins as they are. -/
theorem traffic_add_none (p : PerOrigin Traffic) : p + ⟨.none, .none⟩ = p := rfl

/-- Adding no requests in front leaves those of both origins as they are. -/
theorem traffic_none_add (p : PerOrigin Traffic) : ⟨.none, .none⟩ + p = p :=
  (PerOrigin.mk.injEq ..).mpr ⟨Traffic.none_add _, Traffic.none_add _⟩

end PerOrigin

variable {κ : Type}

namespace Session

/-- The answer to a list of nodes of which `n` are bound: their ids, unless a failure ends it. -/
def listAnswer (s : Session κ) (n : Nat) :
    Option ResolveError → Except ResolveError (List KernelId)
  | none => .ok ((List.range' s.size n).map KernelId.mk)
  | some e => .error e

/-- Only a list that is bound as a whole is answered by ids. -/
theorem listAnswer_eq_ok_iff {s : Session κ} {n : Nat} {failure : Option ResolveError}
    {ids : List KernelId} :
    s.listAnswer n failure = .ok ids ↔
      failure = none ∧ (List.range' s.size n).map KernelId.mk = ids := by
  cases failure <;> simp [listAnswer]

/-- A list is answered by a failure exactly if it ends it. -/
theorem listAnswer_eq_error_iff {s : Session κ} {n : Nat} {e : ResolveError}
    {failure : Option ResolveError} :
    s.listAnswer n failure = .error e ↔ failure = some e := by
  cases failure <;> simp [listAnswer]

end Session

variable [Kernel κ]

namespace Context

/-- What becomes of a list of nodes: the kernels that are bound, the failure that ends the list, and
what the backends are asked. -/
inductive DispatchesList (c : Context κ) :
    List Node → List (BoundKernel κ) → Option ResolveError → PerOrigin Traffic → Prop where
  | nil : c.DispatchesList [] [] none ⟨.none, .none⟩
  | stop {node : Node} {rest : List Node} {e : ResolveError} {asked : PerOrigin Traffic}
      (failed : c.Dispatches node (.error e) asked) :
      c.DispatchesList (node :: rest) [] (some e) asked
  | next {node : Node} {rest : List Node} {b : BoundKernel κ} {bound : List (BoundKernel κ)}
      {failure : Option ResolveError} {asked more : PerOrigin Traffic}
      (first : c.Dispatches node (.ok b) asked)
      (others : c.DispatchesList rest bound failure more) :
      c.DispatchesList (node :: rest) (b :: bound) failure (asked + more)

variable {c : Context κ} {nodes : List Node} {bound : List (BoundKernel κ)} {e : ResolveError}
  {failure : Option ResolveError} {asked : PerOrigin Traffic}

/-- Every list of nodes falls under the rules. -/
theorem exists_dispatchesList (c : Context κ) (nodes : List Node) :
    ∃ bound failure asked, c.DispatchesList nodes bound failure asked := by
  induction nodes with
  | nil => exact ⟨_, _, _, .nil⟩
  | cons node rest ih =>
    obtain ⟨outcome, asked, hrule⟩ := c.exists_dispatches node
    cases outcome with
    | error e => exact ⟨_, _, _, .stop hrule⟩
    | ok b =>
      obtain ⟨bound, failure, more, hrest⟩ := ih
      exact ⟨_, _, _, .next hrule hrest⟩

/-- A list that is bound as a whole is followed by the next list. -/
theorem DispatchesList.append {more : List Node} {bound' : List (BoundKernel κ)}
    {asked' : PerOrigin Traffic} (h : c.DispatchesList nodes bound none asked)
    (h' : c.DispatchesList more bound' failure asked') :
    c.DispatchesList (nodes ++ more) (bound ++ bound') failure (asked + asked') := by
  generalize hnone : none = ended at h
  induction h with
  | nil => rwa [PerOrigin.traffic_none_add]
  | stop failed => cases hnone
  | next first others ih =>
    rw [PerOrigin.traffic_add_assoc]
    exact .next first (ih hnone)

/-- In front of the node that ends a list all nodes are bound. -/
theorem DispatchesList.exists_split (h : c.DispatchesList nodes bound (some e) asked) :
    ∃ node front last, nodes[bound.length]? = some node ∧
      c.DispatchesList (nodes.take bound.length) bound none front ∧
      c.Dispatches node (.error e) last := by
  generalize hsome : some e = ended at h
  induction h with
  | nil => cases hsome
  | stop failed =>
    obtain rfl := Option.some.inj hsome
    exact ⟨_, _, _, rfl, .nil, failed⟩
  | next first others ih =>
    obtain ⟨node, front, last, hnode, hfront, hlast⟩ := ih hsome
    exact ⟨node, _, last, hnode, .next first hfront, hlast⟩

/-- A list is bound as a whole exactly if each of its nodes is bound. -/
theorem exists_dispatchesList_none_iff :
    (∃ bound asked, c.DispatchesList nodes bound none asked) ↔
      ∀ node ∈ nodes, ∃ b asked, c.Dispatches node (.ok b) asked := by
  induction nodes with
  | nil => exact iff_of_true ⟨_, _, .nil⟩ (by simp)
  | cons node rest ih =>
    rw [List.forall_mem_cons, ← ih]
    constructor
    · rintro ⟨_, _, _ | _ | ⟨first, others⟩⟩
      exact ⟨⟨_, _, first⟩, ⟨_, _, others⟩⟩
    · rintro ⟨⟨b, asked, first⟩, ⟨bound, more, others⟩⟩
      exact ⟨_, _, .next first others⟩

/-- The kernels of a list that is bound as a whole carry the names and identities of its nodes. -/
theorem DispatchesList.names_eq (h : c.DispatchesList nodes bound none asked) :
    bound.map (fun b => (b.node, Except.ok b.identity)) =
      nodes.map fun node => (node.name, c.identityOf node) := by
  generalize hnone : none = ended at h
  induction h with
  | nil => rfl
  | stop failed => cases hnone
  | next first others ih =>
    rw [List.map_cons, List.map_cons, ih hnone]
    cases first with
    | bound identified served accepted => rw [identified.identityOf_eq]

/-- A list that is bound as a whole has one kernel per node. -/
theorem DispatchesList.length_eq (h : c.DispatchesList nodes bound none asked) :
    bound.length = nodes.length := by
  simpa using congrArg List.length h.names_eq

end Context

namespace Session

variable {s : Session κ} {nodes : List Node} {e : ResolveError}

/-- What an active session answers to a list of nodes, and what it leaves. -/
theorem resolveGraph_of_dispatchesList {c : Context κ} {bound : List (BoundKernel κ)}
    {failure : Option ResolveError} {asked : PerOrigin Traffic}
    (h : c.DispatchesList nodes bound failure asked) (hactive : s.phase = .active)
    (hcontext : s.context = c) :
    s.resolveGraph nodes = (s.listAnswer bound.length failure,
      { s with kernels := s.kernels ++ bound, traffic := s.traffic + asked }) := by
  induction h generalizing s with
  | nil => simp [resolveGraph, listAnswer, PerOrigin.traffic_add_none]
  | stop failed =>
    subst hcontext
    rw [resolveGraph, resolve_of_dispatches hactive failed]
    simp [settled, listAnswer, Except.map, Except.toOption]
  | @next node rest b bound failure asked more first others ih =>
    subst hcontext
    have hrest := ih (s := s.settled (.ok b) asked) hactive rfl
    rw [resolveGraph, resolve_of_dispatches hactive first]
    simp only [Except.map, hrest]
    cases failure <;>
      simp [settled, listAnswer, Except.toOption, size, List.range'_succ,
        PerOrigin.traffic_add_assoc]

/-- A node that the policy does not bind is answered by the error. -/
theorem resolve_error_iff (hactive : s.phase = .active) {node : Node} :
    (s.resolve node).1 = .error e ↔ ∃ asked, s.context.Dispatches node (.error e) asked := by
  constructor
  · intro h
    obtain ⟨outcome, asked, hrule⟩ := s.context.exists_dispatches node
    rw [resolve_of_dispatches hactive hrule] at h
    cases outcome with
    | ok b => cases h
    | error e' =>
      obtain rfl := Except.error.inj h
      exact ⟨asked, hrule⟩
  · rintro ⟨asked, hrule⟩
    rw [resolve_of_dispatches hactive hrule]
    rfl

/-- Nodes resolved in order fail first at a place: those in front of it are bound, and the node at
it is not. -/
def FailsAt (s : Session κ) (nodes : List Node) (i : Nat) (e : ResolveError) : Prop :=
  ∃ ids t node, s.resolveGraph (nodes.take i) = (.ok ids, t) ∧ nodes[i]? = some node ∧
    (t.resolve node).1 = .error e

/-- An active session resolves a list exactly if the policy binds it as a whole. -/
theorem resolveGraph_ok_iff (hactive : s.phase = .active) :
    (∃ ids, (s.resolveGraph nodes).1 = .ok ids) ↔
      ∃ bound asked, s.context.DispatchesList nodes bound none asked := by
  constructor
  · rintro ⟨ids, hids⟩
    obtain ⟨bound, failure, asked, hlist⟩ := s.context.exists_dispatchesList nodes
    rw [resolveGraph_of_dispatchesList hlist hactive rfl, listAnswer_eq_ok_iff] at hids
    obtain ⟨rfl, -⟩ := hids
    exact ⟨bound, asked, hlist⟩
  · rintro ⟨bound, asked, hlist⟩
    rw [resolveGraph_of_dispatchesList hlist hactive rfl]
    exact ⟨_, rfl⟩

/-- The place at which an active session fails is that of the node which ends the list. -/
theorem failsAt_iff (hactive : s.phase = .active) {i : Nat} :
    s.FailsAt nodes i e ↔
      ∃ bound asked, s.context.DispatchesList nodes bound (some e) asked ∧ bound.length = i := by
  constructor
  · rintro ⟨ids, t, node, hfront, hnode, hlast⟩
    obtain ⟨hi, hnode⟩ := List.getElem?_eq_some_iff.mp hnode
    obtain ⟨bound, failure, asked, hlist⟩ := s.context.exists_dispatchesList (nodes.take i)
    rw [resolveGraph_of_dispatchesList hlist hactive rfl, Prod.mk.injEq,
      listAnswer_eq_ok_iff] at hfront
    obtain ⟨⟨rfl, -⟩, rfl⟩ := hfront
    obtain ⟨last, hrule⟩ := (resolve_error_iff (by exact hactive)).mp hlast
    have hends : nodes.take i ++ node :: nodes.drop (i + 1) = nodes := by
      rw [← hnode, ← List.drop_eq_getElem_cons hi, List.take_append_drop]
    have hstop : s.context.DispatchesList (node :: nodes.drop (i + 1)) [] (some e) last :=
      .stop hrule
    refine ⟨bound, asked + last, ?_, ?_⟩
    · simpa only [hends, List.append_nil] using hlist.append hstop
    · rw [hlist.length_eq, List.length_take, Nat.min_eq_left (Nat.le_of_lt hi)]
  · rintro ⟨bound, asked, hlist, rfl⟩
    obtain ⟨node, front, last, hnode, hfront, hlast⟩ := hlist.exists_split
    exact ⟨_, _, node, resolveGraph_of_dispatchesList hfront hactive rfl, hnode,
      (resolve_error_iff (by exact hactive)).mpr ⟨last, hlast⟩⟩

/-- A list that an active session does not resolve fails at some place. -/
theorem resolveGraph_error_iff (hactive : s.phase = .active) :
    (s.resolveGraph nodes).1 = .error e ↔ ∃ i, s.FailsAt nodes i e := by
  obtain ⟨bound, failure, asked, hlist⟩ := s.context.exists_dispatchesList nodes
  constructor
  · intro h
    rw [resolveGraph_of_dispatchesList hlist hactive rfl, listAnswer_eq_error_iff] at h
    subst h
    exact ⟨_, (failsAt_iff hactive).mpr ⟨bound, asked, hlist, rfl⟩⟩
  · rintro ⟨i, hfails⟩
    obtain ⟨bound, asked, hlist, -⟩ := (failsAt_iff hactive).mp hfails
    rw [resolveGraph_of_dispatchesList hlist hactive rfl]
    rfl

end Session

end KernelDispatch
