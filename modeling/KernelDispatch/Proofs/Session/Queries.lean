import KernelDispatch.Backend.Builtin
import KernelDispatch.Proofs.Session.Consistency
import KernelDispatch.Proofs.Session.Disposal
import KernelDispatch.Proofs.Session.NodeLists

/-!
# Catalog queries

Nothing in the answer of a session shows how often a catalog was consulted, so the number of queries
is pinned down by itself. A node is tried if it is resolved alone, or if it stands in a list and all
nodes in front of it are bound. Trying a node takes one query to the primary if the node has an
identity, and one to the fallback if the fallback may be used and the primary misses the identity.
Nothing else takes a query; looking at the bindings does not even answer another session.

The count of a node follows from the rules of the dispatch policy, that of a list from the rules for
lists, and that of a run by adding up its requests.
-/

namespace KernelDispatch

/-- Queries are added up. -/
@[simp] theorem Traffic.queries_add (t u : Traffic) : (t + u).queries = t.queries + u.queries := rfl

variable {κ : Type}

namespace Context

/-- Whether a node has an identity, and the primary misses it. -/
def misses (c : Context κ) (node : Node) : Bool :=
  (c.identityOf node).toOption.any fun id => (c.primary.find? id).isNone

/-- Whether trying a node takes a query to the backend of an origin. -/
def asks (c : Context κ) (o : Origin) (node : Node) : Bool :=
  match o with
  | .primary => (c.identityOf node).isOk
  | .fallback => c.config.fallbackEnabled && c.fallback.isSome && c.misses node

/-- A fallback that is configured and enabled is asked about all misses, another one about nothing. -/
theorem countP_asks_fallback (c : Context κ) (nodes : List Node) :
    nodes.countP (c.asks .fallback) =
      if c.config.fallbackEnabled && c.fallback.isSome then nodes.countP c.misses else 0 := by
  cases husable : c.config.fallbackEnabled && c.fallback.isSome with
  | true =>
    apply List.countP_congr
    simp [asks, husable]
  | false =>
    rw [if_neg Bool.false_ne_true, List.countP_eq_zero]
    simp [asks, husable]

/-- A node with an identity asks the primary. -/
theorem Identifies.asks_primary {c : Context κ} {node : Node} {id : Identity}
    (hid : c.Identifies node id) : c.asks .primary node = true := by
  rw [asks, hid.identityOf_eq]
  rfl

/-- It asks a fallback that may be used about an identity that the primary misses. -/
theorem Identifies.asks_fallback {c : Context κ} {node : Node} {id : Identity}
    (hid : c.Identifies node id) :
    c.asks .fallback node =
      (c.config.fallbackEnabled && c.fallback.isSome && (c.primary.find? id).isNone) := by
  rw [asks, misses, hid.identityOf_eq]
  rfl

/-- A node without an identity asks nobody. -/
theorem asks_of_unimported {c : Context κ} {node : Node} (hbare : node.version = none)
    (himport : c.config.opsets.versionFor node.normalDomain = none) (o : Origin) :
    c.asks o node = false := by
  have hnode := identityOf_of_unimported hbare himport
  cases o with
  | primary =>
    rw [asks, hnode]
    rfl
  | fallback =>
    rw [asks, misses, hnode]
    exact Bool.and_false _

/-- A served identity is queried at the primary, and where the fallback serves it, there as well. -/
theorem Serves.queries_eq {c : Context κ} {node : Node} {id : Identity} {o : Origin}
    {b : Backend κ} {k : κ} (hserves : c.Serves id o b k) (hid : c.Identifies node id)
    (p : Origin) : (o.requests.get p).queries = if c.asks p node then 1 else 0 := by
  cases p with
  | primary =>
    rw [hid.asks_primary]
    cases hserves <;> rfl
  | fallback =>
    rw [hid.asks_fallback]
    cases hserves with
    | primary hit => simp [hit, Origin.requests, PerOrigin.get, Traffic.none]
    | fallback miss configured enabled hit =>
      simp [miss, configured, enabled, Origin.requests, PerOrigin.get]

/-- An unserved identity is queried at every backend that may be used. -/
theorem missRequests_queries {c : Context κ} {node : Node} {id : Identity}
    (hmiss : c.primary.find? id = none) (hid : c.Identifies node id) (p : Origin) :
    (c.missRequests.get p).queries = if c.asks p node then 1 else 0 := by
  cases p with
  | primary =>
    rw [hid.asks_primary]
    rfl
  | fallback =>
    simp only [hid.asks_fallback, hmiss, Option.isNone_none, Bool.and_true, missRequests,
      PerOrigin.get]
    split <;> rfl

variable [Kernel κ] {c : Context κ}

/-- What a node takes in queries, whatever becomes of it. -/
theorem Dispatches.queries_eq {node : Node} {outcome : Except ResolveError (BoundKernel κ)}
    {asked : PerOrigin Traffic} (hrule : c.Dispatches node outcome asked) (o : Origin) :
    (asked.get o).queries = if c.asks o node then 1 else 0 := by
  cases hrule with
  | missingImport bare unimported =>
    rw [asks_of_unimported bare unimported]
    cases o <;> rfl
  | unsupported identified unserved =>
    exact missRequests_queries (unserved_iff.mp unserved).1 identified o
  | rejected identified served => exact served.queries_eq identified o
  | bound identified served => exact served.queries_eq identified o

/-- A list takes the queries of the nodes that are bound and of the one that ends it. -/
theorem DispatchesList.queries_eq {nodes : List Node} {bound : List (BoundKernel κ)}
    {failure : Option ResolveError} {asked : PerOrigin Traffic}
    (hlist : c.DispatchesList nodes bound failure asked) (o : Origin) :
    (asked.get o).queries = (nodes.take (bound.length + 1)).countP (c.asks o) := by
  induction hlist with
  | nil => cases o <;> rfl
  | stop failed =>
    rw [failed.queries_eq o, List.length_nil, List.take_succ_cons, List.take_zero,
      List.countP_singleton]
  | next first others ih =>
    rw [PerOrigin.get_add, Traffic.queries_add, first.queries_eq o, ih, List.length_cons,
      List.take_succ_cons, List.countP_cons, Nat.add_comm]

end Context

namespace Session

/-- Finding or requesting a handler for a kernel takes no query. -/
theorem handlerFor_queries (s : Session κ) (bound : BoundKernel κ) (o : Origin) :
    ((s.handlerFor bound).2.traffic.get o).queries = (s.traffic.get o).queries := by
  unfold handlerFor
  cases s.handlers.get bound.origin with
  | some h => rfl
  | none =>
    cases s.context.backend? bound.origin with
    | none => rfl
    | some b =>
      have hrequest :
          ((s.requestHandler bound.origin b).2.traffic.get o).queries = (s.traffic.get o).queries := by
        rw [requestHandler_traffic, Traffic.queries_add]
        split <;> rfl
      rcases hanswer : s.requestHandler bound.origin b with ⟨_ | h, t⟩ <;>
        simpa only [hanswer] using hrequest

variable [Kernel κ]

/-- An invocation takes no query. -/
theorem invoke_queries (s : Session κ) (id : KernelId) (inputs : List Tensor) (o : Origin) :
    ((s.invoke id inputs).2.traffic.get o).queries = (s.traffic.get o).queries := by
  unfold invoke
  cases s.phase with
  | disposed => rfl
  | active =>
    cases s.kernel? id with
    | none => rfl
    | some bound =>
      have hfor := handlerFor_queries s bound o
      rcases hhandler : s.handlerFor bound with ⟨_ | h, t⟩ <;>
        simpa only [hhandler] using hfor

/-- The nodes that a request tries to bind: of a list those that are bound and the one behind them,
at which the list ends. A disposed session tries none. -/
def tried (s : Session κ) (r : Request) : List Node :=
  match s.phase, r with
  | .active, .resolve node => [node]
  | .active, .resolveGraph nodes => nodes.take ((s.boundNodes nodes).length + 1)
  | _, _ => []

/-- A session binds as many nodes of a list as the rules say. -/
theorem length_boundNodes {s : Session κ} (hactive : s.phase = .active) {nodes : List Node}
    {bound : List (BoundKernel κ)} {failure : Option ResolveError} {asked : PerOrigin Traffic}
    (hlist : s.context.DispatchesList nodes bound failure asked) :
    (s.boundNodes nodes).length = bound.length := by
  have hsize := (resolveGraph_extends id s nodes).size_eq
  rw [resolveGraph_of_dispatchesList hlist hactive rfl, size, List.length_append, size] at hsize
  exact (Nat.add_left_cancel hsize).symm

/-- If a list fails at a place, the nodes up to that place are tried. -/
theorem FailsAt.tried_eq {s : Session κ} (hactive : s.phase = .active) {nodes : List Node} {i : Nat}
    {e : ResolveError} (hfails : s.FailsAt nodes i e) :
    s.tried (.resolveGraph nodes) = nodes.take (i + 1) := by
  obtain ⟨bound, asked, hlist, rfl⟩ := (failsAt_iff hactive).mp hfails
  simp only [tried, hactive, length_boundNodes hactive hlist]

/-- A request takes the queries of the nodes that it tries. -/
theorem after_queries (s : Session κ) (r : Request) (o : Origin) :
    ((s.after r).traffic.get o).queries =
      (s.traffic.get o).queries + (s.tried r).countP (s.context.asks o) := by
  rcases s.phase.disposed_or_active with hphase | hphase
  · rw [after_of_disposed hphase r]
    simp only [tried, hphase, List.countP_nil, Nat.add_zero]
  · cases r with
    | resolve node =>
      obtain ⟨outcome, asked, hrule⟩ := s.context.exists_dispatches node
      simp only [after, resolve_of_dispatches hphase hrule, settled, PerOrigin.get_add,
        Traffic.queries_add, hrule.queries_eq o, tried, hphase, List.countP_singleton]
    | resolveGraph nodes =>
      obtain ⟨bound, failure, asked, hlist⟩ := s.context.exists_dispatchesList nodes
      simp only [after, resolveGraph_of_dispatchesList hlist hphase rfl, PerOrigin.get_add,
        Traffic.queries_add, hlist.queries_eq o, tried, hphase, length_boundNodes hphase hlist]
    | invoke id inputs =>
      simp only [after, invoke_queries, tried, hphase, List.countP_nil, Nat.add_zero]
    | createHandler =>
      simp only [after, createHandler, hphase, requestHandler_traffic, Traffic.queries_add, tried,
        List.countP_nil]
      split <;> rfl
    | reconfigure id attrs =>
      simp only [after, reconfigure, tried, hphase, List.countP_nil, Nat.add_zero]
      cases s.kernel? id <;> rfl
    | dispose => simp only [after, dispose, tried, hphase, List.countP_nil, Nat.add_zero]

/-- A node without an identity is refused without any change to the session. -/
theorem resolve_of_missingImport {s : Session κ} {node : Node} {op domain : String}
    (h : (s.resolve node).1 = .error (.missingImport op domain)) : (s.resolve node).2 = s := by
  rcases s.phase.disposed_or_active with hphase | hphase
  · rw [resolve_of_disposed hphase]
  · obtain ⟨asked, hrule⟩ := (resolve_error_iff hphase).mp h
    rw [resolve_of_dispatches hphase hrule]
    cases hrule with
    | missingImport bare unimported =>
      simp [settled, Except.toOption, PerOrigin.traffic_add_none]

/-- After any run the primary was queried once for every node tried so far that has an identity, and
the fallback, if it is configured and enabled, once for every such node that the primary misses. Each
request adds the queries of the nodes that it tries: a node without an import leaves the session as
it was, and of a list that fails no node behind the failing one is tried. -/
theorem run_queries (c : Context κ) (requests : List Request) :
    let s := (ofContext c).run requests
    let nodes := (ofContext c).record tried requests
    s.traffic.primary.queries = nodes.countP (fun node => (c.identityOf node).isOk) ∧
      s.traffic.fallback.queries =
        (if c.config.fallbackEnabled && c.fallback.isSome then nodes.countP c.misses else 0) ∧
      (∀ r o, ((s.after r).traffic.get o).queries =
        (s.traffic.get o).queries + (s.tried r).countP (c.asks o)) ∧
      (∀ node op domain, (s.resolve node).1 = .error (.missingImport op domain) →
        (s.resolve node).2 = s) ∧
      ∀ nodes i e, s.phase = .active → s.FailsAt nodes i e →
        s.tried (.resolveGraph nodes) = nodes.take (i + 1) := by
  intro s nodes
  obtain ⟨hcontext, hcount⟩ : s.context = c ∧
      ∀ o, (s.traffic.get o).queries = nodes.countP (c.asks o) := by
    -- Both counts are carried along, and the context, since it decides which nodes are queried.
    apply run_record (I := fun t seen => t.context = c ∧
      ∀ o, (t.traffic.get o).queries = seen.countP (c.asks o))
    · intro t seen r ⟨ht, hseen⟩
      refine ⟨(t.after_context r).trans ht, fun o => ?_⟩
      rw [after_queries, hseen, ht, List.countP_append]
    · exact ⟨rfl, fun o => by cases o <;> rfl⟩
  refine ⟨hcount .primary, ?_, fun r o => ?_, fun _ _ _ => resolve_of_missingImport,
    fun _ _ _ hactive hfails => hfails.tried_eq hactive⟩
  · rw [← Context.countP_asks_fallback]
    exact hcount .fallback
  · rw [after_queries, hcontext]

/-- A graph that fails at its third node takes three queries to the primary and two to the fallback,
and neither a node without an import nor an invocation adds one. -/
theorem queries_after_failed_graph :
    let c : Context BuiltinKernel := ⟨Builtin.par, some Builtin.cpu, .ofOpset (.of "" 13)⟩
    let graph : List Node := [.ofOp "Relu", .ofOp "Tanh", .ofOp "Nope", .ofOp "Add"]
    let foreign : Node := { Node.ofOp "Gelu" with domain := some Domain.contributed }
    let s := (ofContext c).run
      [.resolveGraph graph, .resolve foreign, .invoke ⟨1⟩ [], .createHandler]
    s.traffic.primary.queries = 3 ∧ s.traffic.fallback.queries = 2 := by
  intro c graph foreign s
  obtain ⟨hprimary, hfallback, -⟩ := run_queries c
    [.resolveGraph graph, .resolve foreign, .invoke ⟨1⟩ [], .createHandler]
  exact ⟨hprimary.trans (by decide +kernel), hfallback.trans (by decide +kernel)⟩

end Session

end KernelDispatch
