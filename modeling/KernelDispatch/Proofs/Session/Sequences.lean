import KernelDispatch.Backend.Builtin
import KernelDispatch.Proofs.Keys
import KernelDispatch.Proofs.Session.Requests

/-!
# Nodes one after another

Resolving a list of nodes is resolving its nodes one after another, each in the session that the one
before it leaves, up to the first one that fails. What a chain of resolved nodes adds to a session is
said once, for any chain: the next ids in order, the kernels of the dispatch policy under them, and
no other change but to the counts. A list that fails adds what the chain in front of the failing
node adds, and what stands behind that node does not matter.

So a list can be cut anywhere and resolved part by part, as long as no part fails.
-/

namespace KernelDispatch.Session

variable {κ : Type} [Kernel κ]

/-- Nodes are resolved one after another, and every one of them is bound. -/
inductive ResolvesEach : Session κ → List Node → List KernelId → Session κ → Prop where
  | nil {s : Session κ} : ResolvesEach s [] [] s
  | cons {s t u : Session κ} {node : Node} {rest : List Node} {id : KernelId}
      {ids : List KernelId} (first : s.resolve node = (.ok id, t))
      (others : ResolvesEach t rest ids u) : ResolvesEach s (node :: rest) (id :: ids) u

/-- Nodes are resolved one after another and bound, and then one is not. -/
inductive FailsBehind (s : Session κ) (front : List Node) (node : Node) (e : ResolveError)
    (t : Session κ) : Prop where
  | intro {ids : List KernelId} {u : Session κ} (bound : s.ResolvesEach front ids u)
      (failed : u.resolve node = (.error e, t))

/-- What a session gains by nodes that are bound: a kernel of the policy for each, under the next
ids. But for the counts nothing else changes. -/
structure Gains (s : Session κ) (nodes : List Node) (bound : List (BoundKernel κ))
    (t : Session κ) : Prop where
  policy : List.Forall₂ (fun node b => ∃ asked, s.context.Dispatches node (.ok b) asked) nodes bound
  found : ∀ i, t.kernel? ⟨s.size + i⟩ = bound[i]?
  rest : t = { s with kernels := s.kernels ++ bound, traffic := t.traffic }

variable {s t u : Session κ} {nodes front : List Node} {node : Node} {ids : List KernelId}
  {e : ResolveError}

/-! ### Lists and chains -/

/-- A list is resolved exactly if its nodes are, one after another. -/
theorem resolveGraph_eq_ok_iff :
    s.resolveGraph nodes = (.ok ids, t) ↔ s.ResolvesEach nodes ids t := by
  constructor
  · intro h
    induction nodes generalizing s ids with
    | nil =>
      obtain ⟨rfl, rfl⟩ : [] = ids ∧ s = t := by simpa [resolveGraph] using h
      exact .nil
    | cons node rest ih =>
      rcases hfirst : s.resolve node with ⟨e | id, v⟩
      · rw [resolveGraph_cons_of_error hfirst] at h
        cases h
      · rw [resolveGraph_cons_of_ok hfirst, Prod.mk.injEq, map_eq_ok_iff] at h
        obtain ⟨⟨more, hmore, rfl⟩, ht⟩ := h
        exact .cons hfirst (ih (Prod.ext hmore ht))
  · intro h
    induction h with
    | nil => rfl
    | cons first others ih => rw [resolveGraph_cons_of_ok first, ih, Except.map]

/-- Behind no nodes a node fails as it does alone. -/
theorem failsBehind_nil_iff : s.FailsBehind [] node e t ↔ s.resolve node = (.error e, t) := by
  constructor
  · rintro ⟨⟨⟩, failed⟩
    exact failed
  · intro h
    exact ⟨.nil, h⟩

/-- A failure behind further nodes comes after the first is bound. -/
theorem failsBehind_cons_iff {first : Node} :
    s.FailsBehind (first :: front) node e t ↔
      ∃ id u, s.resolve first = (.ok id, u) ∧ u.FailsBehind front node e t := by
  constructor
  · rintro ⟨_ | ⟨hfirst, others⟩, failed⟩
    exact ⟨_, _, hfirst, others, failed⟩
  · rintro ⟨id, u, hfirst, ⟨bound, failed⟩⟩
    exact ⟨.cons hfirst bound, failed⟩

/-- A list fails exactly at the first of its nodes that fails. -/
theorem resolveGraph_eq_error_iff :
    s.resolveGraph nodes = (.error e, t) ↔
      ∃ front node rest, nodes = front ++ node :: rest ∧ s.FailsBehind front node e t := by
  induction nodes generalizing s with
  | nil => simp [resolveGraph]
  | cons node rest ih =>
    simp only [exists_split_cons_iff, failsBehind_nil_iff, failsBehind_cons_iff]
    rcases hfirst : s.resolve node with ⟨e' | id, u⟩
    · simp [resolveGraph_cons_of_error hfirst]
    · have hrest := ih (s := u)
      rw [Prod.ext_iff] at hrest
      simp [resolveGraph_cons_of_ok hfirst, map_eq_error_iff, Prod.ext_iff, hrest]

/-- A list is resolved part by part: the second part in the session that the first part leaves, and
only if the first part is resolved. -/
theorem resolveGraph_append (s : Session κ) (front rest : List Node) :
    s.resolveGraph (front ++ rest) =
      match s.resolveGraph front with
      | (.error e, t) => (.error e, t)
      | (.ok ids, t) => ((t.resolveGraph rest).1.map (ids ++ ·), (t.resolveGraph rest).2) := by
  induction front generalizing s with
  | nil =>
    rcases hrest : s.resolveGraph rest with ⟨_ | ids, t⟩ <;>
      simp [resolveGraph, hrest, Except.map]
  | cons node front ih =>
    rw [List.cons_append]
    rcases hfirst : s.resolve node with ⟨e | id, u⟩
    · simp only [resolveGraph_cons_of_error hfirst]
    · simp only [resolveGraph_cons_of_ok hfirst, ih]
      rcases u.resolveGraph front with ⟨e | ids, v⟩
      · rfl
      · dsimp only [Except.map]
        rcases hrest : v.resolveGraph rest with ⟨_ | more, w⟩ <;> rfl

/-! ### What is gained -/

/-- The gained kernels are found under the ids that follow the old ones. -/
theorem Gains.of_kernels {bound : List (BoundKernel κ)}
    (policy : List.Forall₂ (fun node b => ∃ asked, s.context.Dispatches node (.ok b) asked)
      nodes bound)
    (rest : t = { s with kernels := s.kernels ++ bound, traffic := t.traffic }) :
    s.Gains nodes bound t where
  policy := policy
  found i := by
    rw [rest, kernel?, size, List.getElem?_append_right (Nat.le_add_right _ i),
      Nat.add_sub_cancel_left]
  rest := rest

/-- A session gains one kernel per node. -/
theorem Gains.size_eq {bound : List (BoundKernel κ)} (h : s.Gains nodes bound t) :
    t.size = s.size + nodes.length := by
  rw [h.rest, size, size, List.length_append, h.policy.length_eq]

/-- A chain answers the next ids in order, and the session gains its nodes. -/
theorem ResolvesEach.gains (h : s.ResolvesEach nodes ids t) :
    ids = (List.range' s.size nodes.length).map KernelId.mk ∧ ∃ bound, s.Gains nodes bound t := by
  induction h with
  | nil => exact ⟨rfl, [], .of_kernels .nil (by simp)⟩
  | cons first others ih =>
    obtain ⟨b, asked, hrule, rfl, ht⟩ := resolve_of_ok first
    obtain ⟨rfl, bound, hgains⟩ := ih
    have hpolicy := hgains.policy
    have hrest := hgains.rest
    rw [ht] at hpolicy hrest ⊢
    refine ⟨?_, b :: bound, .of_kernels (.cons ⟨asked, hrule⟩ hpolicy) ?_⟩
    · simp [size, List.range'_succ]
    · rw [hrest]
      simp

/-- The failing node adds nothing to what the session gained in front of it. -/
theorem FailsBehind.gains (h : s.FailsBehind front node e t) :
    ∃ bound, s.Gains front bound t := by
  obtain ⟨hbound, failed⟩ := h
  obtain ⟨-, bound, hgains⟩ := hbound.gains
  refine ⟨bound, .of_kernels hgains.policy ?_⟩
  rw [resolve_of_error failed, hgains.rest]

/-- Resolving a list is resolving its nodes one after another. It succeeds exactly if all of them
are bound, and then answers the next ids, with the kernels of the nodes under them in order. It fails
exactly at the first node that fails, with its error; the session has gained the kernels of the nodes
in front of it and nothing else, whatever nodes come behind it. So a list may be resolved in two
parts. -/
theorem resolveGraph_in_turn (s : Session κ) :
    (∀ nodes ids t, s.resolveGraph nodes = (.ok ids, t) ↔ s.ResolvesEach nodes ids t) ∧
      (∀ nodes ids t, s.resolveGraph nodes = (.ok ids, t) →
        ids = (List.range' s.size nodes.length).map KernelId.mk ∧
          ∃ bound, s.Gains nodes bound t) ∧
      (∀ nodes e t, s.resolveGraph nodes = (.error e, t) ↔
        ∃ front node rest, nodes = front ++ node :: rest ∧ s.FailsBehind front node e t) ∧
      (∀ front node e t, s.FailsBehind front node e t →
        (∃ bound, s.Gains front bound t) ∧
          ∀ rest, s.resolveGraph (front ++ node :: rest) = (.error e, t)) ∧
      ∀ xs ys, s.resolveGraph (xs ++ ys) =
        match s.resolveGraph xs with
        | (.error e, t) => (.error e, t)
        | (.ok ids, t) => ((t.resolveGraph ys).1.map (ids ++ ·), (t.resolveGraph ys).2) := by
  refine ⟨fun nodes ids t => resolveGraph_eq_ok_iff, fun nodes ids t h => ?_,
    fun nodes e t => resolveGraph_eq_error_iff, fun front node e t h => ⟨h.gains, fun rest => ?_⟩,
    resolveGraph_append s⟩
  · exact (resolveGraph_eq_ok_iff.mp h).gains
  · exact resolveGraph_eq_error_iff.mpr ⟨front, node, rest, rfl, h⟩

/-- Two nodes are bound, by one backend each, and the third is unknown to both: whatever comes behind
it, the list fails with its error and the two bindings stay. -/
theorem resolveGraph_in_turn_unknown :
    let s := Session.ofContext (κ := BuiltinKernel)
      ⟨Builtin.par, some Builtin.cpu, .ofOpset (.of "" 13)⟩
    let front : List Node := [.ofOp "Relu", .ofOp "Tanh"]
    let unknown : ResolveError := .unsupported ⟨"Nope", "ai.onnx", 13⟩
    (∃ t, s.resolveGraph front = (.ok [⟨0⟩, ⟨1⟩], t) ∧ s.ResolvesEach front [⟨0⟩, ⟨1⟩] t) ∧
      ∃ u, u.size = 2 ∧
        ∀ rest, s.resolveGraph (front ++ .ofOp "Nope" :: rest) = (.error unknown, u) := by
  intro s front unknown
  obtain ⟨hchain, -, -, hstops, -⟩ := resolveGraph_in_turn s
  have hfront : s.resolveGraph front = (.ok [⟨0⟩, ⟨1⟩], (s.resolveGraph front).2) :=
    Prod.ext (by decide +kernel) rfl
  have hbound := (hchain _ _ _).mp hfront
  have hunknown : (s.resolveGraph front).2.resolve (.ofOp "Nope") =
      (.error unknown, ((s.resolveGraph front).2.resolve (.ofOp "Nope")).2) :=
    Prod.ext (by decide +kernel) rfl
  obtain ⟨⟨bound, hgains⟩, hfails⟩ := hstops _ _ _ _ ⟨hbound, hunknown⟩
  exact ⟨⟨_, hfront, hbound⟩, _, hgains.size_eq, hfails⟩

end KernelDispatch.Session
