import KernelDispatch.Backend.Builtin
import KernelDispatch.Session.Basic

/-!
# The dispatch policy

The policy as rules, one per way in which a node can end: its domain is not imported, no usable
backend serves its identity, the kernel that serves it refuses its attributes, or it is bound. The
rules speak of a context and a node alone. Each also says what the backends are asked, so a backend
that is left out of a rule is not even queried.

Resolving in an active session follows exactly these rules. Every node falls under one of them, and
a session that follows the rule adds at most one kernel and changes nothing else but its counts.
-/

namespace KernelDispatch

/-- Adding up what was asked of one backend. -/
instance : Add Traffic where
  add t u := ⟨t.queries + u.queries, t.kernels + u.kernels, t.handlers + u.handlers⟩

/-- Adding up origin by origin. -/
instance {α : Type} [Add α] : Add (PerOrigin α) where
  add p q := ⟨p.primary + q.primary, p.fallback + q.fallback⟩

/-- What serving from an origin takes: one query per backend up to it, and one fresh kernel. -/
def Origin.requests : Origin → PerOrigin Traffic
  | .primary => ⟨⟨1, 1, 0⟩, .none⟩
  | .fallback => ⟨⟨1, 0, 0⟩, ⟨1, 1, 0⟩⟩

/-- The domain in which a node's operator lives, in normalized spelling. -/
def Node.normalDomain (node : Node) : String :=
  Domain.normalize (node.domain.getD Domain.standard)

namespace Context

variable {κ : Type}

/-- What a miss takes: one query to the primary, and one to a fallback that may be used. -/
def missRequests (c : Context κ) : PerOrigin Traffic :=
  ⟨⟨1, 0, 0⟩, if c.config.fallbackEnabled && c.fallback.isSome then ⟨1, 0, 0⟩ else .none⟩

/-- The identity of a node: its own version if it has one, otherwise the import of its domain. -/
inductive Identifies (c : Context κ) (node : Node) : Identity → Prop where
  | own {version : UInt32} (own : node.version = some version) :
      c.Identifies node ⟨node.op, node.normalDomain, version⟩
  | imported {version : UInt32} (bare : node.version = none)
      (imported : c.config.opsets.versionFor node.normalDomain = some version) :
      c.Identifies node ⟨node.op, node.normalDomain, version⟩

/-- Who serves an identity, and with which fresh kernel: the primary whenever it has a hit, and
otherwise a fallback that is configured, enabled and has one. -/
inductive Serves (c : Context κ) (id : Identity) : Origin → Backend κ → κ → Prop where
  | primary {k : κ} (hit : c.primary.find? id = some k) : c.Serves id .primary c.primary k
  | fallback {b : Backend κ} {k : κ} (miss : c.primary.find? id = none)
      (configured : c.fallback = some b) (enabled : c.config.fallbackEnabled = true)
      (hit : b.find? id = some k) : c.Serves id .fallback b k

variable [Kernel κ]

/-- What becomes of a node, and what the backends are asked on the way. -/
inductive Dispatches (c : Context κ) (node : Node) :
    Except ResolveError (BoundKernel κ) → PerOrigin Traffic → Prop where
  | missingImport (bare : node.version = none)
      (unimported : c.config.opsets.versionFor node.normalDomain = none) :
      c.Dispatches node (.error (.missingImport node.op node.normalDomain)) ⟨.none, .none⟩
  | unsupported {id : Identity} (identified : c.Identifies node id)
      (unserved : ∀ o b k, ¬ c.Serves id o b k) :
      c.Dispatches node (.error (.unsupported id)) c.missRequests
  | rejected {id : Identity} {o : Origin} {b : Backend κ} {k k' : κ} {e : AttributeError}
      (identified : c.Identifies node id) (served : c.Serves id o b k)
      (refused : Kernel.configure k node.attributes = (.error e, k')) :
      c.Dispatches node (.error (.invalidConfiguration node.op b.name e)) o.requests
  | bound {id : Identity} {o : Origin} {b : Backend κ} {k k' : κ}
      (identified : c.Identifies node id) (served : c.Serves id o b k)
      (accepted : Kernel.configure k node.attributes = (.ok (), k')) :
      c.Dispatches node (.ok ⟨node.name, id, b.name, o, k'⟩) o.requests

end Context

variable {κ : Type}

/-- The session after a node was dispatched: the bound kernel, if any, comes last. -/
def Session.settled (s : Session κ) (outcome : Except ResolveError (BoundKernel κ))
    (asked : PerOrigin Traffic) : Session κ :=
  { s with kernels := s.kernels ++ outcome.toOption.toList, traffic := s.traffic + asked }

namespace Context

/-- The code finds the identity that the rules give. -/
theorem Identifies.identityOf_eq {c : Context κ} {node : Node} {id : Identity}
    (h : c.Identifies node id) : c.identityOf node = .ok id := by
  cases h with
  | own own => simp [identityOf, own, Identity.of, Node.normalDomain]
  | imported bare imported =>
    rw [Node.normalDomain, OpsetImports.versionFor_normalize] at imported
    simp [identityOf, bare, imported, Identity.of, Node.normalDomain]

/-- An identity keeps the node's operator. -/
theorem Identifies.op_eq {c : Context κ} {node : Node} {id : Identity}
    (h : c.Identifies node id) : id.op = node.op := by
  cases h <;> rfl

/-- The identity of a node does not depend on the backends. -/
theorem Identifies.of_versionFor {c c' : Context κ} {node : Node} {id : Identity}
    (h : c.Identifies node id)
    (hversions : ∀ domain, c'.config.opsets.versionFor domain = c.config.opsets.versionFor domain) :
    c'.Identifies node id := by
  cases h with
  | own own => exact .own own
  | imported bare imported => exact .imported bare ((hversions _).trans imported)

/-- The serving backend is the one of the origin. -/
theorem Serves.backend?_eq {c : Context κ} {id : Identity} {o : Origin} {b : Backend κ} {k : κ}
    (h : c.Serves id o b k) : c.backend? o = some b := by
  cases h with
  | primary => rfl
  | fallback _ configured => exact configured

/-- The fresh kernel is what the serving backend has for the identity. -/
theorem Serves.find?_eq {c : Context κ} {id : Identity} {o : Origin} {b : Backend κ} {k : κ}
    (h : c.Serves id o b k) : b.find? id = some k := by
  cases h with
  | primary hit => exact hit
  | fallback _ _ _ hit => exact hit

/-- Without a version and an import the code reports the domain in normalized spelling. -/
theorem identityOf_of_unimported {c : Context κ} {node : Node} (hbare : node.version = none)
    (himport : c.config.opsets.versionFor node.normalDomain = none) :
    c.identityOf node = .error (.missingImport node.op node.normalDomain) := by
  rw [Node.normalDomain, OpsetImports.versionFor_normalize] at himport
  simp [identityOf, hbare, himport, Node.normalDomain]

/-- A node has an identity, or neither a version nor an import. -/
theorem identifies_or_unimported (c : Context κ) (node : Node) :
    (∃ id, c.Identifies node id) ∨
      node.version = none ∧ c.config.opsets.versionFor node.normalDomain = none := by
  cases hversion : node.version with
  | some version => exact .inl ⟨_, .own hversion⟩
  | none =>
    cases himport : c.config.opsets.versionFor node.normalDomain with
    | some version => exact .inl ⟨_, .imported hversion himport⟩
    | none => exact .inr ⟨rfl, rfl⟩

/-- The identity that the rules give is the one that the code finds. -/
theorem identifies_iff {c : Context κ} {node : Node} {id : Identity} :
    c.Identifies node id ↔ c.identityOf node = .ok id := by
  refine ⟨Identifies.identityOf_eq, fun h => ?_⟩
  obtain ⟨id', hid⟩ | ⟨hbare, himport⟩ := c.identifies_or_unimported node
  · obtain rfl := Except.ok.inj (hid.identityOf_eq.symm.trans h)
    exact hid
  · rw [identityOf_of_unimported hbare himport] at h
    cases h

/-- The domain of a node's identity is in its one spelling. -/
theorem Identifies.normalize_domain {c : Context κ} {node : Node} {id : Identity}
    (h : c.Identifies node id) : Domain.normalize id.domain = id.domain := by
  cases h <;> simp [Node.normalDomain]

end Context

/-- An identity is unserved when the primary and every fallback that may be used miss it. -/
theorem Context.unserved_iff {c : Context κ} {id : Identity} :
    (∀ o b k, ¬ c.Serves id o b k) ↔
      c.primary.find? id = none ∧ ∀ b, c.activeFallback = some b → b.find? id = none := by
  constructor
  · intro h
    have hmiss : c.primary.find? id = none := by
      cases hfind : c.primary.find? id with
      | none => rfl
      | some k => exact absurd (.primary hfind) (h .primary c.primary k)
    refine ⟨hmiss, fun b hb => ?_⟩
    obtain ⟨henabled, hfallback⟩ : c.config.fallbackEnabled = true ∧ c.fallback = some b := by
      simpa [activeFallback] using hb
    cases hfind : b.find? id with
    | none => rfl
    | some k => exact absurd (.fallback hmiss hfallback henabled hfind) (h .fallback b k)
  · rintro ⟨hmiss, hfallback⟩ o b k (hit | ⟨_, configured, enabled, hit⟩)
    · simp [hmiss] at hit
    · have hactive : c.activeFallback = some b := by simp [activeFallback, enabled, configured]
      simp [hfallback b hactive] at hit

/-! ### Contexts that are alike -/

namespace Context

/-- Contexts that no node can tell apart: the primaries have one name and find the same kernels, and
fallback and versions are the same. -/
structure Alike (c c' : Context κ) : Prop where
  name : c'.primary.name = c.primary.name
  hits : ∀ id, c'.primary.find? id = c.primary.find? id
  fallback : c'.fallback = c.fallback
  enabled : c'.config.fallbackEnabled = c.config.fallbackEnabled
  versions : ∀ domain, c'.config.opsets.versionFor domain = c.config.opsets.versionFor domain

namespace Alike

variable {c c' : Context κ} (h : c.Alike c')
include h

/-- The same fresh kernel serves, from a backend of the same name. -/
theorem serves {id : Identity} {o : Origin} {b : Backend κ} {k : κ} (hserves : c.Serves id o b k) :
    ∃ b', b'.name = b.name ∧ c'.Serves id o b' k := by
  cases hserves with
  | primary hit => exact ⟨_, h.name, .primary ((h.hits id).trans hit)⟩
  | fallback miss configured enabled hit =>
    exact ⟨b, rfl, .fallback ((h.hits id).trans miss) (h.fallback.trans configured)
      (h.enabled.trans enabled) hit⟩

/-- What nothing serves in a context nothing serves in one alike. -/
theorem unserved {id : Identity} (hunserved : ∀ o b k, ¬ c.Serves id o b k) :
    ∀ o b k, ¬ c'.Serves id o b k := by
  obtain ⟨hmiss, hfallback⟩ := unserved_iff.mp hunserved
  refine unserved_iff.mpr ⟨(h.hits id).trans hmiss, ?_⟩
  rwa [activeFallback, h.enabled, h.fallback]

/-- A node ends in the same way, and the same is asked. -/
theorem dispatches [Kernel κ] {node : Node} {outcome : Except ResolveError (BoundKernel κ)}
    {asked : PerOrigin Traffic} (hrule : c.Dispatches node outcome asked) :
    c'.Dispatches node outcome asked := by
  cases hrule with
  | missingImport bare unimported => exact .missingImport bare ((h.versions _).trans unimported)
  | unsupported identified unserved =>
    have hasked : c'.missRequests = c.missRequests := by
      rw [missRequests, missRequests, h.enabled, h.fallback]
    exact hasked ▸ .unsupported (identified.of_versionFor h.versions) (h.unserved unserved)
  | rejected identified served refused =>
    obtain ⟨b', hname, hserves⟩ := h.serves served
    exact hname ▸ .rejected (identified.of_versionFor h.versions) hserves refused
  | bound identified served accepted =>
    obtain ⟨b', hname, hserves⟩ := h.serves served
    exact hname ▸ .bound (identified.of_versionFor h.versions) hserves accepted

end Alike

end Context

/-! ### Resolving by the rules -/

namespace Session

variable [Kernel κ]

/-- A served identity is dispatched to the kernel that serves it, and to no other. -/
theorem dispatch_of_serves {s : Session κ} {id : Identity} {o : Origin} {b : Backend κ} {k : κ}
    (node : Node) (hserved : s.context.Serves id o b k) :
    s.dispatch node id =
      match Kernel.configure k node.attributes with
      | (.error e, _) => (.error (.invalidConfiguration id.op b.name e),
          { s with traffic := s.traffic + o.requests })
      | (.ok (), k') => (.ok ⟨s.size⟩,
          { s with
            kernels := s.kernels ++ [⟨node.name, id, b.name, o, k'⟩]
            traffic := s.traffic + o.requests }) := by
  cases hserved with
  | primary hit =>
    simp only [dispatch, query, Context.backend?, hit, Option.map_some]
    rfl
  | fallback miss configured enabled hit =>
    have hactive : s.context.activeFallback = some b := by
      simp [Context.activeFallback, enabled, configured]
    simp only [dispatch, query, Context.backend?, miss, Option.map_none, count, hactive,
      configured, hit, Option.map_some, Option.isNone_some, Bool.false_eq_true, if_false]
    rfl

/-- An unserved identity is reported after one query to each backend that may serve it. -/
theorem dispatch_of_unserved {s : Session κ} {id : Identity} (node : Node)
    (hunserved : ∀ o b k, ¬ s.context.Serves id o b k) :
    s.dispatch node id =
      (.error (.unsupported id), { s with traffic := s.traffic + s.context.missRequests }) := by
  obtain ⟨hmiss, hfallback⟩ := Context.unserved_iff.mp hunserved
  cases hactive : s.context.activeFallback with
  | none =>
    have hidle : (s.context.config.fallbackEnabled && s.context.fallback.isSome) = false := by
      cases henabled : s.context.config.fallbackEnabled with
      | false => rfl
      | true => simp_all [Context.activeFallback]
    simp only [dispatch, query, Context.backend?, hmiss, Option.map_none, count, hactive,
      Option.isNone_none, if_true, Context.missRequests, hidle, Bool.false_eq_true, if_false]
    rfl
  | some b =>
    have hb := hfallback b hactive
    obtain ⟨henabled, hconfigured⟩ :
        s.context.config.fallbackEnabled = true ∧ s.context.fallback = some b := by
      simpa [Context.activeFallback] using hactive
    simp only [dispatch, query, Context.backend?, hmiss, Option.map_none, count, hactive,
      Option.isNone_some, Bool.false_eq_true, if_false, hconfigured, hb, Context.missRequests,
      henabled, Option.isSome_some, Bool.and_self, if_true]
    rfl

/-- Resolving in an active session does what a rule says. -/
theorem resolve_of_dispatches {s : Session κ} (hactive : s.phase = .active) {node : Node}
    {outcome : Except ResolveError (BoundKernel κ)} {asked : PerOrigin Traffic}
    (hrule : s.context.Dispatches node outcome asked) :
    s.resolve node = (outcome.map fun _ => ⟨s.size⟩, s.settled outcome asked) := by
  rw [resolve, hactive]
  cases hrule with
  | missingImport bare unimported =>
    simp only [Context.identityOf_of_unimported bare unimported, settled, Except.toOption,
      Option.toList_none, List.append_nil]
    rfl
  | unsupported identified unserved =>
    simp only [identified.identityOf_eq, dispatch_of_unserved node unserved, settled,
      Except.toOption, Option.toList_none, List.append_nil]
    rfl
  | rejected identified served refused =>
    simp only [identified.identityOf_eq, identified.op_eq, dispatch_of_serves node served, refused,
      settled, Except.toOption, Option.toList_none, List.append_nil]
    rfl
  | bound identified served accepted =>
    simp only [identified.identityOf_eq, dispatch_of_serves node served, accepted, settled,
      Except.toOption, Option.toList_some]
    rfl

end Session

/-- Every node falls under a rule. -/
theorem Context.exists_dispatches [Kernel κ] (c : Context κ) (node : Node) :
    ∃ outcome asked, c.Dispatches node outcome asked := by
  obtain ⟨id, hid⟩ | ⟨hbare, himport⟩ := c.identifies_or_unimported node
  · by_cases hserved : ∃ o b k, c.Serves id o b k
    · obtain ⟨o, b, k, hserves⟩ := hserved
      cases hconfigure : Kernel.configure k node.attributes with
      | mk outcome k' =>
        cases outcome with
        | error e => exact ⟨_, _, .rejected hid hserves hconfigure⟩
        | ok => exact ⟨_, _, .bound hid hserves hconfigure⟩
    · exact ⟨_, _, .unsupported hid fun o b k hserves => hserved ⟨o, b, k, hserves⟩⟩
  · exact ⟨_, _, .missingImport hbare himport⟩

/-- In a context that is alike a session resolves a node as before. -/
theorem Session.resolve_of_alike [Kernel κ] {s : Session κ} {c' : Context κ}
    (h : s.context.Alike c') (node : Node) :
    resolve { s with context := c' } node =
      ((s.resolve node).1, { (s.resolve node).2 with context := c' }) := by
  cases hphase : s.phase with
  | disposed => simp [resolve, hphase]
  | active =>
    obtain ⟨outcome, asked, hrule⟩ := s.context.exists_dispatches node
    have hafter := resolve_of_dispatches (s := { s with context := c' }) hphase (h.dispatches hrule)
    rw [hphase] at hafter
    rw [hafter, resolve_of_dispatches hphase hrule]
    simp only [settled, size, hphase]

/-- An active session resolves a node exactly as the policy has it. -/
theorem Session.resolve_eq_iff_dispatches [Kernel κ] {s : Session κ} (hactive : s.phase = .active)
    (node : Node) (result : Except ResolveError KernelId) (after : Session κ) :
    s.resolve node = (result, after) ↔
      ∃ outcome asked, s.context.Dispatches node outcome asked ∧
        result = outcome.map (fun _ => ⟨s.size⟩) ∧
        after = { s with
          kernels := s.kernels ++ outcome.toOption.toList
          traffic := s.traffic + asked } := by
  constructor
  · intro h
    obtain ⟨outcome, asked, hrule⟩ := s.context.exists_dispatches node
    rw [resolve_of_dispatches hactive hrule, Prod.mk.injEq] at h
    exact ⟨outcome, asked, hrule, h.1.symm, h.2.symm⟩
  · rintro ⟨outcome, asked, hrule, rfl, rfl⟩
    exact resolve_of_dispatches hactive hrule

/-- The parallel backend lacks the general product, and the reference backend refuses the flag. -/
theorem Session.resolve_refused_by_fallback :
    let s := Session.ofContext (κ := BuiltinKernel)
      ⟨Builtin.par, some Builtin.cpu, .ofOpset (.of "" 13)⟩
    let node : Node := { Node.ofOp "Gemm" with attributes := .ofList [("transA", .int 2)] }
    s.phase = .active ∧
      s.resolve node =
        (.error (.invalidConfiguration "Gemm" "cpu" (.invalid "transA" (.notFlag 2))),
          { s with traffic := ⟨⟨1, 0, 0⟩, ⟨1, 1, 0⟩⟩ }) := by
  intro s node
  have hid : s.context.Identifies node ⟨"Gemm", "ai.onnx", 13⟩ := .imported rfl (by decide +kernel)
  have hserved : s.context.Serves ⟨"Gemm", "ai.onnx", 13⟩ .fallback Builtin.cpu
      (.inl (.gemm .fresh)) := .fallback (by decide +kernel) rfl rfl (by decide +kernel)
  have hrefused : Kernel.configure (.inl (.gemm .fresh) : BuiltinKernel) node.attributes =
      (.error (.invalid "transA" (.notFlag 2)), .inl (.gemm .fresh)) := rfl
  exact ⟨rfl, (resolve_eq_iff_dispatches rfl node _ _).mpr
    ⟨_, _, .rejected hid hserved hrefused, rfl, rfl⟩⟩

end KernelDispatch
