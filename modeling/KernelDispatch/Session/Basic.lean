import KernelDispatch.Session.Context

/-!
# Sessions

A session binds graph nodes to configured kernels and owns these kernels until it is disposed. The
primary backend is always asked first; the fallback is asked only if the primary does not serve the
node's identity and the fallback may be used. A kernel that refuses a node's attributes is an error,
and no other backend is tried. Inference handlers are requested on first use, one per origin.

Every operation is a function from a session to its outcome and the session afterwards. The session
counts what it asks of its backends, so that the requests of a run can be read off its end.
-/

namespace KernelDispatch

/-- A value per origin. -/
structure PerOrigin (α : Type) where
  primary : α
  fallback : α
deriving DecidableEq, Repr

namespace PerOrigin

variable {α : Type}

/-- The value of an origin. -/
def get (p : PerOrigin α) : Origin → α
  | .primary => p.primary
  | .fallback => p.fallback

/-- Replace the value of an origin. -/
def set (p : PerOrigin α) (o : Origin) (a : α) : PerOrigin α :=
  match o with
  | .primary => { p with primary := a }
  | .fallback => { p with fallback := a }

end PerOrigin

/-- How often a session has asked a backend for something. -/
structure Traffic where
  /-- Catalog queries. -/
  queries : Nat
  /-- Fresh kernels taken. -/
  kernels : Nat
  /-- Requests for an inference handler, granted or not. -/
  handlers : Nat
deriving DecidableEq, Inhabited, Repr

/-- Nothing asked yet. -/
def Traffic.none : Traffic := ⟨0, 0, 0⟩

/-- Whether a session may still be used. -/
inductive Phase where
  | active
  | disposed
deriving DecidableEq, Inhabited, Repr

/-- The place of a bound kernel in its session. -/
structure KernelId where
  index : Nat
deriving DecidableEq, Inhabited, Repr

/-- A configured kernel and where it came from. -/
structure BoundKernel (κ : Type) where
  node : String
  identity : Identity
  backend : String
  origin : Origin
  kernel : κ

/-- Kernels bound to nodes, and the backends they came from. -/
structure Session (κ : Type) where
  context : Context κ
  phase : Phase
  /-- The bound kernels; the id of a kernel is its place in this list. -/
  kernels : List (BoundKernel κ)
  /-- The inference handlers in use. -/
  handlers : PerOrigin (Option InferenceHandler)
  traffic : PerOrigin Traffic

namespace Session

variable {κ : Type}

/-- A fresh session on a context. -/
def ofContext (c : Context κ) : Session κ :=
  ⟨c, .active, [], ⟨none, none⟩, ⟨.none, .none⟩⟩

/-- A fresh session on the given backends. -/
def of (primary : Backend κ) (fallback : Option (Backend κ)) (config : SessionConfig) :
    Except SessionError (Session κ) :=
  (Context.of primary fallback config).map ofContext

/-- The registered backend of a name. -/
def findBackend (r : Registry κ) (name : String) : Except SessionError (Backend κ) :=
  match r.get? name with
  | some b => .ok b
  | none => .error (.unknownBackend name)

/-- A fresh session on registered backends. -/
def ofRegistry (r : Registry κ) (primary : String) (fallback : Option String)
    (config : SessionConfig) : Except SessionError (Session κ) := do
  let first ← findBackend r primary
  let second ← fallback.mapM (findBackend r)
  of first second config

/-- The number of bound kernels. -/
def size (s : Session κ) : Nat := s.kernels.length

/-- The kernel of an id. -/
def kernel? (s : Session κ) (id : KernelId) : Option (BoundKernel κ) := s.kernels[id.index]?

/-- All bound kernels with their ids, in order. -/
def bindings (s : Session κ) : List (KernelId × BoundKernel κ) :=
  s.kernels.zipIdx.map fun p => (⟨p.2⟩, p.1)

/-- Count something asked of the backend of an origin. -/
def count (s : Session κ) (o : Origin) (f : Traffic → Traffic) : Session κ :=
  { s with traffic := s.traffic.set o (f (s.traffic.get o)) }

/-- Ask the backend of an origin for a fresh kernel that serves an identity. -/
def query (s : Session κ) (o : Origin) (id : Identity) :
    Option (Backend κ × κ) × Session κ :=
  match s.context.backend? o with
  | none => (none, s)
  | some b =>
    ((b.find? id).map fun k => (b, k), s.count o fun t => { t with queries := t.queries + 1 })

/-- Ask the backend of an origin for an inference handler. -/
def requestHandler (s : Session κ) (o : Origin) (b : Backend κ) :
    Except SessionError InferenceHandler × Session κ :=
  ((b.openHandler (s.traffic.get o).handlers).mapError fun text => .backend (.handler text),
    s.count o fun t => { t with handlers := t.handlers + 1 })

variable [Kernel κ]

/-- Configure a fresh kernel for a node and bind it under the next id. -/
def bind (s : Session κ) (node : Node) (id : Identity) (o : Origin) (b : Backend κ) (k : κ) :
    Except ResolveError KernelId × Session κ :=
  let s := s.count o fun t => { t with kernels := t.kernels + 1 }
  match Kernel.configure k node.attributes with
  | (.error e, _) => (.error (.invalidConfiguration id.op b.name e), s)
  | (.ok (), k) =>
    (.ok ⟨s.kernels.length⟩, { s with kernels := s.kernels ++ [⟨node.name, id, b.name, o, k⟩] })

/-- Bind a node under an identity: by the primary backend if it serves the identity, otherwise by
the fallback if it may be used and serves it. -/
def dispatch (s : Session κ) (node : Node) (id : Identity) :
    Except ResolveError KernelId × Session κ :=
  match s.query .primary id with
  | (some (b, k), s) => s.bind node id .primary b k
  | (none, s) =>
    if s.context.activeFallback.isNone then (.error (.unsupported id), s)
    else
      match s.query .fallback id with
      | (some (b, k), s) => s.bind node id .fallback b k
      | (none, s) => (.error (.unsupported id), s)

/-- Bind a node to a kernel. -/
def resolve (s : Session κ) (node : Node) : Except ResolveError KernelId × Session κ :=
  match s.phase with
  | .disposed => (.error .disposed, s)
  | .active =>
    match s.context.identityOf node with
    | .error e => (.error e, s)
    | .ok id => s.dispatch node id

/-- Bind nodes in order, up to the first failure. -/
def resolveGraph (s : Session κ) : List Node → Except ResolveError (List KernelId) × Session κ
  | [] => (.ok [], s)
  | node :: rest =>
    match s.resolve node with
    | (.error e, s) => (.error e, s)
    | (.ok id, s) =>
      match s.resolveGraph rest with
      | (.error e, s) => (.error e, s)
      | (.ok ids, s) => (.ok (id :: ids), s)

/-- Configure a bound kernel again, with other attributes. -/
def reconfigure (s : Session κ) (id : KernelId) (attrs : Attributes) :
    Option (Except AttributeError Unit) × Session κ :=
  match s.kernel? id with
  | none => (none, s)
  | some bound =>
    let (outcome, k) := Kernel.configure bound.kernel attrs
    (some outcome, { s with kernels := s.kernels.set id.index { bound with kernel := k } })

/-- An inference handler of the primary backend. -/
def createHandler (s : Session κ) : Except SessionError InferenceHandler × Session κ :=
  match s.phase with
  | .disposed => (.error .disposed, s)
  | .active => s.requestHandler .primary s.context.primary

/-- The handler in use for an origin, requested on first use. A refused request leaves none in
use, so the next use requests again. -/
def handlerFor (s : Session κ) (bound : BoundKernel κ) :
    Except SessionError InferenceHandler × Session κ :=
  match s.handlers.get bound.origin with
  | some h => (.ok h, s)
  | none =>
    match s.context.backend? bound.origin with
    | none => (.error (.unknownBackend bound.backend), s)
    | some b =>
      match s.requestHandler bound.origin b with
      | (.error e, s) => (.error e, s)
      | (.ok h, s) => (.ok h, { s with handlers := s.handlers.set bound.origin (some h) })

/-- Run a bound kernel in the handler of its origin; the kernel stays bound as the run leaves it. -/
def invoke (s : Session κ) (id : KernelId) (inputs : List Tensor) :
    Except SessionError (List Tensor) × Session κ :=
  match s.phase with
  | .disposed => (.error .disposed, s)
  | .active =>
    match s.kernel? id with
    | none => (.error (.unknownKernel id.index), s)
    | some bound =>
      match s.handlerFor bound with
      | (.error e, s) => (.error e, s)
      | (.ok h, s) =>
        let (outputs, h) := h.run bound.kernel inputs
        let kernel := Kernel.afterInvoke bound.kernel inputs
        (outputs.mapError fun e => .backend (.kernel e),
          { s with
            kernels := s.kernels.set id.index { bound with kernel }
            handlers := s.handlers.set bound.origin (some h) })

/-- Release every kernel and handler; disposing again changes nothing. -/
def dispose (s : Session κ) : Session κ :=
  match s.phase with
  | .disposed => s
  | .active => { s with phase := .disposed, kernels := [], handlers := ⟨none, none⟩ }

end Session

end KernelDispatch
