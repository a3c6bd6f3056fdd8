import KernelDispatch.Backend.Registry
import KernelDispatch.Graph.Node
import KernelDispatch.Operator.Opset

/-!
# Session contexts

What a session is created with: a primary backend, an optional fallback backend, the opset imports
and whether the fallback may be used. The context alone decides under which identity a node is
looked up.
-/

namespace KernelDispatch

/-- Whose kernel serves a node. -/
inductive Origin where
  | primary
  | fallback
deriving DecidableEq, Inhabited, Repr

/-- The name of an origin. -/
def Origin.name : Origin → String
  | primary => "primary"
  | fallback => "fallback"

/-- The opset imports of a session and whether its fallback may be used. -/
structure SessionConfig where
  opsets : OpsetImports
  fallbackEnabled : Bool
deriving DecidableEq, Inhabited, Repr

namespace SessionConfig

/-- The configuration that imports one opset and allows the fallback. -/
def ofOpset (o : Opset) : SessionConfig := ⟨OpsetImports.empty.insert o, true⟩

/-- The configuration with one more import. -/
def withOpset (c : SessionConfig) (o : Opset) : SessionConfig :=
  { c with opsets := c.opsets.insert o }

/-- The configuration with the fallback allowed or not. -/
def withFallback (c : SessionConfig) (enabled : Bool) : SessionConfig :=
  { c with fallbackEnabled := enabled }

end SessionConfig

/-- Why a node could not be bound to a kernel. -/
inductive ResolveError where
  /-- No usable backend serves the identity. -/
  | unsupported (id : Identity)
  /-- The kernel refused the node's attributes. -/
  | invalidConfiguration (op backend : String) (cause : AttributeError)
  /-- The node has no version and its domain is not imported. -/
  | missingImport (op domain : String)
  /-- The session is disposed. -/
  | disposed
deriving DecidableEq, Repr

/-- The wording of a resolve error, without its cause. -/
def ResolveError.message : ResolveError → String
  | unsupported id => s!"unsupported operator '{id.op}' (domain {id.domain}, opset {id.version})"
  | invalidConfiguration op backend _ =>
    s!"invalid configuration for operator '{op}' on backend {backend}"
  | missingImport op domain => s!"no opset imported for domain '{domain}' (operator '{op}')"
  | disposed => "session has been disposed"

/-- Why a backend's part of an invocation failed. -/
inductive BackendFailure where
  /-- No inference handler was handed out. -/
  | handler (text : String)
  /-- The kernel failed. -/
  | kernel (cause : InvokeError)
deriving DecidableEq, Repr

/-- The wording of a backend failure. -/
def BackendFailure.message : BackendFailure → String
  | handler text => text
  | kernel cause => cause.message

/-- Why a session could not be created or used. -/
inductive SessionError where
  /-- The fallback is the primary backend itself. -/
  | fallbackIsPrimary (name : String)
  /-- No backend of the name is known. -/
  | unknownBackend (name : String)
  /-- The session is disposed. -/
  | disposed
  /-- The session has no kernel of the id. -/
  | unknownKernel (index : Nat)
  /-- The serving backend failed. -/
  | backend (failure : BackendFailure)
deriving DecidableEq, Repr

/-- The wording of a session error. -/
def SessionError.message : SessionError → String
  | fallbackIsPrimary name =>
    s!"fallback backend '{name}' is the same instance as the primary backend"
  | unknownBackend name => s!"unknown backend '{name}'"
  | disposed => "session has been disposed"
  | unknownKernel index => s!"unknown kernel id {index}"
  | backend failure => failure.message

/-- The backends and the configuration of a session. -/
structure Context (κ : Type) where
  primary : Backend κ
  fallback : Option (Backend κ)
  config : SessionConfig

namespace Context

variable {κ : Type}

/-- The context of the given backends; a fallback must differ from the primary. -/
def of (primary : Backend κ) (fallback : Option (Backend κ)) (config : SessionConfig) :
    Except SessionError (Context κ) :=
  match fallback.filter primary.same with
  | some b => .error (.fallbackIsPrimary b.name)
  | none => .ok ⟨primary, fallback, config⟩

/-- The fallback backend, if it may be used. -/
def activeFallback (c : Context κ) : Option (Backend κ) :=
  if c.config.fallbackEnabled then c.fallback else none

/-- The backend of an origin. -/
def backend? (c : Context κ) : Origin → Option (Backend κ)
  | .primary => some c.primary
  | .fallback => c.fallback

/-- The identity under which a node is looked up: its own domain, standard by default, and its own
version, by default the imported one. -/
def identityOf (c : Context κ) (node : Node) : Except ResolveError Identity :=
  let domain := node.domain.getD Domain.standard
  match node.version.orElse fun _ => c.config.opsets.versionFor domain with
  | some version => .ok (.of node.op domain version)
  | none => .error (.missingImport node.op (Domain.normalize domain))

end Context

end KernelDispatch
