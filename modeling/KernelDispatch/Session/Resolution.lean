import KernelDispatch.Backend.Builtin
import KernelDispatch.Diagnostic
import KernelDispatch.Session.Report

/-!
# Resolving whole graphs

A graph is resolved in a fresh session on registered backends, and the result is one line per node.
A fallback that names the primary backend is dropped rather than refused.
-/

namespace KernelDispatch

/-- The backends a resolution is asked to use. -/
structure BackendChoice where
  primary : String
  fallback : String
  noFallback : Bool
deriving DecidableEq, Inhabited, Repr

/-- The fallback that is really used. -/
def BackendChoice.fallback? (c : BackendChoice) : Option String :=
  if c.noFallback || c.fallback = c.primary then none else some c.fallback

/-- Why a graph could not be resolved. -/
inductive ResolutionError where
  /-- No version of the standard domain is imported. -/
  | noStandardImport
  /-- The session could not be created. -/
  | session (cause : SessionError)
  /-- A node could not be bound. -/
  | node (cause : ResolveError)
deriving DecidableEq, Repr

/-- The presentation of a resolution error. -/
def ResolutionError.diagnostic : ResolutionError → Diagnostic
  | noStandardImport => .plain s!"no opset import for {Domain.standard}"
  | session cause => .plain cause.message
  | node (.invalidConfiguration op backend cause) =>
    (Diagnostic.plain cause.message).under
      (ResolveError.message (.invalidConfiguration op backend cause))
  | node cause => .plain cause.message

/-- The session configuration for imports, which must include the standard domain; that domain
comes first. -/
def SessionConfig.ofImports? (is : OpsetImports) : Option SessionConfig :=
  (is.versionFor Domain.standard).map fun version =>
    is.imports.foldl SessionConfig.withOpset (.ofOpset (.of Domain.standard version))

/-- The lines of a resolved graph under a given configuration. -/
def resolveLines {κ : Type} [Kernel κ] (r : Registry κ) (choice : BackendChoice)
    (config : SessionConfig) (nodes : List Node) : Except ResolutionError (List String) :=
  match Session.ofRegistry r choice.primary choice.fallback? config with
  | .error e => .error (.session e)
  | .ok s =>
    match s.resolveGraph nodes with
    | (.error e, _) => .error (.node e)
    | (.ok _, s) => .ok (s.kernels.map BoundKernel.line)

/-- The configuration for a choice of backends and imports: the fallback is allowed exactly if one
is used. -/
def resolutionConfig (choice : BackendChoice) (is : OpsetImports) :
    Except ResolutionError SessionConfig :=
  match SessionConfig.ofImports? is with
  | some config => .ok (config.withFallback choice.fallback?.isSome)
  | none => .error .noStandardImport

/-- Resolve a graph: one line per node, or the first error. -/
def resolveReport {κ : Type} [Kernel κ] (r : Registry κ) (choice : BackendChoice)
    (is : OpsetImports) (nodes : List Node) : Except ResolutionError (List String) := do
  let config ← resolutionConfig choice is
  resolveLines r choice config nodes

end KernelDispatch
