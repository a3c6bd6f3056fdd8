import KernelDispatch.Diagnostic
import KernelDispatch.Operator.Opset
import KernelDispatch.Text.Unsigned

/-!
# Opset imports as text

An import is written as domain, colon and version. The last colon separates them, so a domain may
contain colons; an empty domain is the standard one.
-/

namespace KernelDispatch

/-- Why a text is no opset import. -/
inductive OpsetTextError where
  /-- There is no colon. -/
  | noColon (text : String)
  /-- What follows the last colon is no version. -/
  | version (text : String) (cause : Text.UnsignedError)
deriving DecidableEq, Repr

/-- The presentation of an opset text error. -/
def OpsetTextError.diagnostic : OpsetTextError → Diagnostic
  | noColon text => .plain s!"invalid opset: {text} (expected DOMAIN:VERSION)"
  | version text cause => (Diagnostic.plain cause.message).under s!"invalid opset version in {text}"

namespace Opset

/-- Split a text at its last colon. -/
def splitAtLastColon? : List Char → Option (List Char × List Char)
  | [] => none
  | c :: rest =>
    match splitAtLastColon? rest with
    | some (before, after) => some (c :: before, after)
    | none => if c = ':' then some ([], rest) else none

/-- The bound of versions. -/
def versionBound : Nat := UInt32.size

/-- Read an import. -/
def parse (text : String) : Except OpsetTextError Opset :=
  match splitAtLastColon? text.toList with
  | none => .error (.noColon text)
  | some (domain, version) =>
    match Text.unsigned versionBound version with
    | .error e => .error (.version text e)
    | .ok n => .ok (.of (String.ofList domain) (UInt32.ofNat n))

/-- An import as text. -/
def render (o : Opset) : String := s!"{o.domain}:{o.version}"

end Opset

end KernelDispatch
