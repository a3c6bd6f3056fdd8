import KernelDispatch.Operator.Identity
import KernelDispatch.Operator.VersionRange
import KernelDispatch.Ordered

/-!
# Operator catalogs

A catalog of a domain holds one value per registration of an operator for a range of versions.
Building it checks the registrations in order: no range may be inverted, and no operator may be
registered twice for the same range. Look-up answers the registration with the most specific range
that contains the version; of two bounded ranges of one width the later registration is preferred.
The catalog keeps its registrations in that order of preference, so the first one that fits is the
best one.
-/

namespace KernelDispatch

/-- An operator registered for a range of versions. -/
structure Registration (α : Type) where
  op : String
  range : VersionRange
  value : α
deriving Repr

/-- Why catalogs could not be built. -/
inductive CatalogError where
  /-- An operator is registered twice for the same versions. -/
  | conflict (domain op : String) (range : VersionRange)
  /-- A range ends before it starts. -/
  | invertedRange (domain op : String) (start stop : UInt32)
  /-- Two catalogs of one backend have the same domain. -/
  | duplicateDomain (domain : String)
deriving DecidableEq, Repr

/-- The wording of a catalog error. -/
def CatalogError.message : CatalogError → String
  | conflict domain op range =>
    s!"operator {domain}::{op} registered twice for versions {range.render}"
  | invertedRange domain op start stop =>
    s!"operator {domain}::{op} registered with empty version range {start}-{stop}"
  | duplicateDomain domain => s!"more than one catalog for domain '{domain}'"

/-- The operators of one domain, most specific registrations first. -/
structure Catalog (α : Type) where
  domain : String
  ranked : List (Registration α)
deriving Repr

namespace Registration

variable {α : Type}

/-- Whether the registration serves an operator at a version. -/
def serves (r : Registration α) (op : String) (version : UInt32) : Bool :=
  r.op = op && r.range.contains version

/-- The order of preference between registrations. -/
def preferred (r q : Registration α) : Bool := r.range.atLeastAsSpecific q.range

/-- The order of listings: by operator, then by the start of the range. -/
def listedBefore (r q : Registration α) : Bool :=
  r.op < q.op || (r.op = q.op && r.range.start ≤ q.range.start)

/-- The registration with another value. -/
def map {β : Type} (f : α → β) (r : Registration α) : Registration β :=
  ⟨r.op, r.range, f r.value⟩

/-- The fault of a registration that follows others, if it has one. -/
def fault? (domain : String) (earlier : List (Registration α)) (r : Registration α) :
    Option CatalogError :=
  match r.range.stop.filter (· < r.range.start) with
  | some stop => some (.invertedRange domain r.op r.range.start stop)
  | none =>
    if earlier.any fun e => e.op = r.op && e.range = r.range then
      some (.conflict domain r.op r.range)
    else none

/-- The first fault in a list of registrations that follows others. -/
def firstFault? (domain : String) (earlier : List (Registration α)) :
    List (Registration α) → Option CatalogError
  | [] => none
  | r :: rest =>
    match fault? domain earlier r with
    | some e => some e
    | none => firstFault? domain (earlier ++ [r]) rest

end Registration

namespace Catalog

variable {α : Type}

/-- The catalog of a domain with the given registrations, later ones preferred among equals. -/
def build (domain : String) (registrations : List (Registration α)) :
    Except CatalogError (Catalog α) :=
  let domain := Domain.normalize domain
  match Registration.firstFault? domain [] registrations with
  | some e => .error e
  | none => .ok ⟨domain, sortLatestFirst Registration.preferred registrations⟩

/-- The preferred registration of an operator at a version. -/
def find? (c : Catalog α) (op domain : String) (version : UInt32) : Option (Registration α) :=
  if Domain.normalize domain = c.domain then c.ranked.find? (·.serves op version) else none

/-- The value that serves an operator at a version. -/
def lookup (c : Catalog α) (op domain : String) (version : UInt32) : Option α :=
  (c.find? op domain version).map (·.value)

/-- Whether an operator is served at a version. -/
def contains (c : Catalog α) (op domain : String) (version : UInt32) : Bool :=
  (c.lookup op domain version).isSome

/-- All registrations by operator and start of range; of one start the more specific comes first. -/
def entries (c : Catalog α) : List (String × VersionRange) :=
  (sortStably Registration.listedBefore c.ranked).map fun r => (r.op, r.range)

/-- The number of registrations. -/
def size (c : Catalog α) : Nat := c.ranked.length

/-- Whether there is no registration. -/
def isEmpty (c : Catalog α) : Bool := c.ranked.isEmpty

/-- The catalog with other values. -/
def map {β : Type} (f : α → β) (c : Catalog α) : Catalog β :=
  ⟨c.domain, c.ranked.map (·.map f)⟩

end Catalog

end KernelDispatch
