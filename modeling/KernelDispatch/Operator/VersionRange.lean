/-!
# Version ranges

An operator is registered for a range of opset versions, both ends included; a range without an
end covers every later version. Ranges are ordered by how specific they are: bounded ranges by
width, then the open ones, later starts first.
-/

namespace KernelDispatch

/-- Opset versions from `start` to `stop`, both included, or all from `start` on. -/
structure VersionRange where
  start : UInt32
  stop : Option UInt32
deriving DecidableEq, Inhabited, Repr

namespace VersionRange

/-- The versions from `start` to `stop`. -/
def between (start stop : UInt32) : VersionRange := ⟨start, some stop⟩

/-- The versions from `start` on. -/
def since (start : UInt32) : VersionRange := ⟨start, none⟩

/-- Whether a version lies in the range. -/
def contains (r : VersionRange) (version : UInt32) : Bool :=
  r.start ≤ version && r.stop.all (version ≤ ·)

/-- Whether the range ends before it starts. -/
def inverted (r : VersionRange) : Bool := r.stop.any (· < r.start)

/-- The width of a bounded range, zero if it is inverted. -/
def width (start stop : UInt32) : Nat := stop.toNat - start.toNat

/-- Whether `r` is at least as specific as `q`: the narrower of two bounded ranges, a bounded range
before an open one, the later start of two open ones. -/
def atLeastAsSpecific (r q : VersionRange) : Bool :=
  match r.stop, q.stop with
  | some a, some b => width r.start a ≤ width q.start b
  | some _, none => true
  | none, some _ => false
  | none, none => q.start ≤ r.start

/-- The rank of a range, which two numbers encode: bounded ranges come first and rank by width, and
an open range ranks by the number of versions behind its start. -/
def specificity (r : VersionRange) : Nat × Nat :=
  match r.stop with
  | some stop => (0, width r.start stop)
  | none => (1, UInt32.size - 1 - r.start.toNat)

/-- A range is at least as specific as another one if it does not rank behind it. -/
theorem atLeastAsSpecific_iff_specificity (r q : VersionRange) :
    r.atLeastAsSpecific q = true ↔ r.specificity.1 < q.specificity.1 ∨
      r.specificity.1 = q.specificity.1 ∧ r.specificity.2 ≤ q.specificity.2 := by
  have hr : r.start.toNat < 0x100000000 := r.start.toNat_lt
  have hq : q.start.toNat < 0x100000000 := q.start.toNat_lt
  unfold atLeastAsSpecific specificity
  cases r.stop <;> cases q.stop <;> simp [UInt32.le_iff_toNat_le]
  omega

/-- A range is written as its only version, as `start-stop`, or as `start+` when it is open. -/
def render (r : VersionRange) : String :=
  match r.stop with
  | some stop => if stop = r.start then toString r.start else s!"{r.start}-{stop}"
  | none => s!"{r.start}+"

end VersionRange

end KernelDispatch
