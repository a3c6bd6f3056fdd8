/-!
# Binary32 numbers as bit patterns

A tensor stores the bits of its numbers, so the element type of the library is the bit pattern:
two patterns of "not a number" are different elements that denote the same value. Arithmetic goes
through the value a pattern denotes (`Float32`, whose operations are correctly rounded, ties to
even) and answers a canonical pattern, so an arithmetic result is one of a single NaN, two
infinities and the finite numbers.
-/

namespace KernelDispatch

/-- A binary32 number, given by its thirty-two bits. -/
structure Binary32 where
  bits : UInt32
deriving DecidableEq, Inhabited, Repr

namespace Binary32

/-- The value of a pattern; all NaN patterns have the same value. -/
def value (x : Binary32) : Float32 := Float32.ofBits x.bits

/-- The pattern of a value; NaN has the canonical quiet pattern. -/
def ofValue (v : Float32) : Binary32 := ⟨v.toBits⟩

/-- Positive zero. -/
def zero : Binary32 := ⟨0⟩

/-- Negative zero. -/
def negZero : Binary32 := ⟨0x80000000⟩

/-- One. -/
def one : Binary32 := ⟨0x3f800000⟩

/-- One half. -/
def half : Binary32 := ⟨0x3f000000⟩

/-- The number nearest to one hundredth. -/
def hundredth : Binary32 := ⟨0x3c23d70a⟩

/-- The number nearest to the square root of two. -/
def sqrtTwo : Binary32 := ⟨0x3fb504f3⟩

/-- Negative infinity. -/
def negInfinity : Binary32 := ⟨0xff800000⟩

instance : Add Binary32 := ⟨fun x y => ofValue (x.value + y.value)⟩
instance : Sub Binary32 := ⟨fun x y => ofValue (x.value - y.value)⟩
instance : Mul Binary32 := ⟨fun x y => ofValue (x.value * y.value)⟩
instance : Div Binary32 := ⟨fun x y => ofValue (x.value / y.value)⟩
instance : Neg Binary32 := ⟨fun x => ofValue (-x.value)⟩

/-- The number without its sign. -/
def abs (x : Binary32) : Binary32 := ofValue x.value.abs

/-- Whether the pattern is one of "not a number". -/
def isNaN (x : Binary32) : Bool := x.value.isNaN

/-- Whether the pattern is that of a number on the real line. -/
def isFinite (x : Binary32) : Bool := x.value.isFinite

/-- The order of values: false as soon as one side is NaN, and the two zeros are equal. -/
def lt (x y : Binary32) : Bool := x.value.lt y.value

/-- The larger of two numbers; a NaN gives way to the other operand. -/
def max (x y : Binary32) : Binary32 :=
  if x.isNaN then y else if x.lt y then y else x

/-- The number nearest to an integer. -/
def ofInt64 (n : Int64) : Binary32 := ofValue n.toFloat32

open Float.Model (UnpackedFloat) in
/-- The pattern of an unpacked number that is already rounded to this format. -/
def ofUnpacked (u : UnpackedFloat) : Binary32 := ofValue (.ofModel (.pack u))

open Float.Model (UnpackedFloat) in
/-- Sign, significand and exponent of a pattern. -/
def unpack (x : Binary32) : UnpackedFloat := x.value.toModel.unpack

/-- The number nearest to a binary64 number. -/
def ofFloat (v : Float) : Binary32 :=
  match v.toModel.unpack with
  | .finite s m e _ => ofUnpacked (.round .binary32 s m e)
  | u => ofUnpacked u

/-- The same number in the wider format; every binary32 number is a binary64 number. -/
def toFloat (x : Binary32) : Float :=
  match x.unpack with
  | .finite s m e _ => .ofModel (.pack (.round .binary64 s m e))
  | u => .ofModel (.pack u)

end Binary32

end KernelDispatch
