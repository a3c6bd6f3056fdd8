import KernelDispatch.Number.Binary32

/-!
# Correctly rounded exponential and hyperbolic tangent

Both functions are computed on a fixed-point grid with 256 fractional bits and rounded once. The
argument is divided by `2 ^ 12`, the series of the exponential is summed there, and twelve
squarings undo the division; a negative argument is the reciprocal of the positive one. Away from
zero the exact results are irrational, hence never half-way between two numbers of a format, and
one extra low bit stands for the part below the grid.
-/

namespace KernelDispatch.Exponential

open Float.Model (UnpackedFloat Format totalExponent)

/-- Number of fractional bits of the grid. -/
def gridBits : Nat := 256

/-- The grid's representation of one. -/
def unit : Nat := 1 <<< gridBits

/-- Horner's scheme for `1 + r (1 + r/2 (1 + r/3 (...)))`, from the given term inward. -/
def horner (r : Nat) : Nat → Nat → Nat
  | 0, acc => acc
  | k + 1, acc => horner r k (unit + r * acc / (unit * (k + 1)))

/-- Number of halvings that bring an argument below `2 ^ 11` under one half. -/
def halvings : Nat := 12

/-- Number of terms of the series; with an argument below one half the rest is below the grid. -/
def terms : Nat := 64

/-- The exponential of a grid point below `2 ^ 11`, on the grid. -/
def ofGrid (a : Nat) : Nat :=
  Nat.repeat (fun s => (s * s) >>> gridBits) halvings (horner (a >>> halvings) terms unit)

/-- The grid point at or below `m * 2 ^ e`. -/
def toGrid (m : Nat) (e : Int) : Nat :=
  if 0 ≤ e + gridBits then m <<< (e + gridBits).toNat else m >>> (-(e + gridBits)).toNat

/-- The number of the format nearest to one. -/
def one (format : Format) (sign : UnpackedFloat.Sign) : UnpackedFloat := .round format sign 1 0

/-- Extra bits kept in a reciprocal, so that the least results still have a full significand. -/
def reciprocalBits : Nat := 1536

/-- The exponential, rounded to the nearest number of the format. -/
def exp (format : Format) : UnpackedFloat → UnpackedFloat
  | .notANumber => .notANumber
  | .infinity .positive => .infinity .positive
  | .infinity .negative => .zero .positive
  | .zero _ => one format .positive
  | .finite .positive m e _ =>
    if 10 < totalExponent m e then .infinity .positive
    else .round format .positive (2 * ofGrid (toGrid m e) + 1) (-(gridBits + 1 : Int))
  | .finite .negative m e _ =>
    if 10 < totalExponent m e then .zero .positive
    else
      .round format .positive
        (2 * ((1 <<< (gridBits + reciprocalBits)) / ofGrid (toGrid m e)) + 1)
        (-(reciprocalBits + 1 : Int))

/-- The hyperbolic tangent `(exp 2x - 1) / (exp 2x + 1)`, rounded to the nearest number of the
format; from 32 on it is one. -/
def tanh (format : Format) : UnpackedFloat → UnpackedFloat
  | .notANumber => .notANumber
  | .infinity s => one format s
  | .zero s => .zero s
  | .finite s m e _ =>
    if 5 < totalExponent m e then one format s
    else
      let p := ofGrid (toGrid (2 * m) e)
      .round format s (2 * (((p - unit) <<< gridBits) / (p + unit)) + 1) (-(gridBits + 1 : Int))

end KernelDispatch.Exponential

namespace KernelDispatch

/-- The exponential of a binary32 number. -/
def Binary32.exp (x : Binary32) : Binary32 := ofUnpacked (Exponential.exp .binary32 x.unpack)

/-- The hyperbolic tangent of a binary32 number. -/
def Binary32.tanh (x : Binary32) : Binary32 := ofUnpacked (Exponential.tanh .binary32 x.unpack)

/-- The exponential of a binary64 number. -/
def Exponential.binary64 (v : Float) : Float :=
  .ofModel (.pack (Exponential.exp .binary64 v.toModel.unpack))

end KernelDispatch
