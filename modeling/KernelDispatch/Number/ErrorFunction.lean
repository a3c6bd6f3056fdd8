import KernelDispatch.Number.Exponential

/-!
# The error function

A rational approximation with five coefficients, evaluated in binary64 by Horner's scheme and
rounded to binary32 at the end. Its absolute error is below `1.5e-7`.
-/

namespace KernelDispatch.ErrorFunction

/-- The coefficients of the polynomial in `t`, from the highest power down. -/
def coefficients : List Float :=
  [1.061405429, -1.453152027, 1.421413741, -0.284496736, 0.254829592]

/-- The factor of the argument in `t = 1 / (1 + p x)`. -/
def p : Float := 0.3275911

/-- The polynomial without constant term whose coefficients are given, at `t`. -/
def polynomial (t : Float) : List Float → Float
  | [] => 0
  | c :: rest => rest.foldl (fun acc a => acc * t + a) c * t

end KernelDispatch.ErrorFunction

namespace KernelDispatch

open ErrorFunction in
/-- The error function: odd, so computed for the magnitude and given the argument's sign. A NaN and
both zeros count as positive. -/
def Binary32.erf (x : Binary32) : Binary32 :=
  let sign : Float := if x.lt zero then -1 else 1
  let magnitude := x.toFloat.abs
  let t := 1 / (1 + p * magnitude)
  ofFloat (sign * (1 - polynomial t coefficients * Exponential.binary64 (-magnitude * magnitude)))

end KernelDispatch
