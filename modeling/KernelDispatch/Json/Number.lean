/-!
# Numbers in JSON texts

A number literal is kept by its parts. Literals without fraction and exponent are integers as long
as they fit into 64 bits, except for negative zero; every other literal is a binary64 number. Its
value comes from a significand of at most 64 bits, taken from as many leading digits as fit, and one
scaling by a power of ten, each rounded to nearest.
-/

namespace KernelDispatch.Json

/-- The parts of a number literal; digits are numbers below ten. -/
structure Literal where
  negative : Bool
  whole : List Nat
  fraction : Option (List Nat)
  /-- The sign and the digits of the exponent. -/
  exponent : Option (Bool × List Nat)
deriving DecidableEq, Inhabited, Repr

/-- The value of a number literal. -/
inductive Numeral where
  | integer (n : Int)
  | real (x : Float)
deriving DecidableEq

namespace Literal

/-- The bound of significands. -/
def significandBound : Nat := UInt64.size

/-- Append digits to a significand as long as they fit; the second number counts the digits left
over. -/
def absorb : Nat → List Nat → Nat × Nat
  | s, [] => (s, 0)
  | s, d :: rest =>
    if s * 10 + d < significandBound then absorb (s * 10 + d) rest else (s, rest.length + 1)

/-- The number that a list of digits denotes. -/
def ofDigits (ds : List Nat) : Nat := ds.foldl (fun n d => n * 10 + d) 0

/-- The greatest significand whose negation fits into 64 bits. -/
def greatestNegated : Nat := 0x8000000000000000

/-- The greatest power of ten that is a finite binary64 number. -/
def greatestPower : Nat := 308

/-- A power of ten, rounded to binary64. -/
def powerOfTen (k : Nat) : Float := Float.ofScientific 1 false k

/-- Scale a number by a power of ten; nothing if the result is too large. A division by more than
the greatest power is done in steps, and stops once nothing is left. -/
def scale : Nat → Float → Int → Option Float
  | 0, f, _ => some f
  | steps + 1, f, e =>
    if e.natAbs ≤ greatestPower then
      if 0 ≤ e then
        let g := f * powerOfTen e.natAbs
        if g.isInf then none else some g
      else some (f / powerOfTen e.natAbs)
    else if f == 0 then some f
    else if 0 ≤ e then none
    else scale steps (f / powerOfTen greatestPower) (e + greatestPower)

/-- Steps enough to scale any significand: two divisions already leave nothing of it. -/
def scalingSteps : Nat := 4

/-- The value of a literal; nothing if it is out of the binary64 range. -/
def value? (l : Literal) : Option Numeral :=
  let (significand, dropped) := absorb 0 l.whole
  match l.fraction, l.exponent, dropped with
  | none, none, 0 =>
    if !l.negative then some (.integer significand)
    else if significand = 0 ∨ greatestNegated < significand then
      some (.real (-significand.toUInt64.toFloat))
    else some (.integer (-significand))
  | _, _, _ =>
    let fraction := l.fraction.getD []
    let (significand, left) := absorb significand fraction
    let exponent : Int :=
      match l.exponent with
      | none => 0
      | some (true, ds) => -ofDigits ds
      | some (false, ds) => ofDigits ds
    let absorbed := fraction.length - left
    (scale scalingSteps significand.toUInt64.toFloat (dropped - absorbed + exponent)).map fun f =>
      .real (if l.negative then -f else f)

end Literal

end KernelDispatch.Json
