/-!
# Unsigned decimal numbers

One or more decimal digits, after an optional plus sign, that denote a number below a bound. The
text is read from left to right and the first fault counts.
-/

namespace KernelDispatch.Text

/-- Why a text is no number below the bound. -/
inductive UnsignedError where
  | empty
  | invalidDigit
  | tooLarge
deriving DecidableEq, Inhabited, Repr

/-- The wording of a number fault. -/
def UnsignedError.message : UnsignedError → String
  | empty => "cannot parse integer from empty string"
  | invalidDigit => "invalid digit found in string"
  | tooLarge => "number too large to fit in target type"

/-- Append digits to a number that must stay below the bound. -/
def appendDigits (bound n : Nat) : List Char → Except UnsignedError Nat
  | [] => .ok n
  | c :: rest =>
    if !c.isDigit then .error .invalidDigit
    else
      let n := n * 10 + (c.toNat - '0'.toNat)
      if n < bound then appendDigits bound n rest else .error .tooLarge

/-- Read a number below a bound. -/
def unsigned (bound : Nat) (cs : List Char) : Except UnsignedError Nat :=
  match cs with
  | [] => .error .empty
  | ['+'] => .error .invalidDigit
  | '+' :: rest => appendDigits bound 0 rest
  | _ => appendDigits bound 0 cs

end KernelDispatch.Text
