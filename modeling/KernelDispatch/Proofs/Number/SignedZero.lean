import KernelDispatch.Proofs.Number.Pattern

/-!
# The two zeros of binary32 numbers

Only one pattern denotes negative zero. So adding to negative zero and adding to zero make a
difference for negative zero alone, and a sum shows which of the two it was started from exactly if
all its terms are negative zeros.
-/

namespace KernelDispatch.Binary32

open Float.Model.UnpackedFloat
open Float.Model.Format (binary32)

variable {x : Binary32}

/-- Only the pattern of a zero is the one that its value is packed to. -/
theorem toNat_of_unpack_pack_eq_zero {b : BitVec binary32.numBits} {s : Sign}
    (h : Float.Model.UnpackedFloat.unpack binary32
      (pack binary32 (Float.Model.UnpackedFloat.unpack binary32 b)) = .zero s) :
    b.toNat = signBit s := by
  have hpacked := toNat_of_unpack_eq_zero h
  have hinfinity : 0 < infinity := by decide
  cases hvalue : Float.Model.UnpackedFloat.unpack binary32 b with
  | zero s' =>
    rw [hvalue, toNat_pack_zero] at hpacked
    rw [toNat_of_unpack_eq_zero hvalue, hpacked]
  | infinity s' =>
    rw [hvalue, toNat_pack_infinity] at hpacked
    cases s <;> cases s' <;> exact absurd hpacked (by decide)
  | notANumber =>
    rw [hvalue] at hpacked
    cases s <;> exact absurd hpacked (by decide)
  | finite s' n t hn =>
    have hcanonical := canonical_of_unpack_eq_finite hvalue
    rw [hvalue, toNat_pack_finite hcanonical hn] at hpacked
    have hplace : 0 < place n t := Nat.lt_of_lt_of_le hn (Nat.le_add_right n _)
    have hlast : infinity < 2 ^ 31 := by decide
    cases s <;> cases s' <;> simp only [signBit] at hpacked <;> omega

/-- Only one pattern denotes negative zero. -/
theorem eq_negZero_of_unpack (h : x.unpack = .zero .negative) : x = negZero := by
  obtain ⟨bits⟩ := x
  have hbits : bits.toNat = signBit .negative := toNat_of_unpack_pack_eq_zero h
  exact congrArg Binary32.mk (UInt32.toNat_inj.mp hbits)

/-! ### Adding to a zero -/

/-- Negative zero is neutral for positive zero. -/
theorem zero_add_negZero : zero + negZero = zero := rfl

/-- Negative zero is neutral for itself. -/
theorem negZero_add_negZero : negZero + negZero = negZero := rfl

/-- Only negative zero shows to which of the two zeros it is added. -/
theorem negZero_add_of_ne (hx : x ≠ negZero) : negZero + x = zero + x := by
  have hunpack : x.unpack ≠ .zero .negative := fun h => hx (eq_negZero_of_unpack h)
  change ofUnpacked (.add binary32 (.zero .negative) x.unpack) =
    ofUnpacked (.add binary32 (.zero .positive) x.unpack)
  generalize x.unpack = u at hunpack ⊢
  cases u with
  | zero s =>
    cases s with
    | negative => exact absurd rfl hunpack
    | positive => rfl
  | infinity s => rfl
  | notANumber => rfl
  | finite s m e hm => rfl

/-- The sum of numbers, added one after another to a first one. -/
def total (start : Binary32) (xs : List Binary32) : Binary32 := xs.foldl (· + ·) start

/-- A sum adds its first term first. -/
theorem total_cons (start x : Binary32) (xs : List Binary32) :
    total start (x :: xs) = total (start + x) xs := rfl

/-- Negative zeros leave the zero that a sum is started from. -/
theorem total_of_forall_negZero {start : Binary32} (hstart : start + negZero = start)
    {xs : List Binary32} (hxs : ∀ x ∈ xs, x = negZero) : total start xs = start := by
  induction xs with
  | nil => rfl
  | cons x xs ih =>
    obtain ⟨hx, hrest⟩ := List.forall_mem_cons.mp hxs
    rw [total_cons, hx, hstart, ih hrest]

/-- One other number is enough for a sum not to show from which zero it was started. -/
theorem total_negZero_eq_total_zero {xs : List Binary32} (hxs : ∃ x ∈ xs, x ≠ negZero) :
    total negZero xs = total zero xs := by
  induction xs with
  | nil => simp at hxs
  | cons x xs ih =>
    rw [total_cons, total_cons]
    by_cases hx : x = negZero
    · subst hx
      rw [negZero_add_negZero, zero_add_negZero]
      exact ih (by simpa using hxs)
    · rw [negZero_add_of_ne hx]

end KernelDispatch.Binary32
