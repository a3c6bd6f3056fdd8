import KernelDispatch.Json.Number

/-!
# Integers among number literals

A literal without fraction and exponent is an integer if it is in the range of signed or of unsigned
numbers of 64 bits, and no negative zero. The reader finds these integers and no others.
-/

namespace KernelDispatch.Json.Literal

variable {l : Literal} {ds : List Nat} {s : Nat} {n : Int}

/-- Digits only enlarge the significand they are appended to. -/
theorem le_foldl_digits (s : Nat) (ds : List Nat) : s ≤ ds.foldl (fun n d => n * 10 + d) s := by
  induction ds generalizing s with
  | nil => exact Nat.le_refl s
  | cons d ds ih =>
    have hstep : s ≤ s * 10 + d := by omega
    exact Nat.le_trans hstep (ih (s * 10 + d))

/-- Digits that leave the significand below the bound are all taken. -/
theorem absorb_of_lt (h : ds.foldl (fun n d => n * 10 + d) s < significandBound) :
    absorb s ds = (ds.foldl (fun n d => n * 10 + d) s, 0) := by
  induction ds generalizing s with
  | nil => rfl
  | cons d ds ih =>
    have hstep : s * 10 + d < significandBound := Nat.lt_of_le_of_lt (le_foldl_digits _ ds) h
    rw [absorb, if_pos hstep, ih h, List.foldl_cons]

/-- Some digit is left over if they would take the significand to the bound. -/
theorem absorb_snd_ne_zero (hs : s < significandBound)
    (h : significandBound ≤ ds.foldl (fun n d => n * 10 + d) s) : (absorb s ds).2 ≠ 0 := by
  induction ds generalizing s with
  | nil => exact absurd hs (Nat.not_lt_of_le h)
  | cons d ds ih =>
    rw [absorb]
    split
    · next hstep => exact ih hstep h
    · exact Nat.succ_ne_zero _

/-- What the digits of a literal denote with its sign. -/
def signed (l : Literal) : Int := if l.negative then -(ofDigits l.whole : Int) else ofDigits l.whole

/-- Whether a literal is an integer. -/
structure IsInteger (l : Literal) (n : Int) : Prop where
  fraction : l.fraction = none
  exponent : l.exponent = none
  value : l.signed = n
  notNegativeZero : ¬ (l.negative ∧ n = 0)
  lower : Int64.minValue.toInt ≤ n
  upper : n < UInt64.size

/-- A literal denotes at most one integer. -/
theorem IsInteger.unique {m : Int} (hn : l.IsInteger n) (hm : l.IsInteger m) : n = m :=
  hn.value.symm.trans hm.value

/-- A literal with fraction or exponent, or with more digits than fit, is no integer. -/
theorem value?_ne_integer_of_scaled
    (h : ¬ (l.fraction = none ∧ l.exponent = none ∧ (absorb 0 l.whole).2 = 0)) :
    l.value? ≠ some (.integer n) := by
  intro hvalue
  simp only [value?] at hvalue
  split at hvalue
  · next hfraction hexponent hdropped => exact h ⟨hfraction, hexponent, hdropped⟩
  · obtain ⟨x, -, hx⟩ := Option.map_eq_some_iff.mp hvalue
    cases hx

/-- The value of a literal without fraction and exponent whose digits fit. -/
theorem value?_of_fits (hfraction : l.fraction = none) (hexponent : l.exponent = none)
    (hfits : ofDigits l.whole < significandBound) :
    l.value? =
      if !l.negative then some (.integer (ofDigits l.whole))
      else if ofDigits l.whole = 0 ∨ greatestNegated < ofDigits l.whole then
        some (.real (-(ofDigits l.whole).toUInt64.toFloat))
      else some (.integer (-(ofDigits l.whole : Int))) := by
  have habsorb : absorb 0 l.whole = (ofDigits l.whole, 0) := absorb_of_lt hfits
  simp only [value?, habsorb, hfraction, hexponent]

/-- The integers among the literals. -/
theorem value?_eq_integer_iff : l.value? = some (.integer n) ↔ l.IsInteger n := by
  have hlower : Int64.minValue.toInt = -(greatestNegated : Int) := by decide
  have hgreatest : greatestNegated < significandBound := by decide
  by_cases hwhole : l.fraction = none ∧ l.exponent = none ∧ ofDigits l.whole < significandBound
  · obtain ⟨hfraction, hexponent, hfits⟩ := hwhole
    have hupper : (ofDigits l.whole : Int) < UInt64.size := Int.ofNat_lt.mpr hfits
    rw [value?_of_fits hfraction hexponent hfits]
    cases hnegative : l.negative with
    | false =>
      have hsigned : l.signed = ofDigits l.whole := by rw [signed, hnegative]; rfl
      simp only [Bool.not_false, if_true, Option.some.injEq, Numeral.integer.injEq]
      refine ⟨?_, fun h => hsigned.symm.trans h.value⟩
      rintro rfl
      exact ⟨hfraction, hexponent, hsigned, by simp [hnegative], by omega, hupper⟩
    | true =>
      have hsigned : l.signed = -(ofDigits l.whole : Int) := by rw [signed, hnegative]; rfl
      simp only [Bool.not_true, Bool.false_eq_true, if_false]
      split
      · next hreal =>
        refine iff_of_false nofun fun h => ?_
        have hvalue := hsigned.symm.trans h.value
        have hzero : n ≠ 0 := fun hn => h.notNegativeZero ⟨hnegative, hn⟩
        have hlow := h.lower
        omega
      · next hinteger =>
        simp only [Option.some.injEq, Numeral.integer.injEq]
        refine ⟨?_, fun h => hsigned.symm.trans h.value⟩
        rintro rfl
        exact ⟨hfraction, hexponent, hsigned, by omega, by omega, by omega⟩
  · refine iff_of_false (value?_ne_integer_of_scaled fun h => hwhole ⟨h.1, h.2.1, ?_⟩) fun h =>
      hwhole ⟨h.fraction, h.exponent, ?_⟩
    · refine Nat.lt_of_not_le fun hlarge => absorb_snd_ne_zero ?_ hlarge h.2.2
      decide
    · have hvalue := h.value
      have hlow := h.lower
      have hhigh := h.upper
      rw [signed] at hvalue
      have hbound : significandBound = UInt64.size := rfl
      split at hvalue <;> omega

end KernelDispatch.Json.Literal
