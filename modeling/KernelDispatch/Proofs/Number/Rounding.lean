import KernelDispatch.Proofs.Number.Pattern
import Mathlib.Algebra.Order.Field.Power
import Mathlib.Order.Monotone.Basic
import Mathlib.Tactic.Linarith
import Mathlib.Tactic.Positivity
import Mathlib.Tactic.Ring

/-!
# Rounding to binary32 numbers

A number is rounded to the pattern whose magnitude is nearest to its own, and to the one with an even
significand if two are. Where the numbers of the format end, infinity stands for the power of two
that would come next.

Rounding shifts the significand to the exponent that the result is to have, keeps of the bits that
fall off whether they are less or more than one half, and rounds up or down by that. Both candidates
stand at neighbouring places and have the number between them.
-/

namespace KernelDispatch.Binary32

open Float.Model (UnpackedFloat totalExponent)
open Float.Model.UnpackedFloat
open Float.Model.Format (binary32)

variable {s : Sign} {n m k : Nat} {t e : Int} {q x : ℚ}

/-! ### Magnitudes -/

/-- The magnitude of the number at a place: a significand below `2 ^ 23` at the least exponent, or one
with an implicit leading bit. Infinity has the magnitude that would come next. -/
def magnitude (k : Nat) : ℚ :=
  if k < 2 ^ 23 then k * 2 ^ (-149 : Int)
  else (2 ^ 23 + k % 2 ^ 23 : Nat) * 2 ^ ((k / 2 ^ 23 : Nat) - 150 : Int)

/-- The place of a significand and an exponent has their magnitude, also when the significand is
just too long. -/
theorem magnitude_place (hn : n ≤ 2 ^ 24) (ht : -149 ≤ t) (hnormal : n < 2 ^ 23 → t = -149) :
    magnitude (place n t) = n * 2 ^ t := by
  obtain ⟨d, hd⟩ : ∃ d : Nat, t + 149 = d := ⟨(t + 149).toNat, by omega⟩
  have hplace : place n t = n + d * 2 ^ 23 := by rw [place, hd, Int.toNat_natCast]
  rw [hplace, magnitude]
  rcases Nat.lt_or_ge n (2 ^ 23) with hsmall | hlarge
  · obtain rfl := hnormal hsmall
    obtain rfl : d = 0 := by omega
    rw [Nat.zero_mul, Nat.add_zero, if_pos hsmall]
  · rw [if_neg (by omega)]
    rcases hn.eq_or_lt with rfl | hlt
    · have hquotient : (2 ^ 24 + d * 2 ^ 23) / 2 ^ 23 = d + 2 := by omega
      have hremainder : (2 ^ 24 + d * 2 ^ 23) % 2 ^ 23 = 0 := by omega
      have hexponent : ((d + 2 : Nat) - 150 : Int) = t + 1 := by omega
      rw [hquotient, hremainder, hexponent, zpow_add_one₀ two_ne_zero]
      push_cast
      ring
    · have hquotient : (n + d * 2 ^ 23) / 2 ^ 23 = d + 1 := by omega
      have hremainder : 2 ^ 23 + (n + d * 2 ^ 23) % 2 ^ 23 = n := by omega
      have hexponent : ((d + 1 : Nat) - 150 : Int) = t := by omega
      rw [hquotient, hremainder, hexponent]

/-- Every place is that of a significand and an exponent. -/
theorem exists_place_eq (k : Nat) : ∃ n t, Canonical n t ∧ place n t = k := by
  rcases Nat.lt_or_ge k (2 ^ 23) with hsmall | hlarge
  · refine ⟨k, -149, ⟨by omega, le_rfl, fun _ => rfl⟩, ?_⟩
    rw [place]
    omega
  · refine ⟨2 ^ 23 + k % 2 ^ 23, (k / 2 ^ 23 : Nat) - 150, ⟨by omega, by omega, by omega⟩, ?_⟩
    rw [place]
    omega

/-- The next significand stands at the next place. -/
theorem place_succ (n : Nat) (t : Int) : place (n + 1) t = place n t + 1 := by
  rw [place, place]
  omega

/-- The magnitudes of the two places between which a significand lies. -/
theorem Canonical.magnitude_eq (h : Canonical n t) :
    magnitude (place n t) = n * 2 ^ t ∧ magnitude (place n t + 1) = (n + 1) * 2 ^ t := by
  have hlt := h.lt
  have hsucc : n + 1 < 2 ^ 23 → t = -149 := fun hn => h.eq_least (by omega)
  refine ⟨magnitude_place hlt.le h.least_le h.eq_least, ?_⟩
  rw [← place_succ, magnitude_place hlt h.least_le hsucc]
  push_cast
  rfl

/-- Magnitudes grow with the places. -/
theorem strictMono_magnitude : StrictMono magnitude := by
  refine strictMono_nat_of_lt_succ fun k => ?_
  obtain ⟨n, t, h, rfl⟩ := exists_place_eq k
  obtain ⟨hlow, hhigh⟩ := h.magnitude_eq
  have hpow : (0 : ℚ) < 2 ^ t := by positivity
  rw [hlow, hhigh]
  linarith

/-! ### The nearest number -/

/-- Whether a place is the one whose magnitude is nearest to a number: no other one up to infinity is
nearer, and if another one is as near, it is an even one. -/
structure IsNearest (q : ℚ) (k : Nat) : Prop where
  le_infinity : k ≤ infinity
  nearest : ∀ j ≤ infinity, |q - magnitude k| ≤ |q - magnitude j|
  even : ∀ j ≤ infinity, j ≠ k → |q - magnitude j| = |q - magnitude k| → k % 2 = 0

/-- Of two even places one is not the nearest, as there is a third one between them. -/
theorem IsNearest.le {j : Nat} (hk : IsNearest q k) (hj : IsNearest q j) : k ≤ j := by
  by_contra! hlt
  have hsame : |q - magnitude j| = |q - magnitude k| :=
    le_antisymm (hj.nearest k hk.le_infinity) (hk.nearest j hj.le_infinity)
  have hkeven := hk.even j hj.le_infinity hlt.ne hsame
  have hjeven := hj.even k hk.le_infinity hlt.ne' hsame.symm
  have hbelow : magnitude j < magnitude (j + 1) := strictMono_magnitude (Nat.lt_succ_self j)
  have habove : magnitude (j + 1) < magnitude k := strictMono_magnitude (by omega)
  have hbetween := hj.nearest (j + 1) (by have := hk.le_infinity; omega)
  rcases abs_cases (q - magnitude j) with ⟨h, _⟩ | ⟨h, _⟩ <;>
    rcases abs_cases (q - magnitude k) with ⟨h', _⟩ | ⟨h', _⟩ <;>
    rcases abs_cases (q - magnitude (j + 1)) with ⟨h'', _⟩ | ⟨h'', _⟩ <;>
    linarith

/-- There is one nearest place. -/
theorem IsNearest.unique {j : Nat} (hk : IsNearest q k) (hj : IsNearest q j) : k = j :=
  le_antisymm (hk.le hj) (hj.le hk)

/-! ### Rounding a significand -/

/-- What a number with the integer `n` below it is rounded to: to `n` up to one half, to the next
integer from there on, and to the even one of the two if it is just in the middle. -/
inductive Rounded (x : ℚ) (n : Nat) : Nat → Prop where
  | down (half : x ≤ n + 1 / 2) (even : x = n + 1 / 2 → n % 2 = 0) : Rounded x n n
  | up (half : n + 1 / 2 ≤ x) (odd : x = n + 1 / 2 → n % 2 = 1) : Rounded x n (n + 1)

/-- Rounding is to one of two neighbours. -/
theorem Rounded.bounds {r : Nat} (h : Rounded x n r) : n ≤ r ∧ r ≤ n + 1 := by
  cases h with
  | down => exact ⟨le_rfl, Nat.le_succ n⟩
  | up => exact ⟨Nat.le_succ n, le_rfl⟩

/-- Beyond the last place infinity is nearest. -/
theorem isNearest_infinity (h : magnitude infinity ≤ q) : IsNearest q infinity where
  le_infinity := le_rfl
  nearest j hj := by
    have hmono := strictMono_magnitude.monotone hj
    rw [abs_of_nonneg (by linarith), abs_of_nonneg (by linarith)]
    linarith
  even _ _ _ _ := rfl

/-- Of two places with a number between them, the lower one is nearest up to the middle. -/
theorem isNearest_low (hk : k < infinity) (hlow : magnitude k ≤ q)
    (hhalf : 2 * q ≤ magnitude k + magnitude (k + 1))
    (heven : 2 * q = magnitude k + magnitude (k + 1) → k % 2 = 0) : IsNearest q k := by
  have hself : |q - magnitude k| = q - magnitude k := abs_of_nonneg (by linarith)
  refine ⟨hk.le, fun j _ => ?_, fun j _ hne hsame => ?_⟩
  · rcases Nat.lt_or_ge k j with hlt | hle
    · have hmono := strictMono_magnitude.monotone (show k + 1 ≤ j from hlt)
      rw [hself, abs_sub_comm, abs_of_nonneg (by linarith)]
      linarith
    · have hmono := strictMono_magnitude.monotone hle
      rw [hself, abs_of_nonneg (by linarith)]
      linarith
  · rcases Nat.lt_or_ge k j with hlt | hle
    · have hmono := strictMono_magnitude.monotone (show k + 1 ≤ j from hlt)
      rw [hself, abs_sub_comm, abs_of_nonneg (by linarith)] at hsame
      exact heven (by linarith)
    · have hmono := strictMono_magnitude (lt_of_le_of_ne hle hne)
      rw [hself, abs_of_nonneg (by linarith)] at hsame
      linarith

/-- Of two places with a number between them, the higher one is nearest from the middle on. -/
theorem isNearest_high (hk : k < infinity) (hhigh : q < magnitude (k + 1))
    (hhalf : magnitude k + magnitude (k + 1) ≤ 2 * q)
    (hodd : 2 * q = magnitude k + magnitude (k + 1) → k % 2 = 1) : IsNearest q (k + 1) := by
  have hself : |q - magnitude (k + 1)| = magnitude (k + 1) - q := by
    rw [abs_sub_comm, abs_of_nonneg (by linarith)]
  refine ⟨hk, fun j _ => ?_, fun j _ hne hsame => ?_⟩
  · rcases Nat.lt_or_ge k j with hlt | hle
    · have hmono := strictMono_magnitude.monotone (show k + 1 ≤ j from hlt)
      rw [hself, abs_sub_comm, abs_of_nonneg (by linarith)]
      linarith
    · have hmono := strictMono_magnitude.monotone hle
      rw [hself, abs_of_nonneg (by linarith)]
      linarith
  · rcases Nat.lt_or_ge k j with hlt | hle
    · have hmono := strictMono_magnitude (lt_of_le_of_ne (show k + 1 ≤ j from hlt) hne.symm)
      rw [hself, abs_sub_comm, abs_of_nonneg (by linarith)] at hsame
      linarith
    · have hmono := strictMono_magnitude.monotone hle
      rw [hself, abs_of_nonneg (by linarith)] at hsame
      have := hodd (by linarith)
      omega

/-- A significand that is rounded stands at the nearest place. -/
theorem isNearest_of_rounded {r : Nat} (h : Canonical n t) (hlow : (n : ℚ) ≤ x)
    (hhigh : x < n + 1) (hr : Rounded x n r) :
    IsNearest (x * 2 ^ t) (min (place r t) infinity) := by
  obtain ⟨hbelow, habove⟩ := h.magnitude_eq
  have hpow : (0 : ℚ) < 2 ^ t := by positivity
  have hq : magnitude (place n t) ≤ x * 2 ^ t := hbelow ▸ mul_le_mul_of_nonneg_right hlow hpow.le
  have hq' : x * 2 ^ t < magnitude (place n t + 1) :=
    habove ▸ mul_lt_mul_of_pos_right hhigh hpow
  -- the middle between both places, in units of the last bit
  have hmiddle : magnitude (place n t) + magnitude (place n t + 1) = 2 * ((n + 1 / 2) * 2 ^ t) := by
    rw [hbelow, habove]
    ring
  have hparity : place n t % 2 = n % 2 := by
    rw [place]
    omega
  rcases Nat.lt_or_ge (place n t) infinity with hplace | hfull
  · cases hr with
    | down hhalf heven =>
      rw [Nat.min_eq_left hplace.le]
      refine isNearest_low hplace hq ?_ fun heq => hparity.trans (heven ?_)
      · have := mul_le_mul_of_nonneg_right hhalf hpow.le
        linarith
      · rw [hmiddle] at heq
        exact mul_right_cancel₀ hpow.ne' (by linarith)
    | up hhalf hodd =>
      rw [place_succ, Nat.min_eq_left hplace]
      refine isNearest_high hplace hq' ?_ fun heq => hparity.trans (hodd ?_)
      · have := mul_le_mul_of_nonneg_right hhalf hpow.le
        linarith
      · rw [hmiddle] at heq
        exact mul_right_cancel₀ hpow.ne' (by linarith)
  · have hle : place n t ≤ place r t := by
      cases hr with
      | down => exact le_rfl
      | up => exact place_succ n t ▸ Nat.le_succ _
    rw [Nat.min_eq_right (hfull.trans hle)]
    exact isNearest_infinity ((strictMono_magnitude.monotone hfull).trans hq)

/-! ### Shifting a significand -/

/-- What a significand and the two bits behind it say of the number they were taken from: whether it
is the significand, less than one half more, just one half more, or still more. -/
def Represents (em : ExtendedMantissa) (x : ℚ) : Prop :=
  match em.roundBit, em.stickyBit with
  | false, false => x = em.mantissa
  | false, true => em.mantissa < x ∧ x < em.mantissa + 1 / 2
  | true, false => x = em.mantissa + 1 / 2
  | true, true => em.mantissa + 1 / 2 < x ∧ x < em.mantissa + 1

namespace Represents

variable {em : ExtendedMantissa}

/-- A significand with nothing behind it. -/
theorem exact (m : Nat) : Represents (.ofMantissaAndAccuracy m .exact) m := rfl

/-- With neither bit set the number is the significand, and otherwise it lies behind it. -/
theorem eq_or_lt (h : Represents em x) :
    if em.roundBit || em.stickyBit then (em.mantissa : ℚ) < x ∧ x < em.mantissa + 1
    else x = em.mantissa := by
  obtain ⟨n, round, sticky⟩ := em
  cases round with
  | false =>
    cases sticky with
    | false => exact h
    | true => exact ⟨h.1, h.2.trans (by linarith)⟩
  | true =>
    cases sticky with
    | false =>
      have hhalf : x = n + 1 / 2 := h
      exact ⟨by linarith, by linarith⟩
    | true => exact ⟨lt_trans (by linarith) h.1, h.2⟩

/-- The significand is the integer below the number. -/
theorem bounds (h : Represents em x) : (em.mantissa : ℚ) ≤ x ∧ x < em.mantissa + 1 := by
  have hx := h.eq_or_lt
  split at hx
  · exact ⟨hx.1.le, hx.2⟩
  · exact ⟨hx.ge, hx.trans_lt (lt_add_one _)⟩

/-- The two bits decide how the number is rounded. -/
theorem rounded (h : Represents em x) : Rounded x em.mantissa em.roundedMantissa := by
  obtain ⟨n, round, sticky⟩ := em
  cases round <;> cases sticky <;> simp only [Represents] at h
  · exact .down (by linarith) fun _ => by linarith
  · exact .down (by linarith) fun _ => by linarith
  · have heven : ExtendedMantissa.roundedMantissa ⟨n, true, false⟩ = n + n % 2 := rfl
    rw [heven]
    rcases Nat.mod_two_eq_zero_or_one n with hn | hn
    · rw [hn]
      exact .down h.le fun _ => hn
    · rw [hn]
      exact .up h.ge fun _ => hn
  · exact .up (by linarith) fun _ => by linarith

/-- Shifting by one bit halves the number. -/
theorem shiftRightOne (h : Represents em x) : Represents em.shiftRightOne (x / 2) := by
  obtain ⟨n, round, sticky⟩ := em
  have hsplit : ((n % 2 : Nat) : ℚ) + 2 * ((n / 2 : Nat) : ℚ) = n := by
    exact_mod_cast Nat.mod_add_div n 2
  have hshift : ExtendedMantissa.shiftRightOne ⟨n, round, sticky⟩ =
      ⟨n / 2, n % 2 != 0, round || sticky⟩ := rfl
  have hx := h.eq_or_lt
  rw [hshift]
  -- the last bit of the significand becomes the one bit, and both bits together the other
  cases hbits : round || sticky with
  | false =>
    have hx : x = n := by simpa only [hbits, Bool.false_eq_true, if_false] using hx
    rcases Nat.mod_two_eq_zero_or_one n with hn | hn
    · rw [hn, Nat.cast_zero] at hsplit
      rw [hn]
      change x / 2 = (n / 2 : Nat)
      linarith
    · rw [hn, Nat.cast_one] at hsplit
      rw [hn]
      change x / 2 = (n / 2 : Nat) + 1 / 2
      linarith
  | true =>
    obtain ⟨hlow, hhigh⟩ : (n : ℚ) < x ∧ x < n + 1 := by simpa only [hbits, if_true] using hx
    rcases Nat.mod_two_eq_zero_or_one n with hn | hn
    · rw [hn, Nat.cast_zero] at hsplit
      rw [hn]
      change (n / 2 : Nat) < x / 2 ∧ x / 2 < (n / 2 : Nat) + 1 / 2
      exact ⟨by linarith, by linarith⟩
    · rw [hn, Nat.cast_one] at hsplit
      rw [hn]
      change (n / 2 : Nat) + 1 / 2 < x / 2 ∧ x / 2 < (n / 2 : Nat) + 1
      exact ⟨by linarith, by linarith⟩

/-- Shifting by some bits divides the number by a power of two. -/
theorem shiftRight (h : Represents em x) (n : Nat) : Represents (em >>> n) (x / 2 ^ n) := by
  change Represents (n.repeat ExtendedMantissa.shiftRightOne em) _
  induction n with
  | zero => simpa [Nat.repeat] using h
  | succ n ih =>
    rw [pow_succ, ← div_div]
    exact ih.shiftRightOne

end Represents

/-! ### Rounding in the format -/

/-- The exponent that a number is written with: the one that makes its significand twenty-four bits
long, but not below the least exponent. -/
theorem targetExponent_eq (m : Nat) (e : Int) :
    binary32.targetExponent (totalExponent m e) = Max.max ((m.log2 : Int) + e - 23) (-149) := by
  have hbits : (binary32.mantissaBits : Int) = 24 := rfl
  have hleast : binary32.minExponent = -149 := rfl
  unfold Float.Model.Format.targetExponent totalExponent
  omega

/-- The number of a significand and an exponent, if there is one. -/
def ofParts (s : Sign) (n : Nat) (t : Int) : UnpackedFloat :=
  if h : n = 0 then .zero s else .finite s n t (Nat.pos_of_ne_zero h)

/-- A number with the exponent that is asked for, its significand rounded before: one that has become
too long is shifted once more. -/
def settled (s : Sign) (r : Nat) (t : Int) : UnpackedFloat :=
  let final := shiftToTargetExponent binary32 r t .exact
  ofParts s final.1.mantissa final.2

/-- Rounding shifts to the exponent, rounds and then settles the significand. -/
theorem roundWithAccuracy_eq_settled (s : Sign) (m : Nat) (e : Int) :
    roundWithAccuracy binary32 s m e .exact =
      settled s (shiftToTargetExponent binary32 m e .exact).1.roundedMantissa
        (shiftToTargetExponent binary32 m e .exact).2 := rfl

/-- The number of a significand and an exponent is packed to their place, or to the last one. -/
theorem toNat_pack_ofParts (h : Canonical n t) :
    (pack binary32 (ofParts s n t)).toNat = signBit s + min (place n t) infinity := by
  by_cases hzero : n = 0
  · subst hzero
    obtain rfl := h.eq_least (by decide)
    exact toNat_pack_zero s
  · rw [ofParts, dif_neg hzero]
    exact toNat_pack_finite h _

/-- Shifting to an exponent that is not below the present one. -/
theorem shiftToTargetExponent_eq (h : t = binary32.targetExponent (totalExponent m e)) :
    shiftToTargetExponent binary32 m e .exact =
      (ExtendedMantissa.ofMantissaAndAccuracy m .exact >>> (t - e).toNat, e + (t - e).toNat) := by
  subst h
  rfl

/-- A rounded significand is packed to its place, or to the last one. -/
theorem toNat_pack_settled {r : Nat} (hr : r ≤ 2 ^ 24) (ht : -149 ≤ t)
    (hnormal : r < 2 ^ 23 → t = -149) :
    (pack binary32 (settled s r t)).toNat = signBit s + min (place r t) infinity := by
  rcases hr.eq_or_lt with rfl | hlt
  · have htarget : t + 1 = binary32.targetExponent (totalExponent (2 ^ 24) t) := by
      rw [targetExponent_eq, Nat.log2_two_pow]
      omega
    have hfinal : settled s (2 ^ 24) t = ofParts s (2 ^ 23) (t + 1) := by
      have hone : t + 1 - t = 1 := by omega
      rw [settled, shiftToTargetExponent_eq htarget, hone]
      rfl
    have hplace : place (2 ^ 23) (t + 1) = place (2 ^ 24) t := by
      rw [place, place]
      omega
    rw [hfinal, toNat_pack_ofParts ⟨by omega, by omega, by omega⟩, hplace]
  · have hlog : r.log2 ≤ 23 := by
      rcases Nat.eq_zero_or_pos r with rfl | hpos
      · decide
      · exact Nat.le_of_lt_succ ((Nat.log2_lt hpos.ne').mpr hlt)
    have hshift : (binary32.targetExponent (totalExponent r t) - t).toNat = 0 := by
      rw [targetExponent_eq]
      omega
    have hfinal : settled s r t = ofParts s r (t + (0 : Nat)) := by
      rw [settled, shiftToTargetExponent_eq rfl, hshift]
      rfl
    rw [hfinal, Int.natCast_zero, Int.add_zero, toNat_pack_ofParts ⟨hlt, ht, hnormal⟩]

/-- A factor of two makes a number one bit longer. -/
theorem log2_shiftLeft (hm : 0 < m) (n : Nat) : (m <<< n).log2 = m.log2 + n := by
  rw [Nat.shiftLeft_eq, Nat.log2_eq_iff (Nat.mul_pos hm (Nat.two_pow_pos n)).ne']
  have hlow := Nat.log2_self_le hm.ne'
  have hhigh := Nat.lt_log2_self (n := m)
  rw [Nat.pow_add, Nat.add_right_comm, Nat.pow_add]
  exact ⟨Nat.mul_le_mul_right _ hlow, Nat.mul_lt_mul_of_pos_right hhigh (Nat.two_pow_pos n)⟩

/-- Taking bits off a number to leave a significand of an exponent. -/
theorem represents_shift (h : e ≤ t) :
    Represents (ExtendedMantissa.ofMantissaAndAccuracy m .exact >>> (t - e).toNat)
      (m * 2 ^ e / 2 ^ t) := by
  have hshift := (Represents.exact m).shiftRight (t - e).toNat
  have hpow : (2 : ℚ) ^ t = 2 ^ e * 2 ^ (t - e).toNat := by
    rw [← zpow_natCast, ← zpow_add₀ two_ne_zero]
    congr 1
    omega
  rwa [hpow, mul_comm (m : ℚ), mul_div_mul_left _ _ (zpow_ne_zero e two_ne_zero)]

/-- A significand with the exponent that it is to be written with is twenty-four bits long, unless
the exponent is the least one. -/
theorem significand_bounds (hm : 0 < m) (ht : t = Max.max ((m.log2 : Int) + e - 23) (-149)) :
    (m : ℚ) * 2 ^ e / 2 ^ t < 2 ^ 24 ∧ (t ≠ -149 → 2 ^ 23 ≤ (m : ℚ) * 2 ^ e / 2 ^ t) := by
  have hpow : (0 : ℚ) < 2 ^ t := by positivity
  have hpow' : (0 : ℚ) < 2 ^ e := by positivity
  have hscale (n : Nat) : (2 : ℚ) ^ n * 2 ^ t = 2 ^ ((n : Int) + t) := by
    rw [zpow_add₀ two_ne_zero, zpow_natCast]
  have hlow : (2 : ℚ) ^ m.log2 ≤ m := by exact_mod_cast Nat.log2_self_le hm.ne'
  have hhigh : (m : ℚ) < 2 ^ (m.log2 + 1) := by exact_mod_cast Nat.lt_log2_self (n := m)
  constructor
  · rw [div_lt_iff₀ hpow, hscale]
    calc (m : ℚ) * 2 ^ e < 2 ^ (m.log2 + 1) * 2 ^ e := mul_lt_mul_of_pos_right hhigh hpow'
      _ = 2 ^ (((m.log2 + 1 : Nat) : Int) + e) := by rw [zpow_add₀ two_ne_zero, zpow_natCast]
      _ ≤ 2 ^ (((24 : Nat) : Int) + t) := zpow_le_zpow_right₀ one_le_two (by omega)
  · intro hne
    rw [le_div_iff₀ hpow, hscale]
    calc (2 : ℚ) ^ (((23 : Nat) : Int) + t) = 2 ^ ((m.log2 : Int) + e) := by
          congr 1
          omega
      _ = 2 ^ m.log2 * 2 ^ e := by rw [zpow_add₀ two_ne_zero, zpow_natCast]
      _ ≤ m * 2 ^ e := mul_le_mul_of_nonneg_right hlow hpow'.le

/-- A significand that is taken from a number with the exponent that this is to be written with, is
written as the format has it. -/
theorem Represents.canonical {em : ExtendedMantissa} (hm : 0 < m)
    (ht : t = Max.max ((m.log2 : Int) + e - 23) (-149)) (h : Represents em (m * 2 ^ e / 2 ^ t)) :
    Canonical em.mantissa t := by
  obtain ⟨hlow, hhigh⟩ := h.bounds
  obtain ⟨hlt, hnormal⟩ := significand_bounds (m := m) (e := e) hm ht
  refine ⟨?_, by omega, fun hsmall => by_contra fun hne => ?_⟩
  · exact_mod_cast hlow.trans_lt hlt
  · have hsucc : (em.mantissa : ℚ) + 1 ≤ 2 ^ 23 := by exact_mod_cast hsmall
    exact absurd (hnormal hne) (not_le.mpr (hhigh.trans_le hsucc))

/-- A significand made longer stands for the same number at a lower exponent. -/
theorem shiftLeft_mul_zpow (m d : Nat) (e : Int) :
    ((m <<< d : Nat) : ℚ) * 2 ^ (e - d) = m * 2 ^ e := by
  have hshift : ((m <<< d : Nat) : ℚ) = m * 2 ^ (d : Int) := by
    rw [Nat.shiftLeft_eq, zpow_natCast]
    push_cast
    rfl
  rw [hshift, mul_assoc, ← zpow_add₀ two_ne_zero, add_sub_cancel]

/-- A positive number is rounded to the nearest place. -/
theorem toNat_pack_round (s : Sign) (hm : 0 < m) (e : Int) :
    ∃ k, IsNearest (m * 2 ^ e) k ∧ (pack binary32 (round binary32 s m e)).toNat = signBit s + k := by
  obtain ⟨t, ht⟩ : ∃ t, t = Max.max ((m.log2 : Int) + e - 23) (-149) := ⟨_, rfl⟩
  -- a significand that is too short is made longer first, which leaves the exponent to be reached
  obtain ⟨d, hd⟩ : ∃ d, d = (e - t).toNat := ⟨_, rfl⟩
  obtain ⟨m', hm'⟩ : ∃ m', m' = m <<< d := ⟨_, rfl⟩
  obtain ⟨e', he'⟩ : ∃ e' : Int, e' = e - d := ⟨_, rfl⟩
  have hlog : (m'.log2 : Int) + e' = m.log2 + e := by
    rw [hm', log2_shiftLeft hm]
    omega
  have htarget : t = binary32.targetExponent (totalExponent m' e') := by
    rw [targetExponent_eq, hlog, ht]
  have hvalue : (m' : ℚ) * 2 ^ e' = m * 2 ^ e := by rw [hm', he', shiftLeft_mul_zpow]
  obtain ⟨em, hem⟩ : ∃ em, em = ExtendedMantissa.ofMantissaAndAccuracy m' .exact >>> (t - e').toNat :=
    ⟨_, rfl⟩
  have hround : round binary32 s m e = settled s em.roundedMantissa t := by
    have hend : e' + ((t - e').toNat : Int) = t := by omega
    have hdecrease : round binary32 s m e = roundWithAccuracy binary32 s m' e' .exact := by
      rw [hm', he', hd, ht, ← targetExponent_eq]
      rfl
    rw [hdecrease, roundWithAccuracy_eq_settled, shiftToTargetExponent_eq htarget, ← hem, hend]
  have hrepresents : Represents em (m * 2 ^ e / 2 ^ t) := by
    rw [hem, ← hvalue]
    exact represents_shift (by omega)
  obtain ⟨hlow, hhigh⟩ := hrepresents.bounds
  have hcanonical : Canonical em.mantissa t := hrepresents.canonical hm ht
  have hrounded := hrepresents.rounded
  have hle : em.mantissa ≤ em.roundedMantissa ∧ em.roundedMantissa ≤ em.mantissa + 1 :=
    hrounded.bounds
  have hlt := hcanonical.lt
  refine ⟨_, ?_, hround ▸ toNat_pack_settled (by omega) hcanonical.least_le fun hsmall =>
    hcanonical.eq_least (by omega)⟩
  have hnearest := isNearest_of_rounded hcanonical hlow hhigh hrounded
  rwa [div_mul_cancel₀ _ (zpow_ne_zero t two_ne_zero)] at hnearest

/-! ### Rounding of binary64 numbers -/

/-- The number with a sign at a place. -/
def ofPlace (s : Sign) (k : Nat) : Binary32 := ⟨.ofNat (signBit s + k)⟩

/-- What a number is rounded to. Not-a-number has one pattern, infinities and zeros keep their sign,
and so does every other number, which is rounded to the nearest place. -/
inductive Rounds : UnpackedFloat → Binary32 → Prop where
  | notANumber : Rounds .notANumber ⟨0x7fc00000⟩
  | infinity (s : Sign) : Rounds (.infinity s) (ofPlace s infinity)
  | zero (s : Sign) : Rounds (.zero s) (ofPlace s 0)
  | finite (s : Sign) {m k : Nat} {e : Int} (hm : 0 < m) (nearest : IsNearest (m * 2 ^ e) k) :
      Rounds (.finite s m e hm) (ofPlace s k)

/-- What a binary64 number is rounded to. -/
def RoundsTo (v : Float) (x : Binary32) : Prop := Rounds v.toModel.unpack x

/-- A pattern read as one number. -/
theorem ofUnpacked_eq_ofPlace {u : UnpackedFloat} (h : (pack binary32 u).toNat = signBit s + k) :
    ofUnpacked u = ofPlace s k := by
  have hlt : signBit s + k < 2 ^ 32 := h ▸ (pack binary32 u).isLt
  have hbits : (ofUnpacked u).bits.toNat = signBit s + k := h
  have hnat : (UInt32.ofNat (signBit s + k)).toNat = signBit s + k := UInt32.toNat_ofNat_of_lt hlt
  exact congrArg Binary32.mk (UInt32.toNat_inj.mp (hbits.trans hnat.symm))

/-- A number is rounded to one pattern. -/
theorem Rounds.unique {u : UnpackedFloat} {x y : Binary32} (hx : Rounds u x) (hy : Rounds u y) :
    x = y := by
  cases hx with
  | notANumber => cases hy; rfl
  | infinity s => cases hy; rfl
  | zero s => cases hy; rfl
  | finite s hm hnearest =>
    cases hy with
    | finite _ _ hnearest' => rw [hnearest.unique hnearest']

/-- Conversion rounds. -/
theorem roundsTo_ofFloat (v : Float) : RoundsTo v (ofFloat v) := by
  unfold RoundsTo ofFloat
  cases v.toModel.unpack with
  | notANumber => exact .notANumber
  | infinity s =>
    change Rounds (.infinity s) (ofUnpacked (.infinity s))
    rw [ofUnpacked_eq_ofPlace (toNat_pack_infinity s)]
    exact .infinity s
  | zero s =>
    change Rounds (.zero s) (ofUnpacked (.zero s))
    rw [ofUnpacked_eq_ofPlace (k := 0) (toNat_pack_zero s)]
    exact .zero s
  | finite s m e hm =>
    obtain ⟨k, hnearest, hpack⟩ := toNat_pack_round s hm e
    change Rounds (.finite s m e hm) (ofUnpacked (.round binary32 s m e))
    rw [ofUnpacked_eq_ofPlace hpack]
    exact .finite s hm hnearest

/-- A binary64 number is rounded to what conversion gives, and to nothing else. -/
theorem roundsTo_iff {v : Float} {x : Binary32} : RoundsTo v x ↔ x = ofFloat v := by
  constructor
  · exact fun h => h.unique (roundsTo_ofFloat v)
  · rintro rfl
    exact roundsTo_ofFloat v

end KernelDispatch.Binary32
