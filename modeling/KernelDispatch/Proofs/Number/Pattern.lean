import KernelDispatch.Number.Binary32
import Mathlib.Algebra.Group.Nat.Defs

/-!
# Patterns of finite numbers

A pattern is a sign bit, eight bits of exponent and twenty-three bits of significand. Read as one
number without the sign bit, the patterns of the finite numbers count up from zero: a significand
below `2 ^ 23` stands at its own place, and every exponent adds `2 ^ 23` places. Infinity comes next,
so a number that is too large is packed to the last place.
-/

namespace KernelDispatch.Binary32

open Float.Model.UnpackedFloat
open Float.Model.Format (binary32)

variable {s : Sign} {n : Nat} {t : Int}

/-- The sign bit at its place. -/
def signBit : Sign → Nat
  | .negative => 2 ^ 31
  | .positive => 0

/-- The pattern of infinity without a sign. -/
def infinity : Nat := 255 * 2 ^ 23

/-- The pattern of the number `n * 2 ^ t` without a sign, infinity left aside. -/
def place (n : Nat) (t : Int) : Nat := n + (t + 149).toNat * 2 ^ 23

/-- Whether the number `n * 2 ^ t` is written as the format has it: with twenty-four bits, or with
fewer at the least exponent. -/
structure Canonical (n : Nat) (t : Int) : Prop where
  lt : n < 2 ^ 24
  least_le : -149 ≤ t
  eq_least : n < 2 ^ 23 → t = -149

/-- The three fields of a pattern as one number. -/
theorem toNat_packComponents (s : Sign) (e : BitVec 8) (m : BitVec 23) :
    (packComponents binary32 s e m).toNat = signBit s + e.toNat * 2 ^ 23 + m.toNat := by
  have hsign : (s.toBitVec ++ e).toNat = s.toBitVec.toNat * 2 ^ 8 + e.toNat := by
    rw [BitVec.toNat_append, ← Nat.shiftLeft_add_eq_or_of_lt e.isLt, Nat.shiftLeft_eq]
  have hall : (packComponents binary32 s e m).toNat =
      (s.toBitVec ++ e).toNat * 2 ^ 23 + m.toNat := by
    rw [packComponents, BitVec.toNat_append, ← Nat.shiftLeft_add_eq_or_of_lt m.isLt,
      Nat.shiftLeft_eq]
  rw [hall, hsign]
  cases s with
  | negative =>
    have hone : (Sign.toBitVec .negative).toNat = 1 := rfl
    rw [signBit, hone]
    omega
  | positive =>
    have hnone : (Sign.toBitVec .positive).toNat = 0 := rfl
    rw [signBit, hnone]
    omega

/-- A zero is packed to the first place. -/
theorem toNat_pack_zero (s : Sign) : (pack binary32 (.zero s)).toNat = signBit s := by
  change (packedZero binary32 s).toNat = _
  rw [packedZero, toNat_packComponents]
  rfl

/-- An infinity is packed to the last place. -/
theorem toNat_pack_infinity (s : Sign) :
    (pack binary32 (.infinity s)).toNat = signBit s + infinity := by
  change (packedInfinity binary32 s).toNat = _
  rw [packedInfinity, toNat_packComponents]
  rfl

/-- A finite number is packed to its place, or to the last one. -/
theorem toNat_pack_finite (h : Canonical n t) (hn : 0 < n) :
    (pack binary32 (.finite s n t hn)).toNat = signBit s + min (place n t) infinity := by
  obtain ⟨hlt, hleast, hnormal⟩ := h
  have hbias :
      (t + (binary32.exponentBias : Int) + (binary32.mantissaBitsWithoutImplicit : Int)).toNat =
        (t + 149).toNat + 1 := by
    have hsum : (binary32.exponentBias : Int) + (binary32.mantissaBitsWithoutImplicit : Int) = 150 :=
      rfl
    omega
  have hbits : n.log2 + 1 = binary32.mantissaBits ↔ 2 ^ 23 ≤ n := by
    have hmantissa : binary32.mantissaBits = 24 := rfl
    rw [hmantissa]
    constructor
    · intro hlog
      rw [← Nat.le_log2 (by omega)]
      omega
    · intro hle
      have hlow := (Nat.le_log2 (by omega)).mpr hle
      have hhigh := (Nat.log2_lt (by omega)).mpr hlt
      omega
  have hpack : pack binary32 (.finite s n t hn) =
      if 256 ≤ (t + 149).toNat + 1 + 1 then packedInfinity binary32 s
      else if n.log2 + 1 = binary32.mantissaBits then
        packComponents binary32 s (.ofNat 8 ((t + 149).toNat + 1)) (.ofNat 23 n)
      else packComponents binary32 s (.ofNat 8 0) (.ofNat 23 n) := by
    rw [← hbias]
    rfl
  rw [hpack]
  split
  · next hover =>
    have hfull : infinity ≤ place n t := by
      rw [infinity, place]
      by_cases hn : n < 2 ^ 23
      · have := hnormal hn
        omega
      · omega
    rw [packedInfinity, toNat_packComponents, Nat.min_eq_right hfull]
    rfl
  · next hfits =>
    split
    · next hlog =>
      have hle := hbits.mp hlog
      have hplace : ((t + 149).toNat + 1) % 2 ^ 8 * 2 ^ 23 + n % 2 ^ 23 = place n t := by
        rw [place]
        omega
      have hroom : place n t ≤ infinity := by
        rw [place, infinity]
        omega
      rw [toNat_packComponents, BitVec.toNat_ofNat, BitVec.toNat_ofNat, Nat.min_eq_left hroom,
        Nat.add_assoc, hplace]
    · next hlog =>
      have hsmall : n < 2 ^ 23 := Nat.lt_of_not_le fun hle => hlog (hbits.mpr hle)
      obtain rfl := hnormal hsmall
      rw [toNat_packComponents, BitVec.toNat_ofNat, BitVec.toNat_ofNat, place, infinity]
      omega

/-! ### What a pattern is unpacked to -/

/-- A pattern is made up of its fields. -/
theorem toNat_eq_fields (b : BitVec binary32.numBits) :
    b.toNat = signBit (.ofBitVec (unpackSign b)) + (unpackExponent b).toNat * 2 ^ 23 +
      (unpackMantissa b).toNat := by
  have hlt : b.toNat < 2 ^ 32 := b.isLt
  have hbit : ∀ v : BitVec 1, signBit (.ofBitVec v) = v.toNat * 2 ^ 31 := by decide
  have hsign : (unpackSign b).toNat = b.toNat / 2 ^ 31 % 2 := by
    change (b.extractLsb' 31 1).toNat = _
    rw [BitVec.extractLsb'_toNat, Nat.shiftRight_eq_div_pow]
  have hexponent : (unpackExponent b).toNat = b.toNat / 2 ^ 23 % 2 ^ 8 := by
    simp [unpackExponent, BitVec.extractLsb, Nat.shiftRight_eq_div_pow]
  have hmantissa : (unpackMantissa b).toNat = b.toNat % 2 ^ 23 := by
    simp [unpackMantissa, BitVec.extractLsb]
  rw [hbit, hsign, hexponent, hmantissa]
  omega

/-- Only the first place is unpacked to a zero. -/
theorem toNat_of_unpack_eq_zero {b : BitVec binary32.numBits}
    (h : Float.Model.UnpackedFloat.unpack binary32 b = .zero s) : b.toNat = signBit s := by
  rw [toNat_eq_fields b]
  unfold Float.Model.UnpackedFloat.unpack at h
  extract_lets mantissa exponent _ signBits sign at h
  by_cases hspecial : exponent = -1#_
  · rw [if_pos hspecial] at h
    split at h <;> cases h
  · rw [if_neg hspecial] at h
    by_cases hexponent : exponent = 0#_
    · rw [if_pos hexponent] at h
      by_cases hmantissa : mantissa = 0#_
      · rw [dif_pos hmantissa] at h
        change signBit sign + exponent.toNat * 2 ^ 23 + mantissa.toNat = signBit s
        rw [hexponent, hmantissa, zero.inj h]
        rfl
      · rw [dif_neg hmantissa] at h
        cases h
    · rw [if_neg hexponent] at h
      cases h

/-- What is unpacked is written as the format has it. -/
theorem canonical_of_unpack_eq_finite {b : BitVec binary32.numBits} {hn : 0 < n}
    (h : Float.Model.UnpackedFloat.unpack binary32 b = .finite s n t hn) : Canonical n t := by
  have hbias : (binary32.exponentBias : Int) + (binary32.mantissaBitsWithoutImplicit : Int) = 150 :=
    rfl
  unfold Float.Model.UnpackedFloat.unpack at h
  extract_lets mantissa exponent place signBits sign at h
  have hmantissa : mantissa.toNat < 2 ^ 23 := mantissa.isLt
  have hplace : place = exponent.toNat - 150 := congrArg ((exponent.toNat : Int) - ·) hbias
  by_cases hspecial : exponent = -1#_
  · rw [if_pos hspecial] at h
    by_cases hinfinite : mantissa = 0#_
    · rw [if_pos hinfinite] at h
      cases h
    · rw [if_neg hinfinite] at h
      cases h
  · rw [if_neg hspecial] at h
    by_cases hexponent : exponent = 0#_
    · rw [if_pos hexponent] at h
      by_cases hzero : mantissa = 0#_
      · rw [dif_pos hzero] at h
        cases h
      · rw [dif_neg hzero] at h
        obtain ⟨-, rfl, rfl⟩ := finite.inj h
        have hleast : (exponent.toNat : Int) = 0 := by rw [hexponent]; rfl
        exact ⟨by omega, by omega, fun _ => by omega⟩
    · rw [if_neg hexponent] at h
      obtain ⟨-, rfl, rfl⟩ := finite.inj h
      have hsum : (1#1 ++ mantissa).toNat = 2 ^ 23 + mantissa.toNat := by
        rw [BitVec.toNat_append, ← Nat.shiftLeft_add_eq_or_of_lt mantissa.isLt]
        rfl
      have hpos : 0 < exponent.toNat := by
        refine Nat.pos_of_ne_zero fun hzero => hexponent ?_
        exact BitVec.eq_of_toNat_eq hzero
      rw [hsum]
      exact ⟨by omega, by omega, by omega⟩

end KernelDispatch.Binary32
