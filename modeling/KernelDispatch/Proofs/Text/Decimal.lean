import KernelDispatch.Proofs.Loops
import KernelDispatch.Text.Unsigned

/-!
# Decimal numbers in texts

Which texts are read as numbers below a bound, and as which: digits after an optional plus sign, any
number of leading zeros among them, whose value is below the bound. A number is read again from the
digits it is written in.
-/

namespace KernelDispatch.Text

variable {cs : List Char} {bound n m : Nat}

/-- Whether a text writes a number: one or more digits after an optional plus sign. -/
def WritesNumber (cs : List Char) (n : Nat) : Prop :=
  ∃ digits : List Char, (cs = digits ∨ cs = '+' :: digits) ∧ digits ≠ [] ∧
    (∀ c ∈ digits, c.isDigit) ∧ Nat.ofDigitChars 10 digits 0 = n

/-- Digits only enlarge the number they are appended to. -/
theorem le_ofDigitChars (n : Nat) (cs : List Char) : n ≤ Nat.ofDigitChars 10 cs n := by
  induction cs generalizing n with
  | nil => exact Nat.le_refl n
  | cons c cs ih =>
    rw [Nat.ofDigitChars_cons]
    exact Nat.le_trans (by omega) (ih _)

/-- Appending succeeds exactly for digits that leave the number below the bound: once it is not, no
more digits bring it back. -/
theorem appendDigits_eq_ok_iff (hn : n < bound) :
    appendDigits bound n cs = .ok m ↔
      (∀ c ∈ cs, c.isDigit) ∧ Nat.ofDigitChars 10 cs n = m ∧ m < bound := by
  induction cs generalizing n with
  | nil =>
    rw [appendDigits, Except.ok.injEq]
    exact ⟨by rintro rfl; exact ⟨nofun, rfl, hn⟩, fun h => h.2.1⟩
  | cons c cs ih =>
    rw [appendDigits, Nat.ofDigitChars_cons, Nat.mul_comm 10 n]
    by_cases hdigit : c.isDigit
    · rw [hdigit, Bool.not_true, if_neg Bool.false_ne_true]
      dsimp only
      split
      · next hstep => simp only [ih hstep, List.forall_mem_cons, hdigit, true_and]
      · next hstep =>
        refine iff_of_false nofun fun ⟨_, hvalue, hm⟩ => hstep ?_
        exact Nat.lt_of_le_of_lt (hvalue ▸ le_ofDigitChars _ cs) hm
    · rw [if_pos (by simpa using hdigit)]
      exact iff_of_false nofun fun h => hdigit (h.1 c List.mem_cons_self)

/-- A text is read as a number exactly if it writes it and the number is below the bound. -/
theorem unsigned_eq_ok_iff (hbound : 0 < bound) :
    unsigned bound cs = .ok n ↔ WritesNumber cs n ∧ n < bound := by
  have hplus : '+'.isDigit = false := by decide
  unfold unsigned
  split
  · refine iff_of_false nofun ?_
    rintro ⟨⟨digits, rfl | h, hne, -⟩, -⟩
    · exact hne rfl
    · cases h
  · refine iff_of_false nofun ?_
    rintro ⟨⟨digits, rfl | h, hne, hdigits, -⟩, -⟩
    · simp [hplus] at hdigits
    · exact hne (List.cons.inj h).2.symm
  · next rest hrest =>
    rw [appendDigits_eq_ok_iff hbound]
    constructor
    · rintro ⟨hdigits, hvalue, hn⟩
      exact ⟨⟨rest, .inr rfl, fun h => hrest (h ▸ rfl), hdigits, hvalue⟩, hn⟩
    · rintro ⟨⟨digits, rfl | h, -, hdigits, hvalue⟩, hn⟩
      · simp [hplus] at hdigits
      · obtain rfl := (List.cons.inj h).2
        exact ⟨hdigits, hvalue, hn⟩
  · next hne _ hsign =>
    rw [appendDigits_eq_ok_iff hbound]
    constructor
    · rintro ⟨hdigits, hvalue, hn⟩
      exact ⟨⟨cs, .inl rfl, hne, hdigits, hvalue⟩, hn⟩
    · rintro ⟨⟨digits, rfl | h, -, hdigits, hvalue⟩, hn⟩
      · exact ⟨hdigits, hvalue, hn⟩
      · exact absurd h (hsign digits)

/-- A number is written in its decimal digits. -/
theorem writesNumber_repr (n : Nat) : WritesNumber n.repr.toList n := by
  rw [Nat.toList_repr]
  exact ⟨_, .inl rfl, Nat.toDigits_ne_nil,
    fun c hc => Nat.isDigit_of_mem_toDigits (by decide) (by decide) hc,
    Nat.ofDigitChars_ten_toDigits⟩

/-- What writes a number has no colon. -/
theorem WritesNumber.colon_notMem (h : WritesNumber cs n) : ':' ∉ cs := by
  obtain ⟨digits, hcs, -, hdigits, -⟩ := h
  have hcolon : ':' ∉ digits := fun hmem => absurd (hdigits ':' hmem) (by decide)
  rcases hcs with rfl | rfl
  · exact hcolon
  · rw [List.mem_cons, not_or]
    exact ⟨by decide, hcolon⟩

end KernelDispatch.Text
