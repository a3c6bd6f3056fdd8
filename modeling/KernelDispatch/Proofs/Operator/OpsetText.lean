import KernelDispatch.Operator.OpsetText
import KernelDispatch.Proofs.Text.Decimal

/-!
# Which texts are opset imports

A text is an import exactly if it has a colon and a version stands behind its last one. Decimal
digits contain no colon, so an import of any domain is read again from what it is written as, also
if the domain is empty or has colons itself.
-/

namespace KernelDispatch.Opset

variable {cs before after : List Char} {text : String} {o : Opset}

/-! ### The last colon -/

/-- Only a text without a colon cannot be split. -/
theorem splitAtLastColon?_eq_none_iff : splitAtLastColon? cs = none ↔ ':' ∉ cs := by
  induction cs with
  | nil => simp [splitAtLastColon?]
  | cons c cs ih =>
    rw [splitAtLastColon?, List.mem_cons, not_or, ← ih]
    cases splitAtLastColon? cs with
    | none => simp [eq_comm]
    | some parts => simp

/-- Nothing but the part behind the last colon decides where a text is split. -/
theorem splitAtLastColon?_append (before : List Char) (hafter : ':' ∉ after) :
    splitAtLastColon? (before ++ ':' :: after) = some (before, after) := by
  induction before with
  | nil =>
    rw [List.nil_append, splitAtLastColon?, splitAtLastColon?_eq_none_iff.mpr hafter, if_pos rfl]
  | cons c before ih => rw [List.cons_append, splitAtLastColon?, ih]

/-- A text is split at the one colon that no other colon follows. -/
theorem splitAtLastColon?_eq_some_iff :
    splitAtLastColon? cs = some (before, after) ↔ cs = before ++ ':' :: after ∧ ':' ∉ after := by
  refine ⟨fun h => ?_, fun ⟨hcs, hafter⟩ => hcs ▸ splitAtLastColon?_append before hafter⟩
  induction cs generalizing before with
  | nil => cases h
  | cons c cs ih =>
    rw [splitAtLastColon?] at h
    split at h
    · next hsplit =>
      obtain ⟨rfl, rfl⟩ := Prod.mk.inj (Option.some.inj h)
      obtain ⟨rfl, hafter⟩ := ih hsplit
      exact ⟨rfl, hafter⟩
    · next hnone =>
      split at h
      · next hcolon =>
        obtain ⟨rfl, rfl⟩ := Prod.mk.inj (Option.some.inj h)
        exact ⟨hcolon ▸ rfl, splitAtLastColon?_eq_none_iff.mp hnone⟩
      · cases h

/-! ### Imports -/

/-- Whether a text writes an import: the part behind its last colon writes a version, and the part
before it is the domain. -/
def Writes (text : String) (o : Opset) : Prop :=
  ∃ domain version n, text.toList = domain ++ ':' :: version ∧ ':' ∉ version ∧
    Text.WritesNumber version n ∧ n < UInt32.size ∧ o = .of (String.ofList domain) (UInt32.ofNat n)

/-- A text is read as an import exactly if it is written as the grammar says. -/
theorem parse_eq_ok_iff : parse text = .ok o ↔ Writes text o := by
  have hbound : 0 < versionBound := by decide
  rw [parse]
  constructor
  · intro h
    split at h
    · cases h
    · next domain version hsplit =>
      obtain ⟨htext, hversion⟩ := splitAtLastColon?_eq_some_iff.mp hsplit
      split at h
      · cases h
      · next n hn =>
        obtain ⟨hwrites, hlt⟩ := (Text.unsigned_eq_ok_iff hbound).mp hn
        exact ⟨domain, version, n, htext, hversion, hwrites, hlt, (Except.ok.inj h).symm⟩
  · rintro ⟨domain, version, n, htext, hversion, hwrites, hlt, rfl⟩
    have hn := (Text.unsigned_eq_ok_iff hbound).mpr ⟨hwrites, hlt⟩
    simp only [htext, splitAtLastColon?_append domain hversion, hn]

/-- An import is written as its domain, a colon and its version. -/
theorem writes_of (domain : String) (version : UInt32) :
    Writes s!"{domain}:{version}" (.of domain version) := by
  refine ⟨domain.toList, version.toNat.repr.toList, version.toNat, ?_,
    (Text.writesNumber_repr _).colon_notMem, Text.writesNumber_repr _, version.toNat_lt, ?_⟩
  · rw [String.toList_append, String.toList_append, List.append_assoc]
    rfl
  · rw [UInt32.ofNat_toNat, String.ofList_toList]

/-- Reading an import succeeds exactly for the texts with a colon whose part behind the last one is
an optional plus sign and one or more digits of a number below `2 ^ 32`, and answers that version of
the domain before the colon, in its normalized spelling; all other texts are errors. So every
version of every domain is read from its domain, a colon and its decimal digits. -/
theorem parse_outcome :
    (∀ text o, parse text = .ok o ↔ Writes text o) ∧
    (∀ text, (∃ e, parse text = .error e) ↔ ¬ ∃ o, Writes text o) ∧
    ∀ (domain : String) (version : UInt32),
      parse s!"{domain}:{version}" = .ok (.of domain version) := by
  refine ⟨fun text o => parse_eq_ok_iff, fun text => ?_,
    fun domain version => parse_eq_ok_iff.mpr (writes_of domain version)⟩
  simp only [← parse_eq_ok_iff]
  cases parse text with
  | error e => simp
  | ok o => simp

/-- A domain with colons, a plus sign and zeros in front; the bound of versions is none. -/
example : parse "a:b::+0042" = .ok (.of "a:b:" 42) ∧ parse ":4294967295" = .ok (.of "" 4294967295) ∧
    parse ":4294967296" = .error (.version ":4294967296" .tooLarge) :=
  ⟨rfl, rfl, rfl⟩

end KernelDispatch.Opset
