import KernelDispatch.Proofs.Catalog.Preference

/-!
# Registering in another order

The order of registration decides between two registrations only if they are tied: bounded ranges of
one operator and one width that share a version. Between any others the ranges decide. So sound
registrations can be made in any other order that keeps each two tied ones as they are, and every
look-up still selects the same one.
-/

namespace KernelDispatch

variable {α : Type}

/-- One element stands somewhere before another. -/
def StandsBefore (xs : List α) (x y : α) : Prop := [x, y].Sublist xs

/-- Nothing stands before anything in an empty list. -/
theorem standsBefore_nil {x y : α} : ¬ StandsBefore [] x y := by
  simp [StandsBefore]

/-- An element in front stands before all that follow, and the others stand as they did. -/
theorem standsBefore_cons {xs : List α} {x y z : α} :
    StandsBefore (z :: xs) x y ↔ x = z ∧ y ∈ xs ∨ StandsBefore xs x y := by
  constructor
  · intro h
    cases h with
    | cons _ h => exact .inr h
    | cons_cons _ h => exact .inl ⟨rfl, List.singleton_sublist.mp h⟩
  · rintro (⟨rfl, hy⟩ | h)
    · exact (List.singleton_sublist.mpr hy).cons_cons x
    · exact h.cons z

/-- One element stands before another if the place of the one is before a place of the other. -/
theorem standsBefore_iff {xs : List α} {x y : α} :
    StandsBefore xs x y ↔ ∃ i j : ℕ, i < j ∧ xs[i]? = some x ∧ xs[j]? = some y := by
  induction xs with
  | nil => simp [standsBefore_nil]
  | cons z xs ih =>
    rw [standsBefore_cons, ih]
    constructor
    · rintro (⟨rfl, hy⟩ | ⟨i, j, hij, hi, hj⟩)
      · obtain ⟨j, hj⟩ := List.mem_iff_getElem?.mp hy
        exact ⟨0, j + 1, by omega, rfl, hj⟩
      · exact ⟨i + 1, j + 1, by omega, hi, hj⟩
    · rintro ⟨i, j, hij, hi, hj⟩
      obtain ⟨j, rfl⟩ : ∃ k, j = k + 1 := ⟨j - 1, by omega⟩
      cases i with
      | zero => exact .inl ⟨(Option.some.inj hi).symm, List.mem_of_getElem? hj⟩
      | succ i => exact .inr ⟨i, j, by omega, hi, hj⟩

namespace VersionRange

/-- Two ranges share a version. -/
def Overlaps (r q : VersionRange) : Prop :=
  ∃ version, r.contains version = true ∧ q.contains version = true

/-- Two bounded ranges of one width. -/
def EquallyWide (r q : VersionRange) : Prop :=
  ∃ s t, r.stop = some s ∧ q.stop = some t ∧ width r.start s = width q.start t

end VersionRange

namespace Registration

/-- Two registrations between which their order decides. -/
structure Tied (r q : Registration α) : Prop where
  op : r.op = q.op
  width : r.range.EquallyWide q.range
  overlaps : r.range.Overlaps q.range

/-- Only between bounded ranges of one width does the place of a registration matter. -/
theorem Outranks.moved {i j i' j' : ℕ} {r q : VersionRange} (h : Outranks (i, r) (j, q))
    (hties : q.EquallyWide r → j < i → j' < i') : Outranks (i', r) (j', q) := by
  cases h with
  | bounded => exact .bounded
  | narrower h => exact .narrower h
  | laterStart h => exact .laterStart h
  | registeredLater h hij => exact .registeredLater h (hties ⟨_, _, rfl, rfl, h.symm⟩ hij)

variable {rs rs' : List (Registration α)}

/-- In sound registrations each stands at one place. -/
theorem Sound.nodup (h : Sound rs) : rs.Nodup :=
  (sound_iff_entries.mp h).2.of_map entry

/-- The best registration stays the best where ties are kept. -/
theorem Best.reordered (hsound : Sound rs) (hperm : rs'.Perm rs)
    (hties : ∀ r q, Tied r q → StandsBefore rs r q → StandsBefore rs' r q) {op : String}
    {version : UInt32} {i : ℕ} {r : Registration α} (h : Best rs op version i r) :
    ∃ i', Best rs' op version i' r := by
  obtain ⟨⟨hir, hop, hcontains⟩, hbest⟩ := h
  -- a registration stands at one place, so what stands before what can be said of the places
  have hplace : ∀ {k l : ℕ} {q : Registration α}, rs'[k]? = some q → rs'[l]? = some q → k = l := by
    intro k l q hk hl
    obtain ⟨hlength, -⟩ := List.getElem?_eq_some_iff.mp hk
    exact (List.getElem?_inj hlength (hperm.nodup_iff.mpr hsound.nodup)).mp (hk.trans hl.symm)
  obtain ⟨i', hir'⟩ := List.mem_iff_getElem?.mp (hperm.mem_iff.mpr (List.mem_of_getElem? hir))
  refine ⟨i', ⟨hir', hop, hcontains⟩, ?_⟩
  rintro j' q ⟨hjq', hqop, hqcontains⟩ hne
  obtain ⟨j, hjq⟩ := List.mem_iff_getElem?.mp (hperm.mem_iff.mp (List.mem_of_getElem? hjq'))
  have hji : j ≠ i := by
    rintro rfl
    obtain rfl := Option.some.inj (hir.symm.trans hjq)
    exact hne (hplace hjq' hir')
  apply (hbest j q ⟨hjq, hqop, hqcontains⟩ hji).moved
  intro hwidth hlt
  have htied : Tied q r := ⟨hqop.trans hop.symm, hwidth, version, hqcontains, hcontains⟩
  obtain ⟨k, l, hkl, hk, hl⟩ :=
    standsBefore_iff.mp (hties q r htied (standsBefore_iff.mpr ⟨j, i, hlt, hjq, hir⟩))
  rwa [hplace hk hjq', hplace hl hir'] at hkl

end Registration

namespace Catalog

open Registration

variable {domain : String} {rs rs' : List (Registration α)} {c : Catalog α}

/-- Sound registrations made in another order that keeps the ties can be built as well, and every
look-up selects the same registration. -/
theorem find?_reordered (hbuild : build domain rs = .ok c) (hperm : rs'.Perm rs)
    (hties : ∀ r q, Tied r q → StandsBefore rs r q → StandsBefore rs' r q) :
    ∃ c', build domain rs' = .ok c' ∧ ∀ op d version,
      c'.find? op d version = c.find? op d version ∧
        c'.lookup op d version = c.lookup op d version := by
  obtain ⟨hsound, rfl⟩ := build_eq_ok_iff_sound.mp hbuild
  have hsound' : Sound rs' := hsound.of_perm (hperm.map entry)
  refine ⟨_, build_eq_ok_iff_sound.mpr ⟨hsound', rfl⟩, ?_⟩
  intro op d version
  have hfirst : (sortLatestFirst preferred rs').find? (·.serves op version) =
      (sortLatestFirst preferred rs).find? (·.serves op version) := by
    cases hfind : (sortLatestFirst preferred rs).find? (·.serves op version) with
    | none =>
      rw [find?_sortLatestFirst_eq_none_iff] at hfind ⊢
      intro r hr
      exact hfind r (hperm.mem_iff.mp hr)
    | some r =>
      obtain ⟨i, hbest⟩ := (find?_sortLatestFirst_eq_some_iff_best hsound.distinct).mp hfind
      exact (find?_sortLatestFirst_eq_some_iff_best hsound'.distinct).mpr
        (hbest.reordered hsound hperm hties)
  have hfound : find? ⟨Domain.normalize domain, sortLatestFirst preferred rs'⟩ op d version =
      find? ⟨Domain.normalize domain, sortLatestFirst preferred rs⟩ op d version := by
    simp only [find?, hfirst]
  exact ⟨hfound, by rw [lookup, lookup, hfound]⟩

/-- Two ranges of one width stay in order while an open one moves behind them and another operator
to the front; at the version that the two share the later one serves in either order. -/
theorem find?_reordered_relu :
    let first : Registration String := ⟨"Relu", .between 6 8, "first"⟩
    let second : Registration String := ⟨"Relu", .between 7 9, "second"⟩
    let openEnded : Registration String := ⟨"Relu", .since 1, "open"⟩
    let other : Registration String := ⟨"Add", .between 6 8, "other"⟩
    let rs := [first, openEnded, second, other]
    let rs' := [other, first, second, openEnded]
    rs'.Perm rs ∧ (∀ r q, Tied r q → StandsBefore rs r q → StandsBefore rs' r q) ∧
      ∃ c', build "" rs' = .ok c' ∧ c'.lookup "Relu" "ai.onnx" 8 = some "second" := by
  intro first second openEnded other rs rs'
  have hbuild : build "" rs = .ok ⟨"ai.onnx", sortLatestFirst preferred rs⟩ := by rfl
  have hperm : rs'.Perm rs :=
    (List.perm_append_singleton other [first, second, openEnded]).symm.trans
      ((List.Perm.swap openEnded second [other]).cons first)
  have hties : ∀ r q, Tied r q → StandsBefore rs r q → StandsBefore rs' r q := by
    rintro r q ⟨hop, ⟨s, t, hs, ht, -⟩, -⟩ hbefore
    simp only [rs, standsBefore_cons, standsBefore_nil, List.mem_cons, List.not_mem_nil,
      or_false, and_false] at hbefore
    rcases hbefore with ⟨rfl, rfl | rfl | rfl⟩ | ⟨rfl, -⟩ | ⟨rfl, rfl⟩
    · cases ht
    · simp [rs', standsBefore_cons]
    · exact absurd hop (by decide)
    · cases hs
    · exact absurd hop (by decide)
  obtain ⟨c', hc', hsame⟩ := find?_reordered hbuild hperm hties
  refine ⟨hperm, hties, c', hc', (hsame "Relu" "ai.onnx" 8).2.trans ?_⟩
  decide +kernel

end Catalog

end KernelDispatch
