import KernelDispatch.Proofs.Catalog.Faults
import KernelDispatch.Proofs.Ordered

/-!
# The preferred registration

What a catalog answers, said without the order in which it keeps its registrations. The candidates
for an operator at a version are the registrations of that operator whose range contains the
version. A bounded range outranks an open one, the narrower of two bounded ranges the wider one, the
later start of two open ranges the earlier one, and of two bounded ranges of one width the later
registration is preferred.

In a list of registrations without fault every candidate but one is outranked by that one, and
look-up answers it. Without candidates, or in another domain, look-up answers nothing.
-/

namespace KernelDispatch

namespace VersionRange

/-- Of two ranges one is at least as specific as the other. -/
theorem atLeastAsSpecific_total (r q : VersionRange) :
    r.atLeastAsSpecific q = true ∨ q.atLeastAsSpecific r = true := by
  rw [atLeastAsSpecific_iff_specificity, atLeastAsSpecific_iff_specificity]
  omega

/-- Being at least as specific is transitive, as the order of the ranks is. -/
theorem atLeastAsSpecific_trans {r q p : VersionRange} (hrq : r.atLeastAsSpecific q = true)
    (hqp : q.atLeastAsSpecific p = true) : r.atLeastAsSpecific p = true := by
  rw [atLeastAsSpecific_iff_specificity] at hrq hqp ⊢
  omega

end VersionRange

namespace Registration

variable {α : Type}

instance : Std.Total fun r q : Registration α => r.preferred q = true where
  total r q := r.range.atLeastAsSpecific_total q.range

instance : IsTrans (Registration α) fun r q => r.preferred q = true where
  trans _ _ _ := VersionRange.atLeastAsSpecific_trans

/-- Place `i` holds a registration of an operator whose range contains a version. -/
def Candidate (rs : List (Registration α)) (op : String) (version : UInt32) (i : ℕ)
    (r : Registration α) : Prop :=
  rs[i]? = some r ∧ r.op = op ∧ r.range.contains version = true

/-- Which of two ranges, each with the place of its registration, is preferred. -/
inductive Outranks : ℕ × VersionRange → ℕ × VersionRange → Prop where
  /-- A bounded range comes before an open one. -/
  | bounded {i j : ℕ} {a s b : UInt32} : Outranks (i, ⟨a, some s⟩) (j, ⟨b, none⟩)
  /-- Of two bounded ranges the narrower comes first. -/
  | narrower {i j : ℕ} {a s b t : UInt32} (h : s.toNat - a.toNat < t.toNat - b.toNat) :
      Outranks (i, ⟨a, some s⟩) (j, ⟨b, some t⟩)
  /-- Of two open ranges the one that starts later comes first. -/
  | laterStart {i j : ℕ} {a b : UInt32} (h : b < a) : Outranks (i, ⟨a, none⟩) (j, ⟨b, none⟩)
  /-- Of two bounded ranges of one width the one registered later comes first. -/
  | registeredLater {i j : ℕ} {a s b t : UInt32} (h : s.toNat - a.toNat = t.toNat - b.toNat)
      (hij : j < i) : Outranks (i, ⟨a, some s⟩) (j, ⟨b, some t⟩)

/-- Place `i` holds a candidate that outranks every other one. -/
def Best (rs : List (Registration α)) (op : String) (version : UInt32) (i : ℕ)
    (r : Registration α) : Prop :=
  Candidate rs op version i r ∧
    ∀ j q, Candidate rs op version j q → j ≠ i → Outranks (i, r.range) (j, q.range)

/-- The candidates are the registrations that serve the version of the operator. -/
theorem candidate_iff_serves {rs : List (Registration α)} {op : String} {version : UInt32} {i : ℕ}
    {r : Registration α} :
    Candidate rs op version i r ↔ rs[i]? = some r ∧ r.serves op version = true := by
  simp [Candidate, serves]

/-- What outranks comes no later in the order of preference, and stands later if it is equal. -/
theorem Outranks.preferred {i j : ℕ} {r q : Registration α}
    (h : Outranks (i, r.range) (j, q.range)) :
    r.preferred q = true ∧ (q.preferred r = true → j ≤ i) := by
  obtain ⟨_, ⟨a, _ | s⟩, _⟩ := r <;> obtain ⟨_, ⟨b, _ | t⟩, _⟩ := q <;>
    simp only [Registration.preferred, VersionRange.atLeastAsSpecific, decide_eq_true_eq] <;>
    cases h
  · next hlt => exact ⟨UInt32.le_of_lt hlt, fun hle => absurd hle (UInt32.not_le.mpr hlt)⟩
  · simp
  · next hlt => exact ⟨Nat.le_of_lt hlt, fun hle => absurd hle (Nat.not_le.mpr hlt)⟩
  · next hij hwidth => exact ⟨Nat.le_of_eq hwidth, fun _ => Nat.le_of_lt hij⟩

/-- Of two registrations with different ranges the preferred one, or of equals the one that stands
later, outranks the other. -/
theorem outranks_of_preferred {i j : ℕ} {r q : Registration α} (hij : j ≠ i)
    (hrange : r.range ≠ q.range) (hrq : r.preferred q = true)
    (hplace : q.preferred r = true → j ≤ i) : Outranks (i, r.range) (j, q.range) := by
  obtain ⟨_, ⟨a, _ | s⟩, _⟩ := r <;> obtain ⟨_, ⟨b, _ | t⟩, _⟩ := q <;>
    simp only [Registration.preferred, VersionRange.atLeastAsSpecific, decide_eq_true_eq,
      Bool.false_eq_true] at hrq hplace
  · refine .laterStart (UInt32.lt_of_le_of_ne hrq fun hstart => hrange ?_)
    rw [hstart]
  · exact .bounded
  · rcases Nat.lt_or_eq_of_le hrq with hlt | hwidth
    · exact .narrower hlt
    · exact .registeredLater hwidth (Nat.lt_of_le_of_ne (hplace (Nat.le_of_eq hwidth.symm)) hij)

/-- Where no two registrations clash, the best one is the last least one in order of preference. -/
theorem best_iff_lastLeast {rs : List (Registration α)}
    (hclash : rs.Pairwise fun e r => ¬ e.Clashes r) {op : String} {version : UInt32} {i : ℕ}
    {r : Registration α} :
    Best rs op version i r ↔ LastLeast Registration.preferred (·.serves op version) rs i r := by
  constructor
  · rintro ⟨hcandidate, hbest⟩
    obtain ⟨hir, hserves⟩ := candidate_iff_serves.mp hcandidate
    refine ⟨hir, hserves, fun j q hjq hq => ?_⟩
    by_cases hij : j = i
    · obtain rfl : r = q := by
        rw [hij, hir] at hjq
        exact Option.some.inj hjq
      exact ⟨(Std.Total.total (r := fun r q => Registration.preferred r q = true) r r).elim id id,
        fun _ => Nat.le_of_eq hij⟩
    · exact (hbest j q (candidate_iff_serves.mpr ⟨hjq, hq⟩) hij).preferred
  · rintro ⟨hir, hserves, hleast⟩
    have hcandidate := candidate_iff_serves.mpr ⟨hir, hserves⟩
    refine ⟨hcandidate, fun j q hq hij => ?_⟩
    obtain ⟨hjq, hqserves⟩ := candidate_iff_serves.mp hq
    obtain ⟨hrq, hplace⟩ := hleast j q hjq hqserves
    have hrange : r.range ≠ q.range := by
      intro hrange
      have hop : r.op = q.op := hcandidate.2.1.trans hq.2.1.symm
      obtain ⟨hi, rfl⟩ := List.getElem?_eq_some_iff.mp hir
      obtain ⟨hj, rfl⟩ := List.getElem?_eq_some_iff.mp hjq
      rcases Nat.lt_or_gt_of_ne hij with hlt | hgt
      · exact List.pairwise_iff_getElem.mp hclash j i hj hi hlt ⟨hop.symm, hrange.symm⟩
      · exact List.pairwise_iff_getElem.mp hclash i j hi hj hgt ⟨hop, hrange⟩
    exact outranks_of_preferred hij hrange hrq hplace

/-- There is at most one best registration. -/
theorem Best.unique {rs : List (Registration α)} (hclash : rs.Pairwise fun e r => ¬ e.Clashes r)
    {op : String} {version : UInt32} {i j : ℕ} {r q : Registration α}
    (hr : Best rs op version i r) (hq : Best rs op version j q) : i = j ∧ r = q :=
  ((best_iff_lastLeast hclash).mp hr).unique ((best_iff_lastLeast hclash).mp hq)

/-- The first registration in order of preference that serves an operator is the best one. -/
theorem find?_sortLatestFirst_eq_some_iff_best {rs : List (Registration α)}
    (hclash : rs.Pairwise fun e r => ¬ e.Clashes r) {op : String} {version : UInt32}
    {r : Registration α} :
    (sortLatestFirst preferred rs).find? (·.serves op version) = some r ↔
      ∃ i, Best rs op version i r := by
  simp only [best_iff_lastLeast hclash, find?_sortLatestFirst_eq_some_iff]

/-- No registration serves an operator exactly when there is no candidate. -/
theorem find?_sortLatestFirst_eq_none_iff_candidate {rs : List (Registration α)} {op : String}
    {version : UInt32} :
    (sortLatestFirst preferred rs).find? (·.serves op version) = none ↔
      ¬ ∃ i r, Candidate rs op version i r := by
  simp only [find?_sortLatestFirst_eq_none_iff, candidate_iff_serves, List.mem_iff_getElem?]
  grind

end Registration

namespace Catalog

open Registration

variable {α : Type}

/-- Look-up in a built catalog answers the best registration, and there is one best registration as
soon as there is a candidate. -/
theorem lookup_eq_best {domain : String} {rs : List (Registration α)} {c : Catalog α}
    (hbuild : Catalog.build domain rs = .ok c) (op d : String) (version : UInt32) :
    ((∃ i r, Candidate rs op version i r) →
        ∃! p : ℕ × Registration α, Best rs op version p.1 p.2) ∧
      (∀ a, c.lookup op d version = some a ↔
        Domain.normalize d = Domain.normalize domain ∧
          ∃ i r, Best rs op version i r ∧ r.value = a) ∧
      (c.lookup op d version = none ↔
        Domain.normalize d ≠ Domain.normalize domain ∨ ¬ ∃ i r, Candidate rs op version i r) := by
  obtain ⟨-, hclash, rfl⟩ := build_eq_ok_iff.mp hbuild
  refine ⟨fun hcandidate => ?_, fun a => ?_, ?_⟩
  · cases hfind : (sortLatestFirst preferred rs).find? (·.serves op version) with
    | none => exact absurd hcandidate (find?_sortLatestFirst_eq_none_iff_candidate.mp hfind)
    | some r =>
      obtain ⟨i, hbest⟩ := (find?_sortLatestFirst_eq_some_iff_best hclash).mp hfind
      refine ⟨(i, r), hbest, fun p hp => ?_⟩
      obtain ⟨hi, hr⟩ := hp.unique hclash hbest
      exact Prod.ext hi hr
  · by_cases hdomain : Domain.normalize d = Domain.normalize domain
    · simp only [lookup, find?, hdomain, if_true, Option.map_eq_some_iff, true_and,
        find?_sortLatestFirst_eq_some_iff_best hclash]
      constructor
      · rintro ⟨r, ⟨i, hbest⟩, ha⟩
        exact ⟨i, r, hbest, ha⟩
      · rintro ⟨i, r, hbest, ha⟩
        exact ⟨r, ⟨i, hbest⟩, ha⟩
    · simp [lookup, find?, hdomain]
  · by_cases hdomain : Domain.normalize d = Domain.normalize domain
    · simp only [lookup, find?, hdomain, if_true, Option.map_eq_none_iff, ne_eq, not_true_eq_false,
        false_or, find?_sortLatestFirst_eq_none_iff_candidate]
    · simp [lookup, find?, hdomain]

/-- Of two bounded ranges of one width that overlap the later registration serves, although an open
one that contains the version as well is registered behind both. -/
theorem lookup_later_of_equal_widths :
    let rs : List (Registration String) :=
      [⟨"Softmax", .between 3 7, "first"⟩, ⟨"Softmax", .between 5 9, "second"⟩,
        ⟨"Softmax", .since 6, "open"⟩]
    ∃ c, Catalog.build "" rs = .ok c ∧
      ∃ i r, Best rs "Softmax" 6 i r ∧ r.value = "second" := by
  intro rs
  have hbuild : Catalog.build "" rs =
      .ok ⟨"ai.onnx", sortLatestFirst Registration.preferred rs⟩ := by rfl
  have hlookup : Catalog.lookup ⟨"ai.onnx", sortLatestFirst Registration.preferred rs⟩
      "Softmax" "" 6 = some "second" := by decide +kernel
  exact ⟨_, hbuild, (((lookup_eq_best hbuild "Softmax" "" 6).2.1 "second").mp hlookup).2⟩

end Catalog

end KernelDispatch
