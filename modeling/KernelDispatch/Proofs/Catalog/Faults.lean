import KernelDispatch.Catalog.Basic
import KernelDispatch.Proofs.Keys

/-!
# Registrations without fault

A list of registrations can be built into a catalog exactly when no range in it is inverted and no
two registrations of one operator have equal ranges. The check runs through the list once and keeps
what it has passed, so the induction speaks of the registrations behind an arbitrary earlier part.

Otherwise the error is that of the first registration at fault. A range that is inverted is reported
as such even if it was registered before. Whether a list has a fault depends on the operators and
ranges in it alone, and not on their order; which fault comes first does depend on the order.
-/

namespace KernelDispatch

variable {α : Type}

/-- A range is inverted when its end lies before its start. -/
theorem VersionRange.inverted_eq_isSome_filter (r : VersionRange) :
    r.inverted = (r.stop.filter (· < r.start)).isSome := by
  obtain ⟨start, _ | stop⟩ := r
  · rfl
  · by_cases hlt : stop < start <;> simp [inverted, Option.filter, hlt]

namespace Registration

/-- Two registrations of one operator for the same versions. -/
def Clashes (r q : Registration α) : Prop := r.op = q.op ∧ r.range = q.range

/-- A registration has no fault if its range is not inverted and it clashes with no earlier one. -/
theorem fault?_eq_none_iff {domain : String} {earlier : List (Registration α)}
    {r : Registration α} :
    fault? domain earlier r = none ↔ r.range.inverted = false ∧ ∀ e ∈ earlier, ¬ e.Clashes r := by
  have hclash : (earlier.any fun e => e.op = r.op && e.range = r.range) = false ↔
      ∀ e ∈ earlier, ¬ e.Clashes r := by
    simp [List.any_eq_false, Clashes]
  rw [← hclash, fault?, r.range.inverted_eq_isSome_filter]
  cases r.range.stop.filter (· < r.range.start) with
  | some stop => simp
  | none => cases earlier.any fun e => e.op = r.op && e.range = r.range <;> simp

/-- Registrations have no fault if no range is inverted and no two of them clash. -/
theorem firstFault?_eq_none_iff {domain : String} {earlier rs : List (Registration α)} :
    firstFault? domain earlier rs = none ↔
      (∀ r ∈ rs, r.range.inverted = false) ∧ (∀ e ∈ earlier, ∀ r ∈ rs, ¬ e.Clashes r) ∧
        rs.Pairwise fun e r => ¬ e.Clashes r := by
  induction rs generalizing earlier with
  | nil => simp [firstFault?]
  | cons r rs ih =>
    rw [firstFault?]
    cases hfault : fault? domain earlier r with
    | some e =>
      have hfaulty : ¬ (r.range.inverted = false ∧ ∀ e ∈ earlier, ¬ e.Clashes r) :=
        fun h => by simp [fault?_eq_none_iff.mpr h] at hfault
      simp only [reduceCtorEq, false_iff]
      rintro ⟨hinverted, hearlier, -⟩
      exact hfaulty ⟨hinverted r List.mem_cons_self, fun e he => hearlier e he r List.mem_cons_self⟩
    | none =>
      obtain ⟨hinverted, hearlier⟩ := fault?_eq_none_iff.mp hfault
      simp only [ih, List.forall_mem_cons, List.pairwise_cons, List.forall_mem_append, hinverted,
        true_and, List.not_mem_nil, false_implies, implies_true, and_true]
      constructor
      · rintro ⟨hrest, ⟨hold, hnew⟩, hpairs⟩
        exact ⟨hrest, fun e he => ⟨hearlier e he, hold e he⟩, hnew, hpairs⟩
      · rintro ⟨hrest, hold, hnew, hpairs⟩
        exact ⟨hrest, ⟨fun e he => (hold e he).2, hnew⟩, hpairs⟩

/-! ### Sound registrations -/

/-- What a registration is listed as. -/
def entry (r : Registration α) : String × VersionRange := (r.op, r.range)

/-- Registrations without fault: no range ends before it starts, and no operator is registered twice
for the same versions. -/
structure Sound (rs : List (Registration α)) : Prop where
  ordered : ∀ r ∈ rs, r.range.inverted = false
  distinct : rs.Pairwise fun e r => ¬ e.Clashes r

/-- Registrations clash if they are listed alike. -/
theorem clashes_iff_entry_eq {e r : Registration α} : e.Clashes r ↔ e.entry = r.entry := by
  simp [Clashes, entry]

/-- Whether registrations are sound can be seen from their entries. -/
theorem sound_iff_entries {rs : List (Registration α)} :
    Sound rs ↔ (∀ p ∈ rs.map entry, p.2.inverted = false) ∧ (rs.map entry).Nodup := by
  have hdistinct : (rs.Pairwise fun e r => ¬ e.Clashes r) ↔ (rs.map entry).Nodup := by
    simp only [List.Nodup, List.pairwise_map, clashes_iff_entry_eq, ne_eq]
  rw [← hdistinct, List.forall_mem_map]
  exact ⟨fun h => ⟨h.ordered, h.distinct⟩, fun h => ⟨h.1, h.2⟩⟩

/-- Sound registrations are sound in every order, and with any other values. -/
theorem Sound.of_perm {β : Type} {rs : List (Registration α)} {qs : List (Registration β)}
    (h : Sound rs) (hperm : (qs.map entry).Perm (rs.map entry)) : Sound qs := by
  obtain ⟨hordered, hnodup⟩ := sound_iff_entries.mp h
  exact sound_iff_entries.mpr
    ⟨fun p hp => hordered p (hperm.mem_iff.mp hp), hperm.nodup_iff.mpr hnodup⟩

/-- No fault is found exactly in sound registrations. -/
theorem firstFault?_eq_none_iff_sound {domain : String} {rs : List (Registration α)} :
    firstFault? domain [] rs = none ↔ Sound rs := by
  simp only [firstFault?_eq_none_iff, List.not_mem_nil, false_implies, implies_true, true_and]
  exact ⟨fun h => ⟨h.1, h.2⟩, fun h => ⟨h.ordered, h.distinct⟩⟩

/-! ### The first fault -/

/-- How a registration behind others is at fault: its range is inverted, or it is not and repeats
that of an earlier registration of its operator. -/
inductive Faulty (domain : String) (earlier : List (Registration α)) (r : Registration α) :
    CatalogError → Prop where
  | inverted {stop : UInt32} (bounded : r.range.stop = some stop) (ends : stop < r.range.start) :
      Faulty domain earlier r (.invertedRange domain r.op r.range.start stop)
  | repeated {e : Registration α} (ordered : r.range.inverted = false) (made : e ∈ earlier)
      (clashes : e.Clashes r) : Faulty domain earlier r (.conflict domain r.op r.range)

/-- The error of the first registration at fault; those in front of it are sound. -/
def FirstFault (domain : String) (rs : List (Registration α)) (e : CatalogError) : Prop :=
  ∃ front r rest, rs = front ++ r :: rest ∧ Sound front ∧ Faulty domain front r e

/-- The fault of a registration behind others is the one that the rules name. -/
theorem fault?_eq_some_iff {domain : String} {earlier : List (Registration α)}
    {r : Registration α} {e : CatalogError} :
    fault? domain earlier r = some e ↔ Faulty domain earlier r e := by
  have hordered := r.range.inverted_eq_isSome_filter
  constructor
  · intro h
    rw [fault?] at h
    split at h
    · next stop hstop =>
      obtain ⟨hbounded, hends⟩ := Option.filter_eq_some_iff.mp hstop
      obtain rfl := Option.some.inj h
      exact .inverted hbounded (of_decide_eq_true hends)
    · next hstop =>
      split at h
      · next hclash =>
        obtain ⟨q, hq, hsame⟩ := List.any_eq_true.mp hclash
        obtain rfl := Option.some.inj h
        have hclashes : q.Clashes r := by simpa [Clashes] using hsame
        exact .repeated (by rw [hordered, hstop]; rfl) hq hclashes
      · cases h
  · intro h
    cases h with
    | inverted bounded ends => simp [fault?, bounded, Option.filter, ends]
    | repeated ordered made clashes =>
      have hclash : (earlier.any fun e => e.op = r.op && e.range = r.range) = true :=
        List.any_eq_true.mpr ⟨_, made, by simpa [Clashes] using clashes⟩
      have hstop : r.range.stop.filter (· < r.range.start) = none := by
        rw [← Option.isNone_iff_eq_none, ← Option.isSome_eq_false_iff, ← hordered, ordered]
      rw [fault?, hstop]
      simp only [hclash, if_true]

/-- The first fault is that of a registration in front of which there is none. -/
theorem firstFault?_eq_some_iff {domain : String} {earlier rs : List (Registration α)}
    {e : CatalogError} :
    firstFault? domain earlier rs = some e ↔
      ∃ front r rest, rs = front ++ r :: rest ∧ firstFault? domain earlier front = none ∧
        Faulty domain (earlier ++ front) r e := by
  induction rs generalizing earlier with
  | nil => simp [firstFault?]
  | cons r rs ih =>
    rw [exists_split_cons_iff, ← fault?_eq_some_iff, firstFault?, List.append_nil]
    cases hfault : fault? domain earlier r with
    | some e' => simp [firstFault?, hfault]
    | none => simp [firstFault?, hfault, ih]

/-- The fault that is found is the first one by the rules. -/
theorem firstFault?_eq_some_iff_firstFault {domain : String} {rs : List (Registration α)}
    {e : CatalogError} : firstFault? domain [] rs = some e ↔ FirstFault domain rs e := by
  simp only [firstFault?_eq_some_iff, firstFault?_eq_none_iff_sound, List.nil_append, FirstFault]

end Registration

namespace Catalog

/-- A catalog that could be built holds the registrations in order of preference, and they have no
fault. -/
theorem build_eq_ok_iff {domain : String} {rs : List (Registration α)} {c : Catalog α} :
    build domain rs = .ok c ↔
      (∀ r ∈ rs, r.range.inverted = false) ∧ (rs.Pairwise fun e r => ¬ e.Clashes r) ∧
        c = ⟨Domain.normalize domain, sortLatestFirst Registration.preferred rs⟩ := by
  have hsound : Registration.firstFault? (Domain.normalize domain) [] rs = none ↔
      (∀ r ∈ rs, r.range.inverted = false) ∧ rs.Pairwise fun e r => ¬ e.Clashes r := by
    simp [Registration.firstFault?_eq_none_iff]
  rw [build, ← and_assoc, ← hsound]
  cases Registration.firstFault? (Domain.normalize domain) [] rs with
  | some e => simp
  | none => simp [eq_comm]

variable {domain : String} {rs : List (Registration α)} {c : Catalog α}

/-- So the registrations that can be built are the sound ones. -/
theorem build_eq_ok_iff_sound :
    build domain rs = .ok c ↔
      Registration.Sound rs ∧
        c = ⟨Domain.normalize domain, sortLatestFirst Registration.preferred rs⟩ := by
  rw [build_eq_ok_iff, ← and_assoc]
  exact and_congr_left fun _ => ⟨fun h => ⟨h.1, h.2⟩, fun h => ⟨h.ordered, h.distinct⟩⟩

/-- A catalog can be built of sound registrations only, and of all of them. -/
theorem exists_build_eq_ok_iff : (∃ c, build domain rs = .ok c) ↔ Registration.Sound rs := by
  simp [build_eq_ok_iff_sound]

/-- Building fails with the error of the first registration at fault. -/
theorem build_eq_error_iff {e : CatalogError} :
    build domain rs = .error e ↔ Registration.FirstFault (Domain.normalize domain) rs e := by
  rw [← Registration.firstFault?_eq_some_iff_firstFault, build]
  cases Registration.firstFault? (Domain.normalize domain) [] rs <;> simp

end Catalog

end KernelDispatch
