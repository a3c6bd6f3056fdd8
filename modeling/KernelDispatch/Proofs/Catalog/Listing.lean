import KernelDispatch.Proofs.Catalog.Preference
import KernelDispatch.Proofs.Text.ByteOrder

/-!
# The order of listings

Listings are sorted by operator and by the start of the range only. Registrations that agree in both
keep the order in which they are found, and in a catalog of sound registrations that is the order of
preference: the narrower range first, and the open one last. For one operator and one start it is
the order of the ends, so a listing is strictly increasing by operator, start and end, and it is the
only arrangement of its entries that is.
-/

namespace KernelDispatch

variable {α : Type}

/-- The strict order of listings: by the bytes of the operator, then by the start of the range, then
by its end, with open ranges last. -/
inductive ListedAhead : String × VersionRange → String × VersionRange → Prop where
  | operator {o p : String} {r q : VersionRange} (h : Text.bytes o < Text.bytes p) :
      ListedAhead (o, r) (p, q)
  | start {o : String} {r q : VersionRange} (h : r.start < q.start) : ListedAhead (o, r) (o, q)
  | stop {o : String} {a s t : UInt32} (h : s < t) :
      ListedAhead (o, ⟨a, some s⟩) (o, ⟨a, some t⟩)
  | openLast {o : String} {a s : UInt32} : ListedAhead (o, ⟨a, some s⟩) (o, ⟨a, none⟩)

/-- Of two entries at most one is listed ahead of the other. -/
theorem ListedAhead.asymm {p q : String × VersionRange} (h : ListedAhead p q) :
    ¬ ListedAhead q p := by
  intro h'
  cases h with
  | operator h =>
    cases h' with
    | operator h' => exact List.lt_asymm h h'
    | start | stop | openLast => exact List.lt_irrefl _ h
  | start h =>
    cases h' with
    | operator h' => exact List.lt_irrefl _ h'
    | start h' => exact UInt32.lt_asymm h h'
    | stop | openLast => exact UInt32.lt_irrefl _ h
  | stop h =>
    cases h' with
    | operator h' => exact List.lt_irrefl _ h'
    | start h' => exact UInt32.lt_irrefl _ h'
    | stop h' => exact UInt32.lt_asymm h h'
  | openLast =>
    cases h' with
    | operator h' => exact List.lt_irrefl _ h'
    | start h' => exact UInt32.lt_irrefl _ h'

/-- Entries have one listing. -/
theorem eq_of_perm_of_listedAhead {ps qs : List (String × VersionRange)} (hperm : ps.Perm qs)
    (hps : ps.Pairwise ListedAhead) (hqs : qs.Pairwise ListedAhead) : ps = qs := by
  apply List.Perm.eq_of_pairwise _ hps hqs hperm
  intro p q _ _ hpq hqp
  exact absurd hqp hpq.asymm

namespace Registration

/-- Registrations are listed by operator, and by the start of their ranges for one operator. -/
theorem listedBefore_iff {r q : Registration α} :
    r.listedBefore q = true ↔ r.op < q.op ∨ r.op = q.op ∧ r.range.start ≤ q.range.start := by
  simp [listedBefore]

instance : Std.Total fun r q : Registration α => r.listedBefore q = true where
  total r q := by
    simp only [listedBefore_iff]
    rcases lt_trichotomy r.op q.op with hlt | heq | hgt
    · exact .inl (.inl hlt)
    · rcases UInt32.le_total r.range.start q.range.start with hle | hle
      · exact .inl (.inr ⟨heq, hle⟩)
      · exact .inr (.inr ⟨heq.symm, hle⟩)
    · exact .inr (.inl hgt)

instance : IsTrans (Registration α) fun r q => r.listedBefore q = true where
  trans r q p := by
    simp only [listedBefore_iff]
    rintro (hrq | ⟨hrq, hstart⟩) (hqp | ⟨hqp, hstart'⟩)
    · exact .inl (lt_trans hrq hqp)
    · exact .inl (hqp ▸ hrq)
    · exact .inl (hrq ▸ hqp)
    · exact .inr ⟨hrq.trans hqp, UInt32.le_trans hstart hstart'⟩

/-- A tie is between registrations of one operator that start at one version. -/
theorem op_eq_and_start_eq_of_listedBefore {r q : Registration α} (hle : r.listedBefore q = true)
    (hge : q.listedBefore r = true) : r.op = q.op ∧ r.range.start = q.range.start := by
  rcases listedBefore_iff.mp hle with hlt | ⟨hop, hstart⟩ <;>
    rcases listedBefore_iff.mp hge with hgt | ⟨hop', hstart'⟩
  · exact absurd hgt (lt_asymm hlt)
  · exact absurd hlt (hop' ▸ lt_irrefl _)
  · exact absurd hgt (hop ▸ lt_irrefl _)
  · exact ⟨hop, UInt32.le_antisymm hstart hstart'⟩

/-- Registrations of one operator that start at one version stand in the order of listings. -/
def TiesListed (rs : List (Registration α)) : Prop :=
  rs.Pairwise fun r q =>
    r.op = q.op → r.range.start = q.range.start → ListedAhead r.entry q.entry

/-- Sorting by operator and start gives a listing if the ties are listed already. -/
theorem TiesListed.pairwise_sorted {rs : List (Registration α)} (h : TiesListed rs) :
    ((sortStably listedBefore rs).map entry).Pairwise ListedAhead := by
  have hties : rs.Pairwise fun r q => r.listedBefore q = true → q.listedBefore r = true →
      ListedAhead r.entry q.entry := by
    apply h.imp
    intro r q hrq hle hge
    obtain ⟨hop, hstart⟩ := op_eq_and_start_eq_of_listedBefore hle hge
    exact hrq hop hstart
  rw [List.pairwise_map]
  apply (pairwise_sortStably_ties hties).imp
  rintro r q ⟨hle, htie⟩
  rcases listedBefore_iff.mp hle with hlt | ⟨hop, hstart⟩
  · exact .operator (Text.bytes_lt_iff.mpr hlt)
  · rcases UInt32.lt_or_eq_of_le hstart with hlt | heq
    · rw [entry, entry, hop]
      exact .start hlt
    · exact htie (listedBefore_iff.mpr (.inr ⟨hop.symm, UInt32.le_of_eq heq.symm⟩))

/-- Of two ranges that start at one version the preferred one ends first. -/
theorem listedAhead_of_preferred {r q : Registration α} (hr : r.range.inverted = false)
    (hq : q.range.inverted = false) (hclash : ¬ r.Clashes q) (hpreferred : r.preferred q = true)
    (hop : r.op = q.op) (hstart : r.range.start = q.range.start) :
    ListedAhead r.entry q.entry := by
  obtain ⟨o, ⟨a, _ | s⟩, _⟩ := r <;> obtain ⟨p, ⟨b, _ | t⟩, _⟩ := q <;>
    obtain rfl : o = p := hop <;> obtain rfl : a = b := hstart
  · exact absurd ⟨rfl, rfl⟩ hclash
  · simp [preferred, VersionRange.atLeastAsSpecific] at hpreferred
  · exact .openLast
  · have hne : s ≠ t := by
      rintro rfl
      exact hclash ⟨rfl, rfl⟩
    have has : a ≤ s := by simpa [VersionRange.inverted] using hr
    have hat : a ≤ t := by simpa [VersionRange.inverted] using hq
    rw [UInt32.le_iff_toNat_le] at has hat
    have hwidth : s.toNat - a.toNat ≤ t.toNat - a.toNat := by
      simpa [preferred, VersionRange.atLeastAsSpecific, VersionRange.width] using hpreferred
    have hle : s.toNat ≤ t.toNat := by omega
    exact .stop (UInt32.lt_of_le_of_ne hle hne)

/-- In the order of preference the ties of sound registrations are listed. -/
theorem Sound.tiesListed {rs : List (Registration α)} (h : Sound rs) :
    TiesListed (sortLatestFirst preferred rs) := by
  have hsorted := h.of_perm ((perm_sortLatestFirst preferred rs).map entry)
  apply ((pairwise_sortLatestFirst rs).and hsorted.distinct).imp_of_mem
  rintro r q hr hq ⟨hpreferred, hclash⟩
  exact listedAhead_of_preferred (hsorted.ordered r hr) (hsorted.ordered q hq) hclash hpreferred

end Registration

namespace Catalog

/-- The entries of a catalog are those of its registrations. -/
theorem perm_entries (c : Catalog α) : c.entries.Perm (c.ranked.map Registration.entry) :=
  (perm_sortStably Registration.listedBefore c.ranked).map Registration.entry

end Catalog

end KernelDispatch
