import KernelDispatch.Proofs.Catalog.Listing
import KernelDispatch.Proofs.Loops
import Mathlib.Data.List.Perm.Basic

/-!
# Registrations filed by operator

A catalog can be kept as a table from operators to their registrations. The table is filled one
registration at a time, each checked against those of its own operator alone, and each operator's
registrations are ranked when all are in. In which order a table lists its operators is left open.

Such a table refuses the same registrations for the same reason as the catalog, and otherwise shows
what the catalog shows: it finds the same registration, lists the same entries and counts the same,
in whatever order it lists its operators. The invariant is that every operator has a part of the
registrations made so far, those of that operator in the order in which they were made.
-/

namespace KernelDispatch

variable {α : Type}

open Registration

/-- Registrations filed by operator; the order of the operators means nothing. -/
structure OperatorTable (α : Type) where
  groups : List (String × List (Registration α))
  distinct : (groups.map (·.1)).Nodup

namespace OperatorTable

/-! ### The table -/

/-- Put a registration behind those of its operator. -/
def fileInto (r : Registration α) :
    List (String × List (Registration α)) → List (String × List (Registration α))
  | [] => [(r.op, [r])]
  | g :: groups => if g.1 = r.op then (g.1, g.2 ++ [r]) :: groups else g :: fileInto r groups

/-- Filing a registration adds its operator behind the others, unless it has a group already. -/
theorem map_fst_fileInto (r : Registration α) (groups : List (String × List (Registration α))) :
    (fileInto r groups).map (·.1) =
      if r.op ∈ groups.map (·.1) then groups.map (·.1) else groups.map (·.1) ++ [r.op] := by
  induction groups with
  | nil => rfl
  | cons g groups ih =>
    rw [fileInto]
    by_cases hsame : g.1 = r.op
    · simp [hsame]
    · rw [if_neg hsame, List.map_cons, ih]
      by_cases hmem : r.op ∈ groups.map (·.1)
      · simp [hmem]
      · simp [hmem, Ne.symm hsame]

/-- Filing keeps the operators of the groups distinct. -/
theorem nodup_fileInto (r : Registration α) {groups : List (String × List (Registration α))}
    (h : (groups.map (·.1)).Nodup) : ((fileInto r groups).map (·.1)).Nodup := by
  rw [map_fst_fileInto]
  split
  · exact h
  · next hnew =>
    rw [← List.concat_eq_append, List.nodup_concat]
    exact ⟨hnew, h⟩

/-- No registrations. -/
def empty : OperatorTable α := ⟨[], .nil⟩

/-- The table with one more registration. -/
def file (t : OperatorTable α) (r : Registration α) : OperatorTable α :=
  ⟨fileInto r t.groups, nodup_fileInto r t.distinct⟩

/-- The registrations of an operator that has any. -/
def group? (t : OperatorTable α) (op : String) : Option (List (Registration α)) :=
  (t.groups.find? fun g => g.1 = op).map (·.2)

/-- Check a registration against those of its operator, and file it. -/
def register (domain : String) (t : OperatorTable α) (r : Registration α) :
    Except CatalogError (OperatorTable α) :=
  match r.range.stop.filter (· < r.range.start) with
  | some stop => .error (.invertedRange domain r.op r.range.start stop)
  | none =>
    if ((t.group? r.op).getD []).any fun e => e.range = r.range then
      .error (.conflict domain r.op r.range)
    else .ok (t.file r)

/-- The table with each operator's registrations in order of preference. -/
def rank (t : OperatorTable α) : OperatorTable α where
  groups := t.groups.map fun g => (g.1, sortLatestFirst preferred g.2)
  distinct := by
    rw [List.map_map]
    exact t.distinct

/-- The table of a domain with the given registrations. -/
def build (domain : String) (rs : List (Registration α)) :
    Except CatalogError (OperatorTable α) :=
  (rs.foldlM (register (Domain.normalize domain)) empty).map rank

/-- The preferred registration of an operator at a version. -/
def find? (t : OperatorTable α) (op : String) (version : UInt32) : Option (Registration α) :=
  (t.group? op).bind fun rs => rs.find? (·.range.contains version)

/-- All registrations, found operator by operator and sorted by operator and start of range. -/
def entries (t : OperatorTable α) : List (String × VersionRange) :=
  (sortStably listedBefore (t.groups.flatMap (·.2))).map entry

/-- The number of registrations, counted operator by operator. -/
def size (t : OperatorTable α) : Nat := t.groups.foldr (fun g n => g.2.length + n) 0

/-- Whether there is no operator. -/
def isEmpty (t : OperatorTable α) : Bool := t.groups.isEmpty

/-! ### What a table holds -/

/-- A table holds registrations if each operator has those of its own, in order. -/
structure Files (t : OperatorTable α) (rs : List (Registration α)) : Prop where
  group : ∀ g ∈ t.groups, g.2 = rs.filter (·.op = g.1)
  nonempty : ∀ g ∈ t.groups, g.2 ≠ []
  perm : (t.groups.flatMap (·.2)).Perm rs

variable {t t' : OperatorTable α} {rs earlier : List (Registration α)} {r : Registration α}

/-- The empty table holds no registrations. -/
theorem files_empty : (empty : OperatorTable α).Files [] where
  group := by simp [empty]
  nonempty := by simp [empty]
  perm := .nil

/-- The order of the operators does not matter. -/
theorem Files.rearranged (h : t.Files rs) (hperm : t'.groups.Perm t.groups) : t'.Files rs where
  group g hg := h.group g (hperm.mem_iff.mp hg)
  nonempty g hg := h.nonempty g (hperm.mem_iff.mp hg)
  perm := (hperm.flatMap_right _).trans h.perm

/-- Every registration is filed under its operator. -/
theorem Files.exists_group (h : t.Files rs) (hr : r ∈ rs) : ∃ g ∈ t.groups, g.1 = r.op := by
  obtain ⟨g, hg, hmem⟩ := List.mem_flatMap.mp (h.perm.mem_iff.mpr hr)
  rw [h.group g hg, List.mem_filter, decide_eq_true_eq] at hmem
  exact ⟨g, hg, hmem.2.symm⟩

/-- What is found under an operator is the part of the registrations that are its own. -/
theorem Files.group?_getD (h : t.Files rs) (op : String) :
    (t.group? op).getD [] = rs.filter (·.op = op) := by
  rw [group?]
  cases hfind : t.groups.find? fun g => g.1 = op with
  | none =>
    have hnone : ∀ r ∈ rs, ¬ r.op = op := by
      rintro r hr rfl
      obtain ⟨g, hg, hop⟩ := h.exists_group hr
      have hmiss := List.find?_eq_none.mp hfind g hg
      simp [hop] at hmiss
    rw [Option.map_none, Option.getD_none, eq_comm, List.filter_eq_nil_iff]
    simpa using hnone
  | some g =>
    have hop : g.1 = op := by simpa using List.find?_some hfind
    rw [Option.map_some, Option.getD_some, h.group g (List.mem_of_find?_eq_some hfind), hop]

/-! ### Filling -/

/-- Filing adds one registration to those that were filed. -/
theorem perm_fileInto (r : Registration α) (groups : List (String × List (Registration α))) :
    ((fileInto r groups).flatMap (·.2)).Perm (groups.flatMap (·.2) ++ [r]) := by
  induction groups with
  | nil => simp [fileInto]
  | cons g groups ih =>
    rw [fileInto]
    split
    · simp only [List.flatMap_cons, List.append_assoc]
      exact List.perm_append_comm.append_left g.2
    · simp only [List.flatMap_cons, List.append_assoc]
      exact ih.append_left g.2

/-- The groups after filing are the old ones, with the registration behind those of its operator. -/
theorem mem_fileInto {groups : List (String × List (Registration α))}
    (hnodup : (groups.map (·.1)).Nodup) {g : String × List (Registration α)}
    (hg : g ∈ fileInto r groups) :
    (g ∈ groups ∧ g.1 ≠ r.op) ∨ (∃ q ∈ groups, q.1 = r.op ∧ g = (r.op, q.2 ++ [r])) ∨
      ((∀ q ∈ groups, q.1 ≠ r.op) ∧ g = (r.op, [r])) := by
  induction groups with
  | nil => exact .inr (.inr ⟨by simp, by simpa [fileInto] using hg⟩)
  | cons q groups ih =>
    obtain ⟨hq, hrest⟩ := List.nodup_cons.mp hnodup
    rw [fileInto] at hg
    by_cases hsame : q.1 = r.op
    · rw [if_pos hsame] at hg
      rcases List.mem_cons.mp hg with rfl | hmem
      · exact .inr (.inl ⟨q, List.mem_cons_self, hsame, by rw [hsame]⟩)
      · have hne : g.1 ≠ r.op := by
          intro hop
          exact hq (List.mem_map.mpr ⟨g, hmem, hop.trans hsame.symm⟩)
        exact .inl ⟨List.mem_cons_of_mem _ hmem, hne⟩
    · rw [if_neg hsame] at hg
      rcases List.mem_cons.mp hg with rfl | hmem
      · exact .inl ⟨List.mem_cons_self, hsame⟩
      · rcases ih hrest hmem with ⟨hold, hne⟩ | ⟨p, hp, hop, hg⟩ | ⟨hnew, hg⟩
        · exact .inl ⟨List.mem_cons_of_mem _ hold, hne⟩
        · exact .inr (.inl ⟨p, List.mem_cons_of_mem _ hp, hop, hg⟩)
        · exact .inr (.inr ⟨List.forall_mem_cons.mpr ⟨hsame, hnew⟩, hg⟩)

/-- Filing keeps what a table holds, and adds the registration. -/
theorem Files.file (h : t.Files rs) (r : Registration α) : (t.file r).Files (rs ++ [r]) where
  group g hg := by
    have hkept : ∀ op, op ≠ r.op →
        (rs ++ [r]).filter (fun q => q.op = op) = rs.filter fun q => q.op = op := by
      intro op hop
      simp [Ne.symm hop]
    have hown : (rs ++ [r]).filter (fun q => q.op = r.op) =
        rs.filter (fun q => q.op = r.op) ++ [r] := by
      simp
    rcases mem_fileInto t.distinct hg with ⟨hold, hne⟩ | ⟨q, hq, hop, rfl⟩ | ⟨hnew, rfl⟩
    · rw [hkept g.1 hne, h.group g hold]
    · rw [hown, h.group q hq, hop]
    · have hnone : rs.filter (fun q => q.op = r.op) = [] := by
        rw [List.filter_eq_nil_iff]
        intro q hq
        obtain ⟨g, hg, hop⟩ := h.exists_group hq
        rw [decide_eq_true_eq, ← hop]
        exact hnew g hg
      rw [hown, hnone, List.nil_append]
  nonempty g hg := by
    rcases mem_fileInto t.distinct hg with ⟨hold, -⟩ | ⟨q, -, -, rfl⟩ | ⟨-, rfl⟩
    · exact h.nonempty g hold
    · simp
    · simp
  perm := (perm_fileInto r t.groups).trans (h.perm.append_right [r])

/-- Checking a registration against those of its operator finds the fault that checking it against
all finds. -/
theorem Files.register_eq (h : t.Files rs) (domain : String) (r : Registration α) :
    t.register domain r =
      match fault? domain rs r with
      | some e => .error e
      | none => .ok (t.file r) := by
  have hclash : (((t.group? r.op).getD []).any fun e => e.range = r.range) =
      rs.any fun e => e.op = r.op && e.range = r.range := by
    rw [h.group?_getD, List.any_filter]
  rw [register, fault?, hclash]
  cases r.range.stop.filter (· < r.range.start) with
  | some stop => rfl
  | none => cases rs.any fun e => e.op = r.op && e.range = r.range <;> rfl

/-- Filling a table stops at the first fault, and otherwise files everything. -/
theorem Files.foldlM_register (h : t.Files earlier) (domain : String)
    (rs : List (Registration α)) :
    (∃ e, firstFault? domain earlier rs = some e ∧ rs.foldlM (register domain) t = .error e) ∨
      (firstFault? domain earlier rs = none ∧
        ∃ t', rs.foldlM (register domain) t = .ok t' ∧ t'.Files (earlier ++ rs)) := by
  -- the registrations that are filed already are the earlier ones of the check
  induction rs generalizing t earlier with
  | nil => exact .inr ⟨rfl, t, rfl, by rwa [List.append_nil]⟩
  | cons r rs ih =>
    rw [firstFault?, List.foldlM_cons, h.register_eq]
    cases fault? domain earlier r with
    | some e => exact .inl ⟨e, rfl, rfl⟩
    | none =>
      have hrest := ih (h.file r)
      rw [List.append_assoc, List.singleton_append] at hrest
      exact hrest

/-- Ranking keeps what a table holds, with the registrations ranked as a whole. -/
theorem Files.rank (h : t.Files rs) : t.rank.Files (sortLatestFirst preferred rs) where
  group g hg := by
    obtain ⟨q, hq, rfl⟩ := List.mem_map.mp hg
    rw [filter_sortLatestFirst, h.group q hq]
  nonempty g hg := by
    obtain ⟨q, hq, rfl⟩ := List.mem_map.mp hg
    intro hnil
    have hperm := perm_sortLatestFirst preferred q.2
    rw [show sortLatestFirst preferred q.2 = [] from hnil] at hperm
    exact h.nonempty q hq hperm.symm.eq_nil
  perm := by
    have hranked : (t.rank.groups.flatMap (·.2)).Perm (t.groups.flatMap (·.2)) := by
      rw [OperatorTable.rank, List.flatMap_map]
      exact List.Perm.flatMap_left _ fun g _ => perm_sortLatestFirst preferred g.2
    exact hranked.trans (h.perm.trans (perm_sortLatestFirst preferred rs).symm)

/-! ### What a table shows -/

/-- A table is as large as the number of registrations that it holds. -/
theorem Files.size_eq (h : t.Files rs) : t.size = rs.length := by
  rw [size, ← h.perm.length_eq]
  induction t.groups with
  | nil => rfl
  | cons g groups ih => rw [List.foldr_cons, ih, List.flatMap_cons, List.length_append]

/-- A table is empty if it holds no registrations. -/
theorem Files.isEmpty_eq (h : t.Files rs) : t.isEmpty = rs.isEmpty := by
  rw [Bool.eq_iff_iff, isEmpty, List.isEmpty_iff, List.isEmpty_iff]
  constructor
  · intro hgroups
    have hperm := h.perm
    rw [hgroups] at hperm
    exact hperm.symm.eq_nil
  · rintro rfl
    cases hgroups : t.groups with
    | nil => rfl
    | cons g groups =>
      have hg : g ∈ t.groups := hgroups ▸ List.mem_cons_self
      exact absurd (h.group g hg) (h.nonempty g hg)

/-- Looking among the registrations of an operator is looking for that operator among all. -/
theorem Files.find?_eq (h : t.Files rs) (op : String) (version : UInt32) :
    t.find? op version = rs.find? (·.serves op version) := by
  have hgroup : t.find? op version =
      ((t.group? op).getD []).find? (·.range.contains version) := by
    rw [find?]
    cases t.group? op <;> rfl
  rw [hgroup, h.group?_getD, List.find?_filter]
  simp only [serves, decide_eq_true_eq, Bool.decide_and, Bool.decide_eq_true]

/-- Registrations of one operator are found in their order, so listed ties stay listed. -/
theorem Files.tiesListed (h : t.Files rs) (hties : TiesListed rs) :
    TiesListed (t.groups.flatMap (·.2)) := by
  refine List.pairwise_flatMap.mpr ⟨fun g hg => ?_, ?_⟩
  · rw [h.group g hg]
    exact hties.filter _
  · have hdistinct := List.pairwise_map.mp t.distinct
    refine hdistinct.imp_of_mem fun {g q} hg hq hne r hr p hp hop => ?_
    rw [h.group g hg, List.mem_filter, decide_eq_true_eq] at hr
    rw [h.group q hq, List.mem_filter, decide_eq_true_eq] at hp
    exact absurd (hr.2.symm.trans (hop.trans hp.2)) hne

/-- A table lists its registrations as a flat catalog does, if ties among them are listed already.
-/
theorem Files.entries_eq (h : t.Files rs) (hties : TiesListed rs) :
    t.entries = (sortStably listedBefore rs).map entry := by
  -- not by comparing the two sorts: both are the one listing of the same entries
  have hperm : (sortStably listedBefore (t.groups.flatMap (·.2))).Perm
      (sortStably listedBefore rs) :=
    (perm_sortStably _ _).trans (h.perm.trans (perm_sortStably _ _).symm)
  exact eq_of_perm_of_listedAhead (hperm.map entry) (h.tiesListed hties).pairwise_sorted
    hties.pairwise_sorted

/-- A table shows what a catalog shows. -/
structure Shows (t : OperatorTable α) (c : Catalog α) : Prop where
  find?_eq : ∀ op version, t.find? op version = c.ranked.find? (·.serves op version)
  entries_eq : t.entries = c.entries
  size_eq : t.size = c.size
  isEmpty_eq : t.isEmpty = c.isEmpty

variable {domain : String} {c : Catalog α} {e : CatalogError}

/-- Building a table fails as building the catalog does. -/
theorem build_eq_error_iff : build domain rs = .error e ↔ Catalog.build domain rs = .error e := by
  rw [build, Catalog.build]
  rcases files_empty.foldlM_register (Domain.normalize domain) rs with
    ⟨e', hfault, herror⟩ | ⟨hfault, t, hok, -⟩
  · simp [hfault, herror, Except.map]
  · simp [hfault, hok, Except.map]

/-- A table is built whenever the catalog is, and shows what the catalog shows in whatever order it
lists its operators. -/
theorem exists_build_shows (h : Catalog.build domain rs = .ok c) :
    ∃ t, build domain rs = .ok t ∧
      ∀ t' : OperatorTable α, t'.groups.Perm t.groups → t'.Shows c := by
  obtain ⟨hsound, rfl⟩ := Catalog.build_eq_ok_iff_sound.mp h
  rcases files_empty.foldlM_register (Domain.normalize domain) rs with
    ⟨e, hfault, -⟩ | ⟨-, t, hok, hfiles⟩
  · rw [firstFault?_eq_none_iff_sound.mpr hsound] at hfault
    cases hfault
  · refine ⟨t.rank, by rw [build, hok]; rfl, fun t' hperm => ?_⟩
    have hranked := (Files.rank hfiles).rearranged hperm
    rw [List.nil_append] at hranked
    exact ⟨hranked.find?_eq, hranked.entries_eq hsound.tiesListed, hranked.size_eq,
      hranked.isEmpty_eq⟩

end OperatorTable

namespace Catalog

variable {domain : String} {rs : List (Registration α)} {c : Catalog α}

/-- A catalog holds the registrations it was built from. -/
theorem perm_ranked (h : build domain rs = .ok c) : c.ranked.Perm rs := by
  obtain ⟨-, rfl⟩ := build_eq_ok_iff_sound.mp h
  exact perm_sortLatestFirst preferred rs

/-- A catalog lists the registrations that it was built of, each as often as it was given. -/
theorem perm_entries_of_build (h : build domain rs = .ok c) : c.entries.Perm (rs.map entry) :=
  c.perm_entries.trans ((perm_ranked h).map entry)

/-- The entries of a built catalog are in the strict order of listings. -/
theorem pairwise_entries (h : build domain rs = .ok c) : c.entries.Pairwise ListedAhead := by
  obtain ⟨hsound, rfl⟩ := build_eq_ok_iff_sound.mp h
  exact hsound.tiesListed.pairwise_sorted

/-- Building succeeds exactly on registrations without fault, and otherwise the error is that of the
first one at fault; filing them by operator fails in the same way. A catalog that was built holds
each registration once, whether it is seen as a whole or operator by operator. -/
theorem build_outcome (domain : String) (rs : List (Registration α)) :
    ((∃ c, build domain rs = .ok c) ↔ Sound rs) ∧
      (∀ e, build domain rs = .error e ↔ FirstFault (Domain.normalize domain) rs e) ∧
      (∀ e, OperatorTable.build domain rs = .error e ↔ build domain rs = .error e) ∧
      ∀ c, build domain rs = .ok c →
        c.size = rs.length ∧ (c.isEmpty = true ↔ rs.length = 0) ∧
          c.entries.Perm (rs.map entry) ∧
          ∃ t, OperatorTable.build domain rs = .ok t ∧
            ∀ t' : OperatorTable α, t'.groups.Perm t.groups →
              t'.size = rs.length ∧ (t'.isEmpty = true ↔ rs.length = 0) ∧
                t'.entries.Perm (rs.map entry) := by
  refine ⟨exists_build_eq_ok_iff, fun e => build_eq_error_iff,
    fun e => OperatorTable.build_eq_error_iff, fun c hc => ?_⟩
  have hsize : c.size = rs.length := (perm_ranked hc).length_eq
  have hempty : c.isEmpty = true ↔ rs.length = 0 := by
    rw [← hsize, isEmpty, size, List.isEmpty_iff, List.length_eq_zero_iff]
  have hentries := perm_entries_of_build hc
  obtain ⟨t, ht, hshows⟩ := OperatorTable.exists_build_shows hc
  refine ⟨hsize, hempty, hentries, t, ht, fun t' hperm => ?_⟩
  have hshown := hshows t' hperm
  rw [hshown.size_eq, hshown.isEmpty_eq, hshown.entries_eq]
  exact ⟨hsize, hempty, hentries⟩

/-- A range registered again behind another operator's is reported, and not the inverted range that
comes after it; without these two all registrations are kept. -/
theorem build_outcome_repeated :
    let sound : List (Registration String) :=
      [⟨"Add", .between 7 12, "first"⟩, ⟨"Sub", .between 7 12, "other"⟩, ⟨"Add", .since 7, "open"⟩]
    let faulty : List (Registration String) :=
      sound ++ [⟨"Add", .between 7 12, "again"⟩, ⟨"Sub", .between 12 7, "inverted"⟩]
    build "" faulty = .error (.conflict "ai.onnx" "Add" (.between 7 12)) ∧
      ∃ c, build "" sound = .ok c ∧ c.size = 3 ∧ c.isEmpty = false := by
  intro sound faulty
  have hchecked : firstFault? "" [] sound = none := by decide +kernel
  have hsound : Sound sound := firstFault?_eq_none_iff_sound.mp hchecked
  have hfault : FirstFault (Domain.normalize "") faulty
      (.conflict "ai.onnx" "Add" (.between 7 12)) :=
    ⟨sound, _, _, rfl, hsound, .repeated rfl List.mem_cons_self ⟨rfl, rfl⟩⟩
  obtain ⟨-, herror, -⟩ := build_outcome "" faulty
  obtain ⟨hok, -, -, hkept⟩ := build_outcome "" sound
  obtain ⟨c, hc⟩ := hok.mpr hsound
  obtain ⟨hsize, hempty, -⟩ := hkept c hc
  exact ⟨(herror _).mpr hfault, c, hc, hsize, by simpa [sound] using hempty⟩

/-- The entries of a built catalog are those of its registrations, strictly increasing by operator,
start and end. The same entries registered in any other order are built as well and listed alike,
and so they are operator by operator, in whatever order the operators come. -/
theorem entries_canonical (h : build domain rs = .ok c) :
    c.entries.Pairwise ListedAhead ∧ c.entries.Perm (rs.map entry) ∧
      ∀ rs' : List (Registration α), (rs'.map entry).Perm (rs.map entry) →
        (∃ c', build domain rs' = .ok c' ∧ c'.entries = c.entries) ∧
          ∃ t, OperatorTable.build domain rs' = .ok t ∧
            ∀ t' : OperatorTable α, t'.groups.Perm t.groups → t'.entries = c.entries := by
  refine ⟨pairwise_entries h, perm_entries_of_build h, fun rs' hperm => ?_⟩
  obtain ⟨hsound, -⟩ := build_eq_ok_iff_sound.mp h
  obtain ⟨c', hc'⟩ := exists_build_eq_ok_iff.mpr (hsound.of_perm hperm)
  have hperm' : c'.entries.Perm c.entries :=
    (perm_entries_of_build hc').trans (hperm.trans (perm_entries_of_build h).symm)
  have hentries : c'.entries = c.entries :=
    eq_of_perm_of_listedAhead hperm' (pairwise_entries hc') (pairwise_entries h)
  obtain ⟨t, ht, hshows⟩ := OperatorTable.exists_build_shows hc'
  exact ⟨⟨c', hc', hentries⟩, t, ht, fun t' hrearranged =>
    (hshows t' hrearranged).entries_eq.trans hentries⟩

/-- Ranges of one operator that start at one version are listed by their ends, in whatever order they
were registered, and an operator in capitals comes before one that is not. -/
theorem entries_canonical_ties :
    let rs : List (Registration String) :=
      [⟨"relu", .since 6, "small"⟩, ⟨"Relu", .since 1, "open"⟩, ⟨"Relu", .between 1 12, "wide"⟩,
        ⟨"Relu", .between 1 5, "narrow"⟩]
    ∃ c, build "" rs = .ok c ∧
      c.entries = [("Relu", .between 1 5), ("Relu", .between 1 12), ("Relu", .since 1),
        ("relu", .since 6)] ∧
      ∃ c', build "" rs.reverse = .ok c' ∧ c'.entries = c.entries := by
  intro rs
  have hbuild : build "" rs = .ok ⟨"ai.onnx", sortLatestFirst Registration.preferred rs⟩ := by rfl
  obtain ⟨-, -, hsame⟩ := entries_canonical hbuild
  have hreversed : (rs.reverse.map entry).Perm (rs.map entry) := (List.reverse_perm rs).map entry
  exact ⟨_, hbuild, by decide +kernel, (hsame rs.reverse hreversed).1⟩

end Catalog

end KernelDispatch
