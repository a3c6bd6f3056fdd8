import KernelDispatch.Ordered
import Mathlib.Data.List.Induction
import Mathlib.Data.List.Sort

/-!
# Sorted lists

Ordered insertion is the library's, so sorted lists come out in order. The first match of a list
that was sorted with later equals first is a match that may precede every other match, and of those
the one that stood last. Places are those of the unsorted list, so equal elements at different
places are told apart.

Stable sorting keeps whatever order the equals of a list are in, and sorting goes part by part: the
elements that satisfy a test are sorted among themselves.
-/

namespace KernelDispatch

variable {α : Type} (le : α → α → Bool)

/-- Inserting in order is the operation of the library. -/
theorem insertOrdered_eq_orderedInsert (x : α) (ys : List α) :
    insertOrdered le x ys = ys.orderedInsert (fun a b => le a b = true) x := by
  induction ys with
  | nil => rfl
  | cons y ys ih => simp [insertOrdered, ih]

/-- The stable sort is insertion sort. -/
theorem sortStably_eq_insertionSort (xs : List α) :
    sortStably le xs = xs.insertionSort (fun a b => le a b = true) := by
  induction xs with
  | nil => rfl
  | cons x xs ih =>
    change insertOrdered le x (sortStably le xs) = _
    rw [ih, insertOrdered_eq_orderedInsert]
    rfl

/-- Sorting with later equals first is stable sorting from the back. -/
theorem sortLatestFirst_eq_sortStably (xs : List α) :
    sortLatestFirst le xs = sortStably le xs.reverse := by
  rw [sortLatestFirst, List.foldl_eq_foldr_reverse, sortStably]

/-- Sorting with the latest first moves elements only. -/
theorem perm_sortLatestFirst (xs : List α) : (sortLatestFirst le xs).Perm xs := by
  rw [sortLatestFirst_eq_sortStably]
  exact (perm_sortStably le _).trans (List.reverse_perm xs)

/-- The last element of a list is inserted last. -/
theorem sortLatestFirst_concat (xs : List α) (x : α) :
    sortLatestFirst le (xs ++ [x]) = insertOrdered le x (sortLatestFirst le xs) := by
  simp [sortLatestFirst]

/-- The earlier first match, unless the inserted element matches and may precede it. -/
def preferInserted (p : α → Bool) (x : α) : Option α → Option α
  | none => if p x then some x else none
  | some y => if p x && le x y then some x else some y

/-- Place `i` of a list holds a match that may precede every match, the last one that may. -/
def LastLeast (p : α → Bool) (xs : List α) (i : ℕ) (x : α) : Prop :=
  xs[i]? = some x ∧ p x = true ∧
    ∀ j y, xs[j]? = some y → p y = true → le x y = true ∧ (le y x = true → j ≤ i)

variable {le}

/-- There is only one such place. -/
theorem LastLeast.unique {p : α → Bool} {xs : List α} {i j : ℕ} {x y : α}
    (hx : LastLeast le p xs i x) (hy : LastLeast le p xs j y) : i = j ∧ x = y := by
  obtain ⟨hix, hpx, hleast⟩ := hx
  obtain ⟨hjy, hpy, hleast'⟩ := hy
  have hxy := hleast j y hjy hpy
  have hyx := hleast' i x hix hpx
  have hij : i = j := Nat.le_antisymm (hyx.2 hxy.1) (hxy.2 hyx.1)
  subst hij
  exact ⟨rfl, Option.some.inj (hix.symm.trans hjy)⟩

/-- The sorted list has no match exactly when the unsorted one has none. -/
theorem find?_sortLatestFirst_eq_none_iff {p : α → Bool} {xs : List α} :
    (sortLatestFirst le xs).find? p = none ↔ ∀ x ∈ xs, ¬ p x = true := by
  simp [List.find?_eq_none, (perm_sortLatestFirst le xs).mem_iff]

/-- The first match is an element that matches. -/
theorem mem_of_find?_sortLatestFirst {p : α → Bool} {xs : List α} {x : α}
    (h : (sortLatestFirst le xs).find? p = some x) : x ∈ xs ∧ p x = true :=
  ⟨(perm_sortLatestFirst le xs).mem_iff.mp (List.mem_of_find?_eq_some h), List.find?_some h⟩

/-- An element of a list with one more is an old one at its place or the new one at the end. -/
private theorem getElem?_concat_eq_some_iff {xs : List α} {x y : α} {j : ℕ} :
    (xs ++ [x])[j]? = some y ↔ xs[j]? = some y ∨ j = xs.length ∧ x = y := by
  rcases Nat.lt_trichotomy j xs.length with hlt | rfl | hgt
  · rw [List.getElem?_append_left hlt]
    constructor
    · exact .inl
    · rintro (h | ⟨rfl, -⟩)
      · exact h
      · exact absurd hlt (Nat.lt_irrefl _)
  · simp
  · have hle : xs.length ≤ j := Nat.le_of_lt hgt
    have hend : (xs ++ [x]).length ≤ j := by
      simp only [List.length_append, List.length_singleton]
      omega
    rw [List.getElem?_eq_none hend, List.getElem?_eq_none hle]
    simp only [reduceCtorEq, false_or, false_iff]
    omega

/-- The last least match stays in place before an element that may not replace it. -/
theorem LastLeast.concat {p : α → Bool} {xs : List α} {i : ℕ} {x y : α}
    (hy : LastLeast le p xs i y) (hkeep : p x = true → le y x = true ∧ ¬ le x y = true) :
    LastLeast le p (xs ++ [x]) i y := by
  obtain ⟨hiy, hpy, hleast⟩ := hy
  refine ⟨getElem?_concat_eq_some_iff.mpr (.inl hiy), hpy, fun j z hjz hpz => ?_⟩
  rcases getElem?_concat_eq_some_iff.mp hjz with hold | ⟨-, rfl⟩
  · exact hleast j z hold hpz
  · obtain ⟨hyx, hxy⟩ := hkeep hpz
    exact ⟨hyx, fun h => absurd h hxy⟩

/-- A matching last element that may precede every other match is the last least one. -/
theorem lastLeast_concat_length [Std.Total fun a b : α => le a b = true] {p : α → Bool}
    {xs : List α} {x : α} (hpx : p x = true)
    (hleast : ∀ y ∈ xs, p y = true → le x y = true) :
    LastLeast le p (xs ++ [x]) xs.length x := by
  refine ⟨getElem?_concat_eq_some_iff.mpr (.inr ⟨rfl, rfl⟩), hpx, fun j y hjy hpy => ?_⟩
  rcases getElem?_concat_eq_some_iff.mp hjy with hold | ⟨rfl, rfl⟩
  · obtain ⟨hj, -⟩ := List.getElem?_eq_some_iff.mp hold
    exact ⟨hleast y (List.mem_of_getElem? hold) hpy, fun _ => Nat.le_of_lt hj⟩
  · exact ⟨(Std.Total.total (r := fun a b => le a b = true) x x).elim id id, fun _ => Nat.le_refl _⟩

/-- An element that may precede all others goes to the front. -/
theorem insertOrdered_of_forall {x : α} {ys : List α} (h : ∀ y ∈ ys, le x y = true) :
    insertOrdered le x ys = x :: ys := by
  cases ys with
  | nil => rfl
  | cons y ys => rw [insertOrdered, if_pos (h y List.mem_cons_self)]

variable [IsTrans α fun a b : α => le a b = true]

/-- What may precede the first element of a sorted list may precede every element. -/
theorem le_of_mem_cons {x y : α} {ys : List α} (hxy : le x y = true)
    (hy : ∀ z ∈ ys, le y z = true) : ∀ z ∈ y :: ys, le x z = true := by
  intro z hz
  rcases List.mem_cons.mp hz with rfl | hmem
  · exact hxy
  · exact IsTrans.trans (r := fun a b => le a b = true) x y z hxy (hy z hmem)

/-- Inserting into a sorted list changes its first match only to the inserted element. -/
theorem find?_insertOrdered (p : α → Bool) (x : α) {ys : List α}
    (hys : ys.Pairwise fun a b => le a b = true) :
    (insertOrdered le x ys).find? p = preferInserted le p x (ys.find? p) := by
  induction ys with
  | nil => cases hpx : p x <;> simp [insertOrdered, preferInserted, hpx]
  | cons y ys ih =>
    obtain ⟨hy, hsorted⟩ := List.pairwise_cons.mp hys
    by_cases hxy : le x y = true
    · -- the inserted element comes first, and may precede every match behind it
      have hfirst : ∀ z, (y :: ys).find? p = some z → le x z = true :=
        fun z hz => le_of_mem_cons hxy hy z (List.mem_of_find?_eq_some hz)
      rw [insertOrdered, if_pos hxy, List.find?_cons]
      cases hfind : (y :: ys).find? p with
      | none => cases hpx : p x <;> simp [preferInserted, hpx]
      | some z => cases hpx : p x <;> simp [preferInserted, hpx, hfirst z hfind]
    · rw [insertOrdered, if_neg hxy, List.find?_cons, List.find?_cons]
      cases hpy : p y with
      | true => simp [preferInserted, hxy]
      | false => exact ih hsorted

/-- Inserting into a part of a sorted list gives the part of the longer list. -/
theorem filter_insertOrdered (p : α → Bool) (x : α) {ys : List α}
    (hys : ys.Pairwise fun a b => le a b = true) :
    (insertOrdered le x ys).filter p =
      if p x then insertOrdered le x (ys.filter p) else ys.filter p := by
  induction ys with
  | nil => simp [insertOrdered, List.filter_cons]
  | cons y ys ih =>
    obtain ⟨hy, hsorted⟩ := List.pairwise_cons.mp hys
    by_cases hxy : le x y = true
    · have hall : ∀ z ∈ (y :: ys).filter p, le x z = true :=
        fun z hz => le_of_mem_cons hxy hy z (List.mem_filter.mp hz).1
      rw [insertOrdered, if_pos hxy, List.filter_cons, insertOrdered_of_forall hall]
    · rw [insertOrdered, if_neg hxy, List.filter_cons, ih hsorted]
      cases hpy : p y with
      | false => simp [hpy]
      | true => cases hpx : p x <;> simp [hpy, insertOrdered, hxy]

variable [Std.Total fun a b : α => le a b = true]

/-- Sorted with the latest first, each element may stand before all behind it. -/
theorem pairwise_sortLatestFirst (xs : List α) :
    (sortLatestFirst le xs).Pairwise fun a b => le a b = true := by
  rw [sortLatestFirst_eq_sortStably, sortStably_eq_insertionSort]
  exact List.pairwise_insertionSort _ _

/-- The first match of the sorted list is a last least match of the unsorted one. -/
theorem exists_lastLeast_of_find? {p : α → Bool} {xs : List α} {x : α}
    (h : (sortLatestFirst le xs).find? p = some x) : ∃ i, LastLeast le p xs i x := by
  induction xs using List.reverseRecOn generalizing x with
  | nil => simp [sortLatestFirst] at h
  | append_singleton xs z ih =>
    rw [sortLatestFirst_concat, find?_insertOrdered p z (pairwise_sortLatestFirst xs)] at h
    have hmem : ∀ y ∈ xs, y ∈ sortLatestFirst le xs := fun y hy =>
      (perm_sortLatestFirst le xs).mem_iff.mpr hy
    cases hfind : (sortLatestFirst le xs).find? p with
    | none =>
      have hnone : ∀ y ∈ xs, ¬ p y = true := fun y hy => List.find?_eq_none.mp hfind y (hmem y hy)
      cases hpz : p z with
      | false => simp [hfind, preferInserted, hpz] at h
      | true =>
        obtain rfl : z = x := by simpa [hfind, preferInserted, hpz] using h
        exact ⟨_, lastLeast_concat_length hpz fun y hy hpy => absurd hpy (hnone y hy)⟩
    | some y =>
      obtain ⟨i, hy⟩ := ih hfind
      have hyleast : ∀ w ∈ xs, p w = true → le y w = true := by
        intro w hw hpw
        obtain ⟨j, hj⟩ := List.mem_iff_getElem?.mp hw
        exact (hy.2.2 j w hj hpw).1
      by_cases hreplace : (p z && le z y) = true
      · obtain ⟨hpz, hzy⟩ := Bool.and_eq_true_iff.mp hreplace
        obtain rfl : z = x := by simpa [hfind, preferInserted, hreplace] using h
        exact ⟨_, lastLeast_concat_length hpz fun w hw hpw =>
          IsTrans.trans (r := fun a b => le a b = true) z y w hzy (hyleast w hw hpw)⟩
      · obtain rfl : y = x := by simpa [hfind, preferInserted, hreplace] using h
        refine ⟨i, hy.concat fun hpz => ?_⟩
        have hzy : ¬ le z y = true := fun hzy => hreplace (by simp [hpz, hzy])
        exact ⟨(Std.Total.total (r := fun a b => le a b = true) y z).resolve_right hzy, hzy⟩

/-- The first match of a list sorted with later equals first is the last least match. -/
theorem find?_sortLatestFirst_eq_some_iff {p : α → Bool} {xs : List α} {x : α} :
    (sortLatestFirst le xs).find? p = some x ↔ ∃ i, LastLeast le p xs i x := by
  refine ⟨exists_lastLeast_of_find?, fun ⟨i, hx⟩ => ?_⟩
  cases hfind : (sortLatestFirst le xs).find? p with
  | none =>
    have hmem := (perm_sortLatestFirst le xs).mem_iff.mpr (List.mem_of_getElem? hx.1)
    exact absurd hx.2.1 (List.find?_eq_none.mp hfind x hmem)
  | some y =>
    obtain ⟨j, hy⟩ := exists_lastLeast_of_find? hfind
    rw [(hx.unique hy).2]

/-- Sorting a part of a list gives the part of the sorted list. -/
theorem filter_sortLatestFirst (p : α → Bool) (xs : List α) :
    (sortLatestFirst le xs).filter p = sortLatestFirst le (xs.filter p) := by
  induction xs using List.reverseRecOn with
  | nil => rfl
  | append_singleton xs x ih =>
    rw [sortLatestFirst_concat, filter_insertOrdered p x (pairwise_sortLatestFirst xs), ih,
      List.filter_append, List.filter_singleton]
    cases p x with
    | true => simp [sortLatestFirst_concat]
    | false => simp

/-! ### Ties -/

/-- An inserted element keeps its place before its equals. -/
theorem pairwise_insertOrdered_ties {R : α → α → Prop} {x : α} {ys : List α}
    (hys : ys.Pairwise fun a b => le a b = true ∧ (le b a = true → R a b))
    (hx : ∀ y ∈ ys, le x y = true → le y x = true → R x y) :
    (insertOrdered le x ys).Pairwise fun a b => le a b = true ∧ (le b a = true → R a b) := by
  induction ys with
  | nil => simp [insertOrdered]
  | cons y ys ih =>
    obtain ⟨hy, hsorted⟩ := List.pairwise_cons.mp hys
    by_cases hxy : le x y = true
    · rw [insertOrdered, if_pos hxy]
      have hall : ∀ z ∈ y :: ys, le x z = true := le_of_mem_cons hxy fun z hz => (hy z hz).1
      exact List.pairwise_cons.mpr ⟨fun z hz => ⟨hall z hz, hx z hz (hall z hz)⟩, hys⟩
    · -- the element goes behind a head that may not follow it, so those two are no tie
      rw [insertOrdered, if_neg hxy]
      refine List.pairwise_cons.mpr ⟨fun z hz => ?_, ih hsorted fun z hz => ?_⟩
      · rcases List.mem_cons.mp ((perm_insertOrdered le x ys).mem_iff.mp hz) with rfl | hmem
        · exact ⟨(Std.Total.total (r := fun a b => le a b = true) y z).resolve_right hxy,
            fun h => absurd h hxy⟩
        · exact hy z hmem
      · exact hx z (List.mem_cons_of_mem _ hz)

/-- Sorting keeps the order of equals, whatever that order is. -/
theorem pairwise_sortStably_ties {R : α → α → Prop} {xs : List α}
    (hties : xs.Pairwise fun a b => le a b = true → le b a = true → R a b) :
    (sortStably le xs).Pairwise fun a b => le a b = true ∧ (le b a = true → R a b) := by
  induction xs with
  | nil => exact .nil
  | cons x xs ih =>
    obtain ⟨hx, hrest⟩ := List.pairwise_cons.mp hties
    have hmem : ∀ y ∈ sortStably le xs, y ∈ xs := fun y => (perm_sortStably le xs).mem_iff.mp
    exact pairwise_insertOrdered_ties (ih hrest) fun y hy => hx y (hmem y hy)

end KernelDispatch
