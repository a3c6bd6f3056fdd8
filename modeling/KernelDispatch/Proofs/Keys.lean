import Mathlib.Data.List.Nodup
import Mathlib.Data.List.Induction

/-!
# Lists with keys

A list whose elements have keys: its first element with a key that an earlier one has, the last
element of a key, and, where all keys differ, the one element of a key. A list in which keys repeat has
such a first element, so that a check of the elements in order finds it. The first occurrences in a
list, each element once, keep the order in which they come first.
-/

namespace KernelDispatch

variable {α β : Type} {key : α → β} {xs : List α} {x y : α}

/-- A list is split at its first element, or behind it. -/
theorem exists_split_cons_iff {P : List α → α → Prop} :
    (∃ front y rest, x :: xs = front ++ y :: rest ∧ P front y) ↔
      P [] x ∨ ∃ front y rest, xs = front ++ y :: rest ∧ P (x :: front) y := by
  constructor
  · rintro ⟨front, y, rest, hsplit, hP⟩
    cases front with
    | nil =>
      obtain ⟨rfl, rfl⟩ := List.cons.inj hsplit
      exact .inl hP
    | cons z front =>
      obtain ⟨rfl, rfl⟩ := List.cons.inj hsplit
      exact .inr ⟨front, y, rest, rfl, hP⟩
  · rintro (hP | ⟨front, y, rest, rfl, hP⟩)
    · exact ⟨[], x, xs, rfl, hP⟩
    · exact ⟨x :: front, y, rest, rfl, hP⟩

/-- An element is the first one whose key an earlier element has. -/
def FirstRepeated (key : α → β) (xs : List α) (x : α) : Prop :=
  ∃ front rest, xs = front ++ x :: rest ∧ (front.map key).Nodup ∧ key x ∈ front.map key

/-- Nothing is repeated in an empty list. -/
theorem not_firstRepeated_nil : ¬ FirstRepeated key [] x := by
  rintro ⟨front, rest, hsplit, -⟩
  simp at hsplit

/-- The first repeated element of a longer list is that of the list, or else the last element. -/
theorem firstRepeated_concat :
    FirstRepeated key (xs ++ [x]) y ↔
      FirstRepeated key xs y ∨ (xs.map key).Nodup ∧ key x ∈ xs.map key ∧ x = y := by
  constructor
  · rintro ⟨front, rest, hsplit, hnodup, hmem⟩
    rcases List.eq_nil_or_concat rest with rfl | ⟨rest, z, rfl⟩
    · obtain ⟨rfl, hlast⟩ := List.append_inj' hsplit rfl
      obtain rfl := List.singleton_inj.mp hlast
      exact .inr ⟨hnodup, hmem, rfl⟩
    · rw [List.concat_eq_append, ← List.cons_append, ← List.append_assoc] at hsplit
      obtain ⟨rfl, -⟩ := List.append_inj' hsplit rfl
      exact .inl ⟨front, rest, rfl, hnodup, hmem⟩
  · rintro (⟨front, rest, rfl, hnodup, hmem⟩ | ⟨hnodup, hmem, rfl⟩)
    · exact ⟨front, rest ++ [x], by simp, hnodup, hmem⟩
    · exact ⟨xs, [], rfl, hnodup, hmem⟩

/-- A list has a first repeated element exactly if its keys are not all different. -/
theorem exists_firstRepeated_iff : (∃ x, FirstRepeated key xs x) ↔ ¬ (xs.map key).Nodup := by
  induction xs using List.reverseRecOn with
  | nil => simp [not_firstRepeated_nil]
  | append_singleton xs x ih =>
    simp only [firstRepeated_concat, exists_or, ih, exists_and_left, exists_eq', and_true]
    rw [List.map_append, List.map_singleton, ← List.concat_eq_append, List.nodup_concat]
    tauto

/-- There is only one such element. -/
theorem FirstRepeated.unique (hx : FirstRepeated key xs x) (hy : FirstRepeated key xs y) : x = y := by
  induction xs using List.reverseRecOn with
  | nil => exact absurd hx not_firstRepeated_nil
  | append_singleton xs z ih =>
    rcases firstRepeated_concat.mp hx with hx | ⟨hnodup, -, rfl⟩
    · have hrepeats := exists_firstRepeated_iff.mp ⟨x, hx⟩
      rcases firstRepeated_concat.mp hy with hy | ⟨hnodup, -⟩
      · exact ih hx hy
      · exact absurd hnodup hrepeats
    · rcases firstRepeated_concat.mp hy with hy | ⟨-, -, rfl⟩
      · exact absurd hnodup (exists_firstRepeated_iff.mp ⟨y, hy⟩)
      · rfl

/-- Where keys differ, looking for a key finds the element that has it. -/
theorem find?_eq_some_iff_of_nodup [DecidableEq β] (hnodup : (xs.map key).Nodup) {k : β} :
    xs.find? (fun x => key x = k) = some x ↔ x ∈ xs ∧ key x = k := by
  constructor
  · intro h
    exact ⟨List.mem_of_find?_eq_some h, by simpa using List.find?_some h⟩
  · rintro ⟨hx, rfl⟩
    cases hfind : xs.find? fun y => key y = key x with
    | none =>
      have hmiss := List.find?_eq_none.mp hfind x hx
      simp at hmiss
    | some y =>
      have hkey : key y = key x := by simpa using List.find?_some hfind
      rw [List.inj_on_of_nodup_map hnodup (List.mem_of_find?_eq_some hfind) hx hkey]

/-- Where keys differ, it does not matter from which end a key is looked for. -/
theorem find?_reverse_of_nodup [DecidableEq β] (hnodup : (xs.map key).Nodup) (k : β) :
    xs.reverse.find? (fun x => key x = k) = xs.find? fun x => key x = k := by
  have hreverse : (xs.reverse.map key).Nodup := by
    rwa [List.map_reverse, List.nodup_reverse]
  apply Option.ext
  intro x
  rw [find?_eq_some_iff_of_nodup hreverse, find?_eq_some_iff_of_nodup hnodup, List.mem_reverse]

/-- From the end, the first element of a list is the last one to be tried. -/
theorem find?_reverse_cons (p : α → Bool) (x : α) (xs : List α) :
    (x :: xs).reverse.find? p = (xs.reverse.find? p).or (if p x then some x else none) := by
  rw [List.reverse_cons, List.find?_append, List.find?_singleton]

/-- Where an element that is put in replaces what is found under its own key alone, the last of many
elements is found under a key, or else what was found there before. -/
theorem find?_foldl_put [DecidableEq β] {σ : Type} (items : σ → List α) (put : σ → α → σ)
    (hput : ∀ s x k, (items (put s x)).find? (fun y => key y = k) =
      if key x = k then some x else (items s).find? fun y => key y = k)
    (xs : List α) (s : σ) (k : β) :
    (items (xs.foldl put s)).find? (fun y => key y = k) =
      (xs.reverse.find? fun y => key y = k).or ((items s).find? fun y => key y = k) := by
  induction xs generalizing s with
  | nil => rfl
  | cons x xs ih =>
    rw [List.foldl_cons, ih, hput, find?_reverse_cons, Option.or_assoc]
    congr 1
    by_cases h : key x = k <;> simp [h]

/-- An element is the last one with its key. -/
def LastOfKey (key : α → β) (xs : List α) (x : α) : Prop :=
  ∃ front rest, xs = front ++ x :: rest ∧ ∀ y ∈ rest, key y ≠ key x

/-- The last element of a key is one of the list. -/
theorem LastOfKey.mem (h : LastOfKey key xs x) : x ∈ xs := by
  obtain ⟨front, rest, rfl, -⟩ := h
  exact List.mem_append_right front List.mem_cons_self

/-- From the end, looking for a key finds the last element that has it. -/
theorem find?_reverse_eq_some_iff [DecidableEq β] {k : β} :
    xs.reverse.find? (fun x => key x = k) = some x ↔ LastOfKey key xs x ∧ key x = k := by
  rw [List.find?_eq_some_iff_append]
  constructor
  · rintro ⟨hkey, behind, before, hsplit, hother⟩
    have hk : key x = k := by simpa using hkey
    refine ⟨⟨before.reverse, behind.reverse, ?_, fun y hy => ?_⟩, hk⟩
    · simpa using congrArg List.reverse hsplit
    · simpa [hk] using hother y (List.mem_reverse.mp hy)
  · rintro ⟨⟨front, rest, rfl, hother⟩, rfl⟩
    refine ⟨by simp, rest.reverse, front.reverse, by simp, fun y hy => ?_⟩
    simpa using hother y (List.mem_reverse.mp hy)

/-- There is only one such element. -/
theorem LastOfKey.unique [DecidableEq β] (hx : LastOfKey key xs x) (hy : LastOfKey key xs y)
    (hkey : key x = key y) : x = y :=
  Option.some.inj ((find?_reverse_eq_some_iff.mpr ⟨hx, hkey⟩).symm.trans
    (find?_reverse_eq_some_iff.mpr ⟨hy, rfl⟩))

/-! ### First occurrences -/

section FirstOccurrences

variable [DecidableEq α]

/-- Of a list with one more element, the first occurrences are those of the list and, if it is not among
them, the element. -/
theorem eraseDups_concat (xs : List α) (x : α) :
    (xs ++ [x]).eraseDups = if x ∈ xs then xs.eraseDups else xs.eraseDups ++ [x] := by
  rw [List.eraseDups_append]
  by_cases h : x ∈ xs <;> simp [h, List.removeAll, List.eraseDups_cons]

/-- Without its repetitions a list has none. -/
theorem nodup_eraseDups (xs : List α) : xs.eraseDups.Nodup := by
  induction xs using List.reverseRecOn with
  | nil => exact List.nodup_nil
  | append_singleton xs x ih =>
    rw [eraseDups_concat]
    split
    · exact ih
    · next hnew =>
      rw [← List.concat_eq_append, List.nodup_concat, List.mem_eraseDups]
      exact ⟨hnew, ih⟩

/-- A list without repetitions stays as it is. -/
theorem eraseDups_of_nodup {xs : List α} (h : xs.Nodup) : xs.eraseDups = xs := by
  induction xs using List.reverseRecOn with
  | nil => rfl
  | append_singleton xs x ih =>
    rw [← List.concat_eq_append, List.nodup_concat] at h
    rw [eraseDups_concat, if_neg h.1, ih h.2]

/-- First occurrences stand in the order in which they come first. -/
theorem pairwise_eraseDups (xs : List α) :
    xs.eraseDups.Pairwise fun x y => xs.idxOf x < xs.idxOf y := by
  induction xs using List.reverseRecOn with
  | nil => exact .nil
  | append_singleton xs x ih =>
    -- one more element behind a list leaves the places of its elements as they are
    have hplaces : xs.eraseDups.Pairwise fun y z => (xs ++ [x]).idxOf y < (xs ++ [x]).idxOf z := by
      refine ih.imp_of_mem fun {y z} hy hz hlt => ?_
      rw [List.mem_eraseDups] at hy hz
      rwa [List.idxOf_append_of_mem hy, List.idxOf_append_of_mem hz]
    rw [eraseDups_concat]
    split
    · exact hplaces
    · next hnew =>
      refine List.pairwise_append.mpr ⟨hplaces, List.pairwise_singleton _ _, fun y hy z hz => ?_⟩
      obtain rfl := List.mem_singleton.mp hz
      rw [List.mem_eraseDups] at hy
      rw [List.idxOf_append_of_mem hy, List.idxOf_append_of_notMem hnew]
      exact Nat.lt_add_right _ (List.idxOf_lt_length_of_mem hy)

/-- Elements that come again do not matter, wherever they are left out. -/
theorem eraseDups_append_eraseDups (xs ys : List α) :
    (xs ++ ys.eraseDups).eraseDups = (xs ++ ys).eraseDups := by
  induction ys using List.reverseRecOn with
  | nil => rfl
  | append_singleton ys y ih =>
    rw [eraseDups_concat ys, ← List.append_assoc, eraseDups_concat (xs ++ ys)]
    by_cases hy : y ∈ ys
    · simp [hy, ih]
    · rw [if_neg hy, ← List.append_assoc, eraseDups_concat, ih]
      simp [hy]

end FirstOccurrences

end KernelDispatch
