/-!
# Ordered insertion

Lists kept in a given order by inserting one element at a time. An element goes before the first
one that it may precede, so among equals the one inserted last comes first.
-/

namespace KernelDispatch

variable {α : Type}

/-- Insert an element before the first one that it may precede. -/
def insertOrdered (le : α → α → Bool) (x : α) : List α → List α
  | [] => [x]
  | y :: ys => if le x y then x :: y :: ys else y :: insertOrdered le x ys

/-- The elements in order; equals keep their places relative to each other. -/
def sortStably (le : α → α → Bool) (xs : List α) : List α := xs.foldr (insertOrdered le) []

/-- The elements in order; of equals the later ones come first. -/
def sortLatestFirst (le : α → α → Bool) (xs : List α) : List α :=
  xs.foldl (fun sorted x => insertOrdered le x sorted) []

/-- Inserting adds the element and moves the others only. -/
theorem perm_insertOrdered (le : α → α → Bool) (x : α) :
    ∀ xs : List α, (insertOrdered le x xs).Perm (x :: xs)
  | [] => .refl _
  | y :: ys => by
    simp only [insertOrdered]
    split
    · exact .refl _
    · exact ((perm_insertOrdered le x ys).cons y).trans (.swap x y ys)

/-- Sorting rearranges. -/
theorem perm_sortStably (le : α → α → Bool) (xs : List α) : (sortStably le xs).Perm xs := by
  induction xs with
  | nil => exact .refl _
  | cons x xs ih => exact (perm_insertOrdered le x _).trans (ih.cons x)

end KernelDispatch
