import KernelDispatch.Json.Basic
import KernelDispatch.Proofs.Loops

/-!
# Complete trees

A tree is complete if the text does not break off anywhere in it, its strings denote characters and
its numbers are in range. Reading a tree as a whole succeeds exactly if it is complete and not
nested too deep.
-/

namespace KernelDispatch.Json.Tree

/-! ### Nesting -/

mutual

/-- How deep arrays and objects are nested in a tree. -/
def height : Tree → Nat
  | array items _ => heightOfItems items + 1
  | object members _ => heightOfMembers members + 1
  | _ => 0

/-- How deep arrays and objects are nested in a list of trees. -/
def heightOfItems : List Tree → Nat
  | [] => 0
  | item :: rest => max (height item) (heightOfItems rest)

/-- How deep arrays and objects are nested in a list of members. -/
def heightOfMembers : List (Option String × Tree) → Nat
  | [] => 0
  | (_, value) :: rest => max (height value) (heightOfMembers rest)

end

/-! ### Completeness -/

mutual

/-- Whether a tree has all its parts. -/
def Complete : Tree → Prop
  | null => True
  | bool _ => True
  | number literal => literal.value?.isSome
  | string text => text.isSome
  | array items tail => CompleteItems items ∧ tail = .closed
  | object members tail => CompleteMembers members ∧ tail = .closed
  | broken _ _ => False

/-- Whether all trees of a list have all their parts. -/
def CompleteItems : List Tree → Prop
  | [] => True
  | item :: rest => Complete item ∧ CompleteItems rest

/-- Whether all members of a list have all their parts. -/
def CompleteMembers : List (Option String × Tree) → Prop
  | [] => True
  | (key, value) :: rest => key.isSome ∧ Complete value ∧ CompleteMembers rest

end

/-- An end of a list is read if it is closed. -/
theorem read_tail_eq_ok_iff {tail : Tail} : tail.read = .ok () ↔ tail = .closed := by
  cases tail <;> simp [Tail.read]

/-- Two checks in turn. -/
theorem then_eq_ok_iff {x y : Except Fault Unit} :
    (do x; y) = .ok () ↔ x = .ok () ∧ y = .ok () := by
  cases x with
  | ok u => exact (and_iff_right rfl).symm
  | error e => exact iff_of_false nofun fun h => nomatch h.1

mutual

/-- A tree can be read as a whole exactly if it is complete and not nested too deep. -/
theorem check_eq_ok_iff {depth : Nat} (hdepth : depth < depthLimit) :
    ∀ tree : Tree, check depth tree = .ok () ↔ tree.Complete ∧ depth + tree.height < depthLimit
  | null => by simp [check, Complete, height, hdepth]
  | bool _ => by simp [check, Complete, height, hdepth]
  | number literal => by simp [check, Complete, height, hdepth, Option.isSome_iff_ne_none]
  | string text => by simp [check, Complete, height, hdepth, Option.isSome_iff_ne_none]
  | broken _ _ => by simp [check, Complete]
  | array items tail => by
    rw [check, Complete, height]
    split
    · exact iff_of_false nofun fun h => by omega
    · next hdeeper =>
      rw [then_eq_ok_iff, checkItems_eq_ok_iff (Nat.lt_of_not_le hdeeper) items, read_tail_eq_ok_iff]
      have hsum : depth + 1 + heightOfItems items = depth + (heightOfItems items + 1) := by omega
      rw [hsum, and_right_comm]
  | object members tail => by
    rw [check, Complete, height]
    split
    · exact iff_of_false nofun fun h => by omega
    · next hdeeper =>
      rw [then_eq_ok_iff, checkMembers_eq_ok_iff (Nat.lt_of_not_le hdeeper) members,
        read_tail_eq_ok_iff]
      have hsum : depth + 1 + heightOfMembers members = depth + (heightOfMembers members + 1) := by
        omega
      rw [hsum, and_right_comm]

/-- The items of an array pass the check if they are complete and not nested too deep. -/
theorem checkItems_eq_ok_iff {depth : Nat} (hdepth : depth < depthLimit) :
    ∀ items : List Tree, checkItems depth items = .ok () ↔
      CompleteItems items ∧ depth + heightOfItems items < depthLimit
  | [] => by simp [checkItems, CompleteItems, heightOfItems, hdepth]
  | item :: rest => by
    rw [checkItems, then_eq_ok_iff, check_eq_ok_iff hdepth item, checkItems_eq_ok_iff hdepth rest,
      CompleteItems, heightOfItems, ← Nat.add_max_add_left, Nat.max_lt, and_and_and_comm]

/-- The members of an object pass the check if they are complete and not nested too deep. -/
theorem checkMembers_eq_ok_iff {depth : Nat} (hdepth : depth < depthLimit) :
    ∀ members : List (Option String × Tree), checkMembers depth members = .ok () ↔
      CompleteMembers members ∧ depth + heightOfMembers members < depthLimit
  | [] => by simp [checkMembers, CompleteMembers, heightOfMembers, hdepth]
  | (none, value) :: rest => iff_of_false nofun fun h => nomatch h.1.1
  | (some key, value) :: rest => by
    change (do check depth value; checkMembers depth rest) = .ok () ↔ _
    rw [then_eq_ok_iff, check_eq_ok_iff hdepth value, checkMembers_eq_ok_iff hdepth rest,
      CompleteMembers, heightOfMembers, ← Nat.add_max_add_left, Nat.max_lt, and_and_and_comm,
      Option.isSome_some, eq_self, true_and]

end

end KernelDispatch.Json.Tree
