import KernelDispatch.Attribute.Basic
import KernelDispatch.Proofs.Keys

/-!
# Attributes after insertions

What is found under a name after an insertion: the new value under its own name, and under every
other name what was found there before. After many insertions it is the value that was inserted last
under the name.
-/

namespace KernelDispatch.Attributes

variable {attrs : Attributes} {name other : String} {v : AttrValue}
  {entries : List (String × AttrValue)}

/-- What is found in a list after an insertion. -/
theorem find?_insertInto (items : List (String × AttrValue)) :
    (insertInto name v items).find? (fun e => e.1 = other) =
      if name = other then some (name, v) else items.find? fun e => e.1 = other := by
  induction items with
  | nil => by_cases h : name = other <;> simp [insertInto, h]
  | cons e rest ih =>
    rw [insertInto]
    by_cases hother : name = other
    · subst hother
      rw [if_pos rfl] at ih ⊢
      split
      · simp
      · split
        · simp
        · next hne => rw [List.find?_cons_of_neg (by simpa using Ne.symm hne), ih]
    · rw [if_neg hother] at ih ⊢
      split
      · rw [List.find?_cons_of_neg (by simpa using hother)]
      · split
        · next heq =>
          rw [List.find?_cons_of_neg (by simpa using hother),
            List.find?_cons_of_neg (by simpa [← heq] using hother)]
        · rw [List.find?_cons, List.find?_cons, ih]

/-- An inserted value is found under its name, and nothing changes under any other. -/
theorem get?_insert :
    (attrs.insert name v).get? other = if name = other then some v else attrs.get? other := by
  rw [get?, get?, insert, find?_insertInto]
  split <;> rfl

/-- Insert entries one after another. -/
def insertAll (attrs : Attributes) (entries : List (String × AttrValue)) : Attributes :=
  entries.foldl (fun attrs e => attrs.insert e.1 e.2) attrs

/-! ### The last value of a name -/

/-- The value inserted last under a name. -/
def lastValue (entries : List (String × AttrValue)) (name : String) : Option AttrValue :=
  (entries.reverse.find? fun e => e.1 = name).map (·.2)

/-- An entry in front counts only for a name that the others do not give. -/
theorem lastValue_cons (e : String × AttrValue) (entries : List (String × AttrValue))
    (name : String) :
    lastValue (e :: entries) name =
      (lastValue entries name).or (if e.1 = name then some e.2 else none) := by
  rw [lastValue, find?_reverse_cons, Option.map_or, ← lastValue]
  by_cases h : e.1 = name <;> simp [h]

/-- A name has a last value if it was inserted at all. -/
theorem exists_lastValue_iff : (∃ v, lastValue entries name = some v) ↔ name ∈ entries.map (·.1) := by
  rw [← Option.isSome_iff_exists, lastValue, Option.isSome_map, List.find?_isSome]
  simp

/-- Under every name the last insertion is found, or else what was there before. -/
theorem get?_insertAll_eq :
    (attrs.insertAll entries).get? name = (lastValue entries name).or (attrs.get? name) := by
  have hput (attrs : Attributes) (e : String × AttrValue) (name : String) :
      (attrs.insert e.1 e.2).items.find? (fun f => f.1 = name) =
        if e.1 = name then some e else attrs.items.find? fun f => f.1 = name :=
    find?_insertInto attrs.items
  rw [get?, insertAll, find?_foldl_put items (fun attrs e => attrs.insert e.1 e.2) hput, Option.map_or]
  rfl

/-- Entries of other names leave a value as it is. -/
theorem get?_insertAll (h : ∀ e ∈ entries, e.1 ≠ name) :
    (attrs.insertAll entries).get? name = attrs.get? name := by
  have hnone : lastValue entries name = none := by simpa [lastValue] using h
  rw [get?_insertAll_eq, hnone, Option.none_or]

end KernelDispatch.Attributes
