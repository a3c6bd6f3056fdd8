import KernelDispatch.Graph.File
import KernelDispatch.Proofs.Json.Complete
import KernelDispatch.Proofs.Json.Literal
import KernelDispatch.Proofs.Number.Rounding
import Mathlib.Data.List.Forall2

/-!
# Values of attributes

Which attribute a JSON value denotes, as rules that do not depend on one another: the kind of an
array follows from all of its items, and a number that is no integer in range is read as a binary64
number and rounded to the nearest binary32 number. Trying integers, other numbers and texts in turn
finds the one rule that applies; null, truth values, objects, and arrays neither of numbers nor of
texts denote no attribute.
-/

namespace KernelDispatch

open Json (Tree Tail Numeral Literal)

/-! ### Lists of optional values -/

section Lists

variable {α β : Type} {f : α → Option β} {xs : List α} {ys : List β}

/-- A list is mapped if all its elements are. -/
theorem mapM_eq_some_iff : xs.mapM f = some ys ↔ List.Forall₂ (fun x y => f x = some y) xs ys := by
  induction xs generalizing ys with
  | nil => simp [eq_comm]
  | cons x xs ih =>
    simp only [List.mapM_cons, Option.bind_eq_bind, Option.bind_eq_some_iff, ih,
      List.forall₂_cons_left_iff]
    constructor
    · rintro ⟨y, hy, rest, hrest, h⟩
      exact ⟨y, rest, hy, hrest, (Option.some.inj h).symm⟩
    · rintro ⟨y, rest, hy, hrest, rfl⟩
      exact ⟨y, hy, rest, hrest, rfl⟩

/-- A list is not mapped if one of its elements is not. -/
theorem mapM_eq_none_iff : xs.mapM f = none ↔ ∃ x ∈ xs, f x = none := by
  induction xs with
  | nil => simp
  | cons x xs ih =>
    simp only [List.mapM_cons, Option.bind_eq_bind, List.exists_mem_cons_iff, ← ih]
    cases f x with
    | none => simp
    | some y => cases xs.mapM f <;> simp

end Lists

/-! ### Numbers and texts among the values -/

/-- The binary64 number nearest to a numeral. -/
def Json.Numeral.toBinary64 : Numeral → Float
  | .integer n => if n < 0 then n.toInt64.toFloat else n.toNat.toUInt64.toFloat
  | .real x => x

namespace Json.Tree

variable {tree : Tree} {n : Int64} {m : Numeral} {x : Binary32} {s : String}

/-- Whether a value is an integer of 64 bits. -/
def IsInt64 (tree : Tree) (n : Int64) : Prop := ∃ l, tree = number l ∧ l.IsInteger n.toInt

/-- Whether a value is a number. -/
def IsNumber (tree : Tree) (m : Numeral) : Prop := ∃ l, tree = number l ∧ l.value? = some m

/-- Whether a value is a number that is rounded to a binary32 number, from the binary64 number that
it is read as. -/
def IsRounded (tree : Tree) (x : Binary32) : Prop :=
  ∃ m, tree.IsNumber m ∧ Binary32.RoundsTo m.toBinary64 x

/-- Whether a value is a text. -/
def IsText (tree : Tree) (s : String) : Prop := tree = string (some s)

end Json.Tree

namespace AttrValue

variable {l : Literal} {m : Numeral} {n : Int64}

/-- A number is an integer attribute exactly if its literal is an integer of 64 bits. -/
theorem ofNumeral_eq_int_iff (h : l.value? = some m) :
    ofNumeral m = .int n ↔ l.IsInteger n.toInt := by
  cases m with
  | integer k =>
    have hk := Literal.value?_eq_integer_iff.mp h
    rw [ofNumeral]
    split
    · next hrange =>
      have htoInt : (Int64.ofInt k).toInt = k :=
        Int64.toInt_ofInt_of_le hrange.1 (Int.lt_add_one_of_le hrange.2)
      rw [int.injEq]
      refine ⟨fun hn => by rwa [← hn, htoInt], fun hn => ?_⟩
      rw [hk.unique hn, Int64.ofInt_toInt]
    · next hrange =>
      refine iff_of_false nofun fun hn => hrange ?_
      rw [hk.unique hn]
      exact ⟨n.minValue_le_toInt, n.toInt_le⟩
  | real x =>
    refine iff_of_false nofun fun hn => ?_
    cases h.symm.trans (Literal.value?_eq_integer_iff.mpr hn)

/-- Any other number is taken as a binary64 number and rounded. -/
theorem ofNumeral_eq_float (h : l.value? = some m) (hn : ∀ n : Int64, ¬ l.IsInteger n.toInt) :
    ofNumeral m = .float (.ofFloat m.toBinary64) := by
  cases m with
  | integer k =>
    have hk := Literal.value?_eq_integer_iff.mp h
    have hrange : ¬ (Int64.minValue.toInt ≤ k ∧ k ≤ Int64.maxValue.toInt) := by
      intro hrange
      refine hn (Int64.ofInt k) ((ofNumeral_eq_int_iff h).mp ?_)
      rw [ofNumeral, if_pos hrange]
    have hpositive : ¬ k < 0 := fun hnegative =>
      hrange ⟨hk.lower, Int.le_trans (Int.le_of_lt hnegative) (by decide)⟩
    rw [ofNumeral, if_neg hrange, Numeral.toBinary64, if_neg hpositive]
  | real x => rfl

end AttrValue

namespace Json.Tree

variable {tree : Tree} {n : Int64} {x : Binary32} {s : String}

/-- The integers of 64 bits among the values. -/
theorem int?_eq_some_iff : tree.int? = some n ↔ tree.IsInt64 n := by
  cases tree with
  | number l =>
    simp only [int?, IsInt64, number.injEq, exists_eq_left']
    cases hvalue : l.value? with
    | none =>
      refine iff_of_false nofun fun hn => ?_
      cases hvalue.symm.trans (Literal.value?_eq_integer_iff.mpr hn)
    | some m =>
      rw [← AttrValue.ofNumeral_eq_int_iff hvalue, Option.map_some]
      cases AttrValue.ofNumeral m <;> simp
  | _ => simp [int?, IsInt64]

/-- The numbers among the values, rounded. -/
theorem float?_eq_some_iff : tree.float? = some x ↔ tree.IsRounded x := by
  cases tree with
  | number l =>
    simp only [float?, IsRounded, IsNumber, number.injEq, exists_eq_left', Option.map_eq_some_iff,
      Binary32.roundsTo_iff]
    refine exists_congr fun m => and_congr_right fun _ => ?_
    cases m <;> exact eq_comm
  | _ => simp [float?, IsRounded, IsNumber]

/-- The texts among the values. -/
theorem string?_eq_some_iff : tree.string? = some s ↔ tree.IsText s := by
  cases tree <;> simp [string?, IsText]

/-- The values that are no integers of 64 bits. -/
theorem int?_eq_none_iff : tree.int? = none ↔ ∀ n, ¬ tree.IsInt64 n := by
  simp only [Option.eq_none_iff_forall_ne_some, ne_eq, int?_eq_some_iff]

/-- The values that are no numbers. -/
theorem float?_eq_none_iff : tree.float? = none ↔ ∀ m, ¬ tree.IsNumber m := by
  simp only [Option.eq_none_iff_forall_ne_some, ne_eq, float?_eq_some_iff]
  exact ⟨fun h m hm => h _ ⟨m, hm, Binary32.roundsTo_ofFloat _⟩, fun h x ⟨m, hm, _⟩ => h m hm⟩

/-- The values that are no texts. -/
theorem string?_eq_none_iff : tree.string? = none ↔ ∀ s, ¬ tree.IsText s := by
  simp only [Option.eq_none_iff_forall_ne_some, ne_eq, string?_eq_some_iff]

/-- An integer of 64 bits is a number. -/
theorem IsInt64.isNumber (h : tree.IsInt64 n) : tree.IsNumber (.integer n.toInt) := by
  obtain ⟨l, rfl, hl⟩ := h
  exact ⟨l, rfl, Literal.value?_eq_integer_iff.mpr hl⟩

/-- A text is no number. -/
theorem IsText.not_isNumber (h : tree.IsText s) (m : Numeral) : ¬ tree.IsNumber m := by
  rintro ⟨l, hl, -⟩
  cases h.symm.trans hl

end Json.Tree

/-! ### The attribute of a value -/

namespace AttrValue

variable {tree : Tree} {v : AttrValue}

/-- Which attribute a value denotes. -/
inductive Denotes : Tree → AttrValue → Prop where
  | int {tree n} (h : tree.IsInt64 n) : Denotes tree (.int n)
  /-- A number that is no integer of 64 bits is read as a binary64 number, which is rounded. -/
  | float {tree x} (h : tree.IsRounded x) (hint : ∀ n, ¬ tree.IsInt64 n) : Denotes tree (.float x)
  | string {tree s} (h : tree.IsText s) : Denotes tree (.string s)
  | ints {items tail ns} (h : List.Forall₂ Tree.IsInt64 items ns) :
    Denotes (.array items tail) (.ints ns)
  /-- One item that is no integer of 64 bits makes all items floating-point numbers. -/
  | floats {items tail xs} (h : List.Forall₂ Tree.IsRounded items xs)
    (hint : ∃ item ∈ items, ∀ n, ¬ item.IsInt64 n) : Denotes (.array items tail) (.floats xs)
  /-- The empty list is one of integers. -/
  | strings {items tail texts} (h : List.Forall₂ Tree.IsText items texts) (hne : items ≠ []) :
    Denotes (.array items tail) (.strings texts)

/-- The values that denote no attribute. -/
inductive Unfit : Tree → Prop where
  | null : Unfit .null
  | bool (b : Bool) : Unfit (.bool b)
  | object (members : List (Option String × Tree)) (tail : Tail) : Unfit (.object members tail)
  /-- Some item is no number and some item is no text; they may be the same. -/
  | array {items tail} (hnumber : ∃ item ∈ items, ∀ m, ¬ item.IsNumber m)
    (htext : ∃ item ∈ items, ∀ s, ¬ item.IsText s) : Unfit (.array items tail)

section Lists

variable {items : List Tree}

/-- Lists of integers of 64 bits. -/
theorem mapM_int?_eq_some_iff {ns : List Int64} :
    items.mapM Tree.int? = some ns ↔ List.Forall₂ Tree.IsInt64 items ns := by
  simp only [mapM_eq_some_iff, Tree.int?_eq_some_iff]

/-- Lists of numbers, each rounded. -/
theorem mapM_float?_eq_some_iff {xs : List Binary32} :
    items.mapM Tree.float? = some xs ↔ List.Forall₂ Tree.IsRounded items xs := by
  simp only [mapM_eq_some_iff, Tree.float?_eq_some_iff]

/-- Lists of texts. -/
theorem mapM_string?_eq_some_iff {texts : List String} :
    items.mapM Tree.string? = some texts ↔ List.Forall₂ Tree.IsText items texts := by
  simp only [mapM_eq_some_iff, Tree.string?_eq_some_iff]

/-- Lists with an item that is no integer of 64 bits. -/
theorem mapM_int?_eq_none_iff :
    items.mapM Tree.int? = none ↔ ∃ item ∈ items, ∀ n, ¬ item.IsInt64 n := by
  simp only [mapM_eq_none_iff, Tree.int?_eq_none_iff]

/-- Lists with an item that is no number. -/
theorem mapM_float?_eq_none_iff :
    items.mapM Tree.float? = none ↔ ∃ item ∈ items, ∀ m, ¬ item.IsNumber m := by
  simp only [mapM_eq_none_iff, Tree.float?_eq_none_iff]

/-- Lists with an item that is no text. -/
theorem mapM_string?_eq_none_iff :
    items.mapM Tree.string? = none ↔ ∃ item ∈ items, ∀ s, ¬ item.IsText s := by
  simp only [mapM_eq_none_iff, Tree.string?_eq_none_iff]

/-- An item that is no number is no integer. -/
theorem mapM_int?_eq_none_of_float (h : items.mapM Tree.float? = none) :
    items.mapM Tree.int? = none := by
  obtain ⟨item, hitem, hnumber⟩ := mapM_float?_eq_none_iff.mp h
  exact mapM_int?_eq_none_iff.mpr ⟨item, hitem, fun n hn => hnumber _ hn.isNumber⟩

/-- Texts are no numbers. -/
theorem mapM_float?_eq_none_of_texts {texts : List String}
    (h : List.Forall₂ Tree.IsText items texts) (hne : items ≠ []) :
    items.mapM Tree.float? = none := by
  refine mapM_float?_eq_none_iff.mpr ?_
  cases h with
  | nil => exact absurd rfl hne
  | cons hfirst _ => exact ⟨_, List.mem_cons_self, hfirst.not_isNumber⟩

end Lists

/-- The attribute of a number. -/
theorem denotes_number {l : Literal} {m : Numeral} (h : l.value? = some m) :
    Denotes (.number l) (ofNumeral m) := by
  by_cases hint : ∃ n : Int64, l.IsInteger n.toInt
  · obtain ⟨n, hn⟩ := hint
    rw [(ofNumeral_eq_int_iff h).mpr hn]
    exact .int ⟨l, rfl, hn⟩
  · have hnone : ∀ n : Int64, ¬ l.IsInteger n.toInt := fun n hn => hint ⟨n, hn⟩
    rw [ofNumeral_eq_float h hnone]
    refine .float ⟨m, ⟨l, rfl, h⟩, Binary32.roundsTo_ofFloat _⟩ ?_
    rintro n ⟨_, hl, hn⟩
    exact hnone n (Tree.number.inj hl ▸ hn)

/-- The attribute that a value is taken for is one that it denotes. -/
theorem denotes_of_ofJson? (h : ofJson? tree = some v) : Denotes tree v := by
  cases tree with
  | number l =>
    obtain ⟨m, hm, rfl⟩ := Option.map_eq_some_iff.mp h
    exact denotes_number hm
  | string text =>
    obtain ⟨s, rfl, rfl⟩ := Option.map_eq_some_iff.mp h
    exact .string rfl
  | array items tail =>
    simp only [ofJson?] at h
    split at h
    · next ns hints =>
      obtain rfl := Option.some.inj h
      exact .ints (mapM_int?_eq_some_iff.mp hints)
    · next hints =>
      have hodd := mapM_int?_eq_none_iff.mp hints
      split at h
      · next xs hfloats =>
        obtain rfl := Option.some.inj h
        exact .floats (mapM_float?_eq_some_iff.mp hfloats) hodd
      · obtain ⟨texts, htexts, rfl⟩ := Option.map_eq_some_iff.mp h
        refine .strings (mapM_string?_eq_some_iff.mp htexts) ?_
        rintro rfl
        simp at hodd
  | null => cases h
  | bool _ => cases h
  | object _ _ => cases h
  | broken _ _ => cases h

/-- Trying the kinds in turn finds the attribute that the rules give. -/
theorem ofJson?_eq_some_iff : ofJson? tree = some v ↔ Denotes tree v := by
  refine ⟨denotes_of_ofJson?, fun h => ?_⟩
  -- of each kind it has to be shown that those tried before it do not apply
  cases h with
  | int h =>
    obtain ⟨l, rfl, hl⟩ := h
    have hvalue := Literal.value?_eq_integer_iff.mpr hl
    exact Option.map_eq_some_iff.mpr ⟨_, hvalue, (ofNumeral_eq_int_iff hvalue).mpr hl⟩
  | float h hint =>
    obtain ⟨m, ⟨l, rfl, hl⟩, hx⟩ := h
    rw [Binary32.roundsTo_iff.mp hx]
    exact Option.map_eq_some_iff.mpr
      ⟨_, hl, ofNumeral_eq_float hl fun n hn => hint n ⟨l, rfl, hn⟩⟩
  | string h =>
    obtain rfl := h
    rfl
  | ints h =>
    simp only [ofJson?, mapM_int?_eq_some_iff.mpr h]
  | floats h hint =>
    simp only [ofJson?, mapM_int?_eq_none_iff.mpr hint, mapM_float?_eq_some_iff.mpr h]
  | strings h hne =>
    have hfloats := mapM_float?_eq_none_of_texts h hne
    simp only [ofJson?, mapM_int?_eq_none_of_float hfloats, hfloats,
      mapM_string?_eq_some_iff.mpr h, Option.map_some]

/-- The complete values that denote no attribute. -/
theorem ofJson?_eq_none_iff (h : tree.Complete) : ofJson? tree = none ↔ Unfit tree := by
  cases tree with
  | null => exact iff_of_true rfl .null
  | bool b => exact iff_of_true rfl (.bool b)
  | object members tail => exact iff_of_true rfl (.object members tail)
  | broken _ _ => exact absurd h (by simp [Tree.Complete])
  | number l =>
    obtain ⟨m, hm⟩ := Option.isSome_iff_exists.mp h
    have hsome : ofJson? (.number l) = some (ofNumeral m) := Option.map_eq_some_iff.mpr ⟨m, hm, rfl⟩
    rw [hsome]
    exact iff_of_false nofun nofun
  | string text =>
    obtain ⟨s, rfl⟩ := Option.isSome_iff_exists.mp h
    exact iff_of_false nofun nofun
  | array items tail =>
    have hnone : ofJson? (.array items tail) = none ↔
        items.mapM Tree.float? = none ∧ items.mapM Tree.string? = none := by
      refine ⟨fun hnone => ?_, fun ⟨hfloats, htexts⟩ => ?_⟩
      · simp only [ofJson?] at hnone
        split at hnone
        · cases hnone
        · split at hnone
          · cases hnone
          · next hfloats => exact ⟨hfloats, Option.map_eq_none_iff.mp hnone⟩
      · simp only [ofJson?, mapM_int?_eq_none_of_float hfloats, hfloats, htexts, Option.map_none]
    rw [hnone, mapM_float?_eq_none_iff, mapM_string?_eq_none_iff]
    exact ⟨fun ⟨hnumber, htext⟩ => .array hnumber htext,
      fun | .array hnumber htext => ⟨hnumber, htext⟩⟩

end AttrValue

end KernelDispatch
