import KernelDispatch.Tensor.Basic

/-!
# Attribute maps

A node carries named attributes. The map is kept strictly ordered by name, so maps with the same
entries are equal and the first name that breaks a rule is the least one. Typed access reports a
missing attribute or one of the wrong kind; a floating-point attribute may be given as an integer.
-/

namespace KernelDispatch

/-- The value of an attribute. -/
inductive AttrValue where
  | float (value : Binary32)
  | int (value : Int64)
  | string (value : String)
  | tensor (value : Tensor)
  | floats (values : List Binary32)
  | ints (values : List Int64)
  | strings (values : List String)
deriving DecidableEq, Inhabited, Repr

/-- The kinds of attribute values. -/
inductive AttrKind where
  | float
  | int
  | string
  | tensor
  | floats
  | ints
  | strings
deriving DecidableEq, Inhabited, Repr

/-- The name of a kind in messages. -/
def AttrKind.name : AttrKind → String
  | float => "float"
  | int => "int"
  | string => "string"
  | tensor => "tensor"
  | floats => "floats"
  | ints => "ints"
  | strings => "strings"

/-- The kind of a value. -/
def AttrValue.kind : AttrValue → AttrKind
  | float _ => .float
  | int _ => .int
  | string _ => .string
  | tensor _ => .tensor
  | floats _ => .floats
  | ints _ => .ints
  | strings _ => .strings

/-- Why a kernel refuses the value or the presence of an attribute. -/
inductive Rejection where
  /-- The kernel does not know the attribute. -/
  | unsupported
  /-- The attribute asks for explicit broadcasting, which implicit broadcasting replaced. -/
  | legacyBroadcast
  /-- The number is infinite or not a number. -/
  | notFinite
  /-- The integer is neither zero nor one. -/
  | notFlag (got : Int64)
  /-- The axis is not the last one. -/
  | notLastAxis (got : Int64)
  /-- A scripted kernel refuses the attribute. -/
  | scripted
deriving DecidableEq, Repr

/-- The wording of a rejection. -/
def Rejection.message : Rejection → String
  | unsupported => "attribute is not supported by this kernel"
  | legacyBroadcast => "legacy broadcast attributes are not supported since opset 7"
  | notFinite => "must be finite"
  | notFlag got => s!"must be 0 or 1, got {got.toInt}"
  | notLastAxis got => s!"only the last axis (-1) is supported, got {got.toInt}"
  | scripted => "rejected by test kernel"

/-- Why an attribute map is not acceptable. -/
inductive AttributeError where
  | missing (name : String)
  | wrongKind (name : String) (expected found : AttrKind)
  | invalid (name : String) (reason : Rejection)
deriving DecidableEq, Repr

/-- The wording of an attribute error. -/
def AttributeError.message : AttributeError → String
  | missing name => s!"missing required attribute '{name}'"
  | wrongKind name expected found =>
    s!"attribute '{name}' must be {expected.name}, got {found.name}"
  | invalid name reason => s!"attribute '{name}' is invalid: {reason.message}"

/-- Named attributes, strictly ordered by name. -/
structure Attributes where
  items : List (String × AttrValue)
  ordered : items.Pairwise fun a b => a.1 < b.1
deriving DecidableEq

namespace Attributes

/-- No attributes. -/
def empty : Attributes := ⟨[], .nil⟩

instance : Inhabited Attributes := ⟨empty⟩

/-- Put a value under a name into an ordered list, replacing an earlier value of that name. -/
def insertInto (name : String) (value : AttrValue) :
    List (String × AttrValue) → List (String × AttrValue)
  | [] => [(name, value)]
  | (k, v) :: rest =>
    if name < k then (name, value) :: (k, v) :: rest
    else if name = k then (name, value) :: rest
    else (k, v) :: insertInto name value rest

/-- The names after an insertion are the old ones and the new one. -/
theorem fst_of_mem_insertInto {name : String} {value : AttrValue} {p : String × AttrValue} :
    ∀ {items : List (String × AttrValue)}, p ∈ insertInto name value items →
      p.1 = name ∨ p ∈ items
  | [], h => by simp_all [insertInto]
  | (k, v) :: rest, h => by
    simp only [insertInto] at h
    split at h
    · simp only [List.mem_cons] at h ⊢
      rcases h with rfl | h
      · exact .inl rfl
      · exact .inr h
    · split at h
      · simp only [List.mem_cons] at h ⊢
        rcases h with rfl | h
        · exact .inl rfl
        · exact .inr (.inr h)
      · simp only [List.mem_cons] at h ⊢
        rcases h with rfl | h
        · exact .inr (.inl rfl)
        · exact (fst_of_mem_insertInto h).imp_right .inr

/-- Insertion keeps the order. -/
theorem pairwise_insertInto (name : String) (value : AttrValue) :
    ∀ {items : List (String × AttrValue)}, items.Pairwise (fun a b => a.1 < b.1) →
      (insertInto name value items).Pairwise fun a b => a.1 < b.1
  | [], _ => by simp [insertInto]
  | (k, v) :: rest, h => by
    obtain ⟨hk, hrest⟩ := List.pairwise_cons.mp h
    simp only [insertInto]
    split
    · next hlt =>
      refine List.pairwise_cons.mpr ⟨fun q hq => ?_, h⟩
      rcases List.mem_cons.mp hq with rfl | hq
      · exact hlt
      · exact String.lt_trans hlt (hk q hq)
    · next hlt =>
      split
      · next heq => exact List.pairwise_cons.mpr ⟨fun q hq => heq ▸ hk q hq, hrest⟩
      · next hne =>
        refine List.pairwise_cons.mpr ⟨fun q hq => ?_, pairwise_insertInto name value hrest⟩
        rcases fst_of_mem_insertInto hq with heq | hq
        · have hle := String.not_lt.mp hlt
          rw [heq]
          exact Decidable.byContradiction fun hge =>
            hne (String.le_antisymm (String.not_lt.mp hge) hle)
        · exact hk q hq

/-- Put a value under a name; an earlier value of that name is replaced. -/
def insert (attrs : Attributes) (name : String) (value : AttrValue) : Attributes :=
  ⟨insertInto name value attrs.items, pairwise_insertInto name value attrs.ordered⟩

/-- The map that a list of insertions leaves. -/
def ofList (entries : List (String × AttrValue)) : Attributes :=
  entries.foldl (fun attrs e => attrs.insert e.1 e.2) empty

/-- The value under a name. -/
def get? (attrs : Attributes) (name : String) : Option AttrValue :=
  (attrs.items.find? fun e => e.1 = name).map (·.2)

/-- Whether a name has a value. -/
def contains (attrs : Attributes) (name : String) : Bool := (attrs.get? name).isSome

/-- The number of attributes. -/
def size (attrs : Attributes) : Nat := attrs.items.length

/-- The names in order. -/
def names (attrs : Attributes) : List String := attrs.items.map (·.1)

/-- The value under a name as `read` takes it, or the error for a missing or unfit value. -/
def typed {α : Type} (attrs : Attributes) (name : String) (expected : AttrKind)
    (read : AttrValue → Option α) : Except AttributeError α :=
  match attrs.get? name with
  | none => .error (.missing name)
  | some v =>
    match read v with
    | some a => .ok a
    | none => .error (.wrongKind name expected v.kind)

/-- A number; an integer stands for the number nearest to it. -/
def float (attrs : Attributes) (name : String) : Except AttributeError Binary32 :=
  attrs.typed name .float fun
    | .float x => some x
    | .int n => some (.ofInt64 n)
    | _ => none

/-- An integer. -/
def int (attrs : Attributes) (name : String) : Except AttributeError Int64 :=
  attrs.typed name .int fun
    | .int n => some n
    | _ => none

/-- A list of integers. -/
def ints (attrs : Attributes) (name : String) : Except AttributeError (List Int64) :=
  attrs.typed name .ints fun
    | .ints ns => some ns
    | _ => none

/-- A text. -/
def string (attrs : Attributes) (name : String) : Except AttributeError String :=
  attrs.typed name .string fun
    | .string s => some s
    | _ => none

/-- A number, or the default when there is no attribute of that name. -/
def floatOr (attrs : Attributes) (name : String) (default : Binary32) :
    Except AttributeError Binary32 :=
  if attrs.contains name then attrs.float name else .ok default

/-- An integer, or the default when there is no attribute of that name. -/
def intOr (attrs : Attributes) (name : String) (default : Int64) : Except AttributeError Int64 :=
  if attrs.contains name then attrs.int name else .ok default

/-- A text, or the default when there is no attribute of that name. -/
def stringOr (attrs : Attributes) (name : String) (default : String) :
    Except AttributeError String :=
  if attrs.contains name then attrs.string name else .ok default

/-- Refuse the least name that is not among the allowed ones. -/
def rejectUnknown (attrs : Attributes) (allowed : List String) : Except AttributeError Unit :=
  match attrs.names.find? fun name => !allowed.contains name with
  | some name => .error (.invalid name .unsupported)
  | none => .ok ()

end Attributes

end KernelDispatch
