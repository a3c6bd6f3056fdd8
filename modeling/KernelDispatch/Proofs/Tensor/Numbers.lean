import KernelDispatch.Proofs.Matrix
import KernelDispatch.Proofs.Tensor.Encoding

/-!
# Numbers of tensors

A tensor of numbers is read at a position of its buffer or at an index, one coordinate for each of
its dimensions. The buffer is in row-major order, so the place of an index counts through the last
dimension first.
-/

namespace KernelDispatch

variable {t : Tensor} {shape : Shape} {dims idx : List Nat}

/-! ### Indices -/

/-- The place of an index in a buffer in row-major order. -/
def place (dims idx : List Nat) : Nat :=
  (dims.zip idx).foldl (fun front c => front * c.1 + c.2) 0

/-- The matrices of a tensor come one after another, each row by row. -/
theorem place_append (h : dims.length = idx.length) (m n i j : Nat) :
    place (dims ++ [m, n]) (idx ++ [i, j]) = (place dims idx * m + i) * n + j := by
  rw [place, List.zip_append h, List.foldl_append]
  rfl

/-- An index that is in range in every dimension has a place in the buffer. -/
theorem place_lt_volume (h : List.Forall₂ (· < ·) idx dims) : place dims idx < volume dims := by
  -- the coordinates before a dimension choose one of as many blocks as there are
  suffices hplace : ∀ front count, front < count →
      (dims.zip idx).foldl (fun front c => front * c.1 + c.2) front < count * volume dims by
    simpa [place] using hplace 0 1 Nat.one_pos
  induction h with
  | nil => simp
  | @cons i n idx dims hi _ ih =>
    intro front count hfront
    rw [List.zip_cons_cons, List.foldl_cons, volume_cons, ← Nat.mul_assoc]
    exact ih _ _ (Matrix.mul_add_lt_mul hfront hi)

/-! ### Tensors of numbers -/

namespace Tensor

/-- The number at a position of a tensor of numbers. -/
def number? (t : Tensor) (i : Nat) : Option Binary32 := t.floats.toOption.bind (·[i]?)

/-- Whether a tensor holds as many numbers as a shape counts. -/
structure NumbersOf (shape : Shape) (t : Tensor) : Prop where
  elementType : t.elementType = .f32
  shape_eq : t.shape = shape
  length_bytes : t.bytes.length = shape.count * 4
  fits : shape.count * 4 < wordSize

/-- The numbers of a buffer. -/
def column (t : Tensor) : Array Binary32 := (ElementFormat.floats.decode t.bytes).toArray

namespace NumbersOf

/-- A well-formed tensor of numbers holds as many as its shape counts. -/
theorem of_wellFormed (ht : t.WellFormed) (he : t.elementType = .f32) : t.NumbersOf t.shape where
  elementType := he
  shape_eq := rfl
  length_bytes := by rw [ht.length_bytes, ht.count_eq, he, ElementType.size]
  fits := by
    have hlength := ht.length_bytes
    rw [he, ElementType.size] at hlength
    rw [ht.count_eq, ← hlength]
    exact ht.2

variable (h : t.NumbersOf shape)
include h

/-- The numbers of a tensor are those of its buffer. -/
theorem floats_eq : t.floats = .ok (ElementFormat.floats.decode t.bytes) := by
  rw [floats, bytesOf, if_pos h.elementType]
  rfl

/-- A tensor of numbers is read as its column. -/
theorem readFloats_eq : readFloats t = .ok t.column := by
  rw [readFloats, h.floats_eq]
  rfl

/-- The column has one number for each element. -/
theorem size_column : t.column.size = shape.count := by
  rw [column, List.size_toArray, ElementFormat.floats, ElementFormat.ofWords, List.length_map]
  exact Bytes.length_words (by decide) _ h.length_bytes

/-- The number at a position is that of the column. -/
theorem number?_eq {i : Nat} (hi : i < shape.count) :
    t.number? i = some (t.column.getD i .zero) := by
  have hsize : i < (ElementFormat.floats.decode t.bytes).length := by
    have hcolumn := h.size_column
    rw [column, List.size_toArray] at hcolumn
    omega
  rw [number?, h.floats_eq]
  simp [column, Except.toOption, hsize]

end NumbersOf

/-- As many numbers as a shape counts make a tensor of that shape. -/
theorem exists_answerFloats_eq {values : List Binary32} (hlength : values.length = shape.count)
    (hfits : shape.count * 4 < wordSize) :
    ∃ t, answerFloats shape values = .ok [t] ∧ t.NumbersOf shape ∧
      ∀ i, t.number? i = values[i]? := by
  have hbytes : (ElementFormat.floats.encode values).length = shape.count * 4 := by
    rw [ElementFormat.floats.length_encode, hlength]
    rfl
  have hbuild : ofFloats shape values = .ok ⟨.f32, shape, ElementFormat.floats.encode values⟩ := by
    apply ofBytes_eq_ok_iff.mpr
    rw [byteSize, ElementType.size, Nat.mod_eq_of_lt hfits]
    exact ⟨hbytes, rfl⟩
  refine ⟨⟨.f32, shape, ElementFormat.floats.encode values⟩, ?_, ⟨rfl, rfl, hbytes, hfits⟩,
    fun i => ?_⟩
  · rw [answerFloats, hbuild]
    rfl
  · rw [number?, (roundTrips_floats.view_build _ _ _ hbuild).1]
    rfl

/-- The number at an index of a tensor of numbers. -/
def numberAt? (t : Tensor) (idx : List Nat) : Option Binary32 := t.number? (place t.shape.dims idx)

/-- A tensor made of numbers has them at their positions. -/
theorem number?_ofNumbers {values : List Binary32} (hlength : values.length = volume shape.dims)
    (hfits : volume shape.dims * 4 < wordSize) (i : Nat) :
    (ofNumbers shape values).number? i = values[i]? := by
  rw [number?, (answerFloats_eq_ofNumbers shape hlength hfits).2.2]
  rfl

end Tensor

end KernelDispatch
