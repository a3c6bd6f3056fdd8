import KernelDispatch.Proofs.Tensor.Elements

/-!
# Volumes of shapes

The product of the dimensions as a number, next to the machine word that the code takes it for. The
two agree below the word size, and also where a product of them with something else does, which is
how a shape is cut into parts. A well-formed tensor has a volume below the word size.
-/

namespace KernelDispatch

/-- The product of sizes. -/
def volume (dims : List Nat) : Nat := dims.foldl (· * ·) 1

variable {dims : List Nat} {t : Tensor}

/-- Without dimensions there is one position. -/
@[simp] theorem volume_nil : volume [] = 1 := rfl

/-- A dimension in front multiplies the positions. -/
@[simp] theorem volume_cons (n : Nat) (dims : List Nat) : volume (n :: dims) = n * volume dims := by
  simp only [volume, ← List.prod_eq_foldl, List.prod_cons]

/-- The positions of dimensions one behind the other multiply. -/
@[simp] theorem volume_append (dims dims' : List Nat) :
    volume (dims ++ dims') = volume dims * volume dims' := by
  simp only [volume, ← List.prod_eq_foldl, List.prod_append]

/-- A volume is zero only by a dimension. -/
theorem volume_pos_iff : 0 < volume dims ↔ 0 ∉ dims := by
  refine Nat.pos_iff_ne_zero.trans (not_congr ?_)
  induction dims with
  | nil => simp
  | cons d dims ih => rw [volume_cons, Nat.mul_eq_zero, ih, List.mem_cons, eq_comm]

/-- The volume of a shape is that of the dimensions before a position by that of the others. -/
theorem volume_take_mul_volume_drop (dims : List Nat) (i : Nat) :
    volume (dims.take i) * volume (dims.drop i) = volume dims := by
  rw [← volume_append, List.take_append_drop]

/-- A volume that is a machine word is the number of elements. -/
theorem extent_eq_of_lt (h : volume dims < wordSize) : extent dims = volume dims :=
  Nat.mod_eq_of_lt h

/-- There are never more elements than positions. -/
theorem extent_le_volume (dims : List Nat) : extent dims ≤ volume dims := Nat.mod_le _ _

/-- A factor may be taken as a machine word if the product is one. -/
theorem extent_mul_of_lt {n : Nat} (h : volume dims * n < wordSize) :
    extent dims * n = volume dims * n := by
  rcases Nat.eq_zero_or_pos n with rfl | hn
  · rw [Nat.mul_zero, Nat.mul_zero]
  · rw [extent_eq_of_lt (Nat.lt_of_le_of_lt (Nat.le_mul_of_pos_right _ hn) h)]

/-- Where a shape is cut in two, both parts may be taken as machine words. -/
theorem extent_take_mul_extent_drop (h : volume dims < wordSize) (i : Nat) :
    extent (dims.take i) * extent (dims.drop i) = volume dims := by
  have hparts := volume_take_mul_volume_drop dims i
  have hfront : extent (dims.take i) * volume (dims.drop i) = volume dims := by
    rw [extent_mul_of_lt (by rwa [hparts]), hparts]
  rw [Nat.mul_comm] at hfront ⊢
  rw [extent_mul_of_lt (by rwa [hfront]), hfront]

/-- Along one dimension a shape consists of blocks of that dimension by those behind it. -/
theorem mul_extent_drop_dvd_volume (h : volume dims < wordSize) {i : Nat} (hi : i < dims.length) :
    dims.getD i 0 * extent (dims.drop (i + 1)) ∣ volume dims := by
  have hparts := volume_take_mul_volume_drop dims i
  have hsize : dims.getD i 0 = dims[i] := by simp [hi]
  rw [List.drop_eq_getElem_cons hi, volume_cons, ← hsize] at hparts
  rcases Nat.eq_zero_or_pos (volume dims) with hzero | hpos
  · rw [hzero]
    exact Nat.dvd_zero _
  · have hle : volume (dims.drop (i + 1)) ≤ volume dims := by
      refine Nat.le_of_dvd hpos ⟨volume (dims.take i) * dims.getD i 0, ?_⟩
      rw [← hparts, Nat.mul_comm _ (volume _ * _), Nat.mul_assoc]
    rw [extent_eq_of_lt (Nat.lt_of_le_of_lt hle h)]
    exact ⟨volume (dims.take i), by rw [← hparts, Nat.mul_comm]⟩

/-- A dimension that has others behind it is beyond the bound of buffers only if there are no
elements, since two steps of it would make the shape twice as large. -/
theorem volume_eq_zero_of_le_getD {i : Nat} (hfits : volume dims * 4 < wordSize)
    (hi : i < dims.length) (hbehind : extent (dims.drop (i + 1)) ≠ 1)
    (hfull : bufferBound ≤ dims.getD i 0 * 4) : volume dims = 0 := by
  have hvolume : volume dims < wordSize := by omega
  have hdvd := mul_extent_drop_dvd_volume hvolume hi
  rcases Nat.eq_zero_or_pos (volume dims) with hzero | hpos
  · exact hzero
  · have hle := Nat.le_of_dvd hpos hdvd
    have htwo : 2 ≤ extent (dims.drop (i + 1)) := by
      have hne := Nat.pos_of_mul_pos_left (Nat.pos_of_dvd_of_pos hdvd hpos)
      omega
    have hdouble := Nat.mul_le_mul_left (dims.getD i 0) htwo
    have hbound : bufferBound * 2 = wordSize := rfl
    omega

namespace Tensor.WellFormed

/-- The buffer of a well-formed tensor has an element for every position of its shape. -/
theorem length_bytes (ht : t.WellFormed) :
    t.bytes.length = volume t.shape.dims * t.elementType.size := ht.1

/-- The volume of a well-formed tensor is a machine word. -/
theorem volume_lt (ht : t.WellFormed) : volume t.shape.dims < wordSize := by
  have hlength := ht.2
  rw [ht.length_bytes] at hlength
  exact Nat.lt_of_le_of_lt (Nat.le_mul_of_pos_right _ t.elementType.size_pos) hlength

/-- The bytes of a well-formed tensor of numbers can be counted. -/
theorem volume_mul_four_lt (ht : t.WellFormed) (hf32 : t.elementType = .f32) :
    volume t.shape.dims * 4 < wordSize := by
  have hlength := ht.length_bytes
  rw [hf32, ElementType.size] at hlength
  exact hlength ▸ ht.2

/-- A well-formed tensor has as many elements as the code says. -/
theorem count_eq (ht : t.WellFormed) : t.shape.count = volume t.shape.dims :=
  extent_eq_of_lt ht.volume_lt

end Tensor.WellFormed

end KernelDispatch
