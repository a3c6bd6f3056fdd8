import KernelDispatch.Proofs.Tensor.Encoding

/-!
# The size check of tensors

A buffer makes a tensor if it is as long as the element count by the size of an element, a product
that is taken as a machine word. Below the word size the check is therefore exact. The element count
may be a machine word while the product is none, for elements of more than one byte: then the check
asks for what is left of the product, and the tensors it lets pass are not well-formed.
-/

namespace KernelDispatch.Tensor

variable {e : ElementType} {shape : Shape} {bytes : List UInt8} {t : Tensor}

/-- The size that a shape asks for is what is left of its volume by the size of an element. -/
theorem byteSize_eq_mod (e : ElementType) (shape : Shape) :
    byteSize e shape = volume shape.dims * e.size % wordSize := by
  rw [byteSize, Shape.count, extent, Nat.mod_mul_mod]
  rfl

/-- Elements of one byte are counted as their bytes are. -/
theorem ne_bool_of_le (hcount : volume shape.dims < wordSize)
    (hlarge : wordSize ≤ volume shape.dims * e.size) : e ≠ .bool := by
  rintro rfl
  rw [ElementType.size, Nat.mul_one] at hlarge
  exact Nat.not_le_of_lt hcount hlarge

/-- A tensor that has passed the check is well-formed exactly if its bytes can be counted. -/
theorem wellFormed_iff_of_ofBytes (h : ofBytes e shape bytes = .ok t) :
    t.WellFormed ↔ volume shape.dims * e.size < wordSize := by
  obtain ⟨hlength, rfl⟩ := ofBytes_eq_ok_iff.mp h
  constructor
  · rintro ⟨hexact, hword⟩
    have hvolume : bytes.length = volume shape.dims * e.size := hexact
    rwa [← hvolume]
  · intro hfits
    rw [byteSize_eq_of_lt hfits] at hlength
    exact ⟨hlength, hlength ▸ hfits⟩

/-- What the size check accepts, for shapes whose element count is a machine word. Where the number
of bytes is one as well, it accepts exactly the buffers of that length. Otherwise the elements have
more than one byte, and it accepts the buffers of the length that is left of the product, which are
too short. So what passes is well-formed exactly in the first case. -/
theorem ofBytes_accepts (e : ElementType) (shape : Shape) (bytes : List UInt8)
    (hcount : volume shape.dims < wordSize) :
    let size := volume shape.dims * e.size
    (size < wordSize → ∀ t, ofBytes e shape bytes = .ok t ↔
      bytes.length = size ∧ t = ⟨e, shape, bytes⟩) ∧
    (wordSize ≤ size → e ≠ .bool ∧ size % wordSize < size ∧
      ∀ t, ofBytes e shape bytes = .ok t ↔
        bytes.length = size % wordSize ∧ t = ⟨e, shape, bytes⟩) ∧
    ∀ t, ofBytes e shape bytes = .ok t → (t.WellFormed ↔ size < wordSize) := by
  intro size
  refine ⟨fun hfits t => ?_, fun hlarge => ⟨ne_bool_of_le hcount hlarge, ?_, fun t => ?_⟩,
    fun t h => wellFormed_iff_of_ofBytes h⟩
  · rw [ofBytes_eq_ok_iff, byteSize_eq_of_lt hfits]
  · have hword : 0 < wordSize := by decide
    exact Nat.lt_of_lt_of_le (Nat.mod_lt size hword) hlarge
  · rw [ofBytes_eq_ok_iff, byteSize_eq_mod]

/-- Eight bytes pass for more than `2 ^ 61` integers. -/
theorem ofBytes_accepts_remainder :
    let shape : Shape := ⟨[0x2000000000000001]⟩
    let bytes : List UInt8 := List.replicate 8 0
    let t : Tensor := ⟨.i64, shape, bytes⟩
    volume shape.dims < wordSize ∧ wordSize ≤ volume shape.dims * 8 ∧
      ofBytes .i64 shape bytes = .ok t ∧ bytes.length < volume shape.dims * 8 ∧
      ¬ t.WellFormed := by
  intro shape bytes t
  have hcount : volume shape.dims < wordSize := by decide
  have hlarge : wordSize ≤ volume shape.dims * 8 := by decide
  obtain ⟨-, hremainder, hwell⟩ := ofBytes_accepts .i64 shape bytes hcount
  obtain ⟨-, hshort, haccepts⟩ := hremainder hlarge
  have hlength : bytes.length = volume shape.dims * 8 % wordSize := by decide
  have hok : ofBytes .i64 shape bytes = .ok t := (haccepts t).mpr ⟨hlength, rfl⟩
  exact ⟨hcount, hlarge, hok, hlength ▸ hshort,
    fun h => Nat.not_le_of_lt ((hwell t hok).mp h) hlarge⟩

/-- Accepted buffers need not be as long as their elements: an empty one passes for `2 ^ 62`
numbers. -/
theorem not_forall_ofBytes_exact :
    ¬ ∀ (e : ElementType) (shape : Shape) (bytes : List UInt8) (t : Tensor),
      volume shape.dims < wordSize → ofBytes e shape bytes = .ok t →
        bytes.length = volume shape.dims * e.size := by
  intro hexact
  have hempty := hexact .f32 ⟨[0x4000000000000000]⟩ [] ⟨.f32, ⟨[0x4000000000000000]⟩, []⟩
    (by decide) rfl
  exact absurd hempty (by decide)

end KernelDispatch.Tensor
