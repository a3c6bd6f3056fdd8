import KernelDispatch.Proofs.Agreement.Backends
import KernelDispatch.Proofs.Kernel.Softmax

/-!
# Flattening to a matrix

Flattening puts the product of the dimensions before its axis beside the product of those from the
axis on, over the same buffer. Cutting a shape in two never changes its number of elements, not even
where a product leaves the machine word, so the only thing that flattening refuses is an axis beyond
the rank. The axis may lie behind the last dimension, and at both ends one of the products is empty.
-/

namespace KernelDispatch

variable {a : Tensor} {axis : Int64} {pivot : Nat} {version : UInt32}

/-- Both parts of a shape together have as many elements as the shape, in machine words. -/
theorem count_extents (dims : List Nat) (i : Nat) :
    Shape.count ⟨[extent (dims.take i), extent (dims.drop i)]⟩ = Shape.count ⟨dims⟩ := by
  change volume [volume (dims.take i) % wordSize, volume (dims.drop i) % wordSize] % wordSize =
    volume dims % wordSize
  rw [volume_cons, volume_cons, volume_nil, Nat.mul_one, ← Nat.mul_mod,
    volume_take_mul_volume_drop]

/-- Taken for one dimension, the number of elements stays the same. -/
theorem extent_extent (dims : List Nat) : extent [extent dims] = extent dims := by
  change volume [volume dims % wordSize] % wordSize = volume dims % wordSize
  rw [volume_cons, volume_nil, Nat.mul_one, Nat.mod_mod]

namespace Reference

open Softmax (flattened)

/-- Flattening is registered from version 1 on, and for nothing else. -/
theorem flatten_entries :
    (∃ e ∈ standardEntries, e.op = "Flatten" ∧ e.range = .since 1) ∧
      ∀ e ∈ standardEntries, e.op = "Flatten" → e.value = .flatten ⟨none⟩ := by
  decide +kernel

/-- So every version of flattening is served by one kernel. -/
theorem find?_flatten (hversion : 1 ≤ version) :
    Reference.backend.find? ⟨"Flatten", "ai.onnx", version⟩ = some (.flatten ⟨none⟩) := by
  obtain ⟨⟨e, he, hop, hrange⟩, hvalue⟩ := flatten_entries
  have hserves : e.serves "Flatten" version = true :=
    Registration.serves_iff.mpr ⟨hop, hrange ▸ hversion, by rw [hrange]; exact nofun⟩
  exact Backend.find?_eq_some rfl rfl rfl he hserves fun r hr hrserves =>
    hvalue r hr (Registration.serves_iff.mp hrserves).1

namespace Flatten

/-- At an axis of the rank flattening answers the matrix, whatever the buffer holds. -/
theorem invoke_eq_flattened (haxis : resolveAxis axis a.shape.rank true = .ok pivot) :
    Flatten.invoke ⟨some axis⟩ [a] = .ok [flattened a pivot] := by
  have hreshape : liftTensor (a.reshape (flattened a pivot).shape) = .ok (flattened a pivot) :=
    liftTensor_eq_ok_iff.mpr (if_pos (count_extents a.shape.dims pivot))
  simp only [invoke, haxis, ok_bind]
  exact bind_eq_ok_iff.mpr ⟨_, hreshape, rfl⟩

/-- A matrix is what it is flattened to between its dimensions. -/
theorem flattened_flattened (a : Tensor) (pivot : Nat) :
    flattened (flattened a pivot) 1 = flattened a pivot := by
  simp only [flattened, List.take_succ_cons, List.take_zero, List.drop_succ_cons, List.drop_zero,
    extent_extent]

/-- What flattening answers decides the place at which it has cut the shape. -/
theorem exists_pivot_of_invoke_eq_ok {outputs : List Tensor}
    (h : Flatten.invoke ⟨some axis⟩ [a] = .ok outputs) :
    ∃ pivot, resolveAxis axis a.shape.rank true = .ok pivot ∧ outputs = [flattened a pivot] := by
  cases haxis : resolveAxis axis a.shape.rank true with
  | error e =>
    simp only [invoke, haxis] at h
    cases h
  | ok pivot =>
    rw [invoke_eq_flattened haxis] at h
    exact ⟨pivot, rfl, (Except.ok.inj h).symm⟩

/-- Flattening with an axis attribute, on a tensor of any type and shape. The kernel of every version
takes the attribute, and then succeeds exactly for the axes from minus the rank to the rank. Its
answer has the type and the buffer of the tensor and two dimensions, the product of the dimensions
before the axis and the product of those from it on, where these are machine words. A negative axis
and the same one counted from the front give one answer, and flattening the answer again, between its
dimensions, gives it back. -/
theorem invoke_matrix (a : Tensor) (axis : Int64) :
    let rank := a.shape.rank
    let attrs := Attributes.empty.insert "axis" (.int axis)
    let flatten (axis : Int64) : Flatten := ⟨some axis⟩
    (∀ version : UInt32, 1 ≤ version → ∃ k : Flatten,
        Reference.backend.find? ⟨"Flatten", "ai.onnx", version⟩ = some (.flatten k)) ∧
      (∀ k : Flatten, Kernel.configure k attrs = (.ok (), flatten axis)) ∧
      ((∃ outputs, Kernel.invoke (flatten axis) [a] = .ok outputs) ↔
        -(rank : Int) ≤ axis.toInt ∧ axis.toInt ≤ rank) ∧
      ∀ outputs, Kernel.invoke (flatten axis) [a] = .ok outputs → ∃ (pivot : Nat) (b : Tensor),
        let front := volume (a.shape.dims.take pivot)
        let back := volume (a.shape.dims.drop pivot)
        outputs = [b] ∧ pivot ≤ rank ∧
          (pivot : Int) = (if axis.toInt < 0 then axis.toInt + rank else axis.toInt) ∧
          b.elementType = a.elementType ∧ b.bytes = a.bytes ∧ b.shape.rank = 2 ∧
          (front < wordSize → back < wordSize → b.shape.dims = [front, back]) ∧
          (∀ axis' : Int64, axis.toInt < 0 → axis'.toInt = axis.toInt + rank →
            Kernel.invoke (flatten axis') [a] = .ok [b]) ∧
          Kernel.invoke (flatten 1) [b] = .ok [b] := by
  intro rank attrs flatten
  refine ⟨fun version hversion => ⟨_, find?_flatten hversion⟩, fun k => rfl, ?succeeds,
    fun outputs h => ?answer⟩
  case succeeds =>
    have hrange : (-(rank : Int) ≤ axis.toInt ∧ axis.toInt ≤ rank) ↔
        (-(rank : Int) ≤ axis.toInt ∧ axis.toInt < rank + true.toNat) := by
      rw [Bool.toNat_true]
      omega
    rw [hrange]
    constructor
    · rintro ⟨outputs, h⟩
      obtain ⟨pivot, haxis, -⟩ := exists_pivot_of_invoke_eq_ok h
      by_contra hout
      exact nomatch haxis.symm.trans (resolveAxis_eq_error hout)
    · intro hin
      obtain ⟨pivot, haxis⟩ := exists_resolveAxis_eq_ok hin
      exact ⟨_, invoke_eq_flattened haxis⟩
  case answer =>
    obtain ⟨pivot, haxis, rfl⟩ := exists_pivot_of_invoke_eq_ok h
    obtain ⟨hpivot, hle⟩ := resolveAxis_eq_ok_iff.mp haxis
    rw [Bool.toNat_true, Nat.lt_succ_iff] at hle
    have hagain : resolveAxis 1 (flattened a pivot).shape.rank true = .ok 1 := rfl
    refine ⟨pivot, flattened a pivot, rfl, hle, ?place, rfl, rfl, rfl, fun hfront hback => ?dims,
      fun axis' hneg haxis' => ?counted, ?again⟩
    case place =>
      split <;> omega
    case dims =>
      rw [flattened, extent_eq_of_lt hfront, extent_eq_of_lt hback]
    case counted =>
      refine invoke_eq_flattened (resolveAxis_eq_ok_iff.mpr ⟨.inl ?_, ?_⟩)
      · omega
      · omega
    case again =>
      have hinvoke := invoke_eq_flattened hagain
      rwa [flattened_flattened] at hinvoke

/-- An axis from the back and the same one from the front, the axis behind the last dimension, and
one that lies beyond it. -/
theorem invoke_matrix_ends :
    let a : Tensor := ⟨.bool, ⟨[2, 2, 3]⟩, [1, 0, 0, 1, 1, 0, 0, 1, 0, 1, 1, 1]⟩
    let flatten (axis : Int64) : Flatten := ⟨some axis⟩
    Kernel.invoke (flatten (-1)) [a] = .ok [{ a with shape := ⟨[4, 3]⟩ }] ∧
      Kernel.invoke (flatten 2) [a] = .ok [{ a with shape := ⟨[4, 3]⟩ }] ∧
      Kernel.invoke (flatten 3) [a] = .ok [{ a with shape := ⟨[12, 1]⟩ }] ∧
      ¬ ∃ outputs, Kernel.invoke (flatten 4) [a] = .ok outputs := by
  intro a flatten
  obtain ⟨-, -, -, hback⟩ := invoke_matrix a (-1)
  obtain ⟨-, -, hbeyond, -⟩ := invoke_matrix a 4
  have hinvoke : Kernel.invoke (flatten (-1)) [a] = .ok [{ a with shape := ⟨[4, 3]⟩ }] := rfl
  obtain ⟨pivot, b, hb, -, -, -, -, -, -, hcounted, -⟩ := hback _ hinvoke
  obtain rfl := List.singleton_inj.mp hb
  exact ⟨hinvoke, hcounted 2 (by decide) (by decide), rfl,
    fun h => absurd (hbeyond.mp h) (by decide)⟩

end Flatten

end Reference

end KernelDispatch
