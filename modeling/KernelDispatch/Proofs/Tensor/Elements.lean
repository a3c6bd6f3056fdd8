import KernelDispatch.Kernel.Access
import KernelDispatch.Proofs.Loops

/-!
# Elements of tensors

A tensor of numbers can be built exactly if the numbers are as many as its shape asks for, and a
well-formed tensor is read as that many numbers.
-/

namespace KernelDispatch

variable {t : Tensor} {shape : Shape} {values : List Binary32}

/-- An invocation takes over the successes of a tensor operation. -/
theorem liftTensor_eq_ok_iff {α : Type} {r : Except TensorError α} {a : α} :
    liftTensor r = .ok a ↔ r = .ok a := mapError_eq_ok_iff

/-- The numbers of a tensor can be read exactly if it is a tensor of numbers. -/
theorem liftTensor_floats_eq_ok_iff :
    liftTensor t.floats = .ok values ↔
      t.elementType = .f32 ∧
        (Bytes.words 4 t.bytes).map (fun n => (⟨UInt32.ofNat n⟩ : Binary32)) = values := by
  rw [liftTensor_eq_ok_iff, Tensor.floats, Tensor.bytesOf, map_eq_ok_iff]
  by_cases hf32 : t.elementType = .f32 <;> simp [hf32]

/-- Only a tensor of numbers is read as one. -/
theorem elementType_of_readFloats_eq_ok {xs : Array Binary32} (h : readFloats t = .ok xs) :
    t.elementType = .f32 := by
  obtain ⟨values, hvalues, -⟩ := map_eq_ok_iff.mp h
  exact (liftTensor_floats_eq_ok_iff.mp hvalues).1

/-- A well-formed tensor has as many numbers as its shape says. -/
theorem size_of_readFloats_eq_ok (ht : t.WellFormed) {xs : Array Binary32}
    (h : readFloats t = .ok xs) : xs.size = t.shape.dims.foldl (· * ·) 1 := by
  obtain ⟨values, hvalues, rfl⟩ := map_eq_ok_iff.mp h
  obtain ⟨hf32, rfl⟩ := liftTensor_floats_eq_ok_iff.mp hvalues
  have hbytes := ht.1
  rw [hf32] at hbytes
  rw [List.size_toArray, List.length_map]
  exact Bytes.length_words (by decide) _ hbytes

/-- Numbers make a tensor exactly if their bytes are as many as the shape asks for. -/
theorem exists_answerFloats_eq_ok_iff :
    (∃ outputs, answerFloats shape values = .ok outputs) ↔
      values.length * 4 = Tensor.byteSize .f32 shape := by
  simp only [answerFloats, map_eq_ok_iff, liftTensor_eq_ok_iff, Tensor.ofFloats, Tensor.ofBytes,
    Bytes.length_flatMap_encode]
  split <;> simp_all

/-- An answer of numbers is one tensor of the given shape with four bytes per number. -/
theorem exists_of_answerFloats_eq_ok {outputs : List Tensor}
    (h : answerFloats shape values = .ok outputs) :
    ∃ output, outputs = [output] ∧ output.elementType = .f32 ∧ output.shape = shape ∧
      output.bytes.length = values.length * 4 := by
  obtain ⟨output, houtput, rfl⟩ := map_eq_ok_iff.mp h
  rw [liftTensor_eq_ok_iff, Tensor.ofFloats, Tensor.ofBytes] at houtput
  split at houtput
  · obtain rfl := Except.ok.inj houtput
    exact ⟨_, rfl, rfl, rfl, Bytes.length_flatMap_encode _ _ _⟩
  · cases houtput

/-- An answer of numbers is one tensor. -/
theorem eq_singleton_of_answerFloats_eq_ok {outputs : List Tensor}
    (h : answerFloats shape values = .ok outputs) : ∃ output, outputs = [output] :=
  (exists_of_answerFloats_eq_ok h).imp fun _ hanswer => hanswer.1

/-- A matrix of zeros. -/
def Tensor.zeros (m n : Nat) : Tensor := ⟨.f32, ⟨[m, n]⟩, List.replicate (m * n * 4) 0⟩

/-- A matrix of zeros is well-formed if its bytes can be counted. -/
theorem Tensor.wellFormed_zeros {m n : Nat} (h : m * n * 4 < wordSize) :
    (zeros m n).WellFormed := by
  simp [WellFormed, zeros, ElementType.size, h]

/-- A product of sizes is zero if the last one is. -/
theorem extent_concat_zero (dims : List Nat) : extent (dims ++ [0]) = 0 := by
  simp [extent]

end KernelDispatch
