import KernelDispatch.Backend.Builtin
import KernelDispatch.Proofs.Kernel.InPlace
import KernelDispatch.Proofs.Tensor.Encoding

/-!
# Softmax along an axis

From version 13 on softmax normalizes along the dimension of its axis. Before that it takes all
dimensions from the axis on for one: it is what becomes of the tensor if it is flattened to a matrix
at the axis, the rows of the matrix are normalized, and the result gets the old shape back. So it
accepts the same axes as flattening does, one more than the newer form.
-/

namespace KernelDispatch

variable {a : Tensor} {axis : Int64} {rank pivot : Nat} {inclusive : Bool}

/-! ### Axes -/

/-- An axis of the rank counts from the front or, if negative, from the back, and any other axis is
an error. -/
theorem resolveAxis_eq (axis : Int64) (rank : Nat) (inclusive : Bool) :
    resolveAxis axis rank inclusive =
      if -(rank : Int) ≤ axis.toInt ∧ axis.toInt < rank + inclusive.toNat then
        .ok (if axis.toInt < 0 then axis.toInt + rank else axis.toInt).toNat
      else .error (.axisRange axis rank) := by
  unfold resolveAxis
  extract_lets resolved upper
  have hupper : upper = rank + inclusive.toNat - 1 := by
    cases inclusive <;> simp [upper]
  have hin : (0 ≤ resolved ∧ resolved ≤ upper) ↔
      -(rank : Int) ≤ axis.toInt ∧ axis.toInt < rank + inclusive.toNat := by
    have hresolved : resolved = if axis.toInt < 0 then axis.toInt + rank else axis.toInt := rfl
    split at hresolved <;> omega
  simp only [hin]
  rfl

/-- The axes that denote a dimension. -/
theorem resolveAxis_eq_ok_iff :
    resolveAxis axis rank inclusive = .ok pivot ↔
      (axis.toInt = pivot ∨ axis.toInt < 0 ∧ axis.toInt + rank = pivot) ∧
        pivot < rank + inclusive.toNat := by
  rw [resolveAxis_eq]
  split
  · rw [Except.ok.injEq]
    split <;> omega
  · exact iff_of_false nofun fun h => by omega

/-- An axis inside the rank denotes a dimension. -/
theorem exists_resolveAxis_eq_ok
    (h : -(rank : Int) ≤ axis.toInt ∧ axis.toInt < rank + inclusive.toNat) :
    ∃ pivot, resolveAxis axis rank inclusive = .ok pivot :=
  ⟨_, (resolveAxis_eq axis rank inclusive).trans (if_pos h)⟩

/-- An axis outside the rank is an error. -/
theorem resolveAxis_eq_error
    (h : ¬ (-(rank : Int) ≤ axis.toInt ∧ axis.toInt < rank + inclusive.toNat)) :
    resolveAxis axis rank inclusive = .error (.axisRange axis rank) :=
  (resolveAxis_eq axis rank inclusive).trans (if_neg h)

/-! ### The form along one dimension -/

namespace Reference.Softmax

variable {dims : List Nat} {n inner outer : Nat} {data : List Binary32}

/-- What the newer form computes along a dimension that its axis denotes. -/
theorem invoke_lane_eq (haxis : resolveAxis axis a.shape.rank false = .ok pivot)
    (hdata : a.floats = .ok data) :
    Softmax.invoke ⟨.lane, some axis⟩ [a] = (do
      let lanes ← normalizeLanes (a.shape.dims.getD pivot 0)
        (extent (a.shape.dims.drop (pivot + 1))) data
      answerFloats a.shape lanes) := by
  have hlift : liftTensor a.floats = .ok data := liftTensor_eq_ok_iff.mpr hdata
  simp only [invoke, hlift, haxis, ok_bind]

/-- The matrix that a tensor is flattened to at a position. -/
def flattened (a : Tensor) (pivot : Nat) : Tensor :=
  { a with shape := ⟨[extent (a.shape.dims.take pivot), extent (a.shape.dims.drop pivot)]⟩ }

/-- Flattening keeps the volume. -/
theorem volume_flattened (ha : a.WellFormed) (pivot : Nat) :
    volume (flattened a pivot).shape.dims = volume a.shape.dims := by
  rw [flattened, volume_cons, volume_cons, volume_nil, Nat.mul_one,
    extent_take_mul_extent_drop ha.volume_lt]

/-- Flattening keeps the number of elements. -/
theorem count_flattened (ha : a.WellFormed) (pivot : Nat) :
    (flattened a pivot).shape.count = a.shape.count := by
  have hvolume := volume_flattened ha pivot
  rw [ha.count_eq, Shape.count, extent_eq_of_lt (hvolume ▸ ha.volume_lt), hvolume]

/-- Rows without elements are as good as rows of one element if there are no elements. -/
theorem softmaxRows_max_one {row : Nat} (hempty : row = 0 → data = []) :
    softmaxRows (max row 1) data = softmaxRows row data := by
  rcases Nat.eq_zero_or_pos row with hrow | hrow
  · rw [hrow, hempty hrow]
    rfl
  · rw [Nat.max_eq_left hrow]

/-- What flattening answers at an axis of the rank. -/
theorem invoke_flatten_eq_ok (ha : a.WellFormed)
    (haxis : resolveAxis axis a.shape.rank true = .ok pivot) :
    Flatten.invoke ⟨some axis⟩ [a] = .ok [flattened a pivot] := by
  have hreshape : liftTensor (a.reshape (flattened a pivot).shape) = .ok (flattened a pivot) :=
    liftTensor_eq_ok_iff.mpr (if_pos (count_flattened ha pivot))
  simp only [Flatten.invoke, haxis, ok_bind]
  exact bind_eq_ok_iff.mpr ⟨_, hreshape, rfl⟩

/-- Where flattening accepts an axis, the older form flattens, normalizes rows and reshapes. -/
theorem exists_invoke_flattening_eq_ok (ha : a.WellFormed) (hf32 : a.elementType = .f32)
    (haxis : resolveAxis axis a.shape.rank true = .ok pivot) :
    ∃ normalized b, Softmax.invoke ⟨.lane, some (-1)⟩ [flattened a pivot] = .ok [normalized] ∧
      normalized.reshape a.shape = .ok b ∧
      Softmax.invoke ⟨.flattening, some axis⟩ [a] = .ok [b] := by
  obtain ⟨data, hdata, hlength, hfits⟩ := ha.exists_floats_eq_ok hf32
  have hlift : liftTensor a.floats = .ok data := liftTensor_eq_ok_iff.mpr hdata
  let row := extent (a.shape.dims.drop pivot)
  have hvolume := volume_flattened ha pivot
  have hrows : (softmaxRows row data).length = volume a.shape.dims :=
    (length_softmaxRows row data).trans hlength
  have hempty (hrow : row = 0) : data = [] := by
    refine List.eq_nil_of_length_eq_zero ?_
    rw [hlength, ← extent_take_mul_extent_drop ha.volume_lt pivot]
    exact Nat.mul_eq_zero.mpr (.inr hrow)
  obtain ⟨hmatrix, -, -⟩ := Tensor.answerFloats_eq_ofNumbers (flattened a pivot).shape
    (hrows.trans hvolume.symm) (hvolume ▸ hfits)
  obtain ⟨hanswer, -, -⟩ := Tensor.answerFloats_eq_ofNumbers a.shape hrows hfits
  refine ⟨.ofNumbers (flattened a pivot).shape (softmaxRows row data),
    .ofNumbers a.shape (softmaxRows row data), ?_, if_pos (count_flattened ha pivot).symm, ?_⟩
  · have hflat : liftTensor (flattened a pivot).floats = .ok data := hlift
    have hdims : (flattened a pivot).shape.dims = [extent (a.shape.dims.take pivot)] ++ [row] := rfl
    rw [invoke_concat hdims, hflat, ok_bind, hmatrix]
  · simp only [invoke, hlift, haxis, ok_bind]
    rw [softmaxRows_max_one hempty, hanswer]

/-- An axis outside the rank, which flattening does not accept, the older form refuses as well. -/
theorem refuse_flattening (ha : a.WellFormed) (hf32 : a.elementType = .f32)
    (hout : ¬ (-(a.shape.rank : Int) ≤ axis.toInt ∧ axis.toInt < a.shape.rank + true.toNat)) :
    Softmax.invoke ⟨.flattening, some axis⟩ [a] = .error (.axisRange axis a.shape.rank) ∧
      Flatten.invoke ⟨some axis⟩ [a] = .error (.axisRange axis a.shape.rank) := by
  have haxis : resolveAxis axis a.shape.rank true = .error (.axisRange axis a.shape.rank) :=
    resolveAxis_eq_error hout
  obtain ⟨data, hdata, -⟩ := ha.exists_floats_eq_ok hf32
  have hlift : liftTensor a.floats = .ok data := liftTensor_eq_ok_iff.mpr hdata
  simp only [invoke, Flatten.invoke, hlift, haxis, ok_bind]
  exact ⟨rfl, rfl⟩

/-- The versions that the older form serves. -/
theorem find?_older {version : UInt32} (hfirst : 1 ≤ version) (hlast : version ≤ 12) :
    Builtin.cpu.find? ⟨"Softmax", "ai.onnx", version⟩ =
      some (.inl (.softmax ⟨.flattening, none⟩)) := by
  have hall : ∀ n < 13, 0 < n → Builtin.cpu.find? ⟨"Softmax", "ai.onnx", UInt32.ofNat n⟩ =
      some (.inl (.softmax ⟨.flattening, none⟩)) := by
    decide +kernel
  rw [UInt32.le_iff_toNat_le] at hfirst hlast
  have hversion := hall version.toNat (Nat.lt_succ_of_le hlast) hfirst
  rwa [UInt32.ofNat_toNat] at hversion

/-- Softmax before version 13, configured with an axis, on a tensor of numbers. It succeeds exactly
for the axes for which flattening does, from minus the rank to the rank, and answers what the tensor
becomes when it is flattened to a matrix at the axis, normalized along the last dimension by the
newer form, and reshaped back. -/
theorem invoke_flattening (ha : a.WellFormed) (hf32 : a.elementType = .f32) (axis : Int64) :
    let rank := a.shape.rank
    let attrs := Attributes.empty.insert "axis" (.int axis)
    let older : BuiltinKernel := .inl (.softmax ⟨.flattening, some axis⟩)
    let flatten : BuiltinKernel := .inl (.flatten ⟨some axis⟩)
    let newer : BuiltinKernel := .inl (.softmax ⟨.lane, some (-1)⟩)
    (∀ version : UInt32, 1 ≤ version → version ≤ 12 →
        (Builtin.cpu.find? ⟨"Softmax", "ai.onnx", version⟩).map
          (fun k => Kernel.configure k attrs) = some (.ok (), older)) ∧
      (Builtin.cpu.find? ⟨"Flatten", "ai.onnx", 12⟩).map (fun k => Kernel.configure k attrs) =
        some (.ok (), flatten) ∧
      (Builtin.cpu.find? ⟨"Softmax", "ai.onnx", 13⟩).map (fun k => Kernel.configure k .empty) =
        some (.ok (), newer) ∧
      ((∃ outputs, Kernel.invoke older [a] = .ok outputs) ↔
        -(rank : Int) ≤ axis.toInt ∧ axis.toInt ≤ rank) ∧
      ((∃ outputs, Kernel.invoke flatten [a] = .ok outputs) ↔
        -(rank : Int) ≤ axis.toInt ∧ axis.toInt ≤ rank) ∧
      ∀ outputs, Kernel.invoke older [a] = .ok outputs → ∃ flat normalized b,
        Kernel.invoke flatten [a] = .ok [flat] ∧ flat.shape.rank = 2 ∧
          Kernel.invoke newer [flat] = .ok [normalized] ∧ normalized.reshape a.shape = .ok b ∧
          outputs = [b] := by
  intro rank attrs older flatten newer
  have hrange : (-(rank : Int) ≤ axis.toInt ∧ axis.toInt ≤ rank) ↔
      (-(rank : Int) ≤ axis.toInt ∧ axis.toInt < rank + true.toNat) := by
    rw [Bool.toNat_true]
    omega
  rw [hrange]
  refine ⟨fun version hfirst hlast => by rw [find?_older hfirst hlast]; rfl, rfl, rfl, ?_⟩
  by_cases hin : -(rank : Int) ≤ axis.toInt ∧ axis.toInt < rank + true.toNat
  · obtain ⟨pivot, haxis⟩ := exists_resolveAxis_eq_ok hin
    have hflatten : Kernel.invoke flatten [a] = .ok [flattened a pivot] :=
      invoke_flatten_eq_ok ha haxis
    obtain ⟨normalized, b, hnormal, hreshape, hinvoke⟩ :=
      exists_invoke_flattening_eq_ok ha hf32 haxis
    have holder : Kernel.invoke older [a] = .ok [b] := hinvoke
    refine ⟨iff_of_true ⟨_, holder⟩ hin, iff_of_true ⟨_, hflatten⟩ hin, fun outputs h => ?_⟩
    obtain rfl := Except.ok.inj (holder.symm.trans h)
    exact ⟨_, normalized, b, hflatten, rfl, hnormal, hreshape, rfl⟩
  · obtain ⟨hinvoke, hinvoke'⟩ := refuse_flattening ha hf32 hin
    have holder (outputs : List Tensor) : Kernel.invoke older [a] ≠ .ok outputs :=
      fun h => nomatch hinvoke.symm.trans h
    have hflatten (outputs : List Tensor) : Kernel.invoke flatten [a] ≠ .ok outputs :=
      fun h => nomatch hinvoke'.symm.trans h
    exact ⟨iff_of_false (fun ⟨outputs, h⟩ => holder outputs h) hin,
      iff_of_false (fun ⟨outputs, h⟩ => hflatten outputs h) hin,
      fun outputs h => absurd h (holder outputs)⟩

/-- The axis behind the last dimension, which makes rows of one element, and the one behind that. -/
theorem invoke_flattening_behind :
    let a : Tensor := ⟨.f32, ⟨[2, 3]⟩, List.replicate 24 0⟩
    let older (axis : Int64) : BuiltinKernel := .inl (.softmax ⟨.flattening, some axis⟩)
    a.WellFormed ∧ a.elementType = .f32 ∧ (¬ ∃ outputs, Kernel.invoke (older 3) [a] = .ok outputs) ∧
      ∃ flat normalized b,
        Kernel.invoke (.inl (.flatten ⟨some 2⟩) : BuiltinKernel) [a] = .ok [flat] ∧
        Kernel.invoke (.inl (.softmax ⟨.lane, some (-1)⟩) : BuiltinKernel) [flat] =
          .ok [normalized] ∧
        normalized.reshape a.shape = .ok b ∧ Kernel.invoke (older 2) [a] = .ok [b] := by
  intro a older
  have ha : a.WellFormed := ⟨rfl, by decide⟩
  obtain ⟨-, -, -, hbeyond, -⟩ := invoke_flattening ha rfl 3
  obtain ⟨-, -, -, hlast, -, hcomposed⟩ := invoke_flattening ha rfl 2
  obtain ⟨outputs, houtputs⟩ := hlast.mpr (by decide)
  obtain ⟨flat, normalized, b, hflatten, -, hnormal, hreshape, rfl⟩ := hcomposed outputs houtputs
  exact ⟨ha, rfl, fun h => absurd (hbeyond.mp h) (by decide), flat, normalized, b, hflatten,
    hnormal, hreshape, houtputs⟩

end Reference.Softmax

end KernelDispatch
