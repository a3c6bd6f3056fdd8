import KernelDispatch.Proofs.Kernel.Flatten

/-!
# Products of parts of a shape

The kernels with an axis multiply the dimensions before it and those behind it. That the whole shape
can be multiplied from left to right without leaving the machine word says so for every front part
at once. For the rest behind a front part it says so only if no dimension before it is zero: a zero
hides whatever follows. Where the rest can be multiplied as well, the kernels compute with its true
product.
-/

namespace KernelDispatch

variable {dims front rest : List Nat} {shape : Shape} {axis : Int64} {pivot n : Nat}

/-! ### Checked products -/

/-- Multiply sizes from left to right as long as the product is a machine word. -/
def checkedProduct (dims : List Nat) : Option Nat :=
  dims.foldlM (fun n d => if n * d < wordSize then some (n * d) else none) 1

/-- Multiplying succeeds exactly if every product on the way is a machine word. -/
theorem checkedProduct_eq_some_iff :
    checkedProduct dims = some n ↔
      (∀ front, front <+: dims → volume front < wordSize) ∧ n = volume dims := by
  -- the product of the sizes so far is a factor of all that follow
  suffices hfold : ∀ k < wordSize,
      dims.foldlM (fun n d => if n * d < wordSize then some (n * d) else none) k = some n ↔
        (∀ front, front <+: dims → k * volume front < wordSize) ∧ n = k * volume dims by
    have hone : 1 < wordSize := by decide
    simpa [checkedProduct] using hfold 1 hone
  induction dims with
  | nil =>
    intro k hk
    simp [hk, eq_comm]
  | cons d dims ih =>
    intro k hk
    rw [List.foldlM_cons]
    by_cases hstep : k * d < wordSize
    · rw [if_pos hstep, Option.bind_eq_bind, Option.bind_some, ih _ hstep]
      simp only [List.prefix_cons_iff, volume_cons, Nat.mul_assoc]
      refine and_congr_left fun _ => ⟨fun h front hfront => ?_, fun h front hfront => ?_⟩
      · rcases hfront with rfl | ⟨front, rfl, hfront⟩
        · simpa using hk
        · simpa using h front hfront
      · simpa using h (d :: front) (.inr ⟨front, rfl, hfront⟩)
    · rw [if_neg hstep]
      refine iff_of_false nofun fun h => hstep ?_
      simpa using h.1 [d] ⟨dims, rfl⟩

/-- A checked product is the volume. -/
theorem checkedProduct_eq_some_volume (h : (checkedProduct dims).isSome) :
    checkedProduct dims = some (volume dims) := by
  obtain ⟨n, hn⟩ := Option.isSome_iff_exists.mp h
  rw [hn, (checkedProduct_eq_some_iff.mp hn).2]

/-- A checked product succeeds if the product of every leading part is a machine word. -/
theorem isSome_checkedProduct_iff :
    (checkedProduct dims).isSome ↔ ∀ front, front <+: dims → volume front < wordSize := by
  simp [Option.isSome_iff_exists, checkedProduct_eq_some_iff]

/-- Where a list can be multiplied, so can every front part of it. -/
theorem isSome_checkedProduct_of_prefix (h : (checkedProduct dims).isSome)
    (hfront : front <+: dims) : (checkedProduct front).isSome := by
  rw [isSome_checkedProduct_iff] at h ⊢
  exact fun part hpart => h part (hpart.trans hfront)

/-- Where a list can be multiplied, so can the rest of it behind dimensions that are not zero. -/
theorem isSome_checkedProduct_of_append (h : (checkedProduct (front ++ rest)).isSome)
    (hzero : 0 ∉ front) : (checkedProduct rest).isSome := by
  rw [isSome_checkedProduct_iff] at h ⊢
  intro part hpart
  have hproduct := h (front ++ part) ((List.prefix_append_right_inj front).mpr hpart)
  rw [volume_append] at hproduct
  exact Nat.lt_of_le_of_lt (Nat.le_mul_of_pos_left _ (volume_pos_iff.mpr hzero)) hproduct

/-! ### Kernels with an axis -/

namespace Reference

variable {a : Tensor} {data : List Binary32}

/-- A part that can be multiplied is taken for its volume. -/
theorem extent_of_isSome (h : (checkedProduct dims).isSome) : extent dims = volume dims :=
  extent_eq_of_lt (isSome_checkedProduct_iff.mp h dims (List.prefix_refl dims))

/-- Flattening at a place behind which the dimensions can be multiplied. -/
theorem Flatten.invoke_eq_ok (haxis : resolveAxis axis a.shape.rank true = .ok pivot)
    (hfront : (checkedProduct (a.shape.dims.take pivot)).isSome)
    (hback : (checkedProduct (a.shape.dims.drop pivot)).isSome) :
    Flatten.invoke ⟨some axis⟩ [a] = .ok [{ a with
      shape := ⟨[volume (a.shape.dims.take pivot), volume (a.shape.dims.drop pivot)]⟩ }] := by
  rw [invoke_eq_flattened haxis, Softmax.flattened, extent_of_isSome hfront, extent_of_isSome hback]

/-- The older softmax at a place behind which the dimensions can be multiplied. -/
theorem Softmax.invoke_flattening_eq (haxis : resolveAxis axis a.shape.rank true = .ok pivot)
    (hback : (checkedProduct (a.shape.dims.drop pivot)).isSome) (hdata : a.floats = .ok data) :
    Softmax.invoke ⟨.flattening, some axis⟩ [a] =
      answerFloats a.shape (softmaxRows (max (volume (a.shape.dims.drop pivot)) 1) data) := by
  have hlift : liftTensor a.floats = .ok data := liftTensor_eq_ok_iff.mpr hdata
  simp only [invoke, hlift, haxis, ok_bind, extent_of_isSome hback]

/-- The kernels with an axis, on shapes that can be multiplied from left to right without leaving
the machine word, at an axis that they accept. The dimensions before the axis can be multiplied as
well. So can those from the axis on, for flattening and the older softmax, and those behind the
dimension of the axis, for the newer one, unless a dimension before them is zero; and then the
kernels compute with their true products. -/
theorem axis_products (hcount : (checkedProduct shape.dims).isSome) (axis : Int64) :
    (∀ pivot, resolveAxis axis shape.rank true = .ok pivot →
      let front := shape.dims.take pivot
      let back := shape.dims.drop pivot
      checkedProduct front = some (volume front) ∧
      (0 ∉ front → checkedProduct back = some (volume back) ∧
        ∀ a : Tensor, a.shape = shape →
          Flatten.invoke ⟨some axis⟩ [a] =
            .ok [{ a with shape := ⟨[volume front, volume back]⟩ }] ∧
          ∀ data, a.floats = .ok data → Softmax.invoke ⟨.flattening, some axis⟩ [a] =
            answerFloats shape (softmaxRows (max (volume back) 1) data))) ∧
    (∀ pivot, resolveAxis axis shape.rank false = .ok pivot →
      let front := shape.dims.take pivot
      let behind := shape.dims.drop (pivot + 1)
      checkedProduct front = some (volume front) ∧
      (0 ∉ shape.dims.take (pivot + 1) → checkedProduct behind = some (volume behind) ∧
        ∀ (a : Tensor) (data : List Binary32), a.shape = shape → a.floats = .ok data →
          Softmax.invoke ⟨.lane, some axis⟩ [a] = (do
            let lanes ← Softmax.normalizeLanes (shape.dims.getD pivot 0) (volume behind) data
            answerFloats shape lanes))) := by
  have htake (i : Nat) : (checkedProduct (shape.dims.take i)).isSome :=
    isSome_checkedProduct_of_prefix hcount (List.take_prefix i shape.dims)
  have hdrop (i : Nat) (hzero : 0 ∉ shape.dims.take i) :
      (checkedProduct (shape.dims.drop i)).isSome := by
    rw [← List.take_append_drop i shape.dims] at hcount
    exact isSome_checkedProduct_of_append hcount hzero
  refine ⟨fun pivot haxis => ⟨checkedProduct_eq_some_volume (htake pivot), fun hzero => ?_⟩,
    fun pivot haxis => ⟨checkedProduct_eq_some_volume (htake pivot), fun hzero => ?_⟩⟩
  · refine ⟨checkedProduct_eq_some_volume (hdrop pivot hzero), ?_⟩
    rintro a rfl
    exact ⟨Flatten.invoke_eq_ok haxis (htake pivot) (hdrop pivot hzero),
      fun data hdata => Softmax.invoke_flattening_eq haxis (hdrop pivot hzero) hdata⟩
  · refine ⟨checkedProduct_eq_some_volume (hdrop _ hzero), ?_⟩
    rintro a data rfl hdata
    rw [Softmax.invoke_lane_eq haxis hdata, extent_of_isSome (hdrop _ hzero)]

/-- A shape with a zero behind the axis, which hides nothing before it. -/
theorem axis_products_zero_behind :
    let shape : Shape := ⟨[0x8000000000000000, 1, 0]⟩
    let a : Tensor := ⟨.f32, shape, []⟩
    (checkedProduct shape.dims).isSome ∧ resolveAxis (-2) shape.rank true = .ok 1 ∧
      resolveAxis (-2) shape.rank false = .ok 1 ∧ 0 ∉ shape.dims.take 1 ∧ 0 ∉ shape.dims.take 2 ∧
      Flatten.invoke ⟨some (-2)⟩ [a] = .ok [{ a with shape := ⟨[0x8000000000000000, 0]⟩ }] ∧
      checkedProduct (shape.dims.drop 2) = some 0 := by
  intro shape a
  have hcount : (checkedProduct shape.dims).isSome := by decide
  have hincluded : resolveAxis (-2) shape.rank true = .ok 1 := by decide
  have hexcluded : resolveAxis (-2) shape.rank false = .ok 1 := by decide
  have hone : 0 ∉ shape.dims.take 1 := by decide
  have htwo : 0 ∉ shape.dims.take 2 := by decide
  obtain ⟨hflatten, hlane⟩ := axis_products hcount (-2)
  exact ⟨hcount, hincluded, hexcluded, hone, htwo,
    (((hflatten 1 hincluded).2 hone).2 a rfl).1, ((hlane 1 hexcluded).2 htwo).1⟩

/-- Behind a zero the dimensions need not have a product in the machine word: flattening, which
takes it modulo the word size, answers no elements by none, and both forms of softmax ask for the
same product. -/
theorem axis_product_overflows :
    let shape : Shape := ⟨[0, 0x8000000000000000, 2]⟩
    let a : Tensor := ⟨.f32, shape, []⟩
    (∀ d ∈ shape.dims, d < wordSize) ∧ checkedProduct shape.dims = some 0 ∧ a.WellFormed ∧
      resolveAxis 1 shape.rank true = .ok 1 ∧ resolveAxis 0 shape.rank false = .ok 0 ∧
      volume (shape.dims.drop 1) = wordSize ∧ checkedProduct (shape.dims.drop 1) = none ∧
      Flatten.invoke ⟨some 1⟩ [a] = .ok [{ a with shape := ⟨[0, 0]⟩ }] := by
  exact ⟨by decide, by decide, ⟨rfl, by decide⟩, by decide, by decide, rfl, by decide, rfl⟩

end Reference

end KernelDispatch
