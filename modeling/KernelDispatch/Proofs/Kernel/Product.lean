import KernelDispatch.Proofs.Matrix.Entries
import KernelDispatch.Proofs.Safety.Reference
import KernelDispatch.Proofs.Tensor.Numbers
import Mathlib.Data.List.Forall2

/-!
# Products of tensors

Which operands the two reference products accept, and what their answers hold at every index. The
batched product multiplies the matrices of two tensors, or every matrix of the left one with the
only matrix of the right one; the latter is one product of two matrices, all batches stacked.

A product can be larger than its operands, so beside their shapes it is asked of operands that there
is room for their product. A product whose entries cannot even be counted escapes that question.
-/

namespace KernelDispatch

open KernelDispatch.Matrix (entry dot rowMajor)

variable {t a b : Tensor} {outputs : List Tensor} {batch idx : List Nat} {m k n : Nat}

/-! ### Tensors row by row -/

namespace Tensor

/-- A well-formed tensor has a number for every position of its shape. -/
theorem size_column_eq_volume (ht : t.WellFormed) (hf32 : t.elementType = .f32) :
    t.column.size = volume t.shape.dims :=
  (NumbersOf.of_wellFormed ht hf32).size_column.trans ht.count_eq

/-- The rows of all matrices of a tensor are numbered from the first matrix on. -/
theorem numberAt?_eq_entry {i p : Nat} (ht : t.WellFormed) (hf32 : t.elementType = .f32)
    (hdims : t.shape.dims = batch ++ [m, k]) (hidx : List.Forall₂ (· < ·) idx batch) (hi : i < m)
    (hp : p < k) :
    t.numberAt? (idx ++ [i, p]) = some (entry t.column k (place batch idx * m + i) p) := by
  have hlt : (place batch idx * m + i) * k + p < t.shape.count := by
    rw [ht.count_eq, hdims, volume_append, volume_cons, volume_cons, volume_nil, Nat.mul_one,
      ← Nat.mul_assoc]
    exact Matrix.mul_add_lt_mul (Matrix.mul_add_lt_mul (place_lt_volume hidx) hi) hp
  rw [numberAt?, hdims, place_append hidx.length_eq.symm,
    (NumbersOf.of_wellFormed ht hf32).number?_eq hlt]
  rfl

/-- A tensor of two dimensions is one matrix. -/
theorem numberAt?_pair {i p : Nat} (ht : t.WellFormed) (hf32 : t.elementType = .f32)
    (hdims : t.shape.dims = [m, k]) (hi : i < m) (hp : p < k) :
    t.numberAt? [i, p] = some (entry t.column k i p) := by
  have hentry := numberAt?_eq_entry (m := m) ht hf32 hdims .nil hi hp
  simpa [place] using hentry

/-- An answer that is given row by row. -/
theorem answerFloats_rowMajor (hfits : volume (batch ++ [m, n]) * 4 < wordSize)
    (f : Nat → Nat → Binary32) :
    let c := ofNumbers ⟨batch ++ [m, n]⟩ (rowMajor (volume batch * m) n f)
    answerFloats ⟨batch ++ [m, n]⟩ (rowMajor (volume batch * m) n f) = .ok [c] ∧ c.WellFormed ∧
      ∀ idx, List.Forall₂ (· < ·) idx batch → ∀ i < m, ∀ j < n,
        c.numberAt? (idx ++ [i, j]) = some (f (place batch idx * m + i) j) := by
  intro c
  have hlength : (rowMajor (volume batch * m) n f).length = volume (batch ++ [m, n]) := by
    simp [Matrix.length_rowMajor, Nat.mul_assoc]
  obtain ⟨hanswer, hwell, -⟩ := answerFloats_eq_ofNumbers ⟨batch ++ [m, n]⟩ hlength hfits
  refine ⟨hanswer, hwell, fun idx hidx i hi j hj => ?_⟩
  have hplace : place c.shape.dims (idx ++ [i, j]) = (place batch idx * m + i) * n + j :=
    place_append hidx.length_eq.symm m n i j
  rw [numberAt?, hplace, number?_ofNumbers hlength hfits]
  exact Matrix.getElem?_rowMajor (Matrix.mul_add_lt_mul (place_lt_volume hidx) hi) hj f

/-- An answer that is one matrix. -/
theorem answerFloats_matrix (hfits : volume [m, n] * 4 < wordSize) (f : Nat → Nat → Binary32) :
    let c := ofNumbers ⟨[m, n]⟩ (rowMajor m n f)
    answerFloats ⟨[m, n]⟩ (rowMajor m n f) = .ok [c] ∧ c.WellFormed ∧
      ∀ i < m, ∀ j < n, c.numberAt? [i, j] = some (f i j) := by
  have hrows := @answerFloats_rowMajor [] m n hfits f
  rw [volume_nil, Nat.one_mul] at hrows
  obtain ⟨hanswer, hwell, hentries⟩ := hrows
  refine ⟨hanswer, hwell, fun i hi j hj => ?_⟩
  simpa [place] using hentries [] .nil i hi j hj

end Tensor

namespace Reference

/-! ### Batched products -/

namespace MatMul

variable {batchB : List Nat}

/-- The product of operands that fit, as the rows of all batches. -/
theorem multiply_eq_answer (ha : a.WellFormed) (hb : b.WellFormed) (hfa : a.elementType = .f32)
    (hfb : b.elementType = .f32) (h : Fits a b batch batchB m k n)
    (hroom : volume (batch ++ [m, n]) * 4 < bufferBound) :
    multiply a b = answerFloats ⟨batch ++ [m, n]⟩ (rowMajor (volume batch * m) n
      (stackedEntry a.column b.column m k n batchB.isEmpty)) := by
  have hsizeA := (Tensor.size_column_eq_volume ha hfa).trans h.volume_left
  have hsizeB := (Tensor.size_column_eq_volume hb hfb).trans h.volume_right
  have hproducts :=
    tabulate_batchProduct (Nat.le_of_eq hsizeA.symm) (Nat.le_of_eq hsizeB.symm) hroom
  rw [multiply_eq_products h, (Tensor.NumbersOf.of_wellFormed ha hfa).readFloats_eq, ok_bind,
    (Tensor.NumbersOf.of_wellFormed hb hfb).readFloats_eq, ok_bind,
    extent_eq_of_lt (lt_wordSize_of_room hroom), reserve_of_lt hroom, ok_bind]
  obtain ⟨products, htabulate, hflatten⟩ := map_eq_ok_iff.mp hproducts
  rw [htabulate, ok_bind, hflatten]

/-- Operands whose product can be counted, but is too large for a buffer, are not multiplied. -/
theorem multiply_eq_capacity (ha : a.WellFormed) (hb : b.WellFormed) (hfa : a.elementType = .f32)
    (hfb : b.elementType = .f32) (h : Fits a b batch batchB m k n)
    (hvolume : volume (batch ++ [m, n]) < wordSize)
    (hfull : bufferBound ≤ volume (batch ++ [m, n]) * 4) :
    multiply a b = .error (.capacity (volume (batch ++ [m, n]))) := by
  rw [multiply_eq_products h, (Tensor.NumbersOf.of_wellFormed ha hfa).readFloats_eq, ok_bind,
    (Tensor.NumbersOf.of_wellFormed hb hfb).readFloats_eq, ok_bind, extent_eq_of_lt hvolume,
    reserve_of_le hfull]
  rfl

/-! ### What a batched product holds -/

/-- Whether a tensor is the batched product of two others: each entry is the inner product of a row
and a column, added up from zero in order. -/
structure IsProduct (a b : Tensor) (batch batchB : List Nat) (m k n : Nat) (c : Tensor) :
    Prop where
  wellFormed : c.WellFormed
  elementType : c.elementType = .f32
  shape : c.shape = ⟨batch ++ [m, n]⟩
  entries : ∀ idx, List.Forall₂ (· < ·) idx batch → ∀ i < m, ∀ j < n, ∃ xs ys,
    (∀ p < k, a.numberAt? (idx ++ [i, p]) = some (xs p)) ∧
      (∀ p < k, b.numberAt? ((if batchB = [] then [] else idx) ++ [p, j]) = some (ys p)) ∧
      c.numberAt? (idx ++ [i, j]) = some (dot k xs ys)

/-- The column that is read for an entry of a product is one of the matrix of its batch. -/
theorem Fits.numberAt?_right {i p j : Nat} (h : Fits a b batch batchB m k n) (hb : b.WellFormed)
    (hfb : b.elementType = .f32) (hidx : List.Forall₂ (· < ·) idx batch) (hi : i < m) (hp : p < k)
    (hj : j < n) :
    b.numberAt? ((if batchB = [] then [] else idx) ++ [p, j]) = some (entry b.column n
      ((if batchB.isEmpty then 0 else (place batch idx * m + i) / m * k) + p) j) := by
  by_cases hshared : batchB = []
  · have hright := h.right
    subst hshared
    rw [if_pos rfl, Tensor.numberAt?_eq_entry hb hfb hright .nil hp hj]
    simp [place]
  · obtain rfl : batchB = batch := h.batches.resolve_left hshared
    rw [if_neg hshared, Matrix.mul_add_div_of_lt _ hi,
      Tensor.numberAt?_eq_entry hb hfb h.right hidx hp hj]
    simp [hshared]

/-- Operands that fit are multiplied if there is room for their product. -/
theorem multiply_isProduct (ha : a.WellFormed) (hb : b.WellFormed) (hfa : a.elementType = .f32)
    (hfb : b.elementType = .f32) (h : Fits a b batch batchB m k n)
    (hroom : volume (batch ++ [m, n]) * 4 < bufferBound) :
    let c := Tensor.ofNumbers ⟨batch ++ [m, n]⟩ (rowMajor (volume batch * m) n
      (stackedEntry a.column b.column m k n batchB.isEmpty))
    multiply a b = .ok [c] ∧ IsProduct a b batch batchB m k n c := by
  intro c
  obtain ⟨hanswer, hwell, hentries⟩ := Tensor.answerFloats_rowMajor (bytes_lt_of_room hroom)
    (stackedEntry a.column b.column m k n batchB.isEmpty)
  refine ⟨(multiply_eq_answer ha hb hfa hfb h hroom).trans hanswer, hwell, rfl, rfl,
    fun idx hidx i hi j hj => ?_⟩
  exact ⟨_, _, fun p hp => Tensor.numberAt?_eq_entry ha hfa h.left hidx hi hp,
    fun p hp => h.numberAt?_right hb hfb hidx hi hp hj, hentries idx hidx i hi j hj⟩

/-- With one matrix for all, the batches of the left operand are one matrix. -/
theorem multiply_stacked (ha : a.WellFormed) (hb : b.WellFormed) (hfa : a.elementType = .f32)
    (hfb : b.elementType = .f32) (h : Fits a b batch [] m k n)
    (hroom : volume (batch ++ [m, n]) * 4 < bufferBound) :
    let values := rowMajor (volume batch * m) n (stackedEntry a.column b.column m k n true)
    ∃ flat, a.reshape ⟨[volume batch * m, k]⟩ = .ok flat ∧
      multiply flat b = .ok [.ofNumbers ⟨[volume batch * m, n]⟩ values] ∧
      (Tensor.ofNumbers ⟨[volume batch * m, n]⟩ values).reshape ⟨batch ++ [m, n]⟩ =
        .ok (.ofNumbers ⟨batch ++ [m, n]⟩ values) := by
  intro values
  have hvolume (cols : Nat) : volume (batch ++ [m, cols]) = volume [volume batch * m, cols] := by
    simp [Nat.mul_assoc]
  have hcount (cols : Nat) :
      (⟨[volume batch * m, cols]⟩ : Shape).count = (⟨batch ++ [m, cols]⟩ : Shape).count :=
    congrArg (· % wordSize) (hvolume cols).symm
  have hshape : a.shape = ⟨batch ++ [m, k]⟩ := congrArg Shape.mk h.left
  let flat : Tensor := { a with shape := ⟨[volume batch * m, k]⟩ }
  have hflat : flat.WellFormed := by
    refine ⟨?_, ha.2⟩
    rw [← volume, ← hvolume k, ← h.left]
    exact ha.1
  have hmatrices : Fits flat b [] [] (volume batch * m) k n := ⟨rfl, h.right, .inl rfl⟩
  have hroom' : volume ([] ++ [volume batch * m, n]) * 4 < bufferBound := by
    rwa [List.nil_append, ← hvolume]
  refine ⟨flat, if_pos (by rw [hcount, ← hshape]; rfl), ?_, if_pos (hcount n).symm⟩
  have hproduct := (multiply_isProduct hflat hb hfa hfb hmatrices hroom').1
  rw [volume_nil, Nat.one_mul] at hproduct
  exact hproduct

/-- A configured product accepts no operands but those that fit. If the entries of their product can
be counted, it answers with the product or, if there is no room for as many numbers, fails for lack
of it. With one matrix for all the product is that of two matrices, reshaped. -/
theorem invoke_products {r : MatMul} (hr : r.ready = true) (ha : a.WellFormed) (hb : b.WellFormed)
    (hfa : a.elementType = .f32) (hfb : b.elementType = .f32) :
    let product (left right : Tensor) := Kernel.invoke (.matMul r : ReferenceKernel) [left, right]
    ((∃ outputs, product a b = .ok outputs) →
        ∃ batch batchB m k n, Fits a b batch batchB m k n) ∧
      ∀ batch batchB m k n, Fits a b batch batchB m k n →
        let count := volume (batch ++ [m, n])
        count < wordSize →
          ((∃ outputs, product a b = .ok outputs) ↔ count * 4 < bufferBound) ∧
          (bufferBound ≤ count * 4 → product a b = .error (.capacity count)) ∧
          (count * 4 < bufferBound →
            ∃ c, product a b = .ok [c] ∧ IsProduct a b batch batchB m k n c ∧
              (batchB = [] → ∃ flat c', a.reshape ⟨[volume batch * m, k]⟩ = .ok flat ∧
                product flat b = .ok [c'] ∧ c'.reshape ⟨batch ++ [m, n]⟩ = .ok c)) := by
  intro product
  have hproduct (left right : Tensor) : product left right = multiply left right := by
    change r.invoke [left, right] = _
    rw [invoke, hr]
    rfl
  simp only [hproduct]
  refine ⟨?_, fun batch batchB m k n h hvolume => ?_⟩
  · rintro ⟨outputs, houtputs⟩
    refine (multiply_cases a b).resolve_right ?_
    rintro ⟨e, he, -⟩
    rw [he] at houtputs
    cases houtputs
  · have hanswer (hroom : volume (batch ++ [m, n]) * 4 < bufferBound) :=
      multiply_isProduct ha hb hfa hfb h hroom
    have hfull := multiply_eq_capacity ha hb hfa hfb h hvolume
    refine ⟨exists_eq_ok_iff_room (fun hroom => ⟨_, (hanswer hroom).1⟩) hfull, hfull,
      fun hroom => ⟨_, (hanswer hroom).1, (hanswer hroom).2, ?_⟩⟩
    rintro rfl
    obtain ⟨flat, hflat, hstacked, hback⟩ := multiply_stacked ha hb hfa hfb h hroom
    exact ⟨flat, _, hflat, hstacked, hback⟩

/-- Two rows in batches of their own, 1 and 2 and 3 and 4, beside one column of ones: the rows add
up to 3 and 7. -/
theorem invoke_products_shared_column :
    let a : Tensor := ⟨.f32, ⟨[2, 1, 2]⟩,
      [0, 0, 0x80, 0x3f, 0, 0, 0, 0x40, 0, 0, 0x40, 0x40, 0, 0, 0x80, 0x40]⟩
    let b : Tensor := ⟨.f32, ⟨[2, 1]⟩, [0, 0, 0x80, 0x3f, 0, 0, 0x80, 0x3f]⟩
    let c : Tensor := ⟨.f32, ⟨[2, 1, 1]⟩, [0, 0, 0x40, 0x40, 0, 0, 0xe0, 0x40]⟩
    let product (left right : Tensor) :=
      Kernel.invoke (.matMul ⟨true⟩ : ReferenceKernel) [left, right]
    Fits a b [2] [] 1 2 1 ∧ volume ([2] ++ [1, 1]) * 4 < bufferBound ∧ product a b = .ok [c] ∧
      IsProduct a b [2] [] 1 2 1 c ∧
      ∃ flat c', a.reshape ⟨[2, 2]⟩ = .ok flat ∧ product flat b = .ok [c'] ∧
        c'.reshape ⟨[2, 1, 1]⟩ = .ok c := by
  intro a b c product
  have hfits : Fits a b [2] [] 1 2 1 := ⟨rfl, rfl, .inl rfl⟩
  have hroom : volume ([2] ++ [1, 1]) * 4 < bufferBound := by decide
  have hc : product a b = .ok [c] := by
    unfold product a b c
    rfl
  obtain ⟨-, -, hanswer⟩ := (invoke_products (r := ⟨true⟩) rfl ⟨rfl, by decide⟩
    ⟨rfl, by decide⟩ rfl rfl).2 [2] [] 1 2 1 hfits (by decide)
  obtain ⟨c₀, hproduct, hc₀, hstacked⟩ := hanswer hroom
  obtain rfl : c₀ = c := by
    have hlists := Except.ok.inj (hproduct.symm.trans hc)
    exact (List.cons.inj hlists).1
  exact ⟨hfits, hroom, hc, hc₀, hstacked rfl⟩

/-- Operands without elements that fit, and whose products have entries all the same. If these can
be counted, but are too many for a buffer, nothing is answered; if their number is zero as a machine
word, the answer has none of them. -/
theorem invoke_products_unbounded :
    let left (m : Nat) : Tensor := ⟨.f32, ⟨[m, 0]⟩, []⟩
    let right (n : Nat) : Tensor := ⟨.f32, ⟨[0, n]⟩, []⟩
    let c : Tensor := ⟨.f32, ⟨[2, 0x8000000000000000]⟩, []⟩
    let product (left right : Tensor) :=
      Kernel.invoke (.matMul ⟨true⟩ : ReferenceKernel) [left, right]
    (∀ m, (left m).WellFormed) ∧ (∀ n, (right n).WellFormed) ∧
      (∀ m n, Fits (left m) (right n) [] [] m 0 n) ∧
      volume [0x80000000, 0x40000000] < wordSize ∧
      product (left 0x80000000) (right 0x40000000) = .error (.capacity 0x2000000000000000) ∧
      product (left 2) (right 0x8000000000000000) = .ok [c] ∧
      ¬ IsProduct (left 2) (right 0x8000000000000000) [] [] 2 0 0x8000000000000000 c := by
  intro left right c product
  have hnone : c.numberAt? [0, 0] = none := by
    unfold c
    rfl
  have hempty : 0 < wordSize := by decide
  refine ⟨fun m => ⟨by simp [left], hempty⟩, fun n => ⟨by simp [right], hempty⟩,
    fun m n => ⟨rfl, rfl, .inl rfl⟩, by decide, rfl, rfl, fun h => ?_⟩
  -- the product would have an entry in the first row and column
  obtain ⟨_, _, -, -, hentry⟩ := h.entries [] .nil 0 (by decide) 0 (by decide)
  cases hnone.symm.trans hentry

end MatMul

end Reference

end KernelDispatch
