import KernelDispatch.Proofs.Matrix.Entries
import KernelDispatch.Proofs.Safety.Outcome
import KernelDispatch.Reference.Product

/-!
# Batches of matrices

Which operands of a batched product fit, and what the products of all batches are. Row by row and
batch after batch they are one matrix, with as many rows as all matrices of the left operand have.
-/

namespace KernelDispatch.Reference.MatMul

open KernelDispatch.Matrix (entry dot rowMajor)

variable {a b : Tensor} {x y : Array Binary32} {batch batchB : List Nat} {m k n q count : Nat}

/-- Whether the operands of a batched product fit: matrices of `m` rows beside one matrix for all or
one for each, of as many rows as the former have columns. -/
structure Fits (a b : Tensor) (batch batchB : List Nat) (m k n : Nat) : Prop where
  left : a.shape.dims = batch ++ [m, k]
  right : b.shape.dims = batchB ++ [k, n]
  batches : batchB = [] ∨ batchB = batch

/-- The last two dimensions, read from the back. -/
theorem eq_reverse_append_of_reverse_eq {dims rest : List Nat} {p q : Nat}
    (h : dims.reverse = q :: p :: rest) : dims = rest.reverse ++ [p, q] := by
  rw [← List.reverse_reverse dims, h]
  simp

/-- Either the operands fit or they are refused. -/
theorem multiply_cases (a b : Tensor) :
    (∃ batch batchB m k n, Fits a b batch batchB m k n) ∨
      ∃ e, multiply a b = .error e ∧ ∀ buffers, e.Expected buffers := by
  unfold multiply
  split
  · next k m batchRev n kb batchRevB hleft hright =>
    have hdimsA := eq_reverse_append_of_reverse_eq hleft
    have hdimsB := eq_reverse_append_of_reverse_eq hright
    split
    · exact .inr ⟨_, rfl, fun _ => trivial⟩
    · next hk =>
      obtain rfl : k = kb := Decidable.not_not.mp hk
      dsimp only
      split
      · exact .inr ⟨_, rfl, fun _ => trivial⟩
      · next hbatch =>
        refine .inl ⟨batchRev.reverse, batchRevB.reverse, m, k, n, hdimsA, hdimsB, ?_⟩
        cases batchRevB with
        | nil => exact .inl rfl
        | cons d rest =>
          obtain rfl : d :: rest = batchRev := by simpa using hbatch
          exact .inr rfl
  · exact .inr ⟨_, rfl, fun _ => trivial⟩

/-- The left operand has a matrix for each batch. -/
theorem Fits.volume_left (h : Fits a b batch batchB m k n) :
    volume a.shape.dims = volume batch * m * k := by
  simp [h.left, Nat.mul_assoc]

/-- The right operand has one matrix or one for each batch. -/
theorem Fits.volume_right (h : Fits a b batch batchB m k n) :
    volume b.shape.dims = if batchB.isEmpty then k * n else volume batch * k * n := by
  rcases h.batches with hempty | rfl
  · simp [h.right, hempty]
  · rw [h.right]
    split
    · next hempty => simp [List.isEmpty_iff.mp hempty]
    · simp [Nat.mul_assoc]

/-- Operands that fit are multiplied batch by batch. -/
theorem multiply_eq_products (h : Fits a b batch batchB m k n) :
    multiply a b = (do
      let x ← readFloats a
      let y ← readFloats b
      reserve (extent (batch ++ [m, n]))
      let products ← tabulate (extent batch) (batchProduct x y m k n batchB.isEmpty)
      answerFloats ⟨batch ++ [m, n]⟩ products.flatten) := by
  have hleft : a.shape.dims.reverse = k :: m :: batch.reverse := by simp [h.left]
  have hright : b.shape.dims.reverse = n :: k :: batchB.reverse := by simp [h.right]
  rw [multiply, hleft, hright]
  rcases h.batches with rfl | rfl <;> simp

/-- The entries of the product of one batch. -/
theorem batchProduct_eq_ok {shared : Bool} (hq : q < count) (hx : count * m * k ≤ x.size)
    (hy : (if shared then k * n else count * k * n) ≤ y.size) (hroom : m * n * 4 < bufferBound) :
    batchProduct x y m k n shared q = .ok (rowMajor m n fun i j =>
      dot k (entry x k (q * m + i)) fun p => entry y n ((if shared then 0 else q * k) + p) j) := by
  have hlast (rows cols : Nat) : (q * rows + rows) * cols ≤ count * rows * cols := by
    rw [← Nat.succ_mul]
    exact Nat.mul_le_mul_right cols (Nat.mul_le_mul_right rows hq)
  have hjoin : batchProduct x y m k n shared q =
      slice x (q * m * k) ((q + 1) * m * k) >>= fun left =>
        (if shared then .ok y else slice y (q * k * n) ((q + 1) * k * n)) >>= fun right =>
          Matrix.product left right m k n := by
    cases shared <;> rfl
  obtain ⟨left, hleft, hsizeX, hentryX⟩ :=
    Matrix.exists_slice_eq_ok (Nat.le_trans (hlast m k) hx)
  obtain ⟨right, hright, hsizeY, hentryY⟩ : ∃ right,
      (if shared then .ok y else slice y (q * k * n) ((q + 1) * k * n)) = .ok right ∧
        k * n ≤ right.size ∧ ∀ p < k, ∀ j < n,
          entry right n p j = entry y n ((if shared then 0 else q * k) + p) j := by
    cases shared with
    | true => exact ⟨y, rfl, hy, fun p _ j _ => by rw [if_pos rfl, Nat.zero_add]⟩
    | false =>
      obtain ⟨right, hright, hsizeY, hentryY⟩ :=
        Matrix.exists_slice_eq_ok (Nat.le_trans (hlast k n) hy)
      exact ⟨right, by rw [Nat.succ_mul]; exact hright, Nat.le_of_eq hsizeY.symm, hentryY⟩
  rw [hjoin, Nat.succ_mul q m, hleft, ok_bind, hright, ok_bind,
    Matrix.product_eq_ok (Nat.le_of_eq hsizeX.symm) hsizeY hroom]
  congr 1
  exact Matrix.rowMajor_congr fun i hi j hj =>
    Matrix.dot_congr (hentryX i hi) fun p hp => hentryY p hp j hj

/-- Entry `j` of row `r` of a product, the rows of all batches stacked. Row `r` belongs to batch
`r / m`. -/
def stackedEntry (x y : Array Binary32) (m k n : Nat) (shared : Bool) (r j : Nat) : Binary32 :=
  dot k (entry x k r) fun p => entry y n ((if shared then 0 else r / m * k) + p) j

/-- The products of all batches one after another are the rows of all batches. -/
theorem tabulate_batchProduct {shared : Bool} (hx : volume batch * m * k ≤ x.size)
    (hy : (if shared then k * n else volume batch * k * n) ≤ y.size)
    (hroom : volume (batch ++ [m, n]) * 4 < bufferBound) :
    (tabulate (extent batch) (batchProduct x y m k n shared)).map List.flatten =
      .ok (rowMajor (volume batch * m) n (stackedEntry x y m k n shared)) := by
  have hvolume : volume (batch ++ [m, n]) = volume batch * (m * n) := by simp
  rw [hvolume] at hroom
  have hfits : volume batch * (m * n) < wordSize := lt_wordSize_of_room hroom
  have hproducts : tabulate (extent batch) (batchProduct x y m k n shared) =
      .ok ((List.range (extent batch)).map fun q =>
        rowMajor m n fun i => stackedEntry x y m k n shared (q * m + i)) := by
    refine mapM_eq_ok_map fun q hq => ?_
    have hq : q < volume batch :=
      Nat.lt_of_lt_of_le (List.mem_range.mp hq) (extent_le_volume batch)
    have hentries : m * n * 4 < bufferBound :=
      Nat.lt_of_le_of_lt
        (Nat.mul_le_mul_right 4 (Nat.le_mul_of_pos_left _ (Nat.zero_lt_of_lt hq))) hroom
    rw [batchProduct_eq_ok hq hx hy hentries]
    congr 1
    refine Matrix.rowMajor_congr fun i hi j _ => ?_
    simp only [stackedEntry, Matrix.mul_add_div_of_lt q hi]
  have hrows : extent batch * m * n = volume batch * m * n := by
    rw [Nat.mul_assoc, Nat.mul_assoc]
    exact extent_mul_of_lt hfits
  rw [hproducts, Except.map, Matrix.flatten_rowMajor, Matrix.rowMajor_eq_of_mul_eq hrows]

end KernelDispatch.Reference.MatMul
