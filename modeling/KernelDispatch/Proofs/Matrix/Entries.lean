import KernelDispatch.Proofs.Matrix
import Mathlib.Data.List.Basic

/-!
# Entries of matrices

What a product of matrices, a range of rows and a transposed matrix hold at each row and column. An
entry of a product is the inner product of a row and a column, added up from zero in the order of
the inner dimension: the loop reaches it once for each step of that dimension, between the same
steps of the other entries.
-/

namespace KernelDispatch.Matrix

variable {α : Type} {a b : Array Binary32} {m k n i : Nat}

/-! ### Row by row -/

/-- The entries of `m` rows of `n` columns, row by row. -/
def rowMajor (m n : Nat) (f : Nat → Nat → α) : List α :=
  ((List.range m).map fun i => (List.range n).map (f i)).flatten

/-- Every row has one entry for each column. -/
theorem length_of_mem_rows (m n : Nat) (f : Nat → Nat → α) :
    ∀ row ∈ (List.range m).map fun i => (List.range n).map (f i), row.length = n := by
  simp

/-- A matrix row by row has as many entries as rows times columns. -/
theorem length_rowMajor (m n : Nat) (f : Nat → Nat → α) : (rowMajor m n f).length = m * n := by
  rw [rowMajor, length_flatten_of_forall (length_of_mem_rows m n f), List.length_map,
    List.length_range]

/-- An entry stands behind the rows above it and the entries left of it. -/
theorem getElem?_rowMajor {j : Nat} (hi : i < m) (hj : j < n) (f : Nat → Nat → α) :
    (rowMajor m n f)[i * n + j]? = some (f i j) := by
  have hrow : ((List.range m).map fun i => (List.range n).map (f i))[i]? =
      some ((List.range n).map (f i)) := by simp [hi]
  rw [rowMajor, getElem?_flatten_of_forall (length_of_mem_rows m n f) hrow hj]
  simp [hj]

/-- Functions that agree on the entries of a matrix have the same matrix. -/
theorem rowMajor_congr {f g : Nat → Nat → α} (h : ∀ i < m, ∀ j < n, f i j = g i j) :
    rowMajor m n f = rowMajor m n g := by
  refine congrArg List.flatten (List.map_congr_left fun i hi => List.map_congr_left fun j hj => ?_)
  exact h i (List.mem_range.mp hi) j (List.mem_range.mp hj)

/-- Without columns it does not matter how many rows there are. -/
theorem rowMajor_eq_of_mul_eq {m m' : Nat} (h : m * n = m' * n) (f : Nat → Nat → α) :
    rowMajor m n f = rowMajor m' n f := by
  rcases Nat.eq_zero_or_pos n with rfl | hn
  · rw [List.eq_nil_of_length_eq_zero (length_rowMajor m 0 f),
      List.eq_nil_of_length_eq_zero (length_rowMajor m' 0 f)]
  · rw [Nat.eq_of_mul_eq_mul_right hn h]

/-- Position `x` of a matrix of `n` columns is column `x % n` of row `x / n`. -/
theorem rowMajor_eq_map_range (m n : Nat) (f : Nat → Nat → α) :
    rowMajor m n f = (List.range (m * n)).map fun x => f (x / n) (x % n) := by
  refine List.ext_getElem? fun x => ?_
  rcases Nat.lt_or_ge x (m * n) with hx | hx
  · have hentry := getElem?_rowMajor (div_lt_and_mod_lt hx).1 (div_lt_and_mod_lt hx).2 f
    rw [Nat.div_add_mod'] at hentry
    simp [hentry, hx]
  · rw [List.getElem?_eq_none (by rw [length_rowMajor]; exact hx), List.getElem?_eq_none (by simpa)]

/-- Matrices of one size that are stacked make one matrix. -/
theorem flatten_rowMajor (count m n : Nat) (f : Nat → Nat → α) :
    ((List.range count).map fun q => rowMajor m n fun i => f (q * m + i)).flatten =
      rowMajor (count * m) n f := by
  induction count with
  | zero => simp [rowMajor]
  | succ count ih =>
    rw [List.range_succ, List.map_append, List.flatten_append, ih]
    simp [rowMajor, Nat.succ_mul, List.range_add, Function.comp_def]

/-- The entry in row `i` and column `j` of a matrix of `n` columns. -/
def entry (a : Array Binary32) (n i j : Nat) : Binary32 := a.getD (i * n + j) .zero

/-- A range of rows of a matrix is a matrix of its own. -/
theorem exists_slice_eq_ok {start rows : Nat} (h : (start + rows) * n ≤ a.size) :
    ∃ piece, slice a (start * n) ((start + rows) * n) = .ok piece ∧ piece.size = rows * n ∧
      ∀ i < rows, ∀ j < n, entry piece n i j = entry a n (start + i) j := by
  refine ⟨a.extract (start * n) ((start + rows) * n), if_pos h, ?_, fun i hi j hj => ?_⟩
  · rw [Array.size_extract, Nat.min_eq_left h, Nat.add_mul, Nat.add_sub_cancel_left]
  · have hlt := mul_add_lt_mul hi hj
    have hplace : start * n + (i * n + j) = (start + i) * n + j := by
      rw [Nat.add_mul]
      omega
    simp only [entry, Array.getD_eq_getD_getElem?, Array.getElem?_extract, hplace]
    rw [if_pos (by rw [Nat.min_eq_left h, Nat.add_mul]; omega)]

/-! ### Products -/

/-- The inner product of two rows of `k` numbers, added up from zero in order. -/
def dot (k : Nat) (x y : Nat → Binary32) : Binary32 :=
  (List.range k).foldl (fun acc p => acc + x p * y p) .zero

/-- The last summand is added last. -/
theorem dot_succ (k : Nat) (x y : Nat → Binary32) : dot (k + 1) x y = dot k x y + x k * y k := by
  unfold dot
  rw [List.range_succ, List.foldl_append, List.foldl_cons, List.foldl_nil]

/-- An inner product depends on the numbers of its range only. -/
theorem dot_congr {x x' y y' : Nat → Binary32} (hx : ∀ p < k, x p = x' p)
    (hy : ∀ p < k, y p = y' p) : dot k x y = dot k x' y' := by
  unfold dot
  refine List.foldl_ext _ _ _ fun acc p hp => ?_
  rw [List.mem_range] at hp
  rw [hx p hp, hy p hp]

/-- Adding a scaled row adds to each entry of a row. -/
theorem addScaled_eq_ok {offset : Nat} (hb : offset + n ≤ b.size) (lhs : Binary32)
    (f : Nat → Binary32) :
    addScaled b offset lhs ((List.range n).map f) =
      .ok ((List.range n).map fun j => f j + lhs * b.getD (offset + j) .zero) := by
  refine mapM_zipIdx_map_range fun j hj => ?_
  rw [read_of_lt (by omega)]
  rfl

/-- After `p` steps of the inner dimension a row holds the inner products of that length. -/
theorem accumulateRow_eq_ok (ha : (i + 1) * k ≤ a.size) (hb : k * n ≤ b.size) :
    accumulateRow a b k n i (List.replicate n .zero) =
      .ok ((List.range n).map fun j => dot k (entry a k i) fun p => entry b n p j) := by
  let partialRow (p : Nat) : List Binary32 :=
    (List.range n).map fun j => dot p (entry a k i) fun p => entry b n p j
  have hstart : List.replicate n Binary32.zero = partialRow 0 := by simp [partialRow, dot]
  have hpass : ∀ p < k, ∀ row, row = partialRow p → ∃ next,
      (do addScaled b (p * n) (← read a (i * k + p)) row) = .ok next ∧
        next = partialRow (p + 1) := by
    rintro p hp _ rfl
    rw [Nat.succ_mul] at ha
    have hlast : p * n + n ≤ b.size := by
      rw [← Nat.succ_mul]
      exact Nat.le_trans (Nat.mul_le_mul_right n hp) hb
    refine ⟨_, ?_, rfl⟩
    rw [read_of_lt (by omega), ok_bind, addScaled_eq_ok hlast]
    simp only [partialRow, dot_succ]
    rfl
  obtain ⟨row, hrow, rfl⟩ := exists_foldlM_range_eq_ok hpass hstart
  exact hrow

/-- The entries of a product of matrices that are large enough. -/
theorem accumulate_eq_ok (ha : m * k ≤ a.size) (hb : k * n ≤ b.size) (hfits : m * n < wordSize) :
    accumulate a b m k n =
      .ok (rowMajor m n fun i j => dot k (entry a k i) fun p => entry b n p j) := by
  rw [accumulate_eq_rows a b k hfits, tabulate, mapM_eq_ok_map fun i hi =>
    accumulateRow_eq_ok (Nat.le_trans (Nat.mul_le_mul_right k (List.mem_range.mp hi)) ha) hb]
  rfl

/-- A product of matrices that are large enough succeeds if its entries can be counted, or if there
is nothing to add. -/
theorem exists_accumulate_eq_ok (ha : m * k ≤ a.size) (hb : k * n ≤ b.size)
    (hfits : 0 < k → m * n < wordSize) : ∃ entries, accumulate a b m k n = .ok entries := by
  rcases Nat.eq_zero_or_pos k with rfl | hk
  · exact ⟨_, by rw [accumulate]; rfl⟩
  · exact ⟨_, accumulate_eq_ok ha hb (hfits hk)⟩

/-- A product of matrices that are large enough, if there is room for its entries. -/
theorem product_eq_ok (ha : m * k ≤ a.size) (hb : k * n ≤ b.size)
    (hroom : m * n * 4 < bufferBound) :
    product a b m k n =
      .ok (rowMajor m n fun i j => dot k (entry a k i) fun p => entry b n p j) := by
  have hfits : m * n < wordSize := lt_wordSize_of_room hroom
  rw [product, extent_pair_of_lt hfits, reserve_of_lt hroom, ok_bind, accumulate_eq_ok ha hb hfits]

/-! ### Transposition -/

/-- What transposing a matrix does to its elements. -/
theorem exists_transpose_eq_ok (rows cols : Nat) (data : Array α)
    (h : data.size = rows * cols) :
    ∃ out, transpose rows cols data = .ok out ∧ out.length = rows * cols ∧
      ∀ r < rows, ∀ c < cols, out[c * rows + r]? = data[r * cols + c]? := by
  have hcell : ∀ x < rows * cols, x % rows * cols + x / rows < data.size := fun x hx => by
    obtain ⟨hcol, hrow⟩ := div_lt_and_mod_lt (Nat.mul_comm rows cols ▸ hx)
    exact h ▸ mul_add_lt_mul hrow hcol
  obtain ⟨out, hout⟩ := exists_mapM_eq_ok fun x hx =>
    exists_read_eq_ok (hcell x (List.mem_range.mp hx))
  refine ⟨out, hout, (length_of_mapM_eq_ok hout).trans List.length_range, fun r hr c hc => ?_⟩
  have hx : c * rows + r < rows * cols := Nat.mul_comm rows cols ▸ mul_add_lt_mul hc hr
  obtain ⟨y, hread, hy⟩ := exists_getElem?_of_mapM_eq_ok hout (List.getElem?_range hx)
  rw [mul_add_div_of_lt c hr, mul_add_mod_of_lt c hr, read_eq_ok_iff] at hread
  rw [hy, hread]

end KernelDispatch.Matrix
