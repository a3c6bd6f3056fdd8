import KernelDispatch.Kernel.Matrix
import KernelDispatch.Proofs.Loops

/-!
# Products of matrices row by row

A product writes its entries into one flat buffer. As long as the number of entries is that of the
buffer, each row is written into a segment of its own, and the product consists of the rows one
would accumulate one at a time; otherwise the buffer ends before the last entry and, unless there is
no inner dimension, the product fails.
-/

namespace KernelDispatch.Matrix

variable {a b : Array Binary32} {m k n i : Nat}

/-- Adding a scaled row keeps the length of a row. -/
theorem length_of_addScaled_eq_ok {offset : Nat} {lhs : Binary32} {row result : List Binary32}
    (h : addScaled b offset lhs row = .ok result) : result.length = row.length := by
  rw [addScaled] at h
  rw [length_of_mapM_eq_ok h, List.length_zipIdx]

/-- Adding a scaled row to a segment of a buffer leaves the rest of the buffer alone. -/
theorem addScaledAt_append (b : Array Binary32) (offset : Nat) (lhs : Binary32)
    (front row back : List Binary32) :
    addScaledAt b offset row.length front.length (front ++ (row ++ back)).toArray lhs =
      (addScaled b offset lhs row).map fun result => (front ++ (result ++ back)).toArray := by
  refine foldlM_range_eq_mapM_zipIdx (P := fun _ => True)
    (fun row => (front ++ (row ++ back)).toArray)
    (f := fun j acc => do return acc + lhs * (← read b (offset + j)))
    (fun _ _ _ _ _ => trivial) ?_ fun _ _ => trivial
  intro done x rest _ _
  have hsegment (y : Binary32) :
      front ++ (done ++ y :: rest ++ back) = front ++ done ++ y :: (rest ++ back) := by simp
  simp only [hsegment, ← List.length_append]
  exact update_append_length _ _ x _

/-- Accumulating a row in its segment of a buffer is accumulating it alone. -/
theorem accumulateAt_append (a b : Array Binary32) (k : Nat) {front row : List Binary32}
    (hrow : row.length = n) (hfront : front.length = i * n) (back : List Binary32) :
    accumulateAt a b k n (front ++ (row ++ back)).toArray i =
      (accumulateRow a b k n i row).map fun result => (front ++ (result ++ back)).toArray := by
  refine foldlM_view (P := fun row => row.length = n)
    (fun row => (front ++ (row ++ back)).toArray) ?_ ?_ (List.range k) hrow
  · intro row p result hlength hstep
    obtain ⟨lhs, -, hadd⟩ := bind_eq_ok_iff.mp hstep
    rw [length_of_addScaled_eq_ok hadd, hlength]
  · intro row p hlength
    cases hlhs : read a (i * k + p) with
    | error e => rfl
    | ok lhs =>
      have hadd := addScaledAt_append b (p * n) lhs front row back
      rw [hlength, hfront] at hadd
      exact hadd

/-- Accumulating keeps the length of a row. -/
theorem length_of_accumulateRow_eq_ok {row result : List Binary32}
    (h : accumulateRow a b k n i row = .ok result) : result.length = row.length := by
  refine (exists_step_of_foldlM_eq_ok (P := fun r => r.length = row.length) ?_ rfl h).1
  intro r p r' hlength hstep
  obtain ⟨lhs, -, hadd⟩ := bind_eq_ok_iff.mp hstep
  rw [length_of_addScaled_eq_ok hadd, hlength]

/-- The number of entries as a machine word. -/
theorem extent_pair (m n : Nat) : extent [m, n] = m * n % wordSize := by
  simp [extent]

/-- The number of entries if it can be counted. -/
theorem extent_pair_of_lt (hfits : m * n < wordSize) : extent [m, n] = m * n := by
  rw [extent_pair, Nat.mod_eq_of_lt hfits]

/-- Without an inner dimension every row stays as it is, so a product is always the loop over its
rows. -/
theorem accumulate_eq_foldlM (a b : Array Binary32) (m k n : Nat) :
    accumulate a b m k n =
      ((List.range m).foldlM (accumulateAt a b k n)
        (Array.replicate (extent [m, n]) .zero)).map Array.toList := by
  rw [accumulate]
  split
  · next hk =>
    subst hk
    rw [foldlM_eq_ok_of_fixed fun _ _ => rfl]
    rfl
  · rw [map_eq_bind]
    rfl

/-- In a buffer of rows of `n` entries accumulating row `i` rewrites that row. -/
theorem accumulateAt_flatten (a b : Array Binary32) (k : Nat) {done : List (List Binary32)}
    {row : List Binary32} (rest : List (List Binary32)) (hdone : ∀ r ∈ done, r.length = n)
    (hrow : row.length = n) :
    accumulateAt a b k n (done ++ row :: rest).flatten.toArray done.length =
      (accumulateRow a b k n done.length row).map fun result =>
        (done ++ result :: rest).flatten.toArray := by
  have hfront : done.flatten.length = done.length * n := length_flatten_of_forall hdone
  simpa using accumulateAt_append a b k hrow hfront rest.flatten

/-- If its entries can be counted, a product consists of the rows accumulated one at a time. -/
theorem accumulate_eq_rows (a b : Array Binary32) (k : Nat) (hfits : m * n < wordSize) :
    accumulate a b m k n =
      (tabulate m fun i => accumulateRow a b k n i (List.replicate n .zero)).map List.flatten := by
  let zeros : List (List Binary32) := List.replicate m (List.replicate n .zero)
  have hbuffer : Array.replicate (extent [m, n]) Binary32.zero = zeros.flatten.toArray := by
    rw [extent_pair_of_lt hfits, List.flatten_replicate_replicate, List.toArray_replicate]
  have hzeros : ∀ row ∈ zeros, row.length = n := by
    simp +contextual [zeros, List.mem_replicate]
  have hloop : (List.range zeros.length).foldlM (accumulateAt a b k n) zeros.flatten.toArray =
      (zeros.zipIdx.mapM fun c => accumulateRow a b k n c.2 c.1).map
        fun rows => rows.flatten.toArray :=
    foldlM_range_eq_mapM_zipIdx (P := fun row => row.length = n)
      (fun rows => rows.flatten.toArray) (f := accumulateRow a b k n)
      (fun i row result hrow hstep => (length_of_accumulateRow_eq_ok hstep).trans hrow)
      (fun done row rest hdone hrow => accumulateAt_flatten a b k rest hdone hrow) hzeros
  rw [List.length_replicate, mapM_zipIdx_replicate] at hloop
  rw [accumulate_eq_foldlM, hbuffer, hloop, tabulate]
  cases (List.range m).mapM fun i => accumulateRow a b k n i (List.replicate n .zero) <;> rfl

/-- Adding a scaled row stays inside the buffer, which keeps its size. -/
theorem bounds_of_addScaledAt_eq_ok {offset start : Nat} {entries result : Array Binary32}
    {lhs : Binary32} (h : addScaledAt b offset n start entries lhs = .ok result) :
    (∀ j < n, start + j < entries.size) ∧ result.size = entries.size := by
  obtain ⟨hsize, hpasses⟩ := exists_step_of_foldlM_eq_ok (P := fun e => e.size = entries.size)
    (fun e j e' he hstep => (bounds_of_update_eq_ok hstep).2.trans he) rfl h
  refine ⟨fun j hj => ?_, hsize⟩
  obtain ⟨e, e', he, hstep⟩ := hpasses j (List.mem_range.mpr hj)
  exact he ▸ (bounds_of_update_eq_ok hstep).1

/-- Accumulating a row stays inside the buffer, if there is anything to add, and keeps its size. -/
theorem bounds_of_accumulateAt_eq_ok {entries result : Array Binary32}
    (h : accumulateAt a b k n entries i = .ok result) :
    (0 < k → ∀ j < n, i * n + j < entries.size) ∧ result.size = entries.size := by
  have hpass {e e' : Array Binary32} {p : Nat} (hstep : (do
      addScaledAt b (p * n) n (i * n) e (← read a (i * k + p))) = .ok e') :
      (∀ j < n, i * n + j < e.size) ∧ e'.size = e.size := by
    obtain ⟨lhs, -, hadd⟩ := bind_eq_ok_iff.mp hstep
    exact bounds_of_addScaledAt_eq_ok hadd
  obtain ⟨hsize, hpasses⟩ := exists_step_of_foldlM_eq_ok (P := fun e => e.size = entries.size)
    (fun e p e' he hstep => (hpass hstep).2.trans he) rfl h
  refine ⟨fun hk j hj => ?_, hsize⟩
  obtain ⟨e, e', he, hstep⟩ := hpasses 0 (List.mem_range.mpr hk)
  exact he ▸ (hpass hstep).1 j hj

/-- A product that succeeds has as many entries as the word says, and these are all its entries
unless there is no inner dimension. -/
theorem fits_of_accumulate_eq_ok {entries : List Binary32} (h : accumulate a b m k n = .ok entries) :
    entries.length = extent [m, n] ∧ (0 < k → m * n < wordSize) := by
  rw [accumulate_eq_foldlM, map_eq_ok_iff] at h
  obtain ⟨buffer, hloop, rfl⟩ := h
  obtain ⟨hsize, hpasses⟩ := exists_step_of_foldlM_eq_ok (P := fun e => e.size = extent [m, n])
    (fun e i e' he hstep => (bounds_of_accumulateAt_eq_ok hstep).2.trans he)
    Array.size_replicate hloop
  refine ⟨hsize, fun hk => ?_⟩
  rcases Nat.eq_zero_or_pos m with rfl | hm
  · simp [wordSize]
  rcases Nat.eq_zero_or_pos n with rfl | hn
  · simp [wordSize]
  -- the last entry of the last row is inside the buffer, whose size is a machine word
  obtain ⟨e, e', he, hstep⟩ := hpasses (m - 1) (List.mem_range.mpr (by omega))
  have hlast := (bounds_of_accumulateAt_eq_ok hstep).1 hk (n - 1) (by omega)
  have hword : extent [m, n] < wordSize := Nat.mod_lt _ (by simp [wordSize])
  have hproduct : (m - 1) * n + n = m * n := by
    rw [← Nat.succ_mul, Nat.succ_eq_add_one, Nat.sub_add_cancel hm]
  omega

/-- The last element of row `i` of a matrix with `m` rows of `n` elements lies inside it. -/
theorem mul_add_lt_mul {j : Nat} (hi : i < m) (hj : j < n) : i * n + j < m * n :=
  calc i * n + j < (i + 1) * n := by rw [Nat.succ_mul]; omega
    _ ≤ m * n := Nat.mul_le_mul_right n hi

/-- An element of row `i` lies in row `i`. -/
theorem mul_add_div_of_lt {j : Nat} (i : Nat) (hj : j < n) : (i * n + j) / n = i := by
  rw [Nat.mul_comm, Nat.mul_add_div (Nat.zero_lt_of_lt hj), Nat.div_eq_of_lt hj, Nat.add_zero]

/-- The column of a position is its remainder by the number of columns. -/
theorem mul_add_mod_of_lt {j : Nat} (i : Nat) (hj : j < n) : (i * n + j) % n = j := by
  rw [Nat.mul_add_mod_self_right, Nat.mod_eq_of_lt hj]

/-- Every element of a matrix lies in one of its rows and columns. -/
theorem div_lt_and_mod_lt {x : Nat} (hx : x < m * n) : x / n < m ∧ x % n < n := by
  have hn : 0 < n := Nat.pos_of_mul_pos_left (Nat.zero_lt_of_lt hx)
  exact ⟨Nat.div_lt_of_lt_mul (Nat.mul_comm m n ▸ hx), Nat.mod_lt x hn⟩

/-- A product reads nothing of the left operand beyond its `m` rows. -/
theorem accumulate_extract (ha : m * k ≤ a.size) (b : Array Binary32) (n : Nat) :
    accumulate (a.extract 0 (m * k)) b m k n = accumulate a b m k n := by
  rw [accumulate_eq_foldlM, accumulate_eq_foldlM]
  refine congrArg (Except.map _) (foldlM_congr (fun entries i hi => ?_) _)
  refine foldlM_congr (fun entries p hp => ?_) _
  have hlt := mul_add_lt_mul (List.mem_range.mp hi) (List.mem_range.mp hp)
  obtain ⟨lhs, hlhs⟩ := exists_read_eq_ok (Nat.lt_of_lt_of_le hlt ha)
  have hfront : read (a.extract 0 (m * k)) (i * k + p) = .ok lhs := by
    rw [read_eq_ok_iff] at hlhs ⊢
    rw [Array.getElem?_extract, if_pos (by omega), Nat.zero_add, hlhs]
  rw [hfront, hlhs]

end KernelDispatch.Matrix
