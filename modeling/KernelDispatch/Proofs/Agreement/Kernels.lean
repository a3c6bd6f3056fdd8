import KernelDispatch.Parallel.Kernels
import KernelDispatch.Proofs.Matrix.Entries
import KernelDispatch.Proofs.Tensor.Elements
import KernelDispatch.Reference.Basic

/-!
# Parallel kernels beside their reference counterparts

Every parallel kernel has a counterpart in the reference family that serves the same operator. Where
both succeed they answer the same tensor, sums apart, which start from different zeros. What the
parallel kernel accepts its counterpart accepts as well, except for a scalar under softmax, which
has no last axis, and for a product with more entries than a machine word counts, whose buffer is
too short for the reference kernel.
-/

namespace KernelDispatch

open Parallel

variable {a b : Tensor} {inputs outputs outputs' : List Tensor}

namespace Parallel

/-- Tasks that make one element each tabulate. -/
theorem runTasks_blank (f : Nat → Except InvokeError Binary32) (n : Nat) :
    runTasks inOrder (fun i _ => (f i).map ([·])) (blank n) = tabulate n f := by
  rw [runTasks_inOrder, blank, singles, List.map_replicate,
    mapM_zipIdx_replicate fun i _ => (f i).map ([·]), mapM_singleton_flatten, tabulate]

/-- Tasks that combine one element each of two operands combine the operands. -/
theorem runTasks_zipCyclic (f : Binary32 → Binary32 → Binary32) (x y : Array Binary32) (n : Nat) :
    runTasks inOrder (fun i _ => do return [f (← readCyclic x i) (← readCyclic y i)]) (blank n) =
      zipCyclic n f x y := by
  rw [zipCyclic, ← runTasks_blank]
  congr 1
  funext i _
  cases readCyclic x i <;> cases readCyclic y i <;> rfl

/-- Tasks that add up one element each of all columns tabulate the sums. -/
theorem runTasks_sums (columns : List (Array Binary32)) (n : Nat) :
    runTasks inOrder (fun i _ => do
        let total ← columns.foldlM (fun acc c => do return acc + (← read c i)) Binary32.negZero
        return [total]) (blank n) =
      tabulate n fun i =>
        columns.foldlM (fun acc c => do return acc + (← read c i)) Binary32.negZero := by
  rw [← runTasks_blank]
  rfl

/-- Tasks that cannot fail and do not look at their number map over the pieces. -/
theorem runTasks_pure (f : List Binary32 → List Binary32) (pieces : List (List Binary32)) :
    runTasks inOrder (fun _ piece => .ok (f piece)) pieces = .ok (pieces.flatMap f) := by
  have hmap : (pieces.zipIdx.mapM fun c => (.ok (f c.1) : Except InvokeError (List Binary32))) =
      .ok (pieces.zipIdx.map fun c => f c.1) := List.mapM_pure
  have hpieces : (pieces.zipIdx.map fun c => f c.1) = pieces.map f := by
    rw [← Function.comp_def f, ← List.map_map, List.zipIdx_map_fst]
  rw [runTasks_inOrder, hmap, hpieces]
  rfl

end Parallel

/-! ### Elementwise operations -/

/-- A reference operation on numbers refuses other operands before it reads them, which it could not
do. -/
theorem Reference.Binary.numbers_eq_ok_iff {op : String} {f : Binary32 → Binary32 → Binary32}
    {shape : Shape} :
    numbers op f shape a b = .ok outputs ↔ (do
      let x ← readFloats a
      let y ← readFloats b
      answerFloats shape (← zipCyclic shape.count f x y)) = .ok outputs := by
  rw [numbers]
  split
  · next hother =>
    refine iff_of_false nofun fun h => ?_
    obtain ⟨x, hx, h⟩ := bind_eq_ok_iff.mp h
    obtain ⟨y, hy, -⟩ := bind_eq_ok_iff.mp h
    exact hother.elim (fun h => h (elementType_of_readFloats_eq_ok hx))
      fun h => h (elementType_of_readFloats_eq_ok hy)
  · exact Iff.rfl

/-- On two tensors of numbers an arithmetic operation is the reference operation, and neither
accepts other tensors. -/
theorem Parallel.binary_eq_ok_iff (op : Arithmetic) :
    binary inOrder op a b = .ok outputs ↔
      Reference.Binary.invoke ⟨.arithmetic op, true⟩ [a, b] = .ok outputs := by
  have href : Reference.Binary.invoke ⟨.arithmetic op, true⟩ [a, b] = (do
      let shape ← pairShape op.name a.shape b.shape
      Reference.Binary.numbers op.name op.apply shape a b) := rfl
  rw [href, binary]
  simp only [runTasks_zipCyclic, bind_eq_ok_iff, Reference.Binary.numbers_eq_ok_iff]

/-- The operation of the reference family. -/
def Parallel.Activation.reference : Activation → Reference.UnaryOp
  | relu => .relu
  | sigmoid => .sigmoid

/-- An operation on one number is the reference operation. -/
theorem Parallel.unary_eq_invoke (op : Activation) (a : Tensor) :
    unary inOrder op a = Reference.Unary.invoke ⟨op.reference, true⟩ [a] := by
  have htasks (data : List Binary32) :
      runTasks inOrder (fun _ piece => .ok (piece.map op.apply)) (singles data) =
        .ok (data.map op.apply) := by
    rw [runTasks_pure, singles, List.flatMap_map, List.map_eq_flatMap]
    rfl
  simp only [unary, htasks]
  cases op <;> rfl

/-! ### Softmax -/

/-- Normalizing keeps the number of elements of a row. -/
theorem length_softmaxRow (row : List Binary32) : (softmaxRow row).length = row.length := by
  simp [softmaxRow]

/-- Normalizing the pieces of a list keeps its length. -/
theorem length_flatMap_softmaxRow {n : Nat} (hn : 0 < n) (data : List Binary32) :
    ((chunks n data).flatMap softmaxRow).length = data.length := by
  conv => rhs; rw [← flatten_chunks hn data]
  rw [List.length_flatMap, List.length_flatten]
  exact congrArg List.sum (List.map_congr_left fun row _ => length_softmaxRow row)

/-- Normalizing rows keeps the number of elements. -/
theorem length_softmaxRows (n : Nat) (data : List Binary32) :
    (softmaxRows n data).length = data.length := by
  rw [softmaxRows]
  split
  · rfl
  · next hn => exact length_flatMap_softmaxRow (Nat.pos_of_ne_zero hn) data

/-- The last axis of a tensor that has one. -/
theorem resolveAxis_last {rank : Nat} (hrank : 0 < rank) :
    resolveAxis (-1) rank false = .ok (rank - 1) := by
  have haxis : (-1 : Int64).toInt = -1 := rfl
  have hin : (0 : Int) ≤ -1 + rank ∧ (-1 + rank : Int) ≤ rank - 1 := by omega
  simp only [resolveAxis, haxis, Int.reduceNeg, Int.reduceLT, if_true, Bool.false_eq_true, if_false,
    if_pos hin]
  congr 1
  omega

/-- The rows of a last dimension of `n` elements as the reference kernel normalizes them. -/
theorem Reference.Softmax.invoke_concat {dims : List Nat} {n : Nat}
    (hdims : a.shape.dims = dims ++ [n]) :
    Reference.Softmax.invoke ⟨.lane, some (-1)⟩ [a] = (do
      let data ← liftTensor a.floats
      answerFloats a.shape (softmaxRows n data)) := by
  have hrank : a.shape.rank = dims.length + 1 := by simp [Shape.rank, hdims]
  have hlast : (a.shape.dims.getD dims.length 0) = n := by simp [hdims]
  have hinner : extent (a.shape.dims.drop (dims.length + 1)) = 1 := by
    rw [hdims, List.drop_eq_nil_of_le (by simp)]
    rfl
  simp only [Reference.Softmax.invoke, hrank, resolveAxis_last (Nat.succ_pos _)]
  cases liftTensor a.floats with
  | error e => rfl
  | ok data =>
    change (do
      let lanes ← normalizeLanes (a.shape.dims.getD dims.length 0)
        (extent (a.shape.dims.drop (dims.length + 1))) data
      answerFloats a.shape lanes) = _
    rw [hlast, hinner]
    rfl

/-- A scalar has no last axis. -/
theorem Reference.Softmax.invoke_scalar_ne_ok (hrank : a.shape.rank = 0) :
    Reference.Softmax.invoke ⟨.lane, some (-1)⟩ [a] ≠ .ok outputs := by
  have hnone : resolveAxis (-1) 0 false = .error (.axisRange (-1) 0) := rfl
  simp only [invoke, hrank, hnone]
  cases liftTensor a.floats <;> nofun

/-- On a tensor with a last axis softmax is the reference softmax along that axis. -/
theorem Parallel.softmax_eq_ok_iff (hrank : 0 < a.shape.rank) :
    softmax inOrder a = .ok outputs ↔
      Reference.Softmax.invoke ⟨.lane, some (-1)⟩ [a] = .ok outputs := by
  obtain ⟨dims, n, hdims⟩ : ∃ dims n, a.shape.dims = dims ++ [n] :=
    ⟨_, _, (List.dropLast_concat_getLast (List.ne_nil_of_length_pos hrank)).symm⟩
  have hlast : a.shape.dims.getLast?.getD 1 = n := by simp [hdims]
  simp only [Reference.Softmax.invoke_concat hdims, softmax, hlast, runTasks_pure, bind_eq_ok_iff,
    Except.ok.injEq, exists_eq_left']
  refine exists_congr fun data => and_congr_right fun _ => ?_
  rcases Nat.eq_zero_or_pos n with rfl | hn
  · have hsize : Tensor.byteSize .f32 a.shape = 0 := by
      rw [Tensor.byteSize, Shape.count, hdims, extent_concat_zero, Nat.zero_mul, Nat.zero_mod]
    have hne {values : List Binary32} (h : answerFloats a.shape values = .ok outputs) :
        values.length = 0 := by
      have hlength := exists_answerFloats_eq_ok_iff.mp ⟨outputs, h⟩
      omega
    rw [softmaxRows, if_pos rfl]
    -- without elements in a row neither answer can be built of any number
    cases data with
    | nil => rfl
    | cons v data =>
      refine iff_of_false (fun h => ?_) (fun h => nomatch hne h)
      have hlength := hne h
      rw [length_flatMap_softmaxRow (by decide)] at hlength
      cases hlength
  · rw [softmaxRows, if_neg (Nat.ne_of_gt hn), Nat.max_eq_left hn]

/-! ### Matrix products -/

/-- Two matrices of numbers are multiplied if the left one is as large as its shape says. -/
theorem Reference.MatMul.multiply_matrices {m k n : Nat} {x y : Array Binary32}
    (ha : a.shape.dims = [m, k]) (hb : b.shape.dims = [k, n]) (hx : readFloats a = .ok x)
    (hy : readFloats b = .ok y) :
    multiply a b =
      reserve (extent [m, n]) >>= fun _ =>
        if m * k ≤ x.size then Matrix.accumulate x y m k n >>= answerFloats ⟨[m, n]⟩
        else .error (.outOfBounds (m * k) x.size) := by
  have hleft : a.shape.dims.reverse = [k, m] := by rw [ha]; rfl
  have hright : b.shape.dims.reverse = [n, k] := by rw [hb]; rfl
  have hbatch : multiply a b = (do
      reserve (extent [m, n])
      let left ← slice x (0 * m * k) ((0 + 1) * m * k)
      Matrix.product left y m k n >>= answerFloats ⟨[m, n]⟩) := by
    rw [multiply, hleft, hright]
    -- one batch, and the right operand is its only matrix
    have hone : extent ([] : List Nat) = 1 := rfl
    simp [hx, hy, hone, tabulate, batchProduct]
  rw [hbatch, slice, Nat.zero_mul, Nat.zero_mul, Nat.zero_add, Nat.one_mul]
  rcases Nat.lt_or_ge (extent [m, n] * 4) bufferBound with hroom | hfull
  · rw [reserve_of_lt hroom, ok_bind, ok_bind]
    split
    · next hsize => rw [ok_bind, Matrix.product, reserve_of_lt hroom, ok_bind,
        Matrix.accumulate_extract hsize]
    · rfl
  · rw [reserve_of_le hfull]
    rfl

/-- The tasks of a product that has rows of its own compute the product. -/
theorem Parallel.runTasks_accumulateRow (x y : Array Binary32) {m k n : Nat}
    (hfits : 0 < k → m * n < wordSize) (hn : 0 < k → 0 < n) :
    runTasks inOrder (fun i piece => Matrix.accumulateRow x y k n i piece)
        (chunks (max n 1) (List.replicate (extent [m, n]) .zero)) =
      Matrix.accumulate x y m k n := by
  rcases Nat.eq_zero_or_pos k with rfl | hk
  · have hpure : runTasks inOrder (fun i piece => Matrix.accumulateRow x y 0 n i piece) =
        runTasks inOrder (fun _ piece => .ok (id piece)) := rfl
    rw [hpure, runTasks_pure id, List.flatMap_id, flatten_chunks (by omega)]
    rfl
  · rw [Matrix.extent_pair_of_lt (hfits hk), Nat.max_eq_left (hn hk), chunks_replicate (hn hk),
      runTasks_inOrder, mapM_zipIdx_replicate, Matrix.accumulate_eq_rows x y k (hfits hk)]
    rfl

/-- Where tasks and product both succeed they give the same entries. -/
theorem Parallel.runTasks_accumulateRow_eq {x y : Array Binary32} {m k n : Nat}
    {entries entries' : List Binary32}
    (h : runTasks inOrder (fun i piece => Matrix.accumulateRow x y k n i piece)
      (chunks (max n 1) (List.replicate (extent [m, n]) .zero)) = .ok entries)
    (h' : Matrix.accumulate x y m k n = .ok entries') : entries = entries' := by
  obtain ⟨hlength, hfits⟩ := Matrix.fits_of_accumulate_eq_ok h'
  by_cases hn : 0 < k → 0 < n
  · rw [runTasks_accumulateRow x y hfits hn, h'] at h
    exact (Except.ok.inj h).symm
  · -- without columns there are neither tasks nor entries
    obtain rfl : n = 0 := by omega
    have hempty : extent [m, 0] = 0 := extent_concat_zero [m]
    rw [hempty] at h hlength
    rw [List.eq_nil_of_length_eq_zero hlength]
    exact (Except.ok.inj h).symm

/-- What a parallel product that succeeds has read and made. -/
theorem Parallel.exists_of_matMul_eq_ok (h : matMul inOrder a b = .ok outputs) :
    ∃ m k n x y entries, a.shape.dims = [m, k] ∧ b.shape.dims = [k, n] ∧
      readFloats a = .ok x ∧ readFloats b = .ok y ∧ reserve (extent [m, n]) = .ok () ∧
      runTasks inOrder (fun i piece => Matrix.accumulateRow x y k n i piece)
        (chunks (max n 1) (List.replicate (extent [m, n]) .zero)) = .ok entries ∧
      answerFloats ⟨[m, n]⟩ entries = .ok outputs := by
  rw [matMul] at h
  split at h
  · next m k kb n ha hb =>
    split at h
    · next => cases h
    · next hk =>
      obtain rfl : k = kb := Decidable.not_not.mp hk
      simp only [bind_eq_ok_iff] at h
      obtain ⟨x, hx, y, hy, ⟨⟩, hroom, entries, hentries, h⟩ := h
      exact ⟨m, k, n, x, y, entries, ha, hb, hx, hy, hroom, hentries, h⟩
  · cases h

/-- Two products that succeed answer the same tensor. -/
theorem Parallel.matMul_eq_multiply (h : matMul inOrder a b = .ok outputs)
    (h' : Reference.MatMul.multiply a b = .ok outputs') : outputs = outputs' := by
  obtain ⟨m, k, n, x, y, entries, ha, hb, hx, hy, hroom, hentries, hout⟩ :=
    exists_of_matMul_eq_ok h
  rw [Reference.MatMul.multiply_matrices ha hb hx hy, hroom, ok_bind] at h'
  split at h'
  · obtain ⟨entries', hentries', hout'⟩ := bind_eq_ok_iff.mp h'
    obtain rfl := runTasks_accumulateRow_eq hentries hentries'
    exact Except.ok.inj (hout.symm.trans hout')
  · cases h'

/-- Whether the product of two matrices has more entries than a machine word counts, though there
is something to add. -/
def Parallel.Overflows (a b : Tensor) : Prop :=
  ∃ m k n, a.shape.dims = [m, k] ∧ b.shape.dims = [k, n] ∧ 0 < k ∧ wordSize ≤ m * n

/-- On well-formed tensors the reference product accepts what the parallel one accepts, unless there
are more entries than a machine word counts. -/
theorem Parallel.exists_multiply_eq_ok_iff (ha : a.WellFormed) (hb : b.WellFormed)
    (h : matMul inOrder a b = .ok outputs) :
    (∃ outputs', Reference.MatMul.multiply a b = .ok outputs') ↔ ¬ Overflows a b := by
  obtain ⟨m, k, n, x, y, entries, hdimsA, hdimsB, hx, hy, hroom, hentries, hout⟩ :=
    exists_of_matMul_eq_ok h
  have hsizeA : x.size = m * k := by simp [size_of_readFloats_eq_ok ha hx, hdimsA]
  have hsizeB : y.size = k * n := by simp [size_of_readFloats_eq_ok hb hy, hdimsB]
  rw [Reference.MatMul.multiply_matrices hdimsA hdimsB hx hy, hroom, ok_bind,
    if_pos (Nat.le_of_eq hsizeA.symm)]
  constructor
  · rintro ⟨outputs', h'⟩ ⟨m', k', n', hdimsA', hdimsB', hk, hword⟩
    obtain ⟨entries', hentries', -⟩ := bind_eq_ok_iff.mp h'
    obtain ⟨rfl, rfl⟩ : m = m' ∧ k = k' := by simpa using hdimsA.symm.trans hdimsA'
    obtain rfl : n = n' := by simpa using hdimsB.symm.trans hdimsB'
    have hfits := (Matrix.fits_of_accumulate_eq_ok hentries').2 hk
    omega
  · intro hfits
    have hfits (hk : 0 < k) : m * n < wordSize :=
      Nat.lt_of_not_le fun hword => hfits ⟨m, k, n, hdimsA, hdimsB, hk, hword⟩
    obtain ⟨entries', hentries'⟩ := Matrix.exists_accumulate_eq_ok (Nat.le_of_eq hsizeA.symm)
      (Nat.le_of_eq hsizeB.symm) hfits
    obtain rfl := runTasks_accumulateRow_eq hentries hentries'
    exact ⟨outputs, by rw [hentries', ok_bind, hout]⟩

/-- A parallel product of tensors of numbers whose number of entries wraps to zero succeeds, since
there is no row to fill. -/
theorem Parallel.exists_matMul_eq_ok {m k n : Nat} (ha : a.shape.dims = [m, k])
    (hb : b.shape.dims = [k, n]) (hfloatsA : a.elementType = .f32) (hfloatsB : b.elementType = .f32)
    (hwrap : extent [m, n] = 0) : ∃ outputs, matMul inOrder a b = .ok outputs := by
  have hread {t : Tensor} (h : t.elementType = .f32) : ∃ x, readFloats t = .ok x :=
    ⟨_, by rw [readFloats, liftTensor_floats_eq_ok_iff.mpr ⟨h, rfl⟩]; rfl⟩
  obtain ⟨x, hx⟩ := hread hfloatsA
  obtain ⟨y, hy⟩ := hread hfloatsB
  obtain ⟨outputs, hout⟩ : ∃ outputs, answerFloats ⟨[m, n]⟩ [] = .ok outputs := by
    rw [exists_answerFloats_eq_ok_iff, Tensor.byteSize, Shape.count, hwrap]
    rfl
  refine ⟨outputs, ?_⟩
  rw [matMul, ha, hb]
  have hroom : reserve 0 = .ok () := rfl
  simp only [ne_eq, not_true, if_false, hx, hy, hwrap, hroom, ok_bind]
  exact hout

/-! ### Sums -/

/-- What a parallel sum that succeeds has read and made. -/
theorem Parallel.exists_of_sum_eq_ok {first : Tensor} {rest : List Tensor}
    (h : sum inOrder first rest = .ok outputs) :
    (∀ t ∈ rest, t.shape = first.shape) ∧ ∃ columns values,
      (first :: rest).mapM readFloats = .ok columns ∧
      (tabulate first.count fun i =>
        columns.foldlM (fun acc c => do return acc + (← read c i)) Binary32.negZero) = .ok values ∧
      answerFloats first.shape values = .ok outputs := by
  rw [sum] at h
  split at h
  · next => cases h
  · next hshapes =>
    obtain ⟨columns, hcolumns, h⟩ := bind_eq_ok_iff.mp h
    obtain ⟨values, hvalues, h⟩ := bind_eq_ok_iff.mp h
    exact ⟨by simpa using hshapes, columns, values, hcolumns,
      (runTasks_sums columns first.count).symm.trans hvalues, h⟩

/-- Adding an operand that is not empty succeeds, and an operand may be empty if there is nothing to
add to. -/
theorem Reference.Sum.exists_addOperand_eq_ok {acc : List Binary32} {t : Tensor}
    {values : Array Binary32} (hvalues : readFloats t = .ok values)
    (hsize : 0 < acc.length → 0 < values.size) :
    ∃ sums, addOperand acc t = .ok sums ∧ sums.length = acc.length := by
  obtain ⟨sums, hsums⟩ : ∃ sums, (acc.zipIdx.mapM fun c => do
      return c.1 + (← readCyclic values c.2)) = .ok sums := by
    refine exists_mapM_eq_ok fun c hc => ?_
    have hlt := List.snd_lt_of_mem_zipIdx hc
    obtain ⟨x, hx⟩ := exists_readCyclic_eq_ok (hsize (by omega)) c.2
    exact ⟨c.1 + x, by rw [hx]; rfl⟩
  refine ⟨sums, by rw [addOperand, hvalues]; exact hsums, ?_⟩
  rw [length_of_mapM_eq_ok hsums, List.length_zipIdx]

/-- The reference sum accepts what the parallel one accepts. -/
theorem Parallel.exists_sum_eq_ok {first : Tensor} {rest : List Tensor}
    (h : sum inOrder first rest = .ok outputs) :
    ∃ outputs', Reference.Sum.invoke ⟨true⟩ (first :: rest) = .ok outputs' := by
  obtain ⟨hshapes, columns, values, hcolumns, hvalues, hout⟩ := exists_of_sum_eq_ok h
  have hshape : (rest.foldlM (fun shape t => pairShape "Sum" shape t.shape) first.shape) =
      .ok first.shape :=
    foldlM_eq_ok_of_fixed fun t ht => by rw [hshapes t ht, pairShape, if_pos rfl]
  -- the first element has been read of every operand, unless there are no elements
  have hread : ∀ c ∈ columns, 0 < first.count → 0 < c.size := by
    intro c hc hcount
    obtain ⟨total, -, htotal⟩ := exists_mem_of_mapM_eq_ok hvalues 0 (List.mem_range.mpr hcount)
    obtain ⟨-, hpasses⟩ := exists_step_of_foldlM_eq_ok (P := fun _ => True)
      (fun _ _ _ _ _ => trivial) trivial htotal
    obtain ⟨acc, next, -, hstep⟩ := hpasses c hc
    obtain ⟨x, hx, -⟩ := bind_eq_ok_iff.mp hstep
    exact lt_size_of_read_eq_ok hx
  have hpass : ∀ acc : List Binary32, acc.length = first.count → ∀ t ∈ first :: rest,
      ∃ sums, Reference.Sum.addOperand acc t = .ok sums ∧ sums.length = first.count := by
    intro acc hacc t ht
    obtain ⟨c, hc, hfloats⟩ := exists_mem_of_mapM_eq_ok hcolumns t ht
    obtain ⟨sums, hsums, hlength⟩ :=
      Reference.Sum.exists_addOperand_eq_ok hfloats (hacc ▸ hread c hc)
    exact ⟨sums, hsums, hlength.trans hacc⟩
  obtain ⟨sums, hsums, hlength⟩ := exists_foldlM_eq_ok hpass
    (List.length_replicate (a := Binary32.zero))
  have hsize : values.length = first.count := by
    rw [length_of_mapM_eq_ok hvalues, List.length_range]
  obtain ⟨outputs', hout'⟩ := exists_answerFloats_eq_ok_iff.mpr
    ((hlength.trans hsize.symm) ▸ exists_answerFloats_eq_ok_iff.mp ⟨outputs, hout⟩)
  have hinvoke : Reference.Sum.invoke ⟨true⟩ (first :: rest) = (do
      let shape ← rest.foldlM (fun shape t => pairShape "Sum" shape t.shape) first.shape
      let sums ← (first :: rest).foldlM Reference.Sum.addOperand
        (List.replicate shape.count .zero)
      answerFloats shape sums) := rfl
  exact ⟨outputs', by rw [hinvoke, hshape, ok_bind, ← Tensor.count, hsums, ok_bind, hout']⟩

end KernelDispatch
