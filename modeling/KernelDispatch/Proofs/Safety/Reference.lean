import KernelDispatch.Proofs.Agreement.Kernels
import KernelDispatch.Proofs.Kernel.Batches
import KernelDispatch.Proofs.Safety.Outcome

/-!
# Reference kernels are safe

For each reference kernel: on well-formed inputs it answers one well-formed tensor or an error that
may be expected. Elementwise kernels rest on the shape in which operands are combined, which is
empty if one of them is; softmax and the products on the way in which a shape is cut into parts,
each of which lies inside the buffer.
-/

namespace KernelDispatch

variable {a b t : Tensor} {inputs : List Tensor} {shape : Shape} {buffers : Nat → Prop}

/-! ### Shapes, rows and matrices -/

/-- A shape in which operands of two shapes are combined: it is that of an operand, and neither
operand is empty unless it is. -/
structure Shape.Combines (shape a b : Shape) : Prop where
  eq_operand : shape = a ∨ shape = b
  nonempty : 0 < volume shape.dims → 0 < volume a.dims ∧ 0 < volume b.dims

/-- The shape of two operands combines theirs, or they are refused. -/
theorem safe_pairShape (op : String) {a b : Shape} (ha : volume a.dims < wordSize)
    (hb : volume b.dims < wordSize) :
    Safe buffers (fun shape => shape.Combines a b) (pairShape op a b) := by
  have hone {s : Shape} (hs : volume s.dims < wordSize) (hcount : s.count = 1) :
      0 < volume s.dims := by
    rw [← extent_eq_of_lt hs]
    exact Nat.lt_of_lt_of_eq Nat.one_pos hcount.symm
  rw [pairShape]
  split
  · next heq => exact ⟨.inl rfl, fun h => ⟨h, heq ▸ h⟩⟩
  · split
    · next hcount => exact ⟨.inl rfl, fun h => ⟨h, hone hb hcount⟩⟩
    · split
      · next hcount => exact ⟨.inr rfl, fun h => ⟨hone ha hcount, h⟩⟩
      · trivial

/-- What the volumes of both operands have in common holds of the shape in which they are
combined. -/
theorem Shape.Combines.volume_of_operands (p : Nat → Prop) {a b : Shape}
    (hshape : shape.Combines a b) (ha : p (volume a.dims)) (hb : p (volume b.dims)) :
    p (volume shape.dims) := by
  rcases hshape.eq_operand with rfl | rfl
  · exact ha
  · exact hb

/-- Operands are combined over a shape in which they can be. -/
theorem Shape.Combines.safe_zipCyclic {α β : Type} {a b : Shape} (hshape : shape.Combines a b)
    (f : α → α → β) {x y : Array α} (hx : x.size = volume a.dims) (hy : y.size = volume b.dims)
    (hvolume : volume shape.dims < wordSize) :
    Safe buffers (fun zs => zs.length = volume shape.dims) (zipCyclic shape.count f x y) := by
  rw [show shape.count = volume shape.dims from extent_eq_of_lt hvolume]
  refine Safe.tabulate_length fun i hi => ?_
  obtain ⟨ha, hb⟩ := hshape.nonempty (Nat.zero_lt_of_lt hi)
  rw [← hx] at ha
  rw [← hy] at hb
  exact (safe_readCyclic ha i).bind fun _ _ => (safe_readCyclic hb i).bind fun _ _ => trivial

/-- An axis that does not count the position behind the last dimension denotes a dimension. -/
theorem safe_resolveAxis (axis : Int64) (rank : Nat) (inclusive : Bool) :
    Safe buffers (fun pivot => inclusive = false → pivot < rank) (resolveAxis axis rank inclusive) := by
  unfold resolveAxis
  extract_lets resolved upper
  split
  · rintro rfl
    have hupper : upper = rank - 1 := rfl
    omega
  · trivial

/-- Transposing a matrix that is large enough keeps the number of its elements. -/
theorem Matrix.safe_transpose {α : Type} {rows cols : Nat} {data : Array α}
    (h : rows * cols ≤ data.size) :
    Safe buffers (fun out => out.length = rows * cols) (Matrix.transpose rows cols data) := by
  refine Safe.tabulate_length fun i hi => ?_
  have hrows : 0 < rows := Nat.pos_of_mul_pos_right (Nat.zero_lt_of_lt hi)
  exact safe_read (Nat.lt_of_lt_of_le
    (mul_add_lt_mul (Nat.mod_lt i hrows) (Nat.div_lt_of_lt_mul hi)) h)

/-- A product of matrices that are large enough has all its entries, if there is room for them. -/
theorem Matrix.safe_product {x y : Array Binary32} {m k n : Nat} (hx : m * k ≤ x.size)
    (hy : k * n ≤ y.size) (hfits : m * n < wordSize) (hbuffers : buffers (m * n)) :
    Safe buffers (fun entries => entries.length = m * n ∧ m * n * 4 < wordSize)
      (Matrix.product x y m k n) := by
  rw [product, extent_pair_of_lt hfits]
  refine (safe_reserve fun _ => hbuffers).bind fun _ hroom => ?_
  exact .of_eq_ok (accumulate_eq_ok hx hy hfits) ⟨length_rowMajor m n _, bytes_lt_of_room hroom⟩

namespace Reference

/-! ### Elementwise operations -/

/-- An operation on numbers is safe. -/
theorem Binary.safe_numbers (op : String) (f : Binary32 → Binary32 → Binary32) (ha : a.WellFormed)
    (hb : b.WellFormed) (hshape : shape.Combines a.shape b.shape) :
    Safe buffers Answer (numbers op f shape a b) := by
  rw [numbers]
  split
  · trivial
  · refine (safe_readFloats ha).bind fun x hx => (safe_readFloats hb).bind fun y hy => ?_
    have hfits : volume shape.dims * 4 < wordSize :=
      hshape.volume_of_operands (· * 4 < wordSize) hx.2 hy.2
    have hvolume : volume shape.dims < wordSize :=
      hshape.volume_of_operands (· < wordSize) ha.volume_lt hb.volume_lt
    exact (hshape.safe_zipCyclic f hx.1 hy.1 hvolume).bind fun values hvalues =>
      safe_answerFloats hvalues hfits

/-- An operation on truth values is safe. -/
theorem Binary.safe_truthValues (f : Bool → Bool → Bool) (ha : a.WellFormed) (hb : b.WellFormed)
    (hshape : shape.Combines a.shape b.shape) : Safe buffers Answer (truthValues f shape a b) := by
  refine (safe_readBools ha).bind fun x hx => (safe_readBools hb).bind fun y hy => ?_
  have hvolume : volume shape.dims < wordSize :=
    hshape.volume_of_operands (· < wordSize) ha.volume_lt hb.volume_lt
  exact (hshape.safe_zipCyclic f hx hy hvolume).bind fun values hvalues =>
    safe_answerBools hvalues hvolume

/-- A binary kernel is safe in every state. -/
theorem Binary.safe_invoke (k : Binary) (hinputs : ∀ t ∈ inputs, t.WellFormed) :
    Safe buffers Answer (k.invoke inputs) := by
  unfold invoke
  split
  · trivial
  · split
    · next a b =>
      obtain ⟨ha, hb⟩ := wellFormed_of_pair hinputs
      refine (safe_pairShape _ ha.volume_lt hb.volume_lt).bind fun shape hshape => ?_
      cases k.op with
      | arithmetic op => exact safe_numbers _ _ ha hb hshape
      | prelu => exact safe_numbers _ _ ha hb hshape
      | logical op => exact safe_truthValues _ ha hb hshape
    · trivial

/-- A unary kernel is safe in every state. -/
theorem Unary.safe_invoke (k : Unary) (hinputs : ∀ t ∈ inputs, t.WellFormed) :
    Safe buffers Answer (k.invoke inputs) := by
  unfold invoke
  split
  · trivial
  · split
    · next a =>
      have ha := hinputs a List.mem_cons_self
      split
      · exact ⟨a, rfl, ha⟩
      · refine (safe_floats ha).bind fun x hx => safe_answerFloats ?_ hx.2
        rw [List.length_map, hx.1]
    · trivial

/-- The shape of a sum is that of an operand, and empty if one of the operands is. -/
theorem Sum.safe_shape {rest : List Tensor} (hrest : ∀ t ∈ rest, t.WellFormed)
    (hshape : volume shape.dims < wordSize) :
    Safe buffers (fun result => (result = shape ∨ ∃ t ∈ rest, result = t.shape) ∧
        (0 < volume result.dims →
          0 < volume shape.dims ∧ ∀ t ∈ rest, 0 < volume t.shape.dims))
      (rest.foldlM (fun shape t => pairShape "Sum" shape t.shape) shape) := by
  induction rest generalizing shape with
  | nil => exact ⟨.inl rfl, fun h => ⟨h, List.forall_mem_nil _⟩⟩
  | cons t rest ih =>
    rw [List.forall_mem_cons] at hrest
    rw [List.foldlM_cons]
    refine (safe_pairShape _ hshape hrest.1.volume_lt).bind fun next hnext => ?_
    have hvolume : volume next.dims < wordSize :=
      hnext.volume_of_operands (· < wordSize) hshape hrest.1.volume_lt
    refine (ih hrest.2 hvolume).mono fun result ⟨horigin, hrest⟩ => ⟨?_, fun h => ?_⟩
    · rw [List.exists_mem_cons_iff]
      rcases horigin with rfl | hother
      · exact hnext.eq_operand.imp_right .inl
      · exact .inr (.inr hother)
    · obtain ⟨hfirst, hothers⟩ := hrest h
      obtain ⟨hleft, hright⟩ := hnext.nonempty hfirst
      exact ⟨hleft, List.forall_mem_cons.mpr ⟨hright, hothers⟩⟩

/-- Adding an operand keeps the number of partial sums. -/
theorem Sum.safe_addOperand {acc : List Binary32} (ht : t.WellFormed)
    (h : 0 < acc.length → 0 < volume t.shape.dims) :
    Safe buffers (fun sums => sums.length = acc.length) (addOperand acc t) := by
  refine (safe_readFloats ht).bind fun values hvalues => ?_
  rw [← List.length_zipIdx (l := acc)]
  refine Safe.mapM_length fun c hc => ?_
  have hsize : 0 < values.size := by
    rw [hvalues.1]
    exact h (Nat.zero_lt_of_lt (List.snd_lt_of_mem_zipIdx hc))
  exact (safe_readCyclic hsize _).bind fun _ _ => trivial

/-- The operands of a sum that succeeds are numbers. -/
theorem Sum.elementType_of_foldlM_eq_ok {acc sums : List Binary32}
    (h : inputs.foldlM addOperand acc = .ok sums) : ∀ t ∈ inputs, t.elementType = .f32 := by
  intro t ht
  obtain ⟨-, hpasses⟩ := exists_step_of_foldlM_eq_ok (P := fun _ => True)
    (fun _ _ _ _ _ => trivial) trivial h
  obtain ⟨_, _, -, hstep⟩ := hpasses t ht
  obtain ⟨values, hvalues, -⟩ := bind_eq_ok_iff.mp hstep
  exact elementType_of_readFloats_eq_ok hvalues

/-- A sum is safe in every state. -/
theorem Sum.safe_invoke (k : Sum) (hinputs : ∀ t ∈ inputs, t.WellFormed) :
    Safe buffers Answer (k.invoke inputs) := by
  unfold invoke
  split
  · trivial
  · cases inputs with
    | nil => trivial
    | cons first rest =>
      obtain ⟨hfirst, hrest⟩ := List.forall_mem_cons.mp hinputs
      refine (safe_shape hrest hfirst.volume_lt).bind fun shape ⟨horigin, hnonempty⟩ => ?_
      obtain ⟨t, ht, rfl⟩ : ∃ t ∈ first :: rest, shape = t.shape :=
        (List.exists_mem_cons_iff _ _ _).mpr horigin
      have hcount : t.shape.count = volume t.shape.dims := (hinputs t ht).count_eq
      have hoperands : 0 < volume t.shape.dims →
          ∀ operand ∈ first :: rest, 0 < volume operand.shape.dims :=
        fun h => List.forall_mem_cons.mpr (hnonempty h)
      have hpass : ∀ acc : List Binary32, acc.length = volume t.shape.dims →
          ∀ operand ∈ first :: rest,
          Safe buffers (fun sums => sums.length = volume t.shape.dims) (addOperand acc operand) := by
        intro acc hacc operand hoperand
        rw [← hacc] at hoperands ⊢
        exact safe_addOperand (hinputs operand hoperand) fun h => hoperands h operand hoperand
      refine (Safe.foldlM hpass ?_).bind_of_eq fun sums hsums hlength => ?_
      · rw [List.length_replicate, hcount]
      · exact safe_answerFloats hlength
          ((hinputs t ht).volume_mul_four_lt (elementType_of_foldlM_eq_ok hsums t ht))

/-! ### Axes -/

/-- Both parts of a shape have together as many elements as the whole, so reshaping never fails. -/
theorem Flatten.safe_invoke (k : Flatten) (hinputs : ∀ t ∈ inputs, t.WellFormed) :
    Safe buffers Answer (k.invoke inputs) := by
  unfold invoke
  split
  · trivial
  · split
    · next a =>
      have ha := hinputs a List.mem_cons_self
      refine (safe_resolveAxis _ _ _).bind fun pivot _ => ?_
      refine (safe_reshape ha ?_).bind fun result hresult => ⟨result, rfl, hresult⟩
      rw [volume_cons, volume_cons, volume_nil, Nat.mul_one]
      exact extent_take_mul_extent_drop ha.volume_lt pivot
    · trivial

/-- Normalizing columns keeps the number of elements. -/
theorem Softmax.safe_normalizeColumns {n inner : Nat} {block : List Binary32}
    (h : block.length = n * inner) :
    Safe buffers (fun out => out.length = n * inner) (normalizeColumns n inner block) := by
  refine (Matrix.safe_transpose (Nat.le_of_eq h.symm)).bind fun columns hcolumns => ?_
  rw [Nat.mul_comm n inner]
  refine Matrix.safe_transpose (Nat.le_of_eq ?_)
  rw [List.size_toArray, length_softmaxRows, hcolumns, Nat.mul_comm]

/-- Normalizing lanes keeps the number of elements, if there is room for a lane. -/
theorem Softmax.safe_normalizeLanes {n inner : Nat} {data : List Binary32}
    (h : n * inner ∣ data.length) (hbuffers : inner ≠ 1 → bufferBound ≤ n * 4 → buffers n) :
    Safe buffers (fun out => out.length = data.length) (normalizeLanes n inner data) := by
  rw [normalizeLanes]
  split
  · exact length_softmaxRows n data
  · next hinner =>
    refine (safe_reserve (hbuffers hinner)).bind fun _ _ => ?_
    split
    · rfl
    · next hne =>
      have hpos := Nat.pos_of_ne_zero hne
      have hpieces := length_of_mem_chunks hpos h
      refine (Safe.mapM fun piece hpiece => safe_normalizeColumns (hpieces piece hpiece)).bind
        fun blocks ⟨hblocks, hlengths⟩ => ?_
      change blocks.flatten.length = data.length
      rw [length_flatten_of_forall hlengths, hblocks, ← length_flatten_of_forall hpieces,
        flatten_chunks hpos]

/-- The size of the buffer for one lane, which is asked for unless the lanes are contiguous. It can
be beyond the bound only if there are no lanes, and no elements. -/
inductive Softmax.Buffer : Softmax → Tensor → Nat → Prop where
  | lane {axis : Int64} {a : Tensor} {pivot : Nat}
      (denotes : resolveAxis axis a.shape.rank false = .ok pivot)
      (strided : extent (a.shape.dims.drop (pivot + 1)) ≠ 1) (empty : volume a.shape.dims = 0) :
      Buffer ⟨.lane, some axis⟩ a (a.shape.dims.getD pivot 0)

/-- A softmax is safe in every state. -/
theorem Softmax.safe_invoke (k : Softmax) (hinputs : ∀ t ∈ inputs, t.WellFormed)
    (hbuffers : ∀ a n, inputs = [a] → k.Buffer a n → buffers n) :
    Safe buffers Answer (k.invoke inputs) := by
  unfold invoke
  obtain ⟨form, axis?⟩ := k
  cases axis? with
  | none => trivial
  | some axis =>
    dsimp only
    split
    · next a =>
      have ha := hinputs a List.mem_cons_self
      refine (safe_floats ha).bind fun data hread => ?_
      obtain ⟨hdata, hfits⟩ := hread
      cases form with
      | flattening =>
        refine (safe_resolveAxis _ _ _).bind fun pivot _ => ?_
        exact safe_answerFloats ((length_softmaxRows _ _).trans hdata) hfits
      | lane =>
        refine (safe_resolveAxis _ _ _).bind_of_eq fun pivot haxis hpivot => ?_
        have hdvd := mul_extent_drop_dvd_volume ha.volume_lt (hpivot rfl)
        rw [← hdata] at hdvd
        refine (safe_normalizeLanes hdvd fun hstrided hfull => ?_).bind fun lanes hlanes =>
          safe_answerFloats (hlanes.trans hdata) hfits
        exact hbuffers a _ rfl
          (.lane haxis hstrided (volume_eq_zero_of_le_getD hfits (hpivot rfl) hstrided hfull))
    · trivial

/-! ### Products -/

/-- The shape of the product of two tensors: a matrix per batch of the left one, with the matrix of
the same batch of the right one or with its only matrix. -/
inductive MatMul.ProductShape (a b : Tensor) : List Nat → Prop where
  | shared {batch : List Nat} {m k n : Nat} (left : a.shape.dims = batch ++ [m, k])
      (right : b.shape.dims = [k, n]) : ProductShape a b (batch ++ [m, n])
  | batched {batch : List Nat} {m k n : Nat} (left : a.shape.dims = batch ++ [m, k])
      (right : b.shape.dims = batch ++ [k, n]) : ProductShape a b (batch ++ [m, n])

/-- Operands that fit have a product. -/
theorem MatMul.Fits.productShape {batch batchB : List Nat} {m k n : Nat}
    (h : Fits a b batch batchB m k n) : ProductShape a b (batch ++ [m, n]) := by
  rcases h.batches with rfl | rfl
  · exact .shared h.left h.right
  · exact .batched h.left h.right

/-- A batched product is safe if its entries can be counted. -/
theorem MatMul.safe_multiply (ha : a.WellFormed) (hb : b.WellFormed)
    (hproduct : ∀ dims, ProductShape a b dims →
      volume dims < wordSize ∧ buffers (volume dims)) :
    Safe buffers Answer (multiply a b) := by
  rcases multiply_cases a b with ⟨batch, batchB, m, k, n, h⟩ | ⟨e, he, hexpected⟩
  · obtain ⟨hvolume, hbuffers⟩ := hproduct _ h.productShape
    rw [multiply_eq_products h, extent_eq_of_lt hvolume]
    refine (safe_readFloats ha).bind fun x hx => (safe_readFloats hb).bind fun y hy => ?_
    refine (safe_reserve fun _ => hbuffers).bind fun _ hroom => ?_
    obtain ⟨products, hproducts, hflatten⟩ := map_eq_ok_iff.mp (tabulate_batchProduct
      (Nat.le_of_eq (hx.1.trans h.volume_left).symm)
      (Nat.le_of_eq (hy.1.trans h.volume_right).symm) hroom)
    rw [hproducts, ok_bind, hflatten]
    refine safe_answerFloats ?_ (bytes_lt_of_room hroom)
    simp [Matrix.length_rowMajor, Nat.mul_assoc]
  · rw [he]
    exact hexpected buffers

/-- A kernel for batched products is safe in every state if the entries can be counted. -/
theorem MatMul.safe_invoke (k : MatMul) (hinputs : ∀ t ∈ inputs, t.WellFormed)
    (hproduct : ∀ a b dims, inputs = [a, b] → ProductShape a b dims →
      volume dims < wordSize ∧ buffers (volume dims)) :
    Safe buffers Answer (k.invoke inputs) := by
  unfold invoke
  split
  · trivial
  · split
    · next a b =>
      obtain ⟨ha, hb⟩ := wellFormed_of_pair hinputs
      exact safe_multiply ha hb fun dims => hproduct a b dims rfl
    · trivial

/-- The shape of the general product of two matrices, transposed as asked for. -/
inductive Gemm.ProductShape (g : Gemm) (a b : Tensor) : List Nat → Prop where
  | intro {m k n : Nat} (left : a.shape.dims = if g.transA then [k, m] else [m, k])
      (right : b.shape.dims = if g.transB then [n, k] else [k, n]) : g.ProductShape a b [m, n]

/-- A matrix operand keeps its elements, and its sizes are exchanged if it is transposed. -/
theorem Gemm.safe_operand {rows cols : Nat} {transposed : Bool} (ht : t.WellFormed)
    (hdims : t.shape.dims = [rows, cols]) :
    Safe buffers (fun r => [rows, cols] = (if transposed then [r.2.1, r.1] else [r.1, r.2.1]) ∧
        r.2.2.size = r.1 * r.2.1)
      (operand t rows cols transposed) := by
  refine (safe_readFloats ht).bind fun data hdata => ?_
  have hsize : data.size = rows * cols := by simp [hdata.1, hdims]
  cases transposed with
  | false => exact ⟨rfl, hsize⟩
  | true =>
    refine (Matrix.safe_transpose (Nat.le_of_eq hsize.symm)).bind fun out hout => ⟨rfl, ?_⟩
    rw [List.size_toArray, hout, Nat.mul_comm]

/-- The ways in which a bias can be spread over an output, and when each of them is taken. -/
theorem Gemm.Spread.of?_cases {dims : List Nat} {length m n : Nat} {s : Spread}
    (h : of? dims length m n = some s) :
    s = everywhere ∧ length = 1 ∨
      s = perColumn ∧ length ≠ 1 ∧ length = n ∧ (dims.length = 1 ∨ dims = [1, n]) ∨
      s = perEntry ∧ length ≠ 1 ∧ ¬ (length = n ∧ (dims.length = 1 ∨ dims = [1, n])) ∧
        dims = [m, n] := by
  unfold of? at h
  split at h
  · next hone => exact .inl ⟨(Option.some.inj h).symm, hone⟩
  · next hmany =>
    split at h
    · next hrow => exact .inr (.inl ⟨(Option.some.inj h).symm, hmany, hrow⟩)
    · next hrow =>
      split at h
      · next hdims => exact .inr (.inr ⟨(Option.some.inj h).symm, hmany, hrow, hdims⟩)
      · cases h

/-- A bias that can be spread over an output has an element for each entry. -/
theorem Gemm.Spread.position_lt {dims : List Nat} {length m n i : Nat} {spread : Spread}
    (hspread : of? dims length m n = some spread) (hlength : length = volume dims)
    (hi : i < m * n) : spread.position n i < length := by
  rcases of?_cases hspread with ⟨rfl, hone⟩ | ⟨rfl, -, hrow, -⟩ | ⟨rfl, -, -, hdims⟩
  · exact hone ▸ Nat.one_pos
  · rw [hrow]
    exact Nat.mod_lt _ (Nat.pos_of_mul_pos_left (Nat.zero_lt_of_lt hi))
  · rw [hlength, hdims]
    simpa [position] using hi

/-- Adding a bias keeps the number of entries. -/
theorem Gemm.safe_addBias (beta : Binary32) {m n : Nat} {entries : List Binary32}
    (ht : t.WellFormed) (hentries : entries.length = m * n) :
    Safe buffers (fun sums => sums.length = m * n) (addBias beta t m n entries) := by
  refine (safe_readFloats ht).bind fun bias hbias => ?_
  cases hspread : Spread.of? t.shape.dims bias.size m n with
  | none => trivial
  | some spread =>
    rw [← hentries, ← List.length_zipIdx (l := entries)]
    refine Safe.mapM_length fun e he => ?_
    have hlt := List.snd_lt_of_mem_zipIdx he
    rw [Nat.add_zero, hentries] at hlt
    exact (safe_read (Spread.position_lt hspread hbias.1 hlt)).bind fun _ _ => trivial

/-- A general product is safe if its entries can be counted. -/
theorem Gemm.safe_multiply {g : Gemm} {c? : Option Tensor} (ha : a.WellFormed) (hb : b.WellFormed)
    (hc : ∀ c ∈ c?, c.WellFormed)
    (hproduct : ∀ dims, g.ProductShape a b dims →
      volume dims < wordSize ∧ buffers (volume dims)) :
    Safe buffers Answer (g.multiply a b c?) := by
  unfold multiply
  split
  · next rowsA colsA rowsB colsB hdimsA hdimsB =>
    refine (safe_operand ha hdimsA).bind fun ⟨m, k, x⟩ ⟨hleft, hx⟩ => ?_
    refine (safe_operand hb hdimsB).bind fun ⟨kb, n, y⟩ ⟨hright, hy⟩ => ?_
    dsimp only at hx hy hleft hright ⊢
    split
    · trivial
    · next hk =>
      obtain rfl : k = kb := Decidable.not_not.mp hk
      have hshape := hproduct _ (.intro (hdimsA.trans hleft) (hdimsB.trans hright))
      have hvolume : volume [m, n] = m * n := by simp
      rw [hvolume] at hshape
      refine (Matrix.safe_product (Nat.le_of_eq hx.symm) (Nat.le_of_eq hy.symm) hshape.1
        hshape.2).bind fun entries ⟨hentries, hfits⟩ => ?_
      have hscaled : (entries.map (· * g.alpha)).length = m * n := by
        rw [List.length_map, hentries]
      have hanswer {values : List Binary32} (hlength : values.length = m * n) :
          Safe buffers Answer (answerFloats ⟨[m, n]⟩ values) :=
        safe_answerFloats (hlength.trans hvolume.symm) (hvolume.symm ▸ hfits)
      cases c? with
      | none => exact hanswer hscaled
      | some c =>
        exact (safe_addBias g.beta (hc c rfl) hscaled).bind fun sums hsums => hanswer hsums
  · trivial

/-- A kernel for general products is safe in every state if the entries can be counted. -/
theorem Gemm.safe_invoke (g : Gemm) (hinputs : ∀ t ∈ inputs, t.WellFormed)
    (hproduct : ∀ a b rest dims, inputs = a :: b :: rest → g.ProductShape a b dims →
      volume dims < wordSize ∧ buffers (volume dims)) :
    Safe buffers Answer (g.invoke inputs) := by
  unfold invoke
  split
  · trivial
  · split
    · next a b =>
      obtain ⟨ha, hb⟩ := wellFormed_of_pair hinputs
      exact safe_multiply ha hb nofun fun dims => hproduct a b _ dims rfl
    · next a b c =>
      simp only [List.forall_mem_cons] at hinputs
      obtain ⟨ha, hb, hc, -⟩ := hinputs
      refine safe_multiply ha hb (fun c' hc' => ?_) fun dims => hproduct a b _ dims rfl
      obtain rfl := Option.some.inj hc'
      exact hc
    · trivial

end Reference

end KernelDispatch
