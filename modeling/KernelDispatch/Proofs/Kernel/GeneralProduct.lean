import KernelDispatch.Proofs.Kernel.Product

/-!
# The general product of matrices

Which matrices and which bias the general product accepts, and what its answer holds in each row and
column: the inner product of a row of the one matrix with a column of the other, either of them
transposed if asked for, times the factor of the product; and, with a bias, plus its element for
that row and column times the factor of the bias.
-/

namespace KernelDispatch.Reference.Gemm

open KernelDispatch.Matrix (entry dot rowMajor)

variable {t a b c : Tensor} {c? : Option Tensor} {outputs : List Tensor} {g : Gemm} {m k n : Nat}

/-! ### Operands, transposed or not -/

/-- A pair of coordinates of a matrix as it is given, from the pair in the matrix that is meant. -/
def oriented (transposed : Bool) (i j : Nat) : List Nat := if transposed then [j, i] else [i, j]

/-- An operand is read as the matrix that is meant. -/
theorem exists_operand_eq_ok {transposed : Bool} (ht : t.WellFormed) (hf32 : t.elementType = .f32)
    (hdims : t.shape.dims = oriented transposed m k) :
    ∃ rows cols data, t.shape.dims = [rows, cols] ∧
      operand t rows cols transposed = .ok (m, k, data) ∧ m * k ≤ data.size ∧
      ∀ i < m, ∀ p < k, t.numberAt? (oriented transposed i p) = some (entry data k i p) := by
  have hread := (Tensor.NumbersOf.of_wellFormed ht hf32).readFloats_eq
  have hsize := Tensor.size_column_eq_volume ht hf32
  cases transposed with
  | false =>
    have hdims : t.shape.dims = [m, k] := hdims
    rw [hdims, volume_cons, volume_cons, volume_nil, Nat.mul_one] at hsize
    exact ⟨m, k, t.column, hdims, by rw [operand, hread]; rfl, Nat.le_of_eq hsize.symm,
      fun i hi p hp => Tensor.numberAt?_pair ht hf32 hdims hi hp⟩
  | true =>
    have hdims : t.shape.dims = [k, m] := hdims
    rw [hdims, volume_cons, volume_cons, volume_nil, Nat.mul_one] at hsize
    obtain ⟨out, hout, hlength, hentry⟩ := Matrix.exists_transpose_eq_ok k m t.column hsize
    refine ⟨k, m, out.toArray, hdims, ?_, ?_, fun i hi p hp => ?_⟩
    · rw [operand, hread, ok_bind, if_pos rfl, hout]
      rfl
    · exact Nat.le_of_eq (by rw [List.size_toArray, hlength, Nat.mul_comm])
    · refine (Tensor.numberAt?_pair ht hf32 hdims hp hi).trans ?_
      simp [entry, Array.getD_eq_getD_getElem?, hentry p hp i hi]

/-! ### Biases -/

/-- Whether a bias has one element, one for each column or one for each entry. -/
def BiasFits (c : Tensor) (m n : Nat) : Prop :=
  c.count = 1 ∨ c.shape.dims = [n] ∨ c.shape.dims = [1, n] ∨ c.shape.dims = [m, n]

/-- A bias that is added fits. -/
theorem biasFits_of_addBias_eq_ok {beta : Binary32} {entries sums : List Binary32}
    (hc : c.WellFormed) (h : addBias beta c m n entries = .ok sums) : BiasFits c m n := by
  obtain ⟨bias, hbias, h⟩ := bind_eq_ok_iff.mp h
  rw [size_of_readFloats_eq_ok hc hbias] at h
  split at h
  · cases h
  · next s hs =>
    rcases Spread.of?_cases hs with
      ⟨-, hone⟩ | ⟨-, -, hvolume, hlength | hrow⟩ | ⟨-, -, -, hdims⟩
    · exact .inl (hc.count_eq.trans hone)
    · obtain ⟨d, hd⟩ := List.length_eq_one_iff.mp hlength
      rw [hd] at hvolume
      exact .inr (.inl (by rw [hd, ← hvolume, List.foldl_cons, List.foldl_nil, Nat.one_mul]))
    · exact .inr (.inr (.inl hrow))
    · exact .inr (.inr (.inr hdims))

/-- A bias that fits is spread over the output. -/
theorem BiasFits.exists_of?_eq_some (h : BiasFits c m n) (hc : c.WellFormed) :
    ∃ s, Spread.of? c.shape.dims (volume c.shape.dims) m n = some s := by
  unfold Spread.of?
  split
  · exact ⟨_, rfl⟩
  · next hmany =>
    split
    · exact ⟨_, rfl⟩
    · next hrow =>
      rcases h with hone | hdims | hdims | hdims
      · exact absurd (hc.count_eq.symm.trans hone) hmany
      · exact absurd ⟨by simp [hdims], .inl (by simp [hdims])⟩ hrow
      · exact absurd ⟨by simp [hdims], .inr hdims⟩ hrow
      · exact ⟨_, if_pos hdims⟩

/-- Which element of a bias belongs to an entry. -/
structure Spread.Reads (dims : List Nat) (m n i j position : Nat) : Prop where
  single : volume dims = 1 → position = 0
  column : dims = [n] ∨ dims = [1, n] → position = j
  whole : dims = [m, n] → position = i * n + j

/-- Every entry gets its element of a bias. Where a shape fits in more than one way the ways
agree. -/
theorem Spread.reads_of_of?_eq_some {dims : List Nat} {s : Spread} {i j : Nat}
    (h : of? dims (volume dims) m n = some s) (hi : i < m) (hj : j < n) :
    Reads dims m n i j (position n (i * n + j) s) := by
  have hcolumns : dims = [n] ∨ dims = [1, n] → volume dims = n := by
    rintro (rfl | rfl) <;> simp
  have hentries : dims = [m, n] → volume dims = m * n := by
    rintro rfl
    simp
  rcases of?_cases h with ⟨rfl, hone⟩ | ⟨rfl, hmany, hrow, -⟩ | ⟨rfl, hmany, hrow, hdims⟩
  · -- there is one column, and one entry if the bias has the shape of the output
    refine ⟨fun _ => rfl, fun hdims => ?_, fun hdims => ?_⟩
    · rw [hcolumns hdims] at hone
      exact (Nat.lt_one_iff.mp (hone ▸ hj)).symm
    · have hlt := Matrix.mul_add_lt_mul hi hj
      rw [← hentries hdims, hone] at hlt
      exact (Nat.lt_one_iff.mp hlt).symm
  · have hposition : position n (i * n + j) .perColumn = j := Matrix.mul_add_mod_of_lt i hj
    rw [hposition]
    refine ⟨fun hone => absurd hone hmany, fun _ => rfl, fun hdims => ?_⟩
    have hm : m * n = 1 * n := by rw [← hentries hdims, hrow, Nat.one_mul]
    obtain rfl : m = 1 := Nat.eq_of_mul_eq_mul_right (Nat.zero_lt_of_lt hj) hm
    rw [Nat.lt_one_iff.mp hi, Nat.zero_mul, Nat.zero_add]
  · refine ⟨fun hone => absurd hone hmany, fun hdims => ?_, fun _ => rfl⟩
    exact absurd ⟨hcolumns hdims, hdims.imp_left fun h => by rw [h]; rfl⟩ hrow

/-- Whether a number is the element of a bias for an entry. -/
structure IsBias (c : Tensor) (m n i j : Nat) (x : Binary32) : Prop where
  single : c.count = 1 → c.number? 0 = some x
  column : c.shape.dims = [n] → c.numberAt? [j] = some x
  row : c.shape.dims = [1, n] → c.numberAt? [0, j] = some x
  whole : c.shape.dims = [m, n] → c.numberAt? [i, j] = some x

/-- The element of a bias that is read for an entry is its element for the entry. -/
theorem Spread.Reads.isBias {i j position : Nat} (h : Reads c.shape.dims m n i j position)
    (hposition : position < volume c.shape.dims) (hc : c.WellFormed) (hfc : c.elementType = .f32) :
    IsBias c m n i j (c.column.getD position .zero) := by
  have hnumber : c.number? position = some (c.column.getD position .zero) :=
    (Tensor.NumbersOf.of_wellFormed hc hfc).number?_eq (hc.count_eq.symm ▸ hposition)
  refine ⟨fun hone => ?_, fun hdims => ?_, fun hdims => ?_, fun hdims => ?_⟩
  · rw [← hnumber, h.single (hc.count_eq.symm.trans hone)]
  · rw [← hnumber, h.column (.inl hdims), Tensor.numberAt?, hdims]
    simp [place]
  · rw [← hnumber, h.column (.inr hdims), Tensor.numberAt?, hdims]
    simp [place]
  · rw [← hnumber, h.whole hdims, Tensor.numberAt?, hdims]
    simp [place]

/-- A bias that fits is added to every entry. -/
theorem exists_addBias_eq_ok (hc : c.WellFormed) (hfc : c.elementType = .f32)
    (hfits : BiasFits c m n) (beta : Binary32) (f : Nat → Nat → Binary32) :
    ∃ bias : Nat → Nat → Binary32, (∀ i < m, ∀ j < n, IsBias c m n i j (bias i j)) ∧
      addBias beta c m n (rowMajor m n f) =
        .ok (rowMajor m n fun i j => f i j + beta * bias i j) := by
  have hsize := Tensor.size_column_eq_volume hc hfc
  obtain ⟨s, hs⟩ := hfits.exists_of?_eq_some hc
  have hinside {x : Nat} (hx : x < m * n) : s.position n x < volume c.shape.dims :=
    Spread.position_lt hs rfl hx
  let bias (i j : Nat) : Binary32 := c.column.getD (s.position n (i * n + j)) .zero
  refine ⟨bias, fun i hi j hj => (Spread.reads_of_of?_eq_some hs hi hj).isBias
    (hinside (Matrix.mul_add_lt_mul hi hj)) hc hfc, ?_⟩
  rw [addBias, (Tensor.NumbersOf.of_wellFormed hc hfc).readFloats_eq, ok_bind, hsize, hs,
    Matrix.rowMajor_eq_map_range, Matrix.rowMajor_eq_map_range]
  refine mapM_zipIdx_map_range fun x hx => ?_
  have hbias : bias (x / n) (x % n) = c.column.getD (s.position n x) .zero := by
    simp only [bias, Nat.div_add_mod']
  rw [hbias, read_of_lt (hsize.symm ▸ hinside hx)]
  rfl

/-! ### What a general product holds -/

/-- Whether the operands of a general product fit. -/
structure Fits (g : Gemm) (a b : Tensor) (c? : Option Tensor) (m k n : Nat) : Prop where
  left : a.shape.dims = oriented g.transA m k
  right : b.shape.dims = oriented g.transB k n
  bias : ∀ c ∈ c?, BiasFits c m n

/-- Whether a tensor is the general product of two others with a bias. -/
structure IsProduct (g : Gemm) (a b : Tensor) (c? : Option Tensor) (m k n : Nat) (out : Tensor) :
    Prop where
  wellFormed : out.WellFormed
  elementType : out.elementType = .f32
  shape : out.shape = ⟨[m, n]⟩
  entries : ∀ i < m, ∀ j < n, ∃ xs ys,
    (∀ p < k, a.numberAt? (oriented g.transA i p) = some (xs p)) ∧
      (∀ p < k, b.numberAt? (oriented g.transB p j) = some (ys p)) ∧
      (c? = none → out.numberAt? [i, j] = some (dot k xs ys * g.alpha)) ∧
      ∀ c ∈ c?, ∃ bias, IsBias c m n i j bias ∧
        out.numberAt? [i, j] = some (dot k xs ys * g.alpha + g.beta * bias)

/-- A product that succeeds is one of operands that fit. -/
theorem exists_fits_of_multiply_eq_ok (ha : a.WellFormed) (hb : b.WellFormed)
    (hc : ∀ c ∈ c?, c.WellFormed) (h : multiply g a b c? = .ok outputs) :
    ∃ m k n, Fits g a b c? m k n := by
  unfold multiply at h
  split at h
  · next rowsA colsA rowsB colsB hdimsA hdimsB =>
    obtain ⟨⟨m, k, x⟩, hx, h⟩ := bind_eq_ok_iff.mp h
    obtain ⟨⟨kb, n, y⟩, hy, h⟩ := bind_eq_ok_iff.mp h
    have hleft : Safe (fun _ => True) _ (operand a rowsA colsA g.transA) := safe_operand ha hdimsA
    have hright : Safe (fun _ => True) _ (operand b rowsB colsB g.transB) := safe_operand hb hdimsB
    rw [hx] at hleft
    rw [hy] at hright
    dsimp only at h
    split at h
    · cases h
    · next hk =>
      obtain rfl : k = kb := Decidable.not_not.mp hk
      refine ⟨m, k, n, hdimsA.trans hleft.1, hdimsB.trans hright.1, ?_⟩
      rintro c rfl
      obtain ⟨entries, -, h⟩ := bind_eq_ok_iff.mp h
      obtain ⟨sums, hsums, -⟩ := bind_eq_ok_iff.mp h
      exact biasFits_of_addBias_eq_ok (hc c rfl) hsums
  · cases h

/-- Add the bias to the entries, if there is one. -/
def addBias? (beta : Binary32) (c? : Option Tensor) (m n : Nat) (entries : List Binary32) :
    Except InvokeError (List Binary32) :=
  match c? with
  | none => .ok entries
  | some c => addBias beta c m n entries

/-- Matrices that fit are multiplied and scaled, if there is room for the entries, and what remains
to be done is to add the bias. -/
theorem exists_multiply_eq_bind (ha : a.WellFormed) (hb : b.WellFormed)
    (hfa : a.elementType = .f32) (hfb : b.elementType = .f32) (h : Fits g a b c? m k n)
    (hfits : m * n < wordSize) :
    ∃ x y, (∀ i < m, ∀ p < k, a.numberAt? (oriented g.transA i p) = some (entry x k i p)) ∧
      (∀ p < k, ∀ j < n, b.numberAt? (oriented g.transB p j) = some (entry y n p j)) ∧
      multiply g a b c? = (do
        reserve (m * n)
        addBias? g.beta c? m n (rowMajor m n fun i j =>
          (dot k (entry x k i) fun p => entry y n p j) * g.alpha) >>= answerFloats ⟨[m, n]⟩) := by
  obtain ⟨_, _, x, hdimsA, hx, hsizeX, hentryX⟩ := exists_operand_eq_ok ha hfa h.left
  obtain ⟨_, _, y, hdimsB, hy, hsizeY, hentryY⟩ := exists_operand_eq_ok hb hfb h.right
  have hscaled (f : Nat → Nat → Binary32) :
      (rowMajor m n f).map (· * g.alpha) = rowMajor m n fun i j => f i j * g.alpha := by
    simp [rowMajor, List.map_flatten, Function.comp_def]
  refine ⟨x, y, hentryX, hentryY, ?_⟩
  rw [multiply, hdimsA, hdimsB]
  dsimp only
  rw [hx, ok_bind]
  dsimp only
  rw [hy, ok_bind]
  dsimp only
  rw [if_neg (not_not.mpr rfl), Matrix.product, Matrix.extent_pair_of_lt hfits,
    Matrix.accumulate_eq_ok hsizeX hsizeY hfits]
  rcases Nat.lt_or_ge (m * n * 4) bufferBound with hroom | hfull
  · rw [reserve_of_lt hroom, ok_bind, ok_bind, ok_bind, hscaled]
    cases c? <;> rfl
  · rw [reserve_of_le hfull]
    rfl

/-- Operands whose product can be counted, but is too large for a buffer, are not multiplied. -/
theorem multiply_eq_capacity (ha : a.WellFormed) (hb : b.WellFormed) (hfa : a.elementType = .f32)
    (hfb : b.elementType = .f32) (h : Fits g a b c? m k n) (hvolume : m * n < wordSize)
    (hfull : bufferBound ≤ m * n * 4) : multiply g a b c? = .error (.capacity (m * n)) := by
  obtain ⟨x, y, -, -, hmultiply⟩ := exists_multiply_eq_bind ha hb hfa hfb h hvolume
  rw [hmultiply, reserve_of_le hfull]
  rfl

/-- Operands that fit are multiplied if there is room for their product, and the bias is added. -/
theorem exists_multiply_eq_ok (ha : a.WellFormed) (hb : b.WellFormed) (hfa : a.elementType = .f32)
    (hfb : b.elementType = .f32) (hc : ∀ c ∈ c?, c.WellFormed ∧ c.elementType = .f32)
    (h : Fits g a b c? m k n) (hroom : m * n * 4 < bufferBound) :
    ∃ out, multiply g a b c? = .ok [out] ∧ IsProduct g a b c? m k n out := by
  have hfits : volume [m, n] * 4 < wordSize := by
    rw [volume_cons, volume_cons, volume_nil, Nat.mul_one]
    exact bytes_lt_of_room hroom
  obtain ⟨x, y, hx, hy, hmultiply⟩ :=
    exists_multiply_eq_bind ha hb hfa hfb h (lt_wordSize_of_room hroom)
  rw [hmultiply, reserve_of_lt hroom, ok_bind]
  let scaled (i j : Nat) : Binary32 := (dot k (entry x k i) fun p => entry y n p j) * g.alpha
  cases c? with
  | none =>
    obtain ⟨hanswer, hwell, hout⟩ := Tensor.answerFloats_matrix hfits scaled
    exact ⟨_, hanswer, hwell, rfl, rfl, fun i hi j hj => ⟨_, _, hx i hi, fun p hp => hy p hp j hj,
      fun _ => hout i hi j hj, by simp⟩⟩
  | some c =>
    obtain ⟨hwellC, hfc⟩ := hc c rfl
    obtain ⟨bias, hbias, hsums⟩ := exists_addBias_eq_ok hwellC hfc (h.bias c rfl) g.beta scaled
    obtain ⟨hanswer, hwell, hout⟩ :=
      Tensor.answerFloats_matrix hfits fun i j => scaled i j + g.beta * bias i j
    rw [addBias?, hsums, ok_bind]
    refine ⟨_, hanswer, hwell, rfl, rfl, fun i hi j hj => ⟨_, _, hx i hi, fun p hp => hy p hp j hj,
      by simp, fun c' hc' => ?_⟩⟩
    obtain rfl := Option.some.inj hc'
    exact ⟨bias i j, hbias i hi j hj, hout i hi j hj⟩

/-- A configured general product accepts no matrices and no bias but those that fit. If the entries
of their product can be counted, it answers with the product or, if there is no room for as many
numbers, fails for lack of it. -/
theorem invoke_scaled_products (hg : g.ready = true) (ha : a.WellFormed) (hb : b.WellFormed)
    (hfa : a.elementType = .f32) (hfb : b.elementType = .f32)
    (hc : ∀ c ∈ c?, c.WellFormed ∧ c.elementType = .f32) :
    let result := Kernel.invoke (.gemm g : ReferenceKernel) (a :: b :: c?.toList)
    ((∃ outputs, result = .ok outputs) → ∃ m k n, Fits g a b c? m k n) ∧
      ∀ m k n, Fits g a b c? m k n → m * n < wordSize →
        ((∃ outputs, result = .ok outputs) ↔ m * n * 4 < bufferBound) ∧
        (bufferBound ≤ m * n * 4 → result = .error (.capacity (m * n))) ∧
        (m * n * 4 < bufferBound → ∃ out, result = .ok [out] ∧ IsProduct g a b c? m k n out) := by
  intro result
  have hresult : result = g.multiply a b c? := by
    change g.invoke (a :: b :: c?.toList) = _
    cases c? <;> simp [invoke, hg]
  rw [hresult]
  refine ⟨?_, fun m k n h hvolume => ?_⟩
  · rintro ⟨outputs, houtputs⟩
    exact exists_fits_of_multiply_eq_ok ha hb (fun c hc' => (hc c hc').1) houtputs
  · have hanswer (hroom : m * n * 4 < bufferBound) :=
      exists_multiply_eq_ok ha hb hfa hfb hc h hroom
    have hfull := multiply_eq_capacity ha hb hfa hfb h hvolume
    exact ⟨exists_eq_ok_iff_room (fun hroom => (hanswer hroom).imp' ([·]) fun _ hout => hout.1)
      hfull, hfull, hanswer⟩

/-- The column 1, 2, given as a row, times the row 3, 4, all doubled, less 1 in the first column and
2 in the second: 5 and 6, and 11 and 14. -/
theorem invoke_scaled_products_row_bias :
    let g : Gemm := ⟨⟨0x40000000⟩, ⟨0xbf800000⟩, true, false, true⟩
    let a : Tensor := ⟨.f32, ⟨[1, 2]⟩, [0, 0, 0x80, 0x3f, 0, 0, 0, 0x40]⟩
    let b : Tensor := ⟨.f32, ⟨[1, 2]⟩, [0, 0, 0x40, 0x40, 0, 0, 0x80, 0x40]⟩
    let c : Tensor := ⟨.f32, ⟨[2]⟩, [0, 0, 0x80, 0x3f, 0, 0, 0, 0x40]⟩
    let out : Tensor := ⟨.f32, ⟨[2, 2]⟩,
      [0, 0, 0xa0, 0x40, 0, 0, 0xc0, 0x40, 0, 0, 0x30, 0x41, 0, 0, 0x60, 0x41]⟩
    Fits g a b (some c) 2 1 2 ∧ 2 * 2 * 4 < bufferBound ∧
      Kernel.invoke (.gemm g : ReferenceKernel) [a, b, c] = .ok [out] ∧
      IsProduct g a b (some c) 2 1 2 out := by
  intro g a b c out
  have hc : ∀ c' ∈ some c, c'.WellFormed ∧ c'.elementType = .f32 := by
    rintro _ ⟨⟩
    exact ⟨⟨rfl, by decide⟩, rfl⟩
  have hfits : Fits g a b (some c) 2 1 2 := by
    refine ⟨rfl, rfl, ?_⟩
    rintro _ ⟨⟩
    exact .inr (.inl rfl)
  have hroom : 2 * 2 * 4 < bufferBound := by decide
  have hout : Kernel.invoke (.gemm g : ReferenceKernel) [a, b, c] = .ok [out] := by
    unfold g a b c out
    rfl
  obtain ⟨-, -, hanswer⟩ := (invoke_scaled_products (g := g) rfl ⟨rfl, by decide⟩
    ⟨rfl, by decide⟩ rfl rfl hc).2 2 1 2 hfits (by decide)
  obtain ⟨out₀, hinvoke, hproduct⟩ := hanswer hroom
  obtain rfl : out₀ = out := (List.cons.inj (Except.ok.inj (hinvoke.symm.trans hout))).1
  exact ⟨hfits, hroom, hout, hproduct⟩

/-- Matrices without elements that fit, and whose products have entries all the same. If these can
be counted, but are too many for a buffer, nothing is answered; if their number is zero as a machine
word, the answer has none of them. -/
theorem invoke_scaled_products_unbounded :
    let g : Gemm := ⟨.one, .one, false, false, true⟩
    let left (m : Nat) : Tensor := ⟨.f32, ⟨[m, 0]⟩, []⟩
    let right (n : Nat) : Tensor := ⟨.f32, ⟨[0, n]⟩, []⟩
    let out : Tensor := ⟨.f32, ⟨[2, 0x8000000000000000]⟩, []⟩
    let product (left right : Tensor) := Kernel.invoke (.gemm g : ReferenceKernel) [left, right]
    (∀ m, (left m).WellFormed) ∧ (∀ n, (right n).WellFormed) ∧
      (∀ m n, Fits g (left m) (right n) none m 0 n) ∧
      0x80000000 * 0x40000000 < wordSize ∧
      product (left 0x80000000) (right 0x40000000) = .error (.capacity 0x2000000000000000) ∧
      product (left 2) (right 0x8000000000000000) = .ok [out] ∧
      ¬ IsProduct g (left 2) (right 0x8000000000000000) none 2 0 0x8000000000000000 out := by
  intro g left right out product
  have hnone : out.numberAt? [0, 0] = none := by
    unfold out
    rfl
  have hempty : 0 < wordSize := by decide
  refine ⟨fun m => ⟨by simp [left], hempty⟩, fun n => ⟨by simp [right], hempty⟩,
    fun m n => ⟨rfl, rfl, nofun⟩, by decide, rfl, rfl, fun h => ?_⟩
  -- the product would have an entry in the first row and column
  obtain ⟨_, _, -, -, hentry, -⟩ := h.entries 0 (by decide) 0 (by decide)
  cases hnone.symm.trans (hentry rfl)

end KernelDispatch.Reference.Gemm
