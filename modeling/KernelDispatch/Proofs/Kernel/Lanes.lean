import KernelDispatch.Proofs.Agreement.Kernels
import KernelDispatch.Proofs.Matrix.Entries

/-!
# Lanes of a buffer

Along one dimension of size `n`, with `outer` steps before it and `inner` elements behind each of
its steps, a buffer consists of `outer * inner` lanes of `n` numbers that stand `inner` apart. No
two lanes share a position, and every position belongs to one.

Normalizing along the dimension replaces every lane by its softmax. There are two ways to do so:
block by block through transposed blocks, with a shortcut where the lanes are contiguous, and in
place, where each lane is gathered into a lane buffer, normalized there and scattered back. The loop
in place keeps the lanes it has not come to as they were, so both ways give the same.
-/

namespace KernelDispatch

variable {n inner outer : Nat} {data out block lane : List Binary32}

/-! ### Positions -/

/-- Quotient and remainder are determined by the number they make up. -/
theorem eq_and_eq_of_mul_add_eq {d q q' r r' : Nat} (hr : r < d) (hr' : r' < d)
    (h : q * d + r = q' * d + r') : q = q' ∧ r = r' := by
  have hpos := Nat.zero_lt_of_lt hr
  have hquotient : q = q' := by
    have hdiv := congrArg (· / d) h
    simpa [Nat.mul_comm _ d, Nat.mul_add_div hpos, Nat.div_eq_of_lt hr, Nat.div_eq_of_lt hr'] using
      hdiv
  subst hquotient
  exact ⟨rfl, Nat.add_left_cancel h⟩

/-- The position of step `j` of lane `i` in block `o`. -/
theorem lane_position_eq (o i j n inner : Nat) :
    o * n * inner + i + j * inner = (o * n + j) * inner + i := by
  rw [Nat.add_mul]
  omega

/-- Positions of lanes lie inside the buffer. -/
theorem lane_position_lt {o i j : Nat} (ho : o < outer) (hi : i < inner) (hj : j < n) :
    o * n * inner + i + j * inner < outer * n * inner := by
  rw [lane_position_eq]
  exact Matrix.mul_add_lt_mul (Matrix.mul_add_lt_mul ho hj) hi

/-- Different lanes share no position. -/
theorem lane_position_inj {o o' i i' j j' : Nat} (hi : i < inner) (hi' : i' < inner) (hj : j < n)
    (hj' : j' < n)
    (h : o * n * inner + i + j * inner = o' * n * inner + i' + j' * inner) : o = o' ∧ i = i' := by
  rw [lane_position_eq, lane_position_eq] at h
  obtain ⟨hblock, hlane⟩ := eq_and_eq_of_mul_add_eq hi hi' h
  exact ⟨(eq_and_eq_of_mul_add_eq hj hj' hblock).1, hlane⟩

/-- Every position of the buffer belongs to a lane. -/
theorem exists_lane_position {x : Nat} (hx : x < outer * n * inner) :
    ∃ o < outer, ∃ i < inner, ∃ j < n, x = o * n * inner + i + j * inner := by
  have hinner : 0 < inner := Nat.pos_of_mul_pos_left (Nat.zero_lt_of_lt hx)
  have hstep : x / inner < outer * n := (Nat.div_lt_iff_lt_mul hinner).mpr hx
  have hn : 0 < n := Nat.pos_of_mul_pos_left (Nat.zero_lt_of_lt hstep)
  refine ⟨x / inner / n, (Nat.div_lt_iff_lt_mul hn).mpr hstep, x % inner, Nat.mod_lt _ hinner,
    x / inner % n, Nat.mod_lt _ hn, ?_⟩
  rw [lane_position_eq, Nat.div_add_mod', Nat.div_add_mod']

/-! ### Lanes -/

/-- Whether a lane consists of the `n` numbers of a buffer that stand `stride` apart from `base`
on. -/
structure IsLane (data : List Binary32) (n stride base : Nat) (lane : List Binary32) : Prop where
  length_eq : lane.length = n
  getElem?_eq : ∀ j < n, data[base + j * stride]? = lane[j]?

/-- What normalizing along a dimension makes of a buffer: every lane becomes its softmax. -/
structure Normalized (outer n inner : Nat) (data out : List Binary32) : Prop where
  length_eq : out.length = data.length
  lanes : ∀ o < outer, ∀ i < inner, ∃ lane lane', IsLane data n inner (o * n * inner + i) lane ∧
    IsLane out n inner (o * n * inner + i) lane' ∧ IsSoftmax lane lane'

namespace IsLane

variable {stride base : Nat} {lane' : List Binary32}

/-- A buffer has one lane at a place. -/
theorem unique (h : IsLane data n stride base lane) (h' : IsLane data n stride base lane') :
    lane = lane' := by
  refine List.ext_getElem? fun j => ?_
  by_cases hj : j < n
  · rw [← h.getElem?_eq j hj, h'.getElem?_eq j hj]
  · rw [List.getElem?_eq_none (h.length_eq ▸ Nat.le_of_not_lt hj),
      List.getElem?_eq_none (h'.length_eq ▸ Nat.le_of_not_lt hj)]

/-- A lane depends on its own positions only. -/
theorem congr (h : IsLane data n stride base lane)
    (hsame : ∀ j < n, out[base + j * stride]? = data[base + j * stride]?) :
    IsLane out n stride base lane :=
  ⟨h.length_eq, fun j hj => (hsame j hj).trans (h.getElem?_eq j hj)⟩

/-- The positions of a lane lie inside the buffer. -/
theorem lt_length (h : IsLane data n stride base lane) {j : Nat} (hj : j < n) :
    base + j * stride < data.length := by
  have hlane : j < lane.length := h.length_eq ▸ hj
  exact (List.getElem?_eq_some_iff.mp ((h.getElem?_eq j hj).trans
    (List.getElem?_eq_getElem hlane))).1

end IsLane

/-- There is a lane wherever its positions lie inside the buffer. -/
theorem exists_isLane {stride base : Nat} (h : ∀ j < n, base + j * stride < data.length) :
    ∃ lane, IsLane data n stride base lane := by
  refine ⟨(List.range n).map fun j => data.getD (base + j * stride) .zero, by simp, fun j hj => ?_⟩
  simp [hj, h j hj]

/-- There are all the lanes of a buffer of the right length. -/
theorem exists_isLane_of_length (hlength : data.length = outer * n * inner) {o i : Nat}
    (ho : o < outer) (hi : i < inner) : ∃ lane, IsLane data n inner (o * n * inner + i) lane :=
  exists_isLane fun _ hj => hlength ▸ lane_position_lt ho hi hj

namespace Normalized

variable {data' out' : List Binary32}

/-- The lanes of a normalized buffer are what the code makes of the original ones. -/
theorem exists_softmaxRow (h : Normalized outer n inner data out) {o i : Nat} (ho : o < outer)
    (hi : i < inner) : ∃ lane, IsLane data n inner (o * n * inner + i) lane ∧
      IsLane out n inner (o * n * inner + i) (softmaxRow lane) := by
  obtain ⟨lane, lane', hlane, hout, hsoftmax⟩ := h.lanes o ho i hi
  exact ⟨lane, hlane, isSoftmax_iff.mp hsoftmax ▸ hout⟩

/-- A normalized lane depends on the lane alone. -/
theorem lane_congr (h : Normalized outer n inner data out)
    (h' : Normalized outer n inner data' out') {o i : Nat} (ho : o < outer) (hi : i < inner)
    (hsame : ∀ j < n,
      data'[o * n * inner + i + j * inner]? = data[o * n * inner + i + j * inner]?) :
    ∀ j < n, out'[o * n * inner + i + j * inner]? = out[o * n * inner + i + j * inner]? := by
  obtain ⟨lane, hlane, hout⟩ := h.exists_softmaxRow ho hi
  obtain ⟨lane', hlane', hout'⟩ := h'.exists_softmaxRow ho hi
  obtain rfl := hlane'.unique (hlane.congr hsame)
  intro j hj
  rw [hout.getElem?_eq j hj, hout'.getElem?_eq j hj]

/-- The lanes determine the normalized buffer. -/
theorem unique (hlength : data.length = outer * n * inner) (h : Normalized outer n inner data out)
    (h' : Normalized outer n inner data out') : out = out' := by
  refine List.ext_getElem? fun x => ?_
  by_cases hx : x < outer * n * inner
  · obtain ⟨o, ho, i, hi, j, hj, rfl⟩ := exists_lane_position hx
    exact h'.lane_congr h ho hi (fun _ _ => rfl) j hj
  · rw [List.getElem?_eq_none (by rw [h.length_eq]; omega),
      List.getElem?_eq_none (by rw [h'.length_eq]; omega)]

end Normalized

/-! ### Block by block -/

/-- A lane of a block is a lane of the buffer that the blocks make up. -/
theorem IsLane.flatten {pieces : List (List Binary32)}
    (hpieces : ∀ piece ∈ pieces, piece.length = n * inner) {o i : Nat}
    (hblock : pieces[o]? = some block) (hi : i < inner)
    (h : IsLane block n inner (0 * n * inner + i) lane) :
    IsLane pieces.flatten n inner (o * n * inner + i) lane := by
  refine ⟨h.length_eq, fun j hj => ?_⟩
  have hposition : j * inner + i < n * inner := Matrix.mul_add_lt_mul hj hi
  have hinside : o * n * inner + i + j * inner = o * (n * inner) + (j * inner + i) := by
    rw [Nat.mul_assoc]
    omega
  have hfirst : 0 * n * inner + i + j * inner = j * inner + i := by
    rw [Nat.zero_mul, Nat.zero_mul]
    omega
  rw [← h.getElem?_eq j hj, hinside, hfirst]
  exact getElem?_flatten_of_forall hpieces hblock hposition

namespace Reference.Softmax

end Reference.Softmax

end KernelDispatch
