import KernelDispatch.Proofs.Tensor.Volume

/-!
# Outcomes of invocations

What an invocation may end in: a result with some property, or an error that may be expected of it.
A read outside a buffer, the repetition of an empty operand, a buffer of the wrong size and a reshape
to another number of elements are not expected. Lack of room is expected for given buffers only, and
only beyond the bound of buffer sizes.

There is one rule for each way of putting computations together and one for each access to a buffer,
whose premise is that the access lies inside.
-/

namespace KernelDispatch

/-- Whether an invocation that asks for buffers of given sizes may fail with an error. -/
def InvokeError.Expected (buffers : Nat → Prop) : InvokeError → Prop
  | .outOfBounds _ _ | .emptyOperand | .tensor (.byteSize _ _) | .tensor (.reshape _ _) => False
  | .capacity n => buffers n ∧ bufferBound ≤ n * 4
  | _ => True

variable {α β σ : Type} {buffers : Nat → Prop}

/-- A computation that ends in a result with a property or in an error that may be expected. -/
def Safe (buffers : Nat → Prop) (P : α → Prop) : Except InvokeError α → Prop
  | .ok a => P a
  | .error e => e.Expected buffers

/-- A single tensor that is well-formed. -/
def Answer (outputs : List Tensor) : Prop := ∃ output, outputs = [output] ∧ output.WellFormed

namespace Safe

variable {P : α → Prop} {Q : β → Prop} {x : Except InvokeError α}

/-- A computation that succeeds is safe if its result has the property. -/
theorem of_eq_ok {a : α} (h : x = .ok a) (ha : P a) : Safe buffers P x := by
  rw [h]
  exact ha

/-- A result of a safe computation has the property. -/
theorem property {a : α} (hx : Safe buffers P x) (h : x = .ok a) : P a := by
  rw [h] at hx
  exact hx

/-- A property may be exchanged for a weaker one. -/
theorem mono {P' : α → Prop} (hx : Safe buffers P x) (h : ∀ a, P a → P' a) :
    Safe buffers P' x := by
  cases x with
  | ok a => exact h a hx
  | error e => exact hx

/-- A step may use that the one before it succeeded, and with what. -/
theorem bind_of_eq {f : α → Except InvokeError β} (hx : Safe buffers P x)
    (hf : ∀ a, x = .ok a → P a → Safe buffers Q (f a)) : Safe buffers Q (x >>= f) := by
  cases x with
  | ok a => exact hf a rfl hx
  | error e => exact hx

/-- Computations are safe one after another if the second one is on every result of the first. -/
theorem bind {f : α → Except InvokeError β} (hx : Safe buffers P x)
    (hf : ∀ a, P a → Safe buffers Q (f a)) : Safe buffers Q (x >>= f) :=
  hx.bind_of_eq fun a _ => hf a

/-- What is made of a result needs the property only where the result has its own. -/
theorem map {f : α → β} (hx : Safe buffers P x) (hf : ∀ a, P a → Q (f a)) :
    Safe buffers Q (x.map f) := by
  cases x with
  | ok a => exact hf a hx
  | error e => exact hx

/-- Mapping is safe if it is on every element. -/
theorem mapM {f : α → Except InvokeError β} {xs : List α} (h : ∀ x ∈ xs, Safe buffers Q (f x)) :
    Safe buffers (fun ys => ys.length = xs.length ∧ ∀ y ∈ ys, Q y) (xs.mapM f) := by
  induction xs with
  | nil => exact ⟨rfl, List.forall_mem_nil _⟩
  | cons x xs ih =>
    rw [List.forall_mem_cons] at h
    rw [List.mapM_cons]
    refine h.1.bind fun y hy => (ih h.2).bind fun ys hys => ?_
    exact ⟨congrArg (· + 1) hys.1, List.forall_mem_cons.mpr ⟨hy, hys.2⟩⟩

/-- A loop is safe if every pass keeps an invariant. -/
theorem foldlM {I : σ → Prop} {step : σ → α → Except InvokeError σ} {xs : List α}
    (h : ∀ s, I s → ∀ x ∈ xs, Safe buffers I (step s x)) {s : σ} (hs : I s) :
    Safe buffers I (xs.foldlM step s) := by
  induction xs generalizing s with
  | nil => exact hs
  | cons x xs ih =>
    rw [List.foldlM_cons]
    exact (h s hs x List.mem_cons_self).bind fun t ht =>
      ih (fun s hs x hx => h s hs x (List.mem_cons_of_mem _ hx)) ht

/-- Tabulating is safe if every entry is. -/
theorem tabulate {n : Nat} {f : Nat → Except InvokeError β} (h : ∀ i < n, Safe buffers Q (f i)) :
    Safe buffers (fun ys => ys.length = n ∧ ∀ y ∈ ys, Q y) (tabulate n f) := by
  have hmap : Safe buffers (fun ys => ys.length = (List.range n).length ∧ ∀ y ∈ ys, Q y)
      ((List.range n).mapM f) :=
    mapM fun i hi => h i (List.mem_range.mp hi)
  rwa [List.length_range] at hmap

/-- If nothing is asked of the results, their number remains. -/
theorem mapM_length {f : α → Except InvokeError β} {xs : List α}
    (h : ∀ x ∈ xs, Safe buffers (fun _ => True) (f x)) :
    Safe buffers (fun ys => ys.length = xs.length) (xs.mapM f) :=
  (mapM h).mono fun _ hys => hys.1

/-- If nothing is asked of the entries, their number remains. -/
theorem tabulate_length {n : Nat} {f : Nat → Except InvokeError β}
    (h : ∀ i < n, Safe buffers (fun _ => True) (f i)) :
    Safe buffers (fun ys => ys.length = n) (KernelDispatch.tabulate n f) :=
  (tabulate h).mono fun _ hys => hys.1

end Safe

/-! ### Access to buffers -/

/-- A buffer that may be asked for is there unless it is beyond the bound. -/
theorem safe_reserve {n : Nat} (h : bufferBound ≤ n * 4 → buffers n) :
    Safe buffers (fun _ => n * 4 < bufferBound) (reserve n) := by
  rcases Nat.lt_or_ge (n * 4) bufferBound with hroom | hfull
  · exact .of_eq_ok (reserve_of_lt hroom) hroom
  · rw [reserve_of_le hfull]
    exact ⟨h hfull, hfull⟩

/-- A position inside a buffer can be read. -/
theorem safe_read {xs : Array α} {i : Nat} (h : i < xs.size) :
    Safe buffers (fun _ => True) (read xs i) := by
  obtain ⟨x, hx⟩ := exists_read_eq_ok h
  exact .of_eq_ok hx trivial

/-- An operand that is not empty can be repeated. -/
theorem safe_readCyclic {xs : Array α} (h : 0 < xs.size) (i : Nat) :
    Safe buffers (fun _ => True) (readCyclic xs i) := by
  obtain ⟨x, hx⟩ := exists_readCyclic_eq_ok h i
  exact .of_eq_ok hx trivial

/-! ### Tensors -/

variable {t : Tensor} {shape : Shape}

/-- Both of two well-formed operands are. -/
theorem wellFormed_of_pair {a b : Tensor} (h : ∀ t ∈ [a, b], t.WellFormed) :
    a.WellFormed ∧ b.WellFormed := by
  simpa using h

/-- The numbers of a well-formed tensor are as many as its shape says, and their bytes can be
counted. -/
theorem safe_floats (ht : t.WellFormed) :
    Safe buffers (fun values => values.length = volume t.shape.dims ∧
      volume t.shape.dims * 4 < wordSize) (liftTensor t.floats) := by
  by_cases hf32 : t.elementType = .f32
  · have hfloats := liftTensor_floats_eq_ok_iff.mpr ⟨hf32, rfl⟩
    have hread : readFloats t = .ok _ := congrArg (Except.map List.toArray) hfloats
    exact .of_eq_ok hfloats ⟨size_of_readFloats_eq_ok ht hread, ht.volume_mul_four_lt hf32⟩
  · rw [Tensor.floats, Tensor.bytesOf, if_neg hf32]
    trivial

/-- The same for the numbers as a buffer. -/
theorem safe_readFloats (ht : t.WellFormed) :
    Safe buffers (fun xs => xs.size = volume t.shape.dims ∧ volume t.shape.dims * 4 < wordSize)
      (readFloats t) :=
  (safe_floats ht).map fun _ h => h

/-- The truth values of a well-formed tensor are as many as its shape says. -/
theorem safe_readBools (ht : t.WellFormed) :
    Safe buffers (fun xs => xs.size = volume t.shape.dims) (readBools t) := by
  by_cases hbool : t.elementType = .bool
  · have hlength := ht.length_bytes
    rw [hbool, ElementType.size, Nat.mul_one] at hlength
    rw [readBools, Tensor.bools, Tensor.bytesOf, if_pos hbool]
    exact (List.length_map _).trans hlength
  · rw [readBools, Tensor.bools, Tensor.bytesOf, if_neg hbool]
    trivial

/-- A shape of the same volume is one that a tensor can be reshaped to. -/
theorem safe_reshape (ht : t.WellFormed) (h : volume shape.dims = volume t.shape.dims) :
    Safe buffers Tensor.WellFormed (liftTensor (t.reshape shape)) := by
  have hcount : shape.count = t.count := congrArg (· % wordSize) h
  rw [Tensor.reshape, if_pos hcount]
  exact ⟨ht.length_bytes.trans (congrArg (· * t.elementType.size) h.symm), ht.2⟩

/-- An answer over a buffer of the size of a shape is well-formed if that size can be counted. -/
theorem safe_ofBytes {e : ElementType} {bytes : List UInt8}
    (hbytes : bytes.length = volume shape.dims * e.size)
    (hfits : volume shape.dims * e.size < wordSize) :
    Safe buffers Answer ((liftTensor (Tensor.ofBytes e shape bytes)).map ([·])) := by
  have hvolume : volume shape.dims < wordSize :=
    Nat.lt_of_le_of_lt (Nat.le_mul_of_pos_right _ e.size_pos) hfits
  have hsize : Tensor.byteSize e shape = volume shape.dims * e.size := by
    rw [Tensor.byteSize, Shape.count, extent_eq_of_lt hvolume, Nat.mod_eq_of_lt hfits]
  rw [Tensor.ofBytes, if_pos (hbytes.trans hsize.symm)]
  exact ⟨_, rfl, hbytes, hbytes ▸ hfits⟩

/-- An answer with as many numbers as its shape has elements. -/
theorem safe_answerFloats {values : List Binary32} (hlength : values.length = volume shape.dims)
    (hfits : volume shape.dims * 4 < wordSize) : Safe buffers Answer (answerFloats shape values) :=
  safe_ofBytes (by rw [Bytes.length_flatMap_encode, hlength]; rfl) hfits

/-- An answer with as many truth values as its shape has elements. -/
theorem safe_answerBools {values : List Bool} (hlength : values.length = volume shape.dims)
    (hvolume : volume shape.dims < wordSize) : Safe buffers Answer (answerBools shape values) :=
  safe_ofBytes (by rw [List.length_map, hlength, ElementType.size, Nat.mul_one])
    (by rwa [ElementType.size, Nat.mul_one])

end KernelDispatch
