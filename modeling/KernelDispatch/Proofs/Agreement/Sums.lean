import KernelDispatch.Proofs.Agreement.Backends
import KernelDispatch.Proofs.Kernel.Sum

/-!
# Parallel sums beside reference sums

The parallel kernel goes through the positions and adds up one column of numbers at each; the
reference kernel goes through the operands and adds each to all positions at once. For operands of
one shape both give, at every position, the total of its column in the order of the operands. The
reference kernel starts from zero and the parallel one from negative zero, which shows where all
operands are negative zeros and nowhere else.
-/

namespace KernelDispatch

open Parallel

variable {t : Tensor} {shape : Shape} {inputs : List Tensor}

/-- The total of the numbers that stand at one position. -/
def columnTotal (start : Binary32) (columns : List (Array Binary32)) (i : Nat) : Binary32 :=
  .total start (columns.map fun c => c.getD i .zero)

/-- The totals at all positions. -/
def columnTotals (start : Binary32) (columns : List (Array Binary32)) (n : Nat) : List Binary32 :=
  (List.range n).map (columnTotal start columns)

/-! ### Position by position -/

/-- The parallel sum with the number that it starts from as a parameter. -/
def Parallel.sumFrom (start : Binary32) (schedule : Schedule) (first : Tensor)
    (rest : List Tensor) : Except InvokeError (List Tensor) := do
  match rest.find? fun t => t.shape ≠ first.shape with
  | some other => throw (.unequalShapes first.shape other.shape)
  | none =>
    let columns ← (first :: rest).mapM readFloats
    let element : Task := fun i _ => do
      let total ← columns.foldlM (fun acc c => do return acc + (← read c i)) start
      return [total]
    answerFloats first.shape (← runTasks schedule element (blank first.count))

/-- The parallel sum adds up from negative zero. -/
theorem Parallel.sum_eq_sumFrom : Parallel.sum = sumFrom .negZero := rfl

/-- One task totals its column. -/
theorem foldlM_read_eq_columnTotal {columns : List (Array Binary32)} {i : Nat}
    (hsize : ∀ c ∈ columns, i < c.size) (start : Binary32) :
    (columns.foldlM (fun acc c => do return acc + (← read c i)) start :
      Except InvokeError Binary32) = .ok (columnTotal start columns i) := by
  induction columns generalizing start with
  | nil => rfl
  | cons c rest ih =>
    obtain ⟨hc, hrest⟩ := List.forall_mem_cons.mp hsize
    rw [List.foldlM_cons, read_of_lt hc]
    exact ih hrest (start + c.getD i .zero)

/-- The tasks of a sum give the total of every position. -/
theorem runTasks_columnTotals {columns : List (Array Binary32)} {n : Nat}
    (hsize : ∀ c ∈ columns, c.size = n) (start : Binary32) :
    runTasks inOrder (fun i _ => do
        let total ← columns.foldlM (fun acc c => do return acc + (← read c i)) start
        return [total]) (blank n) = .ok (columnTotals start columns n) := by
  have htasks := runTasks_blank
    (fun i => columns.foldlM (fun acc c => do return acc + (← read c i)) start) n
  refine htasks.trans (mapM_eq_ok_map fun i hi => ?_)
  rw [List.mem_range] at hi
  exact foldlM_read_eq_columnTotal (fun c hc => hsize c hc ▸ hi) start

/-- The parallel sum of operands of one shape. -/
theorem Parallel.sumFrom_eq {first : Tensor} {rest : List Tensor}
    (hinputs : ∀ t ∈ first :: rest, t.NumbersOf shape) (start : Binary32) :
    sumFrom start inOrder first rest =
      answerFloats shape
        (columnTotals start ((first :: rest).map Tensor.column) shape.count) := by
  have hfirst := hinputs first List.mem_cons_self
  have hequal : (rest.find? fun t => t.shape ≠ shape) = none := by
    rw [List.find?_eq_none]
    intro t ht
    simp [(hinputs t (List.mem_cons_of_mem _ ht)).shape_eq]
  have hcolumns : (first :: rest).mapM readFloats = .ok ((first :: rest).map Tensor.column) :=
    mapM_eq_ok_map fun t ht => (hinputs t ht).readFloats_eq
  have hsize : ∀ c ∈ (first :: rest).map Tensor.column, c.size = shape.count :=
    List.forall_mem_map.mpr fun t ht => (hinputs t ht).size_column
  have hcount : first.count = shape.count := by
    rw [Tensor.count, hfirst.shape_eq]
  rw [sumFrom, hfirst.shape_eq, hequal]
  simp only [hcolumns, ok_bind, hcount, runTasks_columnTotals hsize start]

/-! ### Operand by operand -/

/-- On operands of one shape no element is repeated. -/
theorem Reference.Sum.totalAt_eq_columnTotal {operands : List Tensor} {i : Nat}
    (hoperands : ∀ t ∈ operands, t.NumbersOf shape) (hi : i < shape.count) (start : Binary32) :
    totalAt operands start i = columnTotal start (operands.map Tensor.column) i := by
  rw [totalAt, columnTotal, List.map_map]
  refine congrArg (Binary32.total start) (List.map_congr_left fun t ht => ?_)
  have hlt : i < t.count := by rwa [Tensor.count, (hoperands t ht).shape_eq]
  rw [Tensor.repeated_of_lt hlt]
  rfl

/-- The reference sum of operands of one shape. -/
theorem Reference.Sum.invoke_eq {first : Tensor} {rest : List Tensor}
    (hinputs : ∀ t ∈ first :: rest, t.NumbersOf shape) :
    Reference.Sum.invoke ⟨true⟩ (first :: rest) =
      answerFloats shape
        (columnTotals .zero ((first :: rest).map Tensor.column) shape.count) := by
  have hcommon : Shape.Common ((first :: rest).map (·.shape)) shape :=
    ⟨List.forall_mem_map.mpr fun t ht _ => (hinputs t ht).shape_eq,
      fun _ => congrArg some (hinputs first List.mem_cons_self).shape_eq⟩
  rw [invoke_eq_answer (fun t ht => (hinputs t ht).shape_eq.symm ▸ hinputs t ht) hcommon,
    columnTotals]
  congr 1
  exact List.map_congr_left fun i hi =>
    totalAt_eq_columnTotal hinputs (List.mem_range.mp hi) .zero

/-! ### Side by side -/

/-- The total at a position is that of the numbers at it. -/
theorem getElem?_columnTotals (start : Binary32) (columns : List (Array Binary32)) {n i : Nat}
    (hi : i < n) : (columnTotals start columns n)[i]? = some (columnTotal start columns i) := by
  rw [columnTotals, List.getElem?_map, List.getElem?_range hi]
  rfl

/-- Where all operands are negative zeros the zero that a total is started from remains. -/
theorem columnTotal_of_forall_negZero {operands : List Tensor}
    (hoperands : ∀ t ∈ operands, t.NumbersOf shape) {i : Nat} (hi : i < shape.count)
    {start : Binary32} (hstart : start + .negZero = start)
    (hall : ∀ t ∈ operands, t.number? i = some .negZero) :
    columnTotal start (operands.map Tensor.column) i = start := by
  refine Binary32.total_of_forall_negZero hstart (List.forall_mem_map.mpr fun c hc => ?_)
  obtain ⟨t, ht, rfl⟩ := List.mem_map.mp hc
  have hnumber := hall t ht
  rw [(hoperands t ht).number?_eq hi] at hnumber
  exact Option.some.inj hnumber

/-- Any other number among the operands hides the zero that the total is started from. -/
theorem columnTotal_negZero_eq {operands : List Tensor}
    (hoperands : ∀ t ∈ operands, t.NumbersOf shape) {i : Nat} (hi : i < shape.count)
    (hother : ∃ t ∈ operands, t.number? i ≠ some .negZero) :
    columnTotal .negZero (operands.map Tensor.column) i =
      columnTotal .zero (operands.map Tensor.column) i := by
  obtain ⟨t, ht, hnumber⟩ := hother
  rw [(hoperands t ht).number?_eq hi] at hnumber
  apply Binary32.total_negZero_eq_total_zero
  rw [List.map_map]
  exact ⟨_, List.mem_map_of_mem ht, fun hzero => hnumber (congrArg some hzero)⟩

/-- The answer of a sum that is started from either zero. -/
theorem exists_answerFloats_columnTotals (start : Binary32) (operands : List Tensor)
    (hfits : shape.count * 4 < wordSize) :
    ∃ t, answerFloats shape (columnTotals start (operands.map Tensor.column) shape.count) =
        .ok [t] ∧ t.NumbersOf shape ∧
      ∀ i < shape.count, t.number? i = some (columnTotal start (operands.map Tensor.column) i) := by
  have hlength :
      (columnTotals start (operands.map Tensor.column) shape.count).length = shape.count := by
    simp [columnTotals]
  obtain ⟨t, hanswer, ht, hnumber⟩ := Tensor.exists_answerFloats_eq hlength hfits
  refine ⟨t, hanswer, ht, fun i hi => ?_⟩
  rw [hnumber, getElem?_columnTotals start _ hi]

/-- A reference sum that accepts attributes is configured by them. -/
theorem Reference.Sum.configure_eq_ok {attrs : Attributes} {r : ReferenceKernel}
    (h : Kernel.configure (.sum ⟨false⟩ : ReferenceKernel) attrs = (.ok (), r)) :
    r = .sum ⟨true⟩ := by
  obtain ⟨hcheck, hr⟩ := Prod.mk.inj h
  obtain ⟨_, haccepted⟩ := whenAccepted_fst_eq_ok_iff.mp hcheck
  rw [← hr]
  change ReferenceKernel.sum (whenAccepted (attrs.rejectUnknown []) _ fun _ => ⟨true⟩).2 = _
  rw [haccepted]
  rfl

/-- On operands of one shape the two kernels answer tensors of that shape with the same number at
every position, but where all operands are negative zeros: there the parallel sum is negative zero
and the reference sum is zero. Started from zero the parallel sum would be the reference sum. -/
theorem Parallel.sum_beside_reference {attrs attrs' : Attributes} {p : ParallelKernel}
    {r : ReferenceKernel} {first : Tensor} {rest : List Tensor}
    (hp : Kernel.configure (⟨.sum, false⟩ : ParallelKernel) attrs = (.ok (), p))
    (hr : Kernel.configure (.sum ⟨false⟩ : ReferenceKernel) attrs' = (.ok (), r))
    (hinputs : ∀ t ∈ first :: rest, t.NumbersOf shape) :
    ∃ a b, Kernel.invoke p (first :: rest) = .ok [a] ∧ Kernel.invoke r (first :: rest) = .ok [b] ∧
      a.NumbersOf shape ∧ b.NumbersOf shape ∧
      (∀ i < shape.count,
        ((∀ t ∈ first :: rest, t.number? i = some .negZero) →
          a.number? i = some .negZero ∧ b.number? i = some .zero) ∧
        ((∃ t ∈ first :: rest, t.number? i ≠ some .negZero) →
          ∃ x, a.number? i = some x ∧ b.number? i = some x)) ∧
      sumFrom .zero inOrder first rest = .ok [b] := by
  obtain ⟨rfl, -⟩ := ParallelOp.configure_reference hp
  obtain rfl := Reference.Sum.configure_eq_ok hr
  have hfits := (hinputs first List.mem_cons_self).fits
  obtain ⟨a, hanswer, ha, hnumbers⟩ :=
    exists_answerFloats_columnTotals .negZero (first :: rest) hfits
  obtain ⟨b, hanswer', hb, hnumbers'⟩ :=
    exists_answerFloats_columnTotals .zero (first :: rest) hfits
  have hparallel : Parallel.sum inOrder first rest = .ok [a] := by
    rw [sum_eq_sumFrom, sumFrom_eq hinputs, hanswer]
  have hreference : Reference.Sum.invoke ⟨true⟩ (first :: rest) = .ok [b] := by
    rw [Reference.Sum.invoke_eq hinputs, hanswer']
  refine ⟨a, b, hparallel, hreference, ha, hb, fun i hi => ?_,
    (sumFrom_eq hinputs .zero).trans hanswer'⟩
  rw [hnumbers i hi, hnumbers' i hi]
  constructor
  · intro hall
    rw [columnTotal_of_forall_negZero hinputs hi Binary32.negZero_add_negZero hall,
      columnTotal_of_forall_negZero hinputs hi Binary32.zero_add_negZero hall]
    exact ⟨rfl, rfl⟩
  · intro hother
    rw [columnTotal_negZero_eq hinputs hi hother]
    exact ⟨_, rfl, rfl⟩

/-- Negative zero beside one, and negative zero beside minus one: negative zero and zero for the two
kernels at the first position, and zero for both at the second. -/
theorem Parallel.sum_beside_reference_pair :
    let a : Tensor := ⟨.f32, ⟨[2]⟩, [0, 0, 0, 0x80, 0, 0, 0x80, 0x3f]⟩
    let b : Tensor := ⟨.f32, ⟨[2]⟩, [0, 0, 0, 0x80, 0, 0, 0x80, 0xbf]⟩
    let inputs := [a, b]
    (∀ t ∈ inputs, t.NumbersOf ⟨[2]⟩) ∧
      ∃ s s', Kernel.invoke (⟨.sum, true⟩ : ParallelKernel) inputs = .ok [s] ∧
        Kernel.invoke (.sum ⟨true⟩ : ReferenceKernel) inputs = .ok [s'] ∧
        s.number? 0 = some .negZero ∧ s'.number? 0 = some .zero ∧
        ∃ x, s.number? 1 = some x ∧ s'.number? 1 = some x := by
  intro a b inputs
  have ha : a.NumbersOf a.shape := .of_wellFormed ⟨rfl, by decide⟩ rfl
  have hb : b.NumbersOf b.shape := .of_wellFormed ⟨rfl, by decide⟩ rfl
  have hinputs : ∀ t ∈ inputs, t.NumbersOf ⟨[2]⟩ :=
    List.forall_mem_cons.mpr ⟨ha, List.forall_mem_singleton.mpr hb⟩
  have hp : Kernel.configure (⟨.sum, false⟩ : ParallelKernel) .empty = (.ok (), ⟨.sum, true⟩) := rfl
  have hr : Kernel.configure (.sum ⟨false⟩ : ReferenceKernel) .empty = (.ok (), .sum ⟨true⟩) := rfl
  obtain ⟨s, s', hs, hs', -, -, hnumbers, -⟩ := Parallel.sum_beside_reference hp hr hinputs
  have hfirst : ∀ t ∈ inputs, t.number? 0 = some .negZero :=
    List.forall_mem_cons.mpr ⟨rfl, List.forall_mem_singleton.mpr rfl⟩
  have hsecond : a.number? 1 ≠ some .negZero := by decide
  obtain ⟨hnegative, hzero⟩ := (hnumbers 0 (by decide)).1 hfirst
  exact ⟨hinputs, s, s', hs, hs', hnegative, hzero,
    (hnumbers 1 (by decide)).2 ⟨a, List.mem_cons_self, hsecond⟩⟩

/-- The sum of negative zero alone is negative zero in the parallel kernel and zero in the reference
kernel. -/
theorem Parallel.sum_differs_at_negZero :
    let t : Tensor := ⟨.f32, ⟨[1]⟩, [0, 0, 0, 0x80]⟩
    let t' : Tensor := ⟨.f32, ⟨[1]⟩, [0, 0, 0, 0]⟩
    t.NumbersOf ⟨[1]⟩ ∧
      Kernel.configure (⟨.sum, false⟩ : ParallelKernel) .empty = (.ok (), ⟨.sum, true⟩) ∧
      Kernel.configure (.sum ⟨false⟩ : ReferenceKernel) .empty = (.ok (), .sum ⟨true⟩) ∧
      Kernel.invoke (⟨.sum, true⟩ : ParallelKernel) [t] = .ok [t] ∧
      Kernel.invoke (.sum ⟨true⟩ : ReferenceKernel) [t] = .ok [t'] ∧ t ≠ t' := by
  intro t t'
  have ht : t.NumbersOf t.shape := .of_wellFormed ⟨rfl, by decide⟩ rfl
  have hparallel : Kernel.invoke (⟨.sum, true⟩ : ParallelKernel) [t] = .ok [t] := by
    unfold t
    rfl
  have hreference : Kernel.invoke (.sum ⟨true⟩ : ReferenceKernel) [t] = .ok [t'] := by
    unfold t t'
    rfl
  exact ⟨ht, rfl, rfl, hparallel, hreference, by decide⟩

end KernelDispatch
