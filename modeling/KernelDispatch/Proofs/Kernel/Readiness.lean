import KernelDispatch.Backend.Builtin

/-!
# Ready and unready kernels

An invocation asks for a configuration exactly if no configuration has succeeded: what a ready
kernel computes may fail for many reasons, but never for that one. So the error of an unready kernel
tells the two states apart, whatever the inputs are.

The rules follow the ways in which computations are put together and hold for inputs of any kind,
well-formed or not.
-/

namespace KernelDispatch

variable {α β σ : Type}

/-- A computation that does not ask for a configuration. -/
def Proceeds (x : Except InvokeError α) : Prop := ∀ op, x ≠ .error (.unconfigured op)

namespace Proceeds

/-- A result asks for nothing. -/
@[simp] theorem ok (a : α) : Proceeds (.ok a) := nofun

/-- A result that takes no step asks for nothing. -/
@[simp] theorem pure (a : α) : Proceeds (pure a) := ok a

/-- A computation proceeds if its first step does and the rest does on every result. -/
@[simp] theorem bind {x : Except InvokeError α} {f : α → Except InvokeError β} (hx : Proceeds x)
    (hf : ∀ a, Proceeds (f a)) : Proceeds (x >>= f) := by
  cases x with
  | ok a => exact hf a
  | error e => exact fun op h => hx op (congrArg Except.error (Except.error.inj h))

/-- Changing the result of a computation that proceeds asks for nothing. -/
@[simp] theorem map {x : Except InvokeError α} (hx : Proceeds x) (f : α → β) :
    Proceeds (x.map f) := by
  cases x with
  | ok a => exact ok (f a)
  | error e => exact fun op h => hx op (congrArg Except.error (Except.error.inj h))

/-- Mapping over a computation that proceeds asks for nothing. -/
@[simp] theorem functor_map {x : Except InvokeError α} (hx : Proceeds x) (f : α → β) :
    Proceeds (f <$> x) := hx.map f

/-- A step that proceeds for every element does so along a list. -/
@[simp] theorem mapM {f : α → Except InvokeError β} (hf : ∀ a, Proceeds (f a)) (xs : List α) :
    Proceeds (xs.mapM f) := by
  induction xs with
  | nil => exact ok []
  | cons x xs ih =>
    rw [List.mapM_cons]
    exact (hf x).bind fun y => ih.bind fun ys => ok (y :: ys)

/-- A fold proceeds if its step does from every state. -/
@[simp] theorem foldlM {step : σ → α → Except InvokeError σ} (hstep : ∀ s a, Proceeds (step s a))
    (xs : List α) (s : σ) : Proceeds (xs.foldlM step s) := by
  induction xs generalizing s with
  | nil => exact ok s
  | cons x xs ih =>
    rw [List.foldlM_cons]
    exact (hstep s x).bind ih

/-- A table proceeds if every entry does. -/
@[simp] theorem tabulate {f : Nat → Except InvokeError α} (hf : ∀ i, Proceeds (f i)) (n : Nat) :
    Proceeds (tabulate n f) := mapM hf _

end Proceeds

/-! ### Access to operands -/

/-- An error of a tensor is another one. -/
@[simp] theorem proceeds_liftTensor (r : Except TensorError α) : Proceeds (liftTensor r) := by
  cases r with
  | ok a => exact .ok a
  | error e => exact nofun

/-- Reading numbers proceeds. -/
@[simp] theorem proceeds_readFloats (t : Tensor) : Proceeds (readFloats t) := by simp [readFloats]

/-- Reading truth values proceeds. -/
@[simp] theorem proceeds_readBools (t : Tensor) : Proceeds (readBools t) := by simp [readBools]

/-- Reading a buffer proceeds. -/
@[simp] theorem proceeds_read (xs : Array α) (i : Nat) : Proceeds (read xs i) := by
  unfold read
  split
  · exact .ok _
  · exact nofun

/-- Reading a buffer cyclically proceeds. -/
@[simp] theorem proceeds_readCyclic (xs : Array α) (i : Nat) : Proceeds (readCyclic xs i) := by
  unfold readCyclic
  split
  · exact nofun
  · exact proceeds_read xs _

/-- Taking a slice proceeds. -/
@[simp] theorem proceeds_slice (xs : Array α) (start stop : Nat) :
    Proceeds (slice xs start stop) := by
  unfold slice
  split
  · exact .ok _
  · exact nofun

/-- An update proceeds if the change does. -/
@[simp] theorem proceeds_update {f : α → Except InvokeError α} (hf : ∀ a, Proceeds (f a))
    (xs : Array α) (i : Nat) : Proceeds (update xs i f) :=
  (proceeds_read xs i).bind fun x => (hf x).bind fun y => .ok (xs.setIfInBounds i y)

/-- A lack of room is another error. -/
@[simp] theorem proceeds_reserve (n : Nat) : Proceeds (reserve n) := by
  unfold reserve
  split
  · exact .ok ()
  · exact nofun

/-- Combining two buffers proceeds. -/
@[simp] theorem proceeds_zipCyclic (n : Nat) (f : α → α → β) (x y : Array α) :
    Proceeds (zipCyclic n f x y) :=
  .tabulate (fun i => (proceeds_readCyclic x i).bind fun a =>
    (proceeds_readCyclic y i).bind fun b => .ok (f a b)) n

/-- Answering numbers proceeds. -/
@[simp] theorem proceeds_answerFloats (shape : Shape) (values : List Binary32) :
    Proceeds (answerFloats shape values) := by
  simp [answerFloats]

/-- Answering truth values proceeds. -/
@[simp] theorem proceeds_answerBools (shape : Shape) (values : List Bool) :
    Proceeds (answerBools shape values) := by
  simp [answerBools]

/-- The shape of two operands is found or another error is reported. -/
@[simp] theorem proceeds_pairShape (op : String) (a b : Shape) : Proceeds (pairShape op a b) := by
  unfold pairShape
  repeat' split
  · exact .ok a
  · exact .ok a
  · exact .ok b
  · exact nofun

/-- An axis outside the rank is another error. -/
@[simp] theorem proceeds_resolveAxis (axis : Int64) (rank : Nat) (inclusive : Bool) :
    Proceeds (resolveAxis axis rank inclusive) := by
  unfold resolveAxis
  extract_lets
  split
  · exact .ok _
  · exact nofun

/-! ### Matrices -/

namespace Matrix

/-- Transposing proceeds. -/
@[simp] theorem proceeds_transpose (rows cols : Nat) (data : Array α) :
    Proceeds (transpose rows cols data) :=
  .tabulate (fun _ => proceeds_read data _) _

/-- A product of matrices proceeds. -/
@[simp] theorem proceeds_product (a b : Array Binary32) (m k n : Nat) :
    Proceeds (product a b m k n) := by
  have hscaled (offset start : Nat) (entries : Array Binary32) (lhs : Binary32) :
      Proceeds (addScaledAt b offset n start entries lhs) := by
    unfold addScaledAt
    refine .foldlM (fun entries j => proceeds_update (fun acc => ?_) _ _) _ _
    simp
  have hrow (entries : Array Binary32) (i : Nat) : Proceeds (accumulateAt a b k n entries i) := by
    simp [accumulateAt, hscaled]
  refine (proceeds_reserve _).bind fun _ => ?_
  unfold accumulate
  split
  · simp
  · simp [hrow]

/-- A row of a product proceeds. -/
theorem proceeds_accumulateRow (a b : Array Binary32) (k n i : Nat) (row : List Binary32) :
    Proceeds (accumulateRow a b k n i row) := by
  unfold accumulateRow addScaled
  refine .foldlM (fun row p => (proceeds_read a _).bind fun lhs => ?_) _ _
  simp

end Matrix

/-! ### Reference kernels -/

namespace Reference

variable {inputs : List Tensor}

/-- A ready binary operation proceeds. -/
theorem Binary.proceeds_invoke {k : Binary} (hk : k.ready = true) : Proceeds (k.invoke inputs) := by
  have hnumbers (op : String) (f : Binary32 → Binary32 → Binary32) (shape : Shape) (a b : Tensor) :
      Proceeds (numbers op f shape a b) := by
    unfold numbers
    split
    · exact nofun
    · refine (proceeds_readFloats a).bind fun x => (proceeds_readFloats b).bind fun y => ?_
      simp
  unfold invoke
  rw [hk]
  split
  · contradiction
  · split
    · refine (proceeds_pairShape _ _ _).bind fun shape => ?_
      split
      · exact hnumbers _ _ _ _ _
      · exact hnumbers _ _ _ _ _
      · refine (proceeds_readBools _).bind fun x => (proceeds_readBools _).bind fun y => ?_
        simp
    · exact nofun

/-- A ready unary operation proceeds. -/
theorem Unary.proceeds_invoke {k : Unary} (hk : k.ready = true) : Proceeds (k.invoke inputs) := by
  unfold invoke
  rw [hk]
  split
  · contradiction
  · split
    · split
      · exact .ok _
      · simp
    · exact nofun

/-- A ready sum proceeds. -/
theorem Sum.proceeds_invoke {k : Sum} (hk : k.ready = true) : Proceeds (k.invoke inputs) := by
  unfold invoke
  rw [hk]
  split
  · contradiction
  · split
    · exact nofun
    · have hadd (acc : List Binary32) (t : Tensor) : Proceeds (addOperand acc t) := by
        refine (proceeds_readFloats t).bind fun values => ?_
        simp
      have hpair (shape : Shape) (t : Tensor) : Proceeds (pairShape "Sum" shape t.shape) :=
        proceeds_pairShape _ _ _
      refine (Proceeds.foldlM hpair _ _).bind fun shape =>
        (Proceeds.foldlM hadd _ _).bind fun sums => ?_
      simp

/-- Normalizing lanes proceeds. -/
theorem Softmax.proceeds_normalizeLanes (n inner : Nat) (data : List Binary32) :
    Proceeds (normalizeLanes n inner data) := by
  unfold normalizeLanes
  split
  · exact .ok _
  · refine (proceeds_reserve n).bind fun _ => ?_
    split
    · exact .ok _
    · have hblock (block : List Binary32) : Proceeds (normalizeColumns n inner block) :=
        (Matrix.proceeds_transpose n inner block.toArray).bind fun _ =>
          Matrix.proceeds_transpose _ _ _
      exact (Proceeds.mapM hblock _).bind fun blocks => .ok blocks.flatten

/-- A softmax with an axis proceeds. -/
theorem Softmax.proceeds_invoke {k : Softmax} (hk : k.axis ≠ none) :
    Proceeds (k.invoke inputs) := by
  unfold invoke
  split
  · next hnone => exact absurd hnone hk
  · split
    · refine (proceeds_liftTensor _).bind fun data => ?_
      split
      · simp
      · simp [proceeds_normalizeLanes]
    · exact nofun

/-- Flattening with an axis proceeds. -/
theorem Flatten.proceeds_invoke {k : Flatten} (hk : k.axis ≠ none) :
    Proceeds (k.invoke inputs) := by
  unfold invoke
  split
  · next hnone => exact absurd hnone hk
  · split
    · exact (proceeds_resolveAxis _ _ _).bind fun pivot =>
        (proceeds_liftTensor _).bind fun result => .ok [result]
    · exact nofun

/-- Multiplying batches proceeds. -/
theorem MatMul.proceeds_multiply (a b : Tensor) : Proceeds (multiply a b) := by
  have hbatch (x y : Array Binary32) (m k n : Nat) (shared : Bool) (i : Nat) :
      Proceeds (batchProduct x y m k n shared i) := by
    cases shared <;> simp [batchProduct]
  unfold multiply
  split
  · split
    · exact nofun
    · dsimp only
      split
      · exact nofun
      · refine (proceeds_readFloats a).bind fun x => (proceeds_readFloats b).bind fun y =>
          (proceeds_reserve _).bind fun _ => ?_
        simp [hbatch]
  · exact nofun

/-- A ready product proceeds. -/
theorem MatMul.proceeds_invoke {k : MatMul} (hk : k.ready = true) : Proceeds (k.invoke inputs) := by
  unfold invoke
  rw [hk]
  split
  · contradiction
  · split
    · exact proceeds_multiply _ _
    · exact nofun

/-- Multiplying, scaling and adding a bias proceeds. -/
theorem Gemm.proceeds_multiply (k : Gemm) (a b : Tensor) (c? : Option Tensor) :
    Proceeds (k.multiply a b c?) := by
  have hoperand (t : Tensor) (rows cols : Nat) (transposed : Bool) :
      Proceeds (operand t rows cols transposed) := by
    cases transposed <;> simp [operand]
  have hbias (c : Tensor) (m n : Nat) (entries : List Binary32) :
      Proceeds (addBias k.beta c m n entries) := by
    refine (proceeds_readFloats c).bind fun bias => ?_
    split
    · exact nofun
    · simp
  unfold multiply
  split
  · refine (hoperand _ _ _ _).bind fun x => (hoperand _ _ _ _).bind fun y => ?_
    dsimp only
    split
    · exact nofun
    · refine (Matrix.proceeds_product _ _ _ _ _).bind fun entries => ?_
      cases c? with
      | none => exact proceeds_answerFloats _ _
      | some c => exact (hbias c _ _ _).bind fun sums => proceeds_answerFloats _ _
  · exact nofun

/-- A ready general product proceeds. -/
theorem Gemm.proceeds_invoke {k : Gemm} (hk : k.ready = true) : Proceeds (k.invoke inputs) := by
  unfold invoke
  rw [hk]
  split
  · contradiction
  · split
    · exact k.proceeds_multiply _ _ _
    · exact k.proceeds_multiply _ _ _
    · exact nofun

end Reference

/-! ### Parallel kernels -/

/-- Tasks that do not ask for a configuration run without asking for one, in any order. -/
theorem Parallel.proceeds_runTasks {task : Task} (htask : ∀ i piece, Proceeds (task i piece))
    (schedule : Schedule) (pieces : List (List Binary32)) (shape : Shape) :
    Proceeds (runTasks schedule task pieces >>= answerFloats shape) := by
  have hrun (state : Array (List Binary32)) (t : Nat) : Proceeds (runTask task state t) := by
    unfold runTask
    split
    · exact (htask t _).map _
    · exact .ok state
  refine Proceeds.bind ?_ (proceeds_answerFloats shape)
  exact (Proceeds.foldlM hrun _ _).bind fun done => .ok done.toList.flatten

/-- A ready parallel kernel proceeds, whatever the order of its tasks. -/
theorem ParallelKernel.proceeds_invokeScheduled {k : ParallelKernel} (hk : k.ready = true)
    (schedule : Parallel.Schedule) (inputs : List Tensor) :
    Proceeds (k.invokeScheduled schedule inputs) := by
  unfold invokeScheduled
  rw [hk]
  split
  · contradiction
  · split
    · refine (proceeds_pairShape _ _ _).bind fun shape => (proceeds_readFloats _).bind fun x =>
        (proceeds_readFloats _).bind fun y => ?_
      exact Parallel.proceeds_runTasks (fun i _ => by simp) _ _ _
    · exact nofun
    · refine (proceeds_liftTensor _).bind fun data => ?_
      exact Parallel.proceeds_runTasks (fun i _ => by simp) _ _ _
    · exact nofun
    · refine (proceeds_liftTensor _).bind fun data => ?_
      exact Parallel.proceeds_runTasks (fun i _ => by simp) _ _ _
    · exact nofun
    · unfold Parallel.matMul
      split
      · split
        · exact nofun
        · refine (proceeds_readFloats _).bind fun x => (proceeds_readFloats _).bind fun y =>
            (proceeds_reserve _).bind fun _ => ?_
          exact Parallel.proceeds_runTasks (Matrix.proceeds_accumulateRow x y _ _) _ _ _
      · exact nofun
    · exact nofun
    · unfold Parallel.sum
      split
      · exact nofun
      · refine (Proceeds.mapM proceeds_readFloats _).bind fun columns => ?_
        refine Parallel.proceeds_runTasks (fun i _ => ?_) _ _ _
        refine (Proceeds.foldlM (fun acc c => ?_) _ _).bind fun total => .ok [total]
        simp
    · exact nofun

end KernelDispatch
