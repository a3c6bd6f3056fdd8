import KernelDispatch.Proofs.Safety.Builtin
import Mathlib.Logic.ExistsUnique

/-!
# Schedules of parallel tasks

Two tasks of a run replace different pieces, and neither sees the piece of the other. So they
commute, and all orders of the tasks give the same outcome: only the error that is reported may
depend on the order.

An accepted invocation is laid out as a plan: a flat buffer, the size of its pieces and the task
that fills a piece. Run on the buffer itself, a task reads and writes one segment of it, and as long
as the size of the output is a machine word the segments are the rows of the output.
-/

namespace KernelDispatch

open Parallel

namespace Parallel

/-! ### Tasks on pieces -/

section Tasks

variable {task : Task} {pieces done : Array (List Binary32)} {t u : Nat}

/-- A task leaves the pieces of the other tasks alone. -/
theorem getElem?_of_runTask_eq_ok (h : runTask task pieces t = .ok done) (hne : u ≠ t) :
    done[u]? = pieces[u]? := by
  unfold runTask at h
  split at h
  · obtain ⟨result, -, rfl⟩ := map_eq_ok_iff.mp h
    exact Array.getElem?_setIfInBounds_ne hne.symm
  · rw [Except.ok.inj h]

/-- A task does not see what becomes of the piece of another task. -/
theorem runTask_setIfInBounds (task : Task) (pieces : Array (List Binary32)) (hne : u ≠ t)
    (result : List Binary32) :
    runTask task (pieces.setIfInBounds u result) t =
      (runTask task pieces t).map fun done => done.setIfInBounds u result := by
  rw [runTask, runTask, Array.getElem?_setIfInBounds_ne hne]
  cases pieces[t]? with
  | none => rfl
  | some piece =>
    cases hresult : task t piece with
    | error e => simp [hresult, Except.map]
    | ok result' => simp [hresult, Except.map, Array.setIfInBounds_comm _ _ hne]

/-- Tasks commute where they succeed. -/
theorem runTask_comm (pieces : Array (List Binary32)) (t u : Nat) (done : Array (List Binary32))
    (h : (runTask task pieces t >>= fun ps => runTask task ps u) = .ok done) :
    (runTask task pieces u >>= fun ps => runTask task ps t) = .ok done := by
  by_cases hne : t = u
  · rwa [hne] at h ⊢
  obtain ⟨first, hfirst, hsecond⟩ := bind_eq_ok_iff.mp h
  cases hpiece : pieces[t]? with
  | none =>
    -- a task without a piece has nothing to do, before the other task as well as after it
    have hidle {ps : Array (List Binary32)} (hnone : ps[t]? = none) :
        runTask task ps t = .ok ps := by
      rw [runTask, hnone]
    obtain rfl : pieces = first := Except.ok.inj ((hidle hpiece).symm.trans hfirst)
    rw [hsecond, ok_bind, hidle ((getElem?_of_runTask_eq_ok hsecond hne).trans hpiece)]
  | some piece =>
    have hrun {ps : Array (List Binary32)} (hsome : ps[t]? = some piece) :
        runTask task ps t = (task t piece).map (ps.setIfInBounds t) := by
      rw [runTask, hsome]
    rw [hrun hpiece] at hfirst
    obtain ⟨result, hresult, rfl⟩ := map_eq_ok_iff.mp hfirst
    rw [runTask_setIfInBounds task pieces hne] at hsecond
    obtain ⟨other, hother, rfl⟩ := map_eq_ok_iff.mp hsecond
    have hkept : other[t]? = some piece := (getElem?_of_runTask_eq_ok hother hne).trans hpiece
    rw [hother, ok_bind, hrun hkept, hresult]
    rfl

/-- Two schedules that run the same tasks end in the same buffer, if one of them succeeds. -/
theorem runTasks_eq_ok_iff_of_perm {schedule schedule' : Schedule} {pieces : List (List Binary32)}
    {values : List Binary32} (h : (schedule pieces.length).Perm (schedule' pieces.length)) :
    runTasks schedule task pieces = .ok values ↔ runTasks schedule' task pieces = .ok values := by
  rw [runTasks, runTasks, bind_eq_ok_iff, bind_eq_ok_iff]
  exact exists_congr fun done =>
    and_congr_left fun _ => foldlM_eq_ok_iff_of_perm runTask_comm h

end Tasks

/-! ### Plans -/

/-- The layout of an invocation that has read its inputs: the shape of the output, the size of a
piece, the buffer before the first task and the tasks. A task makes as many numbers as its piece
has. -/
structure Plan where
  shape : Shape
  row : Nat
  buffer : List Binary32
  task : Task
  row_pos : 0 < row
  length_eq : ∀ {t : Nat} {piece result : List Binary32}, piece ≠ [] → piece.length ≤ row →
    task t piece = .ok result → result.length = piece.length

namespace Plan

variable {p : Plan} {buffer done : List Binary32} {order : List Nat} {t : Nat}

/-- The pieces of the buffer, one per task. -/
def pieces (p : Plan) : List (List Binary32) := chunks p.row p.buffer

/-- The number of tasks. -/
def tasks (p : Plan) : Nat := p.pieces.length

/-- The segment of a task as it stands in a buffer. -/
def segment (p : Plan) (buffer : List Binary32) (t : Nat) : List Binary32 :=
  (buffer.drop (t * p.row)).take p.row

/-- A buffer with another segment of a task. -/
def exchange (p : Plan) (buffer : List Binary32) (t : Nat) (result : List Binary32) :
    List Binary32 :=
  buffer.take (t * p.row) ++ (result ++ buffer.drop ((t + 1) * p.row))

/-- Run a task on a buffer: it exchanges its segment for what it makes of it. -/
def step (p : Plan) (buffer : List Binary32) (t : Nat) : Except InvokeError (List Binary32) :=
  if t * p.row < buffer.length then (p.task t (p.segment buffer t)).map (p.exchange buffer t)
  else .ok buffer

/-- Run tasks on the buffer in the given order and answer with what they leave in it. -/
def run (p : Plan) (order : List Nat) : Except InvokeError (List Tensor) := do
  answerFloats p.shape (← order.foldlM p.step p.buffer)

/-- Whether a position of a buffer lies in the segment of a task. -/
def Owns (p : Plan) (t i : Nat) : Prop := t * p.row ≤ i ∧ i < (t + 1) * p.row

/-- A task makes as many numbers as its segment of a buffer has. -/
theorem length_of_task_eq_ok {result : List Binary32} (ht : t * p.row < buffer.length)
    (h : p.task t (p.segment buffer t) = .ok result) :
    result.length = (p.segment buffer t).length := by
  have hrow := p.row_pos
  refine p.length_eq (List.ne_nil_of_length_pos ?_) (List.length_take_le _ _) h
  rw [segment, List.length_take, List.length_drop]
  omega

/-- What a step can do: exchange the segment of its task, or nothing if there is none. -/
theorem step_cases (h : p.step buffer t = .ok done) :
    (∃ result, t * p.row < buffer.length ∧ p.task t (p.segment buffer t) = .ok result ∧
      result.length = (p.segment buffer t).length ∧ done = p.exchange buffer t result) ∨
    buffer.length ≤ t * p.row ∧ done = buffer := by
  unfold step at h
  split at h
  · next ht =>
    obtain ⟨result, hresult, hdone⟩ := map_eq_ok_iff.mp h
    exact .inl ⟨result, ht, hresult, length_of_task_eq_ok ht hresult, hdone.symm⟩
  · next ht => exact .inr ⟨Nat.le_of_not_lt ht, (Except.ok.inj h).symm⟩

/-- A task on a buffer is the task on the pieces of the buffer. -/
theorem runTask_chunks (p : Plan) (buffer : List Binary32) (t : Nat) :
    runTask p.task (chunks p.row buffer).toArray t =
      (p.step buffer t).map fun done => (chunks p.row done).toArray := by
  rw [runTask, step, List.getElem?_toArray, getElem?_chunks p.row_pos]
  by_cases ht : t * p.row < buffer.length
  · rw [if_pos ht, if_pos ht]
    change (p.task t (p.segment buffer t)).map _ = ((p.task t (p.segment buffer t)).map _).map _
    cases hresult : p.task t (p.segment buffer t) with
    | error e => rfl
    | ok result =>
      have hpieces := chunks_exchange p.row_pos ht (length_of_task_eq_ok ht hresult)
      simp only [Except.map, exchange, hpieces, List.setIfInBounds_toArray]
  · rw [if_neg ht, if_neg ht]
    rfl

/-- Running the tasks on the pieces is running them on the buffer. -/
theorem runTasks_pieces (p : Plan) (schedule : Schedule) :
    runTasks schedule p.task p.pieces = (schedule p.tasks).foldlM p.step p.buffer := by
  have hview := foldlM_view (P := fun _ => True) (fun b => (chunks p.row b).toArray)
    (fun _ _ _ _ _ => trivial) (fun b t _ => p.runTask_chunks b t) (schedule p.tasks)
    (b := p.buffer) trivial
  have hrun : runTasks schedule p.task p.pieces = (do
      let done ← (schedule p.tasks).foldlM (runTask p.task) (chunks p.row p.buffer).toArray
      return done.toList.flatten) := rfl
  rw [hrun, hview]
  cases (schedule p.tasks).foldlM p.step p.buffer with
  | error e => rfl
  | ok done => exact congrArg Except.ok (flatten_chunks p.row_pos done)

/-- The answer of a plan from its pieces. -/
theorem run_eq_runTasks (p : Plan) (schedule : Schedule) :
    p.run (schedule p.tasks) = runTasks schedule p.task p.pieces >>= answerFloats p.shape := by
  rw [run, runTasks_pieces]

/-- Every order of the same tasks gives the same answer. -/
theorem run_eq_ok_iff_of_perm {order' : List Nat} {outputs : List Tensor}
    (h : order.Perm order') : p.run order = .ok outputs ↔ p.run order' = .ok outputs := by
  rw [p.run_eq_runTasks fun _ => order, p.run_eq_runTasks fun _ => order', bind_eq_ok_iff,
    bind_eq_ok_iff]
  exact exists_congr fun values => and_congr_left fun _ => runTasks_eq_ok_iff_of_perm h

/-- A task keeps the length of the buffer. -/
theorem length_of_step_eq_ok (h : p.step buffer t = .ok done) : done.length = buffer.length := by
  rcases step_cases h with ⟨result, ht, -, hlength, rfl⟩ | ⟨-, rfl⟩
  · have hsucc : (t + 1) * p.row = t * p.row + p.row := Nat.succ_mul ..
    rw [segment, List.length_take, List.length_drop] at hlength
    simp only [exchange, List.length_append, List.length_take, List.length_drop]
    omega
  · rfl

/-- What a task may touch of a buffer, whatever the buffer holds: it changes no position outside its
segment, and what it leaves in its segment depends on that segment alone. -/
structure Confined (p : Plan) (t : Nat) : Prop where
  writes : ∀ {buffer done : List Binary32}, p.step buffer t = .ok done →
    done.length = buffer.length ∧ ∀ i, ¬ p.Owns t i → done[i]? = buffer[i]?
  reads : ∀ {buffer buffer' done : List Binary32}, buffer'.length = buffer.length →
    (∀ i, p.Owns t i → buffer'[i]? = buffer[i]?) → p.step buffer t = .ok done →
      ∃ done', p.step buffer' t = .ok done' ∧ ∀ i, p.Owns t i → done'[i]? = done[i]?

/-- A position of an exchanged segment holds one of the new numbers. -/
theorem getElem?_exchange_of_owns {result : List Binary32} {i : Nat}
    (ht : t * p.row < buffer.length) (hresult : result.length = (p.segment buffer t).length)
    (hi : p.Owns t i) : (p.exchange buffer t result)[i]? = result[i - t * p.row]? := by
  obtain ⟨hlow, hhigh⟩ := hi
  have hfront : (buffer.take (t * p.row)).length = t * p.row := by rw [List.length_take]; omega
  rw [Nat.succ_mul] at hhigh
  rw [segment, List.length_take, List.length_drop] at hresult
  rw [exchange, Nat.succ_mul, List.getElem?_append_right (by omega), hfront,
    List.getElem?_append]
  split
  · rfl
  · -- the segment ends with the buffer
    rw [List.drop_eq_nil_of_le (by omega), List.getElem?_nil, List.getElem?_eq_none (by omega)]

/-- A position outside of an exchanged segment holds what it held. -/
theorem getElem?_exchange_of_not_owns {result : List Binary32} {i : Nat}
    (ht : t * p.row < buffer.length) (hresult : result.length = (p.segment buffer t).length)
    (hi : ¬ p.Owns t i) : (p.exchange buffer t result)[i]? = buffer[i]? := by
  have hfront : (buffer.take (t * p.row)).length = t * p.row := by rw [List.length_take]; omega
  rw [Owns, Nat.succ_mul] at hi
  rw [segment, List.length_take, List.length_drop] at hresult
  rw [exchange, Nat.succ_mul]
  by_cases hbefore : i < t * p.row
  · rw [List.getElem?_append_left (by omega), List.getElem?_take_of_lt hbefore]
  · rw [List.getElem?_append_right (by omega), hfront, List.getElem?_append_right (by omega),
      List.getElem?_drop]
    by_cases hend : i < buffer.length
    · congr 1
      omega
    · rw [List.getElem?_eq_none (by omega), List.getElem?_eq_none (by omega)]

/-- Buffers that agree on a segment have the same segment. -/
theorem segment_eq {buffer' : List Binary32}
    (h : ∀ i, p.Owns t i → buffer'[i]? = buffer[i]?) :
    p.segment buffer' t = p.segment buffer t := by
  refine List.ext_getElem? fun j => ?_
  simp only [segment, List.getElem?_take, List.getElem?_drop]
  split
  · next hj => exact h _ ⟨Nat.le_add_right _ j, by rw [Nat.succ_mul]; omega⟩
  · rfl

/-- Every task stays in its segment. -/
theorem confined (p : Plan) (t : Nat) : p.Confined t where
  writes h := by
    refine ⟨length_of_step_eq_ok h, fun i hi => ?_⟩
    rcases step_cases h with ⟨result, ht, -, hlength, rfl⟩ | ⟨-, rfl⟩
    · exact getElem?_exchange_of_not_owns ht hlength hi
    · rfl
  reads {buffer buffer' done} hsame hagree h := by
    rcases step_cases h with ⟨result, ht, hresult, hlength, rfl⟩ | ⟨ht, rfl⟩
    · have hsegment : p.segment buffer' t = p.segment buffer t := segment_eq hagree
      have ht' : t * p.row < buffer'.length := hsame ▸ ht
      refine ⟨p.exchange buffer' t result, by rw [step, if_pos ht', hsegment, hresult]; rfl,
        fun i hi => ?_⟩
      rw [getElem?_exchange_of_owns ht' (hsegment ▸ hlength) hi,
        getElem?_exchange_of_owns ht hlength hi]
    · exact ⟨buffer', if_neg (by omega), hagree⟩

/-- The tasks of a plan keep the length of the buffer. -/
theorem length_of_foldlM_step_eq_ok (h : order.foldlM p.step p.buffer = .ok done) :
    done.length = p.buffer.length :=
  (exists_step_of_foldlM_eq_ok (P := fun b => b.length = p.buffer.length)
    (fun _ _ _ hb hstep => (length_of_step_eq_ok hstep).trans hb) rfl h).1

/-- The pieces of a buffer that is as large as rows of one size are rows. -/
theorem tasks_mul_row (hrow : p.row ∣ p.buffer.length) : p.tasks * p.row = p.buffer.length := by
  have hfull := length_of_mem_chunks p.row_pos hrow
  rw [tasks, pieces, ← length_flatten_of_forall hfull, flatten_chunks p.row_pos]

/-- The segments of the tasks cut the buffer, which is as large as the output, into full rows: every
position lies in the segment of exactly one task, and no segment reaches beyond the buffer. -/
structure Partitioned (p : Plan) : Prop where
  length_buffer : p.buffer.length = volume p.shape.dims
  owner : ∀ i < p.buffer.length, ∃! t, t < p.tasks ∧ p.Owns t i
  full : ∀ t < p.tasks, ∀ i, p.Owns t i → i < p.buffer.length

/-- Full rows of a buffer that is as large as the output partition it. -/
theorem partitioned (hvolume : p.buffer.length = volume p.shape.dims)
    (hrow : p.row ∣ volume p.shape.dims) : p.Partitioned where
  length_buffer := hvolume
  owner i hi := by
    rw [← tasks_mul_row (hvolume ▸ hrow)] at hi
    have hpos := p.row_pos
    refine ⟨i / p.row, ⟨(Nat.div_lt_iff_lt_mul hpos).mpr hi, Nat.div_mul_le_self i p.row,
      Nat.lt_mul_of_div_lt (Nat.lt_succ_self _) hpos⟩, ?_⟩
    rintro t ⟨-, hlow, hhigh⟩
    exact (Nat.div_eq_of_lt_le hlow hhigh).symm
  full t ht i hi := by
    rw [← tasks_mul_row (hvolume ▸ hrow)]
    exact Nat.lt_of_lt_of_le hi.2 (Nat.mul_le_mul_right p.row ht)

/-- The buffer of a plan holds the numbers of the answer. -/
theorem length_bytes_of_run_eq_ok {output : Tensor} (h : p.run order = .ok [output]) :
    output.elementType = .f32 ∧ output.shape = p.shape ∧
      output.bytes.length = p.buffer.length * 4 := by
  obtain ⟨values, hvalues, hanswer⟩ := bind_eq_ok_iff.mp h
  obtain ⟨_, hsingle, hfloats, hshape, hbytes⟩ := exists_of_answerFloats_eq_ok hanswer
  obtain rfl := List.singleton_inj.mp hsingle
  exact ⟨hfloats, hshape, hbytes.trans (congrArg (· * 4) (length_of_foldlM_step_eq_ok hvalues))⟩

/-- The buffer of a plan that answers a well-formed tensor is as large as the answer. -/
theorem length_buffer_of_run_eq_ok {output : Tensor} (h : p.run order = .ok [output])
    (houtput : output.WellFormed) : p.buffer.length = volume p.shape.dims := by
  obtain ⟨hfloats, hshape, hbytes⟩ := length_bytes_of_run_eq_ok h
  rw [houtput.length_bytes, hfloats, hshape] at hbytes
  exact (Nat.eq_of_mul_eq_mul_right (by decide) hbytes).symm

/-- A plan with one task per number of the buffer. -/
def single (shape : Shape) (buffer : List Binary32) (task : Task)
    (htask : ∀ t x result, task t [x] = .ok result → result.length = 1) : Plan where
  shape := shape
  row := 1
  buffer := buffer
  task := task
  row_pos := Nat.one_pos
  length_eq {t piece result} hne hle h := by
    have hone : piece.length = 1 := Nat.le_antisymm hle (List.length_pos_iff.mpr hne)
    obtain ⟨x, rfl⟩ := List.length_eq_one_iff.mp hone
    exact htask t x result h

/-- Pieces of one element. -/
theorem chunks_one (data : List Binary32) : chunks 1 data = singles data := by
  induction data with
  | nil => rfl
  | cons x rest ih =>
    rw [chunks_of_ne_nil Nat.one_pos (List.cons_ne_nil x rest)]
    exact congrArg ([x] :: ·) ih

/-- One task per number is what the kernels of single elements run. -/
theorem run_single {shape : Shape} {task : Task}
    (htask : ∀ t x result, task t [x] = .ok result → result.length = 1) (schedule : Schedule) :
    (single shape buffer task htask).run (schedule (single shape buffer task htask).tasks) =
      runTasks schedule task (singles buffer) >>= answerFloats shape := by
  rw [run_eq_runTasks, ← chunks_one]
  rfl

end Plan

/-- Whether a computation under a schedule runs the tasks of one plan, with rows of a size that
depends on the shape of the output. -/
def Planned (f : Schedule → Except InvokeError (List Tensor)) (row : Shape → Nat) : Prop :=
  ∃ p : Plan, p.row = row p.shape ∧ ∀ schedule, f schedule = p.run (schedule p.tasks)

/-! ### Plans of the operations -/

variable {a b : Tensor} {outputs : List Tensor}

/-- The tasks of an arithmetic operation are planned element by element. -/
theorem planned_binary {op : Arithmetic} (h : binary inOrder op a b = .ok outputs) :
    Planned (fun schedule => binary schedule op a b) fun _ => 1 := by
  simp only [binary, bind_eq_ok_iff] at h
  obtain ⟨shape, hshape, x, hx, y, hy, -⟩ := h
  refine ⟨.single shape (List.replicate shape.count .zero)
    (fun i _ => do return [op.apply (← readCyclic x i) (← readCyclic y i)]) ?_, rfl, ?_⟩
  · intro i _ result h
    obtain ⟨v, -, h⟩ := bind_eq_ok_iff.mp h
    obtain ⟨w, -, h⟩ := bind_eq_ok_iff.mp h
    exact Except.ok.inj h ▸ rfl
  · intro schedule
    rw [Plan.run_single]
    simp only [binary, hshape, hx, hy, ok_bind]
    rfl

/-- The tasks of an activation are planned element by element. -/
theorem planned_unary {op : Activation} (h : unary inOrder op a = .ok outputs) :
    Planned (fun schedule => unary schedule op a) fun _ => 1 := by
  obtain ⟨data, hdata, -⟩ := bind_eq_ok_iff.mp h
  refine ⟨.single a.shape data (fun _ piece => .ok (piece.map op.apply)) ?_, rfl, ?_⟩
  · intro i x result h
    exact Except.ok.inj h ▸ rfl
  · intro schedule
    rw [Plan.run_single]
    simp only [unary, hdata, ok_bind]

/-- The tasks of a sum are planned element by element. -/
theorem planned_sum {first : Tensor} {rest : List Tensor}
    (h : sum inOrder first rest = .ok outputs) :
    Planned (fun schedule => sum schedule first rest) fun _ => 1 := by
  unfold sum at h ⊢
  cases hother : rest.find? fun t => t.shape ≠ first.shape with
  | some other =>
    rw [hother] at h
    cases h
  | none =>
    simp only [hother] at h ⊢
    obtain ⟨columns, hcolumns, -⟩ := bind_eq_ok_iff.mp h
    refine ⟨.single first.shape (List.replicate first.count .zero) (fun i _ => do
      let total ← columns.foldlM (fun acc c => do return acc + (← read c i)) Binary32.negZero
      return [total]) ?_, rfl, ?_⟩
    · intro i _ result h
      obtain ⟨total, -, h⟩ := bind_eq_ok_iff.mp h
      exact Except.ok.inj h ▸ rfl
    · intro schedule
      rw [Plan.run_single, hcolumns]
      rfl

/-- The tasks of a softmax are planned row by row. -/
theorem planned_softmax (h : softmax inOrder a = .ok outputs) :
    Planned (fun schedule => softmax schedule a) fun shape =>
      max (shape.dims.getLast?.getD 1) 1 := by
  obtain ⟨data, hdata, -⟩ := bind_eq_ok_iff.mp h
  let p : Plan :=
    { shape := a.shape
      row := max (a.shape.dims.getLast?.getD 1) 1
      buffer := data
      task := fun _ piece => .ok (softmaxRow piece)
      row_pos := Nat.lt_of_lt_of_le Nat.one_pos (Nat.le_max_right _ _)
      length_eq := fun {_ piece _} _ _ h => Except.ok.inj h ▸ by simp [softmaxRow] }
  refine ⟨p, rfl, fun schedule => ?_⟩
  rw [Plan.run_eq_runTasks]
  simp only [softmax, hdata, ok_bind]
  rfl

/-- The tasks of a product are planned row by row. -/
theorem planned_matMul (h : matMul inOrder a b = .ok outputs) :
    Planned (fun schedule => matMul schedule a b) fun shape =>
      max (shape.dims.getLast?.getD 1) 1 := by
  unfold matMul at h ⊢
  split at h
  · next m k kb n ha hb =>
    split at h
    · cases h
    · next hk =>
      simp only [bind_eq_ok_iff] at h
      obtain ⟨x, hx, y, hy, ⟨⟩, hroom, -⟩ := h
      let p : Plan :=
        { shape := ⟨[m, n]⟩
          row := max n 1
          buffer := List.replicate (extent [m, n]) .zero
          task := fun i piece => Matrix.accumulateRow x y k n i piece
          row_pos := Nat.lt_of_lt_of_le Nat.one_pos (Nat.le_max_right _ _)
          length_eq := fun _ _ h => Matrix.length_of_accumulateRow_eq_ok h }
      refine ⟨p, rfl, fun schedule => ?_⟩
      rw [Plan.run_eq_runTasks]
      simp only [if_neg hk, hx, hy, hroom, ok_bind]
      rfl
  · cases h

end Parallel

/-! ### Parallel kernels -/

/-- The number of elements that one task of an operation makes of an output: a row for softmax and
matrix products, where a row without elements counts as one, and a single element otherwise. -/
def ParallelOp.row (op : ParallelOp) (shape : Shape) : Nat :=
  match op with
  | .softmax | .matMul => max (shape.dims.getLast?.getD 1) 1
  | .binary _ | .unary _ | .sum => 1

/-- An output consists of full rows. -/
theorem ParallelOp.row_dvd_volume (op : ParallelOp) (shape : Shape) :
    op.row shape ∣ volume shape.dims := by
  have hlast : max (shape.dims.getLast?.getD 1) 1 ∣ volume shape.dims := by
    rcases List.eq_nil_or_concat shape.dims with hnil | ⟨dims, n, hdims⟩
    · simp [hnil]
    · rw [hdims, List.concat_eq_append, volume_append]
      rcases Nat.eq_zero_or_pos n with rfl | hn
      · simp
      · rw [List.getLast?_concat, Option.getD_some, Nat.max_eq_left hn, volume_cons, volume_nil,
          Nat.mul_one]
        exact Nat.dvd_mul_left n _
  cases op with
  | softmax => exact hlast
  | matMul => exact hlast
  | _ => exact Nat.one_dvd _

namespace ParallelKernel

variable {k : ParallelKernel} {inputs outputs : List Tensor}

/-- The tasks of an accepted invocation do not depend on the schedule. -/
theorem planned (h : Kernel.invoke k inputs = .ok outputs) :
    Planned (fun schedule => k.invokeScheduled schedule inputs) k.op.row := by
  change k.invokeScheduled inOrder inputs = .ok outputs at h
  unfold invokeScheduled at h ⊢
  split at h
  · cases h
  · next hready =>
    simp only [if_neg hready]
    split at h
    · next hop =>
      rw [hop]
      exact planned_binary h
    · cases h
    · next hop =>
      rw [hop]
      exact planned_unary h
    · cases h
    · next hop =>
      rw [hop]
      exact planned_softmax h
    · cases h
    · next hop =>
      rw [hop]
      exact planned_matMul h
    · cases h
    · next hop =>
      rw [hop]
      exact planned_sum h
    · cases h

/-- An accepted invocation answers the same whatever the order of its tasks, which run one after
another on one buffer: each of them reads and writes its own segment only, and the segments are the
rows of the answer if that is well-formed. So it is on well-formed inputs, if the entries of a
product can be counted. -/
theorem invoke_any_order (h : Kernel.invoke k inputs = .ok outputs) :
    ∃ (p : Plan) (output : Tensor), outputs = [output] ∧ p.shape = output.shape ∧
      p.row = k.op.row output.shape ∧
      (∀ schedule, k.invokeScheduled schedule inputs = p.run (schedule p.tasks)) ∧
      (∀ schedule, (schedule p.tasks).Perm (List.range p.tasks) →
        k.invokeScheduled schedule inputs = .ok outputs) ∧
      (∀ t, p.Confined t) ∧ (output.WellFormed → p.Partitioned) ∧
      ((∀ t ∈ inputs, t.WellFormed) →
        (∀ dims, BuiltinKernel.ProductShape (.inr k) inputs dims → volume dims < wordSize) →
        output.WellFormed) := by
  obtain ⟨p, hrow, hplanned⟩ := planned h
  have hrun : p.run (List.range p.tasks) = .ok outputs := (hplanned inOrder).symm.trans h
  obtain ⟨values, -, hanswer⟩ := bind_eq_ok_iff.mp hrun
  obtain ⟨output, rfl, -, hshape, -⟩ := exists_of_answerFloats_eq_ok hanswer
  refine ⟨p, output, rfl, hshape.symm, hshape ▸ hrow, hplanned, fun schedule hperm => ?_,
    p.confined, fun houtput => ?_, fun hinputs hfits => ?_⟩
  · exact (hplanned schedule).trans ((Plan.run_eq_ok_iff_of_perm hperm).mpr hrun)
  · exact Plan.partitioned (Plan.length_buffer_of_run_eq_ok hrun houtput)
      (hrow ▸ k.op.row_dvd_volume p.shape)
  · have hsafe := KernelDispatch.safe_invoke (k := .inr k) hinputs hfits
    obtain ⟨_, hsingle, hwell⟩ := hsafe.property h
    rwa [List.singleton_inj.mp hsingle]

/-- The product of a column and a row, its last row first. -/
theorem invoke_any_order_reversed :
    let column : Tensor := ⟨.f32, ⟨[2, 1]⟩, [0, 0, 0x80, 0x3f, 0, 0, 0, 0x40]⟩
    let row : Tensor := ⟨.f32, ⟨[1, 2]⟩, [0, 0, 0x80, 0x3f, 0, 0, 0, 0x40]⟩
    let product : Tensor :=
      ⟨.f32, ⟨[2, 2]⟩, [0, 0, 0x80, 0x3f, 0, 0, 0, 0x40, 0, 0, 0, 0x40, 0, 0, 0x80, 0x40]⟩
    let k : ParallelKernel := ⟨.matMul, true⟩
    Kernel.invoke k [column, row] = .ok [product] ∧
      k.invokeScheduled (fun n => (List.range n).reverse) [column, row] = .ok [product] ∧
      ∃ p : Plan, p.row = 2 ∧ p.Partitioned ∧
        ∀ schedule, k.invokeScheduled schedule [column, row] = p.run (schedule p.tasks) := by
  intro column row product k
  have hinvoke : Kernel.invoke k [column, row] = .ok [product] := by
    unfold column row product
    rfl
  obtain ⟨p, output, hproduct, -, hrow, hrun, hany, -, hparts, -⟩ := invoke_any_order hinvoke
  obtain rfl := List.singleton_inj.mp hproduct
  exact ⟨hinvoke, hany _ (List.reverse_perm _), p, hrow, hparts ⟨rfl, by decide⟩, hrun⟩

/-- Matrices without elements whose product has one entry more than a machine word counts. It is
accepted, and its only task has a piece of one number, although a row of the answer has three. -/
theorem invoke_any_order_short :
    let left : Tensor := ⟨.f32, ⟨[0xaaaaaaaaaaaaaaab, 0]⟩, []⟩
    let right : Tensor := ⟨.f32, ⟨[0, 3]⟩, []⟩
    let product : Tensor := ⟨.f32, ⟨[0xaaaaaaaaaaaaaaab, 3]⟩, [0, 0, 0, 0]⟩
    let k : ParallelKernel := ⟨.matMul, true⟩
    (∀ t ∈ [left, right], t.WellFormed) ∧ Kernel.invoke k [left, right] = .ok [product] ∧
      ∃ p : Plan, p.row = 3 ∧
        (∀ schedule, k.invokeScheduled schedule [left, right] = p.run (schedule p.tasks)) ∧
        p.pieces.map List.length = [1] ∧ ¬ p.Partitioned := by
  intro left right product k
  have hinputs : ∀ t ∈ [left, right], t.WellFormed :=
    List.forall_mem_cons.mpr ⟨⟨rfl, by decide⟩, List.forall_mem_singleton.mpr ⟨rfl, by decide⟩⟩
  have hinvoke : Kernel.invoke k [left, right] = .ok [product] := by decide
  obtain ⟨p, hrow, hplanned⟩ := planned hinvoke
  have hrun : p.run (List.range p.tasks) = .ok [product] := (hplanned inOrder).symm.trans hinvoke
  obtain ⟨-, hshape, hbytes⟩ := Plan.length_bytes_of_run_eq_ok hrun
  rw [← hshape] at hrow
  have hlength : p.buffer.length = 1 := by
    have hfour : product.bytes.length = 4 := rfl
    omega
  refine ⟨hinputs, hinvoke, p, hrow, hplanned, ?_, fun h => ?_⟩
  · obtain ⟨x, hx⟩ := List.length_eq_one_iff.mp hlength
    rw [Plan.pieces, hrow, hx]
    rfl
  · have hcount := h.length_buffer
    rw [hlength, ← hshape] at hcount
    exact absurd hcount (by decide)

end ParallelKernel

end KernelDispatch
