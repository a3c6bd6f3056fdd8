import KernelDispatch.Kernel.Access

/-!
# Independent tasks

Parallel work is cut into tasks, one per piece of the output. A task sees only its number, its own
piece and the inputs, and replaces its own piece; a schedule is the order in which the tasks of a
run take effect.
-/

namespace KernelDispatch.Parallel

/-- For each number of tasks, the order in which they take effect. -/
abbrev Schedule := Nat → List Nat

/-- The schedule that runs the tasks one after another from the first to the last. -/
def inOrder : Schedule := List.range

/-- What a task makes of its piece. -/
abbrev Task := Nat → List Binary32 → Except InvokeError (List Binary32)

/-- Run one task: it replaces its own piece and leaves the others alone. -/
def runTask (task : Task) (pieces : Array (List Binary32)) (t : Nat) :
    Except InvokeError (Array (List Binary32)) :=
  match pieces[t]? with
  | some piece => (task t piece).map (pieces.setIfInBounds t)
  | none => .ok pieces

/-- Run the tasks in the given order and join the pieces. -/
def runTasks (schedule : Schedule) (task : Task) (pieces : List (List Binary32)) :
    Except InvokeError (List Binary32) := do
  let done ← (schedule pieces.length).foldlM (runTask task) pieces.toArray
  return done.toList.flatten

/-- One piece per element. -/
def singles (data : List Binary32) : List (List Binary32) := data.map ([·])

/-- A buffer of `n` zeros in one piece per element. -/
def blank (n : Nat) : List (List Binary32) := singles (List.replicate n .zero)

end KernelDispatch.Parallel
