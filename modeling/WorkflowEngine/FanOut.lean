import WorkflowEngine.Flow

/-!
# Fan-outs: tasks run by a bounded number of workers

A list of tasks is run by workers that share it. Each worker claims the next task that nobody has
claimed, runs it, keeps its result in the task's own slot and claims again, until no task is left.
Results come back in the order of the tasks, whatever the order in which they end.

**Rounds.** The workers take turns. In a round each worker that is not finished runs until its task
pauses or until no task is left to claim; when all have had their turn and some of them are waiting,
the whole pauses, and the next round takes up the waiting tasks in the same order. So at the end of
a round a worker is idle only when every task has been claimed.

**Ends.** The first fault of a task ends the whole at once. Before a task is claimed and after it
has ended, the worker asks whether the run is to stop. A single task needs no workers.
-/

namespace WorkflowEngine

/-- How many of the tasks of a fan-out have ended. -/
structure Progress where
  done : Nat
  total : Nat
deriving DecidableEq

def Progress.text (p : Progress) : String := Nat.repr p.done ++ " / " ++ Nat.repr p.total

namespace FanOut

variable {α : Type}

/-- What a worker is doing. -/
inductive Worker (α : Type) where
  | idle
  | busy (index : Nat) (rest : Flow α)
  | finished

def Worker.isFinished : Worker α → Bool
  | .finished => true
  | _ => false

/-- The results so far, in a slot for each task. -/
structure Tally (α : Type) where
  slots : List (Option α)
  settled : Nat

/-- The tasks that nobody has claimed, with their indices, and the results so far. -/
structure Board (α : Type) where
  waiting : List (Flow α × Nat)
  tally : Tally α

/-- What is told of every task that has ended. -/
abbrev Report := Progress → Flow Unit

/-- A task has ended: unless the run is to stop, keeps its result and reports it. -/
def Tally.settle (report : Report) (t : Tally α) (index : Nat) (a : α) : Flow (Tally α) := do
  Flow.check
  let t := ⟨t.slots.set index (some a), t.settled + 1⟩
  report ⟨t.settled, t.slots.length⟩
  return t

/-- A worker without a task claims one and runs it, and so on until a task pauses or none is
left. -/
def claim (report : Report) (t : Tally α) :
    List (Flow α × Nat) → Flow (Worker α × Board α)
  | [] => do
    Flow.check
    return (.finished, ⟨[], t⟩)
  | (task, index) :: waiting => do
    Flow.check
    match ← task.advance with
    | .suspended rest => return (.busy index rest, ⟨waiting, t⟩)
    | .settled a => claim report (← t.settle report index a) waiting

/-- A worker has its turn. -/
def turn (report : Report) (w : Worker α) (b : Board α) : Flow (Worker α × Board α) :=
  match w with
  | .finished => return (.finished, b)
  | .idle => claim report b.tally b.waiting
  | .busy index rest => do
    match ← rest.advance with
    | .suspended rest => return (.busy index rest, b)
    | .settled a => claim report (← b.tally.settle report index a) b.waiting

/-- Every worker has its turn, from the first to the last. -/
def round (report : Report) : List (Worker α) → Board α → Flow (List (Worker α) × Board α)
  | [], b => return ([], b)
  | w :: ws, b => do
    let (w, b) ← turn report w b
    let (ws, b) ← round report ws b
    return (w :: ws, b)

/-- Rounds until all workers are finished, with a pause between two of them. -/
def rounds (report : Report) : Nat → List (Worker α) → Board α → Flow (List (Option α))
  | 0, _, _ => .starved
  | n + 1, workers, b => do
    let (workers, b) ← round report workers b
    if workers.all Worker.isFinished then return b.tally.slots
    else .pause fun _ => rounds report n workers b

/-- The number of workers for `total` tasks of which at most `cap` may run at a time. -/
def workerCount (cap total : Nat) : Nat := min (max cap 1) total

/-- The workers and the board before the first round. -/
def start (tasks : List (Flow α)) (cap : Nat) : List (Worker α) × Board α :=
  (List.replicate (workerCount cap tasks.length) .idle,
    ⟨tasks.zipIdx, ⟨List.replicate tasks.length none, 0⟩⟩)

/-- Runs tasks, at most `cap` of them at a time and never fewer than one, for at most `fuel`
rounds. The results are in the order of the tasks. -/
def run (fuel : Nat) (tasks : List (Flow α)) (cap : Nat) (report : Report) : Flow (List α) :=
  match tasks with
  | [] => return []
  | [task] => do
    Flow.check
    let a ← task
    Flow.check
    report ⟨1, 1⟩
    return [a]
  | tasks => do
    Flow.check
    let (workers, board) := start tasks cap
    let slots ← rounds report fuel workers board
    match slots.mapM id with
    | some results => return results
    | none => Flow.fail (.other "fan-out finished with unfilled result slots")

/-- Slots give results if they are all filled, and then with these. -/
theorem mapM_id_eq_some_iff {slots : List (Option α)} {results : List α} :
    slots.mapM id = some results ↔ slots = results.map some := by
  induction slots generalizing results with
  | nil => cases results <;> simp
  | cons slot slots ih =>
    cases slot with
    | none => cases results <;> simp
    | some a => cases results <;> simp [Option.bind_eq_some_iff, ih, and_left_comm]

end FanOut

end WorkflowEngine
