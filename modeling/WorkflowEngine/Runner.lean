import WorkflowEngine.Dispatcher

/-!
# Runners: op lists, step by step

A runner takes an op list through a context. Each call of `Runner.next` goes on until one op has
been executed and yields its result as a step. It gets there move by move (`Runner.move`), each of
which changes the stack of op lists that are being gone through.

**Loops.** A loop op is never handed to an executor. Its body becomes a frame of its own on top of
the frame that the loop stands in, and when the body is used up, the condition is tested again. The
limit of a loop counts the passes since it was entered.

**Order of faults.** Before every op the runner asks whether to stop. Of a loop op it reads the
body, then the limit, then the condition. A loop with an empty body is passed over.

**Ends.** After a fault, or when nothing is left, the runner is finished and yields nothing more.
-/

namespace WorkflowEngine

/-! ## Loops -/

/-- Whether a loop runs as long as its condition holds, or as long as it does not. -/
inductive LoopMode where
  | asLongAs
  | asLongAsNot
deriving DecidableEq

namespace LoopMode

def kind : LoopMode → String
  | .asLongAs => "while"
  | .asLongAsNot => "until"

def ofKind? (kind : String) : Option LoopMode :=
  if kind = "while" then some .asLongAs
  else if kind = "until" then some .asLongAsNot
  else none

/-- Whether the condition calls for another pass. -/
def callsFor (mode : LoopMode) (condition : Bool) : Bool :=
  match mode with
  | .asLongAs => condition
  | .asLongAsNot => !condition

end LoopMode

/-- A loop that has been entered. -/
structure Loop where
  mode : LoopMode
  condition : String
  limit : Option Nat
  /-- How many passes have been started. -/
  passes : Nat := 0
deriving DecidableEq

namespace Loop

/-- The fault of a loop that has used up its limit. -/
def limitFault (l : Loop) (limit : Nat) : Fault := .loopLimit l.mode.kind l.condition limit

/-- Tests the condition. If it calls for another pass and the limit allows it, the loop with that
pass counted; `none` if the loop is over. -/
def begin? (l : Loop) (context : Handle) : Flow (Option Loop) := do
  let b ← Flow.view context
  if l.mode.callsFor (b.isTruthy l.condition) then
    match l.limit with
    | none => return some { l with passes := l.passes + 1 }
    | some limit =>
      if limit ≤ l.passes then Flow.fail (l.limitFault limit)
      else return some { l with passes := l.passes + 1 }
  else return none

/-- The loop that a loop op stands for, and its body. -/
def ofOp (config : Config) (mode : LoopMode) (op : Op) : Except Fault (Loop × List Op) := do
  let body ← op.innerOps
  let limit ← op.natParam "maxIterations"
  let condition ← op.requireText "condition"
  return ({ mode, condition, limit := limit.or config.maxLoopIterations }, body)

end Loop

/-! ## Runners -/

/-- An op list that is being gone through: all of it, what is left of it in this pass, and the loop
whose body it is. -/
structure Frame where
  body : List Op
  rest : List Op
  loop : Option Loop
deriving DecidableEq

inductive Phase where
  | pending
  | running
  | finished
deriving DecidableEq

structure Runner where
  /-- Whether the run announces its own start and end. -/
  topLevel : Bool
  context : Handle
  /-- The op lists that are being gone through, innermost first. -/
  frames : List Frame
  phase : Phase := .pending
  /-- How many ops have been executed. -/
  dispatched : Nat := 0
deriving DecidableEq

/-- An executed op. -/
structure Step where
  /-- How many ops of the run were executed before it. -/
  index : Nat
  op : Op
  result : Value
  context : Handle
deriving DecidableEq

/-- What a move of a runner comes to: nothing is left, or the runner goes on, or it has had an op
executed. -/
inductive Moved where
  | atEnd
  | onward (r : Runner)
  | handed (step : Step) (r : Runner)

namespace Runner

def start (topLevel : Bool) (ops : List Op) (context : Handle) : Runner :=
  { topLevel, context, frames := [⟨ops, ops, none⟩] }

def isFinished (r : Runner) : Bool := r.phase = .finished

/-- The frame of a loop op that is entered; `none` if it is passed over. -/
def enter? (d : Dispatcher) (mode : LoopMode) (op : Op) (context : Handle) :
    Flow (Option Frame) := do
  let (loop, body) ← Loop.ofOp d.config mode op
  if body.isEmpty then return none
  match ← loop.begin? context with
  | some loop => return some ⟨body, body, loop⟩
  | none => return none

/-- The frame whose list is used up, begun again; `none` if it is over. -/
def again? (f : Frame) (context : Handle) : Flow (Option Frame) :=
  match f.loop with
  | none => return none
  | some loop => do
    match ← loop.begin? context with
    | some loop => return some ⟨f.body, f.body, loop⟩
    | none => return none

/-- One move. A list that is used up is left, or begun again; of the op that comes next, a loop op is
entered or passed over, and any other is executed. -/
def move (d : Dispatcher) (r : Runner) : Flow Moved :=
  match r.frames with
  | [] => return .atEnd
  | f :: outer =>
    match f.rest with
    | [] => do
      let f ← again? f r.context
      return .onward { r with frames := f.toList ++ outer }
    | op :: rest => do
      Flow.check
      let frames := { f with rest } :: outer
      match LoopMode.ofKind? op.kind with
      | some mode =>
        let f ← enter? d mode op r.context
        return .onward { r with frames := f.toList ++ frames }
      | none =>
        let result ← d.exec op r.context
        return .handed ⟨r.dispatched, op, result, r.context⟩
          { r with frames, dispatched := r.dispatched + 1 }

/-- Makes moves until an op has been executed, or nothing is left. -/
def advance (d : Dispatcher) : Nat → Runner → Flow (Option Step × Runner)
  | 0, _ => .starved
  | n + 1, r => do
    match ← move d r with
    | .atEnd => return (none, r)
    | .onward r => advance d n r
    | .handed step r => return (some step, r)

/-- What an advance makes of a move. -/
def goOn (d : Dispatcher) (n : Nat) (r : Runner) : Moved → Flow (Option Step × Runner)
  | .atEnd => .done (.ok (none, r))
  | .onward r => advance d n r
  | .handed step r => .done (.ok (some step, r))

theorem advance_succ (d : Dispatcher) (n : Nat) (r : Runner) :
    advance d (n + 1) r = (move d r).bind (goOn d n r) := by
  refine congrArg (Flow.bind _) (funext fun m => ?_)
  cases m <;> rfl

/-- Announces the start or the end of the run, if it is one that does. -/
def announce (r : Runner) (stage : Stage) : Flow Unit :=
  if r.topLevel then Flow.announce stage .noop r.context else return

/-- The next step, or the fault that ends the run, or nothing if the run is over. -/
def next (d : Dispatcher) (n : Nat) (r : Runner) :
    Flow (Option (Except Fault Step) × Runner) := do
  if r.phase = .finished then return (none, r)
  if r.phase = .pending then r.announce .workflowStart
  match ← (advance d n { r with phase := .running }).attempt with
  | .ok (some step, r) => return (some (.ok step), r)
  | .ok (none, r) =>
    r.announce .workflowDone
    return (none, { r with phase := .finished })
  | .error e => return (some (.error e), { r with phase := .finished })

/-- What a call of `next` on a runner makes of the end of an advance. -/
def deliver (r : Runner) :
    Except Fault (Option Step × Runner) → Flow (Option (Except Fault Step) × Runner)
  | .ok (some step, r) => .done (.ok (some (.ok step), r))
  | .ok (none, r) =>
    (r.announce .workflowDone).bind fun _ => .done (.ok (none, { r with phase := .finished }))
  | .error e => .done (.ok (some (.error e), { r with phase := .finished }))

theorem next_of_finished {d : Dispatcher} {n : Nat} {r : Runner} (h : r.phase = .finished) :
    next d n r = .done (.ok (none, r)) := by
  unfold next
  rw [if_pos h]
  rfl

theorem next_of_running {d : Dispatcher} {n : Nat} {r : Runner} (h : r.phase = .running) :
    next d n r = (advance d n r).attempt.bind r.deliver := by
  obtain ⟨topLevel, context, frames, phase, dispatched⟩ := r
  subst h
  refine congrArg (Flow.bind _) (funext fun x => ?_)
  rcases x with e | ⟨_ | step, r⟩ <;> rfl

theorem next_of_pending {d : Dispatcher} {n : Nat} {r : Runner} (h : r.phase = .pending) :
    next d n r = (r.announce .workflowStart).bind fun _ => next d n { r with phase := .running } := by
  obtain ⟨topLevel, context, frames, phase, dispatched⟩ := r
  subst h
  rfl

/-- All steps to the end of the run, after those already taken, newest first. A fault ends the
whole. -/
def stepsFrom (d : Dispatcher) (taken : List Step) : Nat → Runner → Flow (List Step × Runner)
  | 0, _ => .starved
  | n + 1, r => do
    match ← next d n r with
    | (none, r) => return (taken.reverse, r)
    | (some (.ok step), r) => stepsFrom d (step :: taken) n r
    | (some (.error e), _) => .done (.error e)

/-- All steps to the end of the run. A fault ends the whole. -/
def steps (d : Dispatcher) (r : Runner) : Flow (List Step × Runner) := stepsFrom d [] d.fuel r

/-- What the run yields until it yields nothing, after what it has yielded, newest first. -/
def streamFrom (d : Dispatcher) (yielded : List (Except Fault Step)) :
    Nat → Runner → Flow (List (Except Fault Step))
  | 0, _ => .starved
  | n + 1, r => do
    match ← next d n r with
    | (none, _) => return yielded.reverse
    | (some item, r) => streamFrom d (item :: yielded) n r

/-- What the run yields until it yields nothing: its steps and, if it fails, its fault. -/
def stream (d : Dispatcher) (r : Runner) : Flow (List (Except Fault Step)) :=
  streamFrom d [] d.fuel r

/-- Runs to the end and gives back the context. -/
def finish (d : Dispatcher) (r : Runner) : Flow Handle := do
  let (_, r) ← r.steps d
  return r.context

end Runner

namespace Dispatcher

/-- Runs ops one after another in a context; the result of each executed op. -/
def runOps (d : Dispatcher) (ops : List Op) (context : Handle) : Flow (List Value) := do
  let (steps, _) ← (Runner.start false ops context).steps d
  return steps.map Step.result

/-- Executes an op that may be a loop. A loop yields the result of the last op executed in it, or
null. -/
def dispatch (d : Dispatcher) (op : Op) (context : Handle) : Flow Value := do
  if (LoopMode.ofKind? op.kind).isSome then
    let results ← d.runOps [op] context
    return results.getLast?.getD .null
  else d.exec op context

end Dispatcher

end WorkflowEngine
