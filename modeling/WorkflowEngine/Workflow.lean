import WorkflowEngine.Engine

/-!
# Workflows

A workflow is a named list of ops. Running it does not change it; each run has a context of its own.
-/

namespace WorkflowEngine

structure Workflow where
  name : String
  description : Option String := none
  ops : List Op := []
deriving DecidableEq

/-- What a run that keeps its steps comes to. -/
structure Execution where
  /-- The result of the last step, or null. -/
  result : Value
  steps : List Step
  context : Handle

namespace Workflow

instance : Inhabited Workflow := ⟨{ name := "" }⟩

/-! ## Building -/

/-- A workflow without ops. -/
def empty (name : String) : Workflow := { name }

def describe (w : Workflow) (description : String) : Workflow :=
  { w with description := some description }

/-- Adds an op at the end. -/
def add (w : Workflow) (op : Op) : Workflow := { w with ops := w.ops ++ [op] }

/-- The workflow as a value. -/
def toValue (w : Workflow) : Value :=
  .ofRecord <| .ofList <|
    ("name", .string w.name) :: ("ops", .array (w.ops.map Op.toValue)) ::
      (w.description.map fun d => ("description", Value.string d)).toList

/-! ## Running -/

/-- A run of the workflow, before its first step. -/
def runner (w : Workflow) (context : Handle) : Runner := .start true w.ops context

/-- Runs all ops and gives back the context. -/
def run (w : Workflow) (d : Dispatcher) (context : Handle) : Flow Handle :=
  (w.runner context).finish d

/-- Runs all ops and keeps the steps. -/
def execute (w : Workflow) (d : Dispatcher) (context : Handle) : Flow Execution := do
  let (steps, r) ← (w.runner context).steps d
  return ⟨(steps.getLast?.map Step.result).getD .null, steps, r.context⟩

end Workflow

end WorkflowEngine
