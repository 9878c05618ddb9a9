import WorkflowEngine.Dispatcher
import WorkflowEngine.Template

/-!
# Inputs of executors

Many executors work on a value of the context, to which their parameter `inputKey` is the path.
-/

namespace WorkflowEngine.Executor

/-- The items of the array at `inputKey`. -/
def inputArray (op : Op) (b : Bindings) : Except Fault (List Value) := do
  let path ← op.requireText "inputKey"
  match b.lookup path with
  | some (.array items) => return items
  | some v => throw (op.invalid "inputKey" (.holdsNoArray path v))
  | none => throw (op.invalid "inputKey" (.unbound path))

/-- The text of the value at `inputKey`, or else the template `text`, filled in. -/
def inputText (op : Op) (b : Bindings) : Except Fault String := do
  match ← op.textParam "inputKey" with
  | some path =>
    match b.lookup path with
    | some v => return v.plain
    | none => throw (op.invalid "inputKey" (.unbound path))
  | none =>
    match ← op.textParam "text" with
    | some template => return b.resolve template
    | none => throw (op.missing "inputKey")

/-- An executor that only reads its context, and does nothing else. -/
def reading (f : Op → Bindings → Except Fault Value) : Executor := fun _ op context => do
  let b ← Flow.view context
  Flow.ofExcept (f op b)

end WorkflowEngine.Executor
