import WorkflowEngine.Executor.Input
import WorkflowEngine.Json.Fragments

/-!
# Executors that make texts and values

`format` fills in a template, `join` writes the items of an array one after another, and `set`
answers a value with its templates filled in. `parseJSON` reads a text as JSON, and `extractJson`
finds the JSON in a text. They only read the context.
-/

namespace WorkflowEngine.Executor

/-- `format`: the parameter `template`, filled in. -/
def format : Executor := reading fun op b => do
  return .string (b.resolve (← op.requireText "template"))

/-- The items that `join` writes: those of the array at `inputKey`, if that is given at all, or else
those of the parameter `items`, filled in. -/
def joinItems (op : Op) (b : Bindings) : Except Fault (List Value) :=
  match op.param? "inputKey" with
  | some _ => inputArray op b
  | none =>
    match op.param? "items" with
    | some (.array items) => .ok (b.resolveItems items)
    | some v => .error (op.invalid "items" (.notArray v))
    | none => .error (op.missing "inputKey")

/-- `join`: items with `separator` between them. -/
def join : Executor := reading fun op b => do
  let separator ← op.textParam "separator"
  let items ← joinItems op b
  return .string (Value.join items (separator.getD ""))

/-- `set`: the parameter `value`, with its templates filled in. -/
def set : Executor := reading fun op b =>
  match op.param? "value" with
  | some v => .ok (b.resolveValue v)
  | none => .error (op.missing "value")

/-- `extractJson`: the JSON objects and arrays in the input. -/
def extractJson : Executor := reading fun op b => do
  return .array (Json.fragments (← inputText op b))

/-- `parseJSON`: the input as one JSON value, with blanks around it. -/
def parseJson : Executor := reading fun op b => do
  let text ← inputText op b
  (Json.parse (Text.trim text.toList)).mapError Fault.json

end WorkflowEngine.Executor
