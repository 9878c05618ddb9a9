import WorkflowEngine.Engine

/-!
# Executors for rehearsals

A host brings its own executors. These are simple ones with which workflows can be rehearsed: they
count, compare, collect and remove, wait, fail, request a stop, and dispatch an op that is given as
a value. A parameter that is not what it should be counts as not given.
-/

namespace WorkflowEngine.Rehearsal

/-- A parameter that is a text, or else a default. -/
def textOr (op : Op) (name default : String) : String :=
  match op.param? name with
  | some (.string s) => s
  | _ => default

/-- A value as a signed 64-bit integer. -/
def integer? : Option Value → Option Int
  | some (.number n) => n.toInt64?
  | _ => none

/-- The number of pauses that an op asks for. -/
def ticks (v : Option Value) : Nat :=
  match v with
  | some (.number n) => n.toNat?.getD 0
  | _ => 0

/-- A fault given as a value: its variant, and what belongs to it. -/
def faultOf (v : Value) : Fault :=
  let text (key : String) :=
    match v.field? key with
    | some (.string s) => s
    | _ => ""
  match text "variant" with
  | "UnknownKind" => .unknownKind (text "kind")
  | "MissingParam" => .missingParam (text "kind") (text "param")
  | "InvalidParam" => .invalidParam (text "kind") (text "param") (.text (text "message"))
  | "Cancelled" => .cancelled
  | "LoopLimit" => .loopLimit (text "kind") (text "condition") (ticks (v.field? "limit"))
  | "Json" =>
    match Json.parse (text "message").toList with
    | .error defect => .json defect
    | .ok _ => .other (text "message")
  | _ => .other (text "message")

/-- `increment`: adds `by` to the integer bound to `key`. -/
def increment : Executor := fun _ op context => do
  let key := textOr op "key" "n"
  let b ← Flow.view context
  let sum := (integer? (b.get? key)).getD 0 + (integer? (op.param? "by")).getD 1
  Flow.store context key (.int sum)
  return .int sum

/-- `less`: whether the integer bound to `key` is less than `than`, bound to `to`. -/
def less : Executor := fun _ op context => do
  let b ← Flow.view context
  let n := (integer? (b.get? (textOr op "key" "n"))).getD 0
  let answer := Value.bool (n < (integer? (op.param? "than")).getD 0)
  Flow.store context (textOr op "to" "go") answer
  return answer

/-- `push`: adds `value`, filled in, to the end of the array bound to `key`. -/
def push : Executor := fun _ op context => do
  let key := textOr op "key" "trail"
  let b ← Flow.view context
  let before := match b.get? key with
    | some (.array items) => items
    | _ => []
  let items := before ++ [b.resolveValue ((op.param? "value").getD .null)]
  Flow.store context key (.array items)
  return .nat items.length

/-- `remove`: unbinds `key`. -/
def remove : Executor := fun _ op context => do
  let key := textOr op "key" "n"
  let b ← Flow.view context
  Flow.unbind context key
  return (b.get? key).getD .null

/-- `wait`: after some pauses, `value`, filled in. -/
def wait : Executor := fun _ op context => do
  Flow.wait (ticks (op.param? "ticks"))
  let b ← Flow.view context
  return b.resolveValue ((op.param? "value").getD .null)

/-- `fail`: after some pauses, the fault `with`. -/
def fail : Executor := fun _ op _ => do
  Flow.wait (ticks (op.param? "ticks"))
  Flow.fail (faultOf ((op.param? "with").getD .null))

/-- `cancel`: after some pauses, requests a stop. -/
def cancel : Executor := fun _ op _ => do
  Flow.wait (ticks (op.param? "ticks"))
  Flow.requestStop
  return (op.param? "value").getD .null

/-- `dispatch`: executes the op `target`, by itself, as a list of one, or as an op that may be a
loop. -/
def dispatch : Executor := fun d op context => do
  match Op.decode ((op.param? "target").getD .null) with
  | .error _ => Flow.fail (.json .misshapen)
  | .ok target =>
    match textOr op "via" "dispatch" with
    | "exec_op" => d.exec target context
    | "run_ops" => return .array (← d.runOps [target] context)
    | _ => d.dispatch target context

/-- An executor that answers a fixed value. -/
def answering (v : Value) : Executor := fun _ _ _ => return v

/-- The executors for rehearsals. -/
def executors : Registry := .ofList [
  ("increment", increment), ("less", less), ("push", push), ("remove", remove), ("wait", wait),
  ("fail", fail), ("cancel", cancel), ("dispatch", dispatch)]

end WorkflowEngine.Rehearsal
