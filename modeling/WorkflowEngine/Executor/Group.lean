import WorkflowEngine.Executor.Input
import WorkflowEngine.FanOut
import WorkflowEngine.Runner

/-!
# Executors for groups of ops

`sequential` runs its inner ops one after another in a copy of the context, so that nothing but its
result is seen outside. `parallel` runs them at the same time in the context itself. `map` runs them
once for each item of an array, one item after another, each time in a copy of the context.
-/

namespace WorkflowEngine.Executor

/-- `sequential`: the result of every op that was executed, loops included. -/
def sequential : Executor := fun d op context => do
  let ops ← op.innerOps
  let inner ← Flow.copy context
  return .array (← d.runOps ops inner)

/-- How many branches of a parallel op may run at a time. -/
def concurrency (config : Config) (op : Op) (branches : Nat) : Except Fault Nat := do
  let own ← op.natParam "concurrency"
  return (own.or config.parallelConcurrency).getD branches

/-- `parallel`: one result for each inner op, in their order. -/
def parallel : Executor := fun d op context => do
  let ops ← op.innerOps
  let cap ← concurrency d.config op ops.length
  return .array (← FanOut.run d.fuel (ops.map (d.dispatch · context)) cap fun _ => return)

/-- The context in which the inner ops of `map` run for one item. -/
def itemBindings (b : Bindings) (name : String) (item : Value) : Bindings :=
  (b.insert name item).erase Bindings.outputKey

/-- The results of `map` for some items, after those for the items before, newest first. -/
def mapItems (d : Dispatcher) (ops : List Op) (name : String) (context : Handle)
    (results : List Value) : List Value → Flow (List Value)
  | [] => return results.reverse
  | item :: items => do
    Flow.check
    let inner ← Flow.create (itemBindings (← Flow.view context) name item)
    let _ ← d.runOps ops inner
    let b ← Flow.view inner
    mapItems d ops name context (b.output.getD .null :: results) items

/-- `map`: for each item the result of the last op executed for it, or null. -/
def map : Executor := fun d op context => do
  let items ← inputArray op (← Flow.view context)
  let name ← op.textParam "itemVariable"
  let ops ← op.innerOps
  return .array (← mapItems d ops (name.getD "item") context [] items)

end WorkflowEngine.Executor
