import WorkflowEngine.Config
import WorkflowEngine.Flow

/-!
# Dispatchers, executors and registries

An executor gives one kind of op its meaning. It is handed the op, a handle on the context, and a
dispatcher through which it can have other ops executed. A registry says which executor a kind has;
kinds are an open set, and of two executors registered for one kind the later counts.
-/

namespace WorkflowEngine

/-- What an executor may ask of the engine it runs in. -/
structure Dispatcher where
  config : Config
  /-- After how many steps a run of this dispatcher is cut off. -/
  fuel : Nat
  /-- Executes one op that is no loop. -/
  exec : Op → Handle → Flow Value

/-- The meaning of a kind of op. -/
abbrev Executor := Dispatcher → Op → Handle → Flow Value

/-- The executors of an engine, by kind. -/
abbrev Registry := Record Executor

namespace Registry

/-- What is shown of a registry. -/
def describe (r : Registry) : String :=
  "Registry \x7b kinds: [" ++ ", ".intercalate (r.keys.map Text.inQuotes) ++ "] \x7d"

end Registry

end WorkflowEngine
