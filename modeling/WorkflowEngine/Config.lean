import WorkflowEngine.Value

/-!
# Engine configuration

Limits and defaults that hold for every run of an engine unless an op says otherwise.
-/

namespace WorkflowEngine

structure Config where
  /-- How many branches of a parallel op may run at a time; without it, all of them. -/
  parallelConcurrency : Option Nat := none
  /-- How many passes a loop may start; without it, any number. -/
  maxLoopIterations : Option Nat := none
  fetchTimeoutMs : Nat := 30000
  defaultPersona : String := "You are a helpful assistant."
deriving DecidableEq

namespace Config

instance : Inhabited Config := ⟨{}⟩

/-- The configuration as a value. -/
def toValue (c : Config) : Value :=
  .ofRecord <| .ofList [
    ("parallel_concurrency", c.parallelConcurrency.elim .null .nat),
    ("max_loop_iterations", c.maxLoopIterations.elim .null .nat),
    ("fetch_timeout_ms", .nat c.fetchTimeoutMs),
    ("default_persona", .string c.defaultPersona)]

end Config

end WorkflowEngine
