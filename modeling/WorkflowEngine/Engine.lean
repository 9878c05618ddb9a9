import WorkflowEngine.Executor.Fetch
import WorkflowEngine.Executor.Group
import WorkflowEngine.Executor.Prompt
import WorkflowEngine.Executor.Text

/-!
# Engines

An engine executes ops: it announces the op, finds the executor of its kind, runs it, binds the
result under the op's output binding and under the reserved name, and announces the op again. An op
that fails binds nothing.

**Built-in kinds.** `Registry.builtin` holds the executors of this library. An engine is built by
laying the executors of its host over them, so that the host's come first.

**Fuel.** Executors call back into the engine. `Engine.exec n` lets calls nest, and lists of ops go
on, for at most `n` steps.
-/

namespace WorkflowEngine

/-! ## Built-in kinds -/

namespace Registry

/-- The executors that need no language model. -/
def plain (client : Http.Client) : Registry := .ofList [
  ("format", Executor.format),
  ("join", Executor.join),
  ("set", Executor.set),
  ("sequential", Executor.sequential),
  ("parallel", Executor.parallel),
  ("map", Executor.map),
  ("extractJson", Executor.extractJson),
  ("parseJSON", Executor.parseJson),
  ("fetch", Executor.fetch client)]

/-- The executors that ask a language model. -/
def ofModel (model : LanguageModel) : Registry := .ofList [
  ("prompt", Executor.prompt model),
  ("promptForJson", Executor.promptForJson model)]

/-- The executors of this library; those that ask a language model only if there is one. -/
def builtin (model : Option LanguageModel) (client : Http.Client := Http.outside) : Registry :=
  model.elim (plain client) fun m => (plain client).union (ofModel m)

end Registry

/-! ## Engines -/

structure Engine where
  registry : Registry
  config : Config := {}

namespace Engine

/-- Binds the result of an op in its context. -/
def bindResult (op : Op) (context : Handle) (result : Value) : Flow Unit := do
  if let some name := op.outputBinding then Flow.store context name result
  Flow.store context Bindings.outputKey result

/-- Executes one op that is no loop. -/
def exec (e : Engine) : Nat → Op → Handle → Flow Value
  | 0, _, _ => .starved
  | n + 1, op, context => do
    Flow.announce .opPre op context
    match e.registry.get? op.kind with
    | none => Flow.fail (.unknownKind op.kind)
    | some executor =>
      let result ← executor ⟨e.config, n, e.exec n⟩ op context
      bindResult op context result
      Flow.announce .opPost op context
      return result

/-- What executors may ask of this engine. -/
def dispatcher (e : Engine) (n : Nat) : Dispatcher := ⟨e.config, n, e.exec n⟩

end Engine

/-! ## Building an engine -/

/-- What a host supplies for an engine, one thing after another. -/
structure EngineBuilder where
  executors : Registry := .empty
  model : Option LanguageModel := none
  config : Config := {}

namespace EngineBuilder

/-- Supplies one executor. -/
def executor (b : EngineBuilder) (kind : String) (x : Executor) : EngineBuilder :=
  { b with executors := b.executors.insert kind x }

/-- Supplies a function of the op and its context as an executor: it asks nothing of the engine. -/
def function (b : EngineBuilder) (kind : String) (f : Op → Handle → Flow Value) : EngineBuilder :=
  b.executor kind fun _ => f

/-- Supplies all executors of a registry. -/
def allOf (b : EngineBuilder) (r : Registry) : EngineBuilder :=
  { b with executors := b.executors.union r }

/-- Supplies the model of the kinds that ask one. -/
def languageModel (b : EngineBuilder) (m : LanguageModel) : EngineBuilder :=
  { b with model := some m }

def configured (b : EngineBuilder) (c : Config) : EngineBuilder := { b with config := c }

/-- The engine: the built-in executors, and over them those of the host. -/
def build (b : EngineBuilder) : Engine :=
  ⟨(Registry.builtin b.model).union b.executors, b.config⟩

end EngineBuilder

end WorkflowEngine
