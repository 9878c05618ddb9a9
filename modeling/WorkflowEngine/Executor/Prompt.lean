import WorkflowEngine.Executor.Input
import WorkflowEngine.LanguageModel

/-!
# Executors that ask a language model

`prompt` answers the model's reply and `promptForJson` a value that follows a schema. Both are given
up as soon as a stop of the run has been requested.
-/

namespace WorkflowEngine.Executor

/-- The persona of an op, filled in, or else the one of the configuration, as it is. -/
def persona (config : Config) (op : Op) (b : Bindings) : Except Fault String := do
  return (← op.textParam "persona").elim config.defaultPersona b.resolve

/-- `prompt`: the reply to the parameter `prompt`, filled in. -/
def prompt (model : LanguageModel) : Executor := fun d op context => do
  let b ← Flow.view context
  let persona ← persona d.config op b
  let text ← op.requireText "prompt"
  return .string (← (model.prompt persona (b.resolve text)).abortable)

/-- `promptForJson`: a value that follows the parameter `schema`. -/
def promptForJson (model : LanguageModel) : Executor := fun d op context => do
  let b ← Flow.view context
  let persona ← persona d.config op b
  let text ← op.requireText "prompt"
  match op.param? "schema" with
  | none => Flow.fail (op.missing "schema")
  | some schema => (model.promptForJson persona (b.resolve text) schema).abortable

end WorkflowEngine.Executor
