import WorkflowEngine.Definition.Parts
import WorkflowEngine.Yaml.Reading

/-!
# The shape of workflows and configurations in YAML

A workflow is a mapping with the fields `name`, `description` and `ops`, an op one with the fields
`kind` and `outputBinding` and with parameters, and a configuration one with the fields of `Config`.
The fields of an op that are no parameters, and those of a workflow, are taken as they are written,
even if they look like numbers. Other fields of workflows and configurations are passed over.

A field that is given twice is an error, but of a parameter the last value counts.
-/

namespace WorkflowEngine.Yaml

namespace Reading

/-- Fails unless a field is new. -/
def once {α : Type} (before : Option α) : Reading Unit := do
  if before.isSome then failure

/-! ## Ops -/

/-- Reads one field of an op whose parameters are nested less than `depth` deep. -/
def opField (a : Anchors) (depth : Nat) (p : OpParts) (e : Node × Node) : Reading OpParts := do
  let key ← text a e.1
  if key = Op.kindKey then
    once p.kind
    return { p with kind := some (← text a e.2) }
  else if key = Op.bindingKey then
    once p.binding
    return { p with binding := some (← text? a e.2) }
  else return { p with params := p.params.insert key (← value a depth e.2) }

/-- Reads an op. -/
def op (a : Anchors) (depth : Nat) (n : Node) : Reading Op := do
  let p ← (← entries a n).foldlM (opField a depth) {}
  ofOption p.toOp?

/-! ## Workflows -/

/-- Reads one field of a workflow. The workflow, its list of ops and each op are three collections
around the parameters of an op. -/
def workflowField (a : Anchors) (p : WorkflowParts) (e : Node × Node) : Reading WorkflowParts := do
  match ← text a e.1 with
  | "name" =>
    once p.name
    return { p with name := some (← text a e.2) }
  | "description" =>
    once p.description
    return { p with description := some (← text? a e.2) }
  | "ops" =>
    once p.ops
    return { p with ops := some (← (← items a e.2).mapM (op a (maxDepth - 3 + 1))) }
  | _ => return p

/-- Reads a workflow. -/
def workflow (a : Anchors) (n : Node) : Reading Workflow := do
  let p ← (← entries a n).foldlM (workflowField a) {}
  ofOption p.toWorkflow?

/-! ## Configurations -/

/-- Reads one field of a configuration. -/
def configField (a : Anchors) (p : ConfigParts) (e : Node × Node) : Reading ConfigParts := do
  match ← text a e.1 with
  | "parallel_concurrency" =>
    once p.parallelConcurrency
    return { p with parallelConcurrency := some (← nat? a e.2) }
  | "max_loop_iterations" =>
    once p.maxLoopIterations
    return { p with maxLoopIterations := some (← nat? a e.2) }
  | "fetch_timeout_ms" =>
    once p.fetchTimeoutMs
    return { p with fetchTimeoutMs := some (← nat a e.2) }
  | "default_persona" =>
    once p.defaultPersona
    return { p with defaultPersona := some (← text a e.2) }
  | _ => return p

/-- Reads a configuration. -/
def config (a : Anchors) (n : Node) : Reading Config := do
  let p ← (← entries a n).foldlM (configField a) {}
  return p.toConfig

end Reading

/-- The workflow that a text describes. -/
def workflow (text : String) : Option Workflow := read text Reading.workflow

/-- The configuration that a text describes. -/
def config (text : String) : Option Config := read text Reading.config

end WorkflowEngine.Yaml
