import WorkflowEngine.Workflow

/-!
# Parts of a workflow

What has been read of an op or of a workflow while its fields are read one by one. A field that is
still missing can be told from one that was given and stands for nothing, so that a field that is
given twice is noticed.
-/

namespace WorkflowEngine

/-- The fields of an op read so far. -/
structure OpParts where
  kind : Option String := none
  binding : Option (Option String) := none
  params : Record Value := .empty

/-- The op, if no field that it needs is missing. -/
def OpParts.toOp? (p : OpParts) : Option Op :=
  p.kind.map fun kind => ⟨kind, p.binding.join, p.params⟩

/-- The fields of a workflow read so far. -/
structure WorkflowParts where
  name : Option String := none
  description : Option (Option String) := none
  ops : Option (List Op) := none

/-- The workflow, if no field that it needs is missing. -/
def WorkflowParts.toWorkflow? (p : WorkflowParts) : Option Workflow :=
  p.name.map fun name => ⟨name, p.description.join, p.ops.getD []⟩

/-- The fields of a configuration read so far. -/
structure ConfigParts where
  parallelConcurrency : Option (Option Nat) := none
  maxLoopIterations : Option (Option Nat) := none
  fetchTimeoutMs : Option Nat := none
  defaultPersona : Option String := none

/-- The configuration; fields that are missing have their defaults. -/
def ConfigParts.toConfig (p : ConfigParts) : Config where
  parallelConcurrency := p.parallelConcurrency.join
  maxLoopIterations := p.maxLoopIterations.join
  fetchTimeoutMs := p.fetchTimeoutMs.getD ({} : Config).fetchTimeoutMs
  defaultPersona := p.defaultPersona.getD ({} : Config).defaultPersona

end WorkflowEngine
