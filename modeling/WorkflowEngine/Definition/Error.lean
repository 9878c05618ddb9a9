import WorkflowEngine.Fault

/-!
# Errors in definitions

What keeps a text from being read as a workflow or a configuration. An error is told from the
outside in: a message for each level, and at the end the cause. Causes that are faults of a text or
of a file have no message of their own here; whoever shows the error names them.
-/

namespace WorkflowEngine

inductive Cause where
  | yaml
  | json (defect : Json.Defect)
  /-- The file cannot be read. -/
  | file
  | fault (fault : Fault)
deriving DecidableEq

/-- Messages, outermost first, and the cause if the last message does not tell it. -/
structure DefinitionError where
  messages : List String
  cause : Option Cause := none
deriving DecidableEq

/-- Puts an error into a wider context. -/
def DefinitionError.within (e : DefinitionError) (message : String) : DefinitionError :=
  { e with messages := message :: e.messages }

end WorkflowEngine
