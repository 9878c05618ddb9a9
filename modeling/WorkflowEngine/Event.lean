import WorkflowEngine.Op
import WorkflowEngine.Context.Store

/-!
# Events

A run announces its progress: its start and end, and each op before it is dispatched and after its
result has been bound. A listener is told the bindings of the event's context at that moment. It may
write into the journal of the run and may request a stop, and nothing else.
-/

namespace WorkflowEngine

inductive Stage where
  | workflowStart
  | opPre
  | opPost
  | workflowDone
deriving DecidableEq

namespace Stage

def name : Stage → String
  | .workflowStart => "workflow:start"
  | .opPre => "op:pre"
  | .opPost => "op:post"
  | .workflowDone => "workflow:done"

def all : List Stage := [.workflowStart, .opPre, .opPost, .workflowDone]

end Stage

structure Event where
  stage : Stage
  op : Op
  context : Handle
deriving DecidableEq

/-- What a listener does about an event. -/
structure Reaction where
  notes : List Value := []
  stops : Bool := false

/-- Reacts to an event, given the bindings of its context. -/
abbrev Listener := Event → Bindings → Reaction

/-- The listener that does nothing. -/
def Listener.silent : Listener := fun _ _ => {}

/-- The listener that notes every event: its stage, the op's kind and output binding, the number of
bound names and, if a path is watched, what it leads to. -/
def Listener.recording (watch : Option String) : Listener := fun e b =>
  let entry : List Value :=
    [.string e.stage.name, .string e.op.kind, e.op.outputBinding.elim .null .string, .nat b.size]
  { notes := [.array (entry ++ (watch.map fun p => Value.ofOption (b.lookup p)).toList)] }

end WorkflowEngine
