import WorkflowEngine.Definition.Error
import WorkflowEngine.Op.Depth
import WorkflowEngine.Text.Blank
import WorkflowEngine.Workflow

/-!
# Valid workflows

A workflow is valid if it has a name and every op in it, however deep, has a kind that is not blank
and, if it has a parameter `ops` at all, inner ops that can be decoded. Otherwise the first op that
offends is reported, an op before its inner ops and these before the next op.
-/

namespace WorkflowEngine

/-- Where an op stands: the indices that lead to it, outermost first. -/
abbrev Location := List Nat

/-- The text of a location. -/
def Location.text : Location → String
  | [] => "ops"
  | [i] => "ops[" ++ Nat.repr i ++ "]"
  | i :: j :: rest => "ops[" ++ Nat.repr i ++ "]." ++ text (j :: rest)

/-- Why a workflow is not valid. -/
inductive Offence where
  | noName
  | blankKind (location : Location)
  | badOps (location : Location) (kind : String) (fault : Fault)
deriving DecidableEq

def Offence.toError : Offence → DefinitionError
  | .noName => { messages := ["Workflow name cannot be empty"] }
  | .blankKind location => { messages := ["Op " ++ location.text ++ " has empty kind"] }
  | .badOps location kind fault =>
    { messages := ["Op " ++ location.text ++ " (" ++ kind ++ ") has malformed inner ops"]
      cause := some (.fault fault) }

/-- Whether a kind has nothing but blanks. -/
def isBlankKind (kind : String) : Bool := kind.toList.all Text.isBlank

/-- The first offence of an op at a location, or of the ops inside it. -/
def Op.offence? (op : Op) (location : Location) : Option Offence :=
  if isBlankKind op.kind then some (.blankKind location)
  else if (op.param? opsKey).isNone then none
  else
    match h : op.innerOps with
    | .error fault => some (.badOps location op.kind fault)
    | .ok ops =>
      ops.attach.zipIdx.findSome? fun p =>
        have := depth_lt_of_mem_innerOps h p.1.2
        p.1.1.offence? (location ++ [p.2])
termination_by op.depth

/-- The first offence of a workflow. -/
def Workflow.offence? (w : Workflow) : Option Offence :=
  if w.name.isEmpty then some .noName
  else w.ops.zipIdx.findSome? fun p => p.1.offence? [p.2]

/-- A workflow, unless it has an offence. -/
def Workflow.validate (w : Workflow) : Except DefinitionError Workflow :=
  match w.offence? with
  | none => .ok w
  | some offence => .error offence.toError

end WorkflowEngine
