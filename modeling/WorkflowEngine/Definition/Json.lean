import WorkflowEngine.Definition.Parts
import WorkflowEngine.Json.Reader

/-!
# The shape of a workflow in JSON

A workflow is an object with the fields `name`, `description` and `ops`, or an array of the three in
this order; of an array the later ones may be missing. Fields that a workflow does not have are
passed over. An op is an object with the fields `kind` and `outputBinding`; all its other fields are
parameters. Null stands for no description and for no output binding.

A field that is given twice is an error if it is one of those named here, and otherwise its last
value counts.
-/

namespace WorkflowEngine.Json

namespace Draft

/-- A draft that has to be a text. -/
def text : Draft → Except Defect String
  | .scalar (.string s) => .ok s
  | .flawed => .error .malformed
  | .broken b => .error b.wanted
  | _ => .error .misshapen

/-- A draft that has to be a text or null. -/
def text? : Draft → Except Defect (Option String)
  | .scalar .null => .ok none
  | d => some <$> d.text

/-- Passes over a draft. -/
def skip (d : Draft) : Except Defect Unit :=
  match d.breach? with
  | none => .ok ()
  | some b => .error b.passed

/-- An error unless a field is new. -/
def once {α : Type} (before : Option α) : Except Defect Unit :=
  if before.isSome then .error .misshapen else .ok ()

/-! ## Ops -/

/-- Reads one field of an op. -/
def opField (depth : Nat) (f : OpParts) (key : String) (d : Draft) : Except Defect OpParts :=
  if key = Op.kindKey then do
    once f.kind
    return { f with kind := some (← d.text) }
  else if key = Op.bindingKey then do
    once f.binding
    return { f with binding := some (← d.text?) }
  else do
    return { f with params := f.params.insert key (← d.value depth) }

/-- Reads the fields of an op in the order in which they are written. -/
def opFields (depth : Nat) (f : OpParts) : List (Option String × Draft) → Except Defect OpParts
  | [] => .ok f
  | (k, d) :: ds => do
    let f ← opField depth f (← key k d) d
    opFields depth f ds

/-- Reads an op. -/
def op (depth : Nat) : Draft → Except Defect Op
  | .object fields => do
    let f ← opFields (depth - 1) {} fields
    match f.toOp? with
    | some op => return op
    | none => throw .misshapen
  | .flawed => throw .malformed
  | .broken b => throw b.wanted
  | _ => throw .misshapen

/-- Reads a list of ops. -/
def ops (depth : Nat) : Draft → Except Defect (List Op)
  | .array items breach => do arrayEnd breach (← items.mapM (op (depth - 1)))
  | .flawed => throw .malformed
  | .broken b => throw b.wanted
  | _ => throw .misshapen

/-! ## Workflows -/

/-- Reads one field of a workflow. -/
def workflowField (depth : Nat) (f : WorkflowParts) (key : String) (d : Draft) :
    Except Defect WorkflowParts :=
  match key with
  | "name" => do
    once f.name
    return { f with name := some (← d.text) }
  | "description" => do
    once f.description
    return { f with description := some (← d.text?) }
  | "ops" => do
    once f.ops
    return { f with ops := some (← d.ops depth) }
  | _ => do
    d.skip
    return f

/-- Reads the fields of a workflow in the order in which they are written. -/
def workflowFields (depth : Nat) (f : WorkflowParts) :
    List (Option String × Draft) → Except Defect WorkflowParts
  | [] => .ok f
  | (k, d) :: ds => do
    let f ← workflowField depth f (← key k d) d
    workflowFields depth f ds

/-- Reads a workflow that is written as an array. After the third item nothing but the end may
stand, and what follows a comma there is not looked at. -/
def workflowItems (depth : Nat) (items : List Draft) (breach : Option Breach) :
    Except Defect WorkflowParts :=
  match items with
  | [] => arrayEnd breach {}
  | [d] => do arrayEnd breach { name := some (← d.text) }
  | [d, e] => do arrayEnd breach { name := some (← d.text), description := some (← e.text?) }
  | d :: e :: g :: more => do
    let f : WorkflowParts :=
      { name := some (← d.text), description := some (← e.text?), ops := some (← g.ops depth) }
    if more.isEmpty then arrayEnd breach f else throw .malformed

/-- Reads a workflow. -/
def workflow (depth : Nat) (d : Draft) : Except Defect Workflow := do
  let f ← match d with
    | .object fields => workflowFields (depth - 1) {} fields
    | .array items breach => workflowItems (depth - 1) items breach
    | .flawed => throw .malformed
    | .broken b => throw b.wanted
    | .scalar _ => throw .misshapen
  match f.toWorkflow? with
  | some w => return w
  | none => throw .misshapen

end Draft

/-- The workflow that a text describes. -/
def workflow (text : List Char) : Except Defect Workflow := do
  let r := read text
  let w ← r.draft.workflow maxDepth
  r.finish w

end WorkflowEngine.Json
