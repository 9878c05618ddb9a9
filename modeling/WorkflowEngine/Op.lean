import WorkflowEngine.Fault

/-!
# Ops

An op is one declarative step of a workflow: a kind, the name its result is to be bound to, if any,
and parameters that only the executor of its kind understands. Ops nest: an op that is made of other
ops holds them, encoded as values, in its parameter `ops`.

**Encoding.** `Op.encode` is the form in which a list of ops is stored in a parameter, and
`Op.decode` reads it back. `Op.toValue` is the form an op is shown in; the two differ only on ops
with a parameter called `kind` or `outputBinding`.

**Parameters** are read by what they should be: a parameter that is null counts as not given.
-/

namespace WorkflowEngine

structure Op where
  kind : String
  outputBinding : Option String := none
  params : Record Value := .empty
deriving DecidableEq

namespace Op

instance : Inhabited Op := ⟨{ kind := "" }⟩

/-- The op that stands for the workflow itself in events about it. -/
def noop : Op := { kind := "noop" }

/-! ## Encoding -/

def kindKey : String := "kind"

def bindingKey : String := "outputBinding"

/-- The form of an op inside the parameter `ops` of another. -/
def encode (op : Op) : Value :=
  let r := op.params.insert kindKey (.string op.kind)
  .ofRecord (op.outputBinding.elim r fun b => r.insert bindingKey (.string b))

/-- The form an op is shown in; a parameter called like one of its own fields hides that field. -/
def toValue (op : Op) : Value :=
  let r := Record.empty.insert kindKey (.string op.kind)
  let r := op.outputBinding.elim r fun b => r.insert bindingKey (.string b)
  .ofRecord (r.union op.params)

/-- The kind of an encoded op; `none` if there is none. -/
def decodeKind (fields : Record Value) : Except ShapeError (Option String) :=
  match fields.get? kindKey with
  | none => .ok none
  | some (.string s) => .ok (some s)
  | some v => .error (.unexpected v .string)

/-- The output binding of an encoded op. Null stands for none. -/
def decodeBinding (fields : Record Value) : Except ShapeError (Option String) :=
  match fields.get? bindingKey with
  | none | some .null => .ok none
  | some (.string s) => .ok (some s)
  | some v => .error (.unexpected v .string)

/-- Reads an encoded op: the fields in order of key, and the kind as the one that must be there. -/
def decode (v : Value) : Except ShapeError Op :=
  match v with
  | .object fields => do
    let r := Record.ofList fields
    let kind ← decodeKind r
    let binding ← decodeBinding r
    match kind with
    | some kind => return ⟨kind, binding, (r.erase kindKey).erase bindingKey⟩
    | none => throw .missingKind
  | v => throw (.unexpected v .op)

/-- Reads encoded ops, from the first to the last. -/
def decodeItems : List Value → Except ShapeError (List Op)
  | [] => .ok []
  | v :: vs => do
    let op ← decode v
    let ops ← decodeItems vs
    return op :: ops

/-- Reads a list of encoded ops. -/
def decodeList (v : Value) : Except ShapeError (List Op) :=
  match v with
  | .array items => decodeItems items
  | v => throw (.unexpected v .sequence)

/-! ## Parameters -/

/-- A parameter as it is given. -/
def param? (op : Op) (name : String) : Option Value := op.params.get? name

/-- The fault of a parameter that is not given. -/
def missing (op : Op) (name : String) : Fault := .missingParam op.kind name

/-- The fault of a parameter that is not what it should be. -/
def invalid (op : Op) (name : String) (complaint : Complaint) : Fault :=
  .invalidParam op.kind name complaint

/-- A parameter that is a text, if it is given. -/
def textParam (op : Op) (name : String) : Except Fault (Option String) :=
  match op.param? name with
  | none | some .null => .ok none
  | some (.string s) => .ok (some s)
  | some v => .error (op.invalid name (.notText v))

/-- A parameter that is a text and must be given. -/
def requireText (op : Op) (name : String) : Except Fault String := do
  match ← op.textParam name with
  | some s => return s
  | none => throw (op.missing name)

/-- A parameter that is a natural number, if it is given. -/
def natParam (op : Op) (name : String) : Except Fault (Option Nat) :=
  match op.param? name with
  | none | some .null => .ok none
  | some (.number n) =>
    match n.toNat? with
    | some k => .ok (some k)
    | none => .error (op.invalid name (.notNatural (.number n)))
  | some v => .error (op.invalid name (.notNatural v))

/-- The name of the parameter that holds inner ops. -/
def opsKey : String := "ops"

/-- The ops that this op is made of. Null is no list of ops. -/
def innerOps (op : Op) : Except Fault (List Op) :=
  match op.param? opsKey with
  | none => .error (op.missing opsKey)
  | some v => (decodeList v).mapError fun e => op.invalid opsKey (.ops e)

/-! ## Building -/

/-- An op of a kind, without parameters. -/
def new (kind : String) : Op := { kind }

def withParam (op : Op) (name : String) (value : Value) : Op :=
  { op with params := op.params.insert name value }

/-- Adds the fields of an object as parameters; any other value adds none. -/
def withParams (op : Op) (values : Value) : Op :=
  { op with params := op.params.insertAll values.fieldList }

def withOps (op : Op) (ops : List Op) : Op := op.withParam opsKey (.array (ops.map encode))

/-- Binds the result to a name. -/
def output (op : Op) (name : String) : Op := { op with outputBinding := some name }

/-- Fills in a template. -/
def format (template : String) : Op := (new "format").withParam "template" (.string template)

/-- Joins the array that a path leads to. -/
def join (inputKey separator : String) : Op :=
  ((new "join").withParam "inputKey" (.string inputKey)).withParam "separator" (.string separator)

/-- Answers a value. -/
def set (value : Value) : Op := (new "set").withParam "value" value

/-- Runs ops one after another in a copy of the context. -/
def sequential (ops : List Op) : Op := (new "sequential").withOps ops

/-- Runs ops at the same time in the same context. -/
def parallel (ops : List Op) : Op := (new "parallel").withOps ops

/-- Runs ops once for every item of an array. -/
def map (inputKey itemVariable : String) (ops : List Op) : Op :=
  (((new "map").withParam "inputKey" (.string inputKey)).withParam "itemVariable"
    (.string itemVariable)).withOps ops

/-- Repeats ops as long as a condition holds. -/
def repeatWhile (condition : String) (ops : List Op) : Op :=
  ((new "while").withParam "condition" (.string condition)).withOps ops

/-- Repeats ops as long as a condition does not hold. -/
def repeatUntil (condition : String) (ops : List Op) : Op :=
  ((new "until").withParam "condition" (.string condition)).withOps ops

end Op

end WorkflowEngine
