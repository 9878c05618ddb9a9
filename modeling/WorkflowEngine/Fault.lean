import WorkflowEngine.Json.Draft
import WorkflowEngine.Json.Text
import WorkflowEngine.Text.Quoted

/-!
# Faults

What can go wrong in a run, by cause. A run ends with its first fault.

**Definition faults** lie in the workflow itself: an unknown kind, a missing or an invalid
parameter. The others arise while it runs.
-/

namespace WorkflowEngine

/-! ## Misshapen ops -/

/-- What a value should have been. -/
inductive Shape where
  | sequence
  | op
  | string
deriving DecidableEq

/-- Why a value is not an op, or not a list of ops. -/
inductive ShapeError where
  | unexpected (found : Value) (wanted : Shape)
  | missingKind
deriving DecidableEq

namespace Shape

def name : Shape → String
  | .sequence => "a sequence"
  | .op => "struct Op"
  | .string => "a string"

/-- What a message calls a value that is not what it should be. -/
def describe : Value → String
  | .null => "null"
  | .bool b => "boolean `" ++ (if b then "true" else "false") ++ "`"
  | .number (.int i) => "integer `" ++ (Number.int i).text ++ "`"
  | .number (.double d) => "floating point `" ++ d.text ++ "`"
  | .string s => "string " ++ Text.inQuotes s
  | .array _ => "sequence"
  | .object _ => "map"

end Shape

def ShapeError.message : ShapeError → String
  | .unexpected found wanted =>
    "invalid type: " ++ Shape.describe found ++ ", expected " ++ wanted.name
  | .missingKind => "missing field `kind`"

/-! ## Invalid parameters -/

/-- What is wrong with a parameter, or with the value it points at. -/
inductive Complaint where
  | notText (found : Value)
  | notNatural (found : Value)
  | notArray (found : Value)
  | notObject
  /-- A path that leads to something other than an array. -/
  | holdsNoArray (path : String) (found : Value)
  /-- A path that leads nowhere. -/
  | unbound (path : String)
  | noMethod
  | noResponseType (found : String)
  | ops (error : ShapeError)
  | text (message : String)
deriving DecidableEq

def Complaint.message : Complaint → String
  | .notText v => "expected a string, got " ++ v.text
  | .notNatural v => "expected a non-negative integer, got " ++ v.text
  | .notArray v => "expected an array, got " ++ v.text
  | .notObject => "expected an object"
  | .holdsNoArray path v => "'" ++ path ++ "' holds " ++ v.text ++ ", not an array"
  | .unbound path => "'" ++ path ++ "' is not bound"
  | .noMethod => "invalid HTTP method"
  | .noResponseType s => "expected 'json' or 'text', got '" ++ s ++ "'"
  | .ops e => e.message
  | .text s => s

/-! ## Faults -/

/-- Why an HTTP exchange failed. -/
inductive HttpError where
  /-- The request cannot be built: a bad URL, header name or header value. -/
  | builder
  /-- The server answered with a status that is an error. -/
  | status (code : Nat)
  | timeout
  /-- The body of the answer is not what was asked for. -/
  | decode
  /-- There was no answer. -/
  | request
deriving DecidableEq

def HttpError.name : HttpError → String
  | .builder => "builder"
  | .status _ => "status"
  | .timeout => "timeout"
  | .decode => "decode"
  | .request => "request"

inductive Fault where
  /-- No executor is registered for the kind. -/
  | unknownKind (kind : String)
  | missingParam (kind param : String)
  | invalidParam (kind param : String) (complaint : Complaint)
  /-- The run was asked to stop. -/
  | cancelled
  /-- A loop would start more passes than its limit allows. -/
  | loopLimit (kind condition : String) (limit : Nat)
  | json (defect : Json.Defect)
  | http (error : HttpError)
  /-- A fault of a host executor or of a collaborator of the engine. -/
  | other (message : String)
deriving DecidableEq

namespace Fault

/-- Whether a fault lies in the workflow and not in its run. -/
def isDefinition : Fault → Bool
  | .unknownKind _ | .missingParam .. | .invalidParam .. => true
  | _ => false

def isCancelled : Fault → Bool
  | .cancelled => true
  | _ => false

def message : Fault → String
  | .unknownKind kind => "Unknown op kind: " ++ kind
  | .missingParam kind param =>
    "Op '" ++ kind ++ "' is missing required parameter '" ++ param ++ "'"
  | .invalidParam kind param complaint =>
    "Op '" ++ kind ++ "' has invalid parameter '" ++ param ++ "': " ++ complaint.message
  | .cancelled => "Workflow run cancelled"
  | .loopLimit kind condition limit =>
    "Loop '" ++ kind ++ "' on '" ++ condition ++ "' exceeded " ++ Nat.repr limit ++ " iterations"
  | .json defect => "JSON error: " ++ defect.name
  | .http error => "HTTP error: " ++ error.name
  | .other message => message

end Fault

end WorkflowEngine
