import WorkflowEngine.Executor.Input
import WorkflowEngine.Http.Request

/-!
# The executor for HTTP

`fetch` sends one request and answers the body of the answer, as JSON or as text. Its parameters are
read in the order `responseType`, `url`, `method`, `headers`, `body`; a request that cannot be sent
is a fault only when it is sent. It is given up as soon as a stop of the run has been requested.
-/

namespace WorkflowEngine.Executor

/-- How the body of an answer is read. -/
inductive ResponseType where
  | json
  | text
deriving DecidableEq

def ResponseType.ofOp (op : Op) : Except Fault ResponseType := do
  match ← op.textParam "responseType" with
  | none | some "json" => return .json
  | some "text" => return .text
  | some s => throw (op.invalid "responseType" (.noResponseType s))

/-- An ASCII text in upper case. -/
def upperCase (s : String) : String := String.ofList (s.toList.map Char.toUpper)

/-- The headers of a request: the fields of an object, filled in. -/
def requestHeaders (op : Op) (b : Bindings) : Except Fault (List (String × String)) :=
  match op.param? "headers" with
  | none => .ok []
  | some v =>
    match b.resolveValue v with
    | .object fields => .ok (fields.map fun f => (f.1, f.2.plain))
    | _ => .error (op.invalid "headers" .notObject)

/-- The header that says a body is JSON. -/
def jsonHeader : String × String := ("content-type", "application/json")

/-- Adds a body: a text as it is, and any other value as JSON, with the header for it unless the
request has one already. -/
def withBody (r : Http.Request) (body : Value) : Http.Request :=
  match body with
  | .string s => { r with body := some s }
  | v =>
    let given := r.headers.any fun h => h.1.toLower = jsonHeader.1
    let headers := if given then r.headers else r.headers ++ [jsonHeader]
    { r with body := some v.text, headers }

/-- The request that an op describes. -/
def request (op : Op) (b : Bindings) : Except Fault Http.Request := do
  let url ← op.requireText "url"
  let method := upperCase ((← op.textParam "method").getD "GET")
  if !Http.isToken method then throw (op.invalid "method" .noMethod)
  let headers ← requestHeaders op b
  let r : Http.Request := { method, url := b.resolve url, headers, body := none }
  return (op.param? "body").elim r fun v => withBody r (b.resolveValue v)

/-- Sends a request and reads the answer. -/
def send (client : Http.Client) (timeoutMs : Nat) (type : ResponseType) (r : Http.Request) :
    Flow Value := do
  if !r.isSendable then Flow.fail (.http .builder)
  let answer ← client r timeoutMs
  let answer ← answer.successful
  match type with
  | .json => answer.json
  | .text => return answer.text

/-- `fetch`: the body of the answer to one request. -/
def fetch (client : Http.Client) : Executor := fun d op context => do
  let b ← Flow.view context
  let type ← ResponseType.ofOp op
  let r ← request op b
  (send client d.config.fetchTimeoutMs type r).abortable

end WorkflowEngine.Executor
