import WorkflowEngine.Flow
import WorkflowEngine.Http.Url
import WorkflowEngine.Json.Reader

/-!
# HTTP requests and responses

A request as an op describes it, the conditions under which it can be sent at all, and what is made
of the answer. Sending is left to a client, which knows the outside.
-/

namespace WorkflowEngine.Http

structure Request where
  method : String
  url : String
  headers : List (String × String)
  body : Option String

structure Response where
  status : Nat
  body : List UInt8

/-- Sends a request and waits for the answer for so many milliseconds. -/
abbrev Client := Request → (timeoutMs : Nat) → Flow Response

/-! ## Tokens and header values -/

/-- The characters of a token, ASCII letters and digits among them. -/
def isTokenChar (c : Char) : Bool := c.isAlphanum || "!#$%&'*+-.^_`|~".toList.contains c

/-- Methods and header names are tokens. -/
def isToken (s : String) : Bool := !s.isEmpty && s.toList.all isTokenChar

/-- The characters of a header value: no control characters but the tabulator. -/
def isHeaderValueChar (c : Char) : Bool := c = '\t' || (32 ≤ c.toNat && c.toNat ≠ 127)

/-- Whether a request can be sent. -/
def Request.isSendable (r : Request) : Bool :=
  isUrl r.url && r.headers.all fun h => isToken h.1 && h.2.toList.all isHeaderValueChar

/-! ## Answers -/

/-- Refuses an answer whose status is an error. -/
def Response.successful (r : Response) : Except Fault Response :=
  if 400 ≤ r.status ∧ r.status < 600 then .error (.http (.status r.status)) else .ok r

/-- The body as JSON. -/
def Response.json (r : Response) : Except Fault Value :=
  match Text.ofUtf8? r.body with
  | none => .error (.http .decode)
  | some text => (Json.parse text).mapError fun _ => .http .decode

/-- The body as text. -/
def Response.text (r : Response) : Value := .string (String.ofList (Text.ofUtf8Lossy r.body))

/-! ## The outside as a client -/

/-- A request as it is put to the outside. -/
def Request.toValue (r : Request) : Value :=
  .ofRecord <| .ofList [
    ("method", .string r.method),
    ("url", .string r.url),
    ("headers", .array (r.headers.map fun h => .array [.string h.1, .string h.2])),
    ("body", r.body.elim .null .string)]

/-- An answer of the outside: an object with a status and the bytes of the body. Anything else means
that there was no answer, `"timeout"` that it took too long. -/
def Response.ofValue (v : Value) : Except Fault Response :=
  match v, v.field? "status", v.field? "body" with
  | .string "timeout", _, _ => .error (.http .timeout)
  | _, some (.number n), some (.array bytes) =>
    match n.toNat? with
    | some status =>
      let byte : Value → UInt8
        | .number b => (b.toNat?.getD 0).toUInt8
        | _ => 0
      .ok ⟨status, bytes.map byte⟩
    | none => .error (.http .request)
  | _, _, _ => .error (.http .request)

/-- The service that requests are put to. -/
def service : String := "http"

/-- The client that puts every request to the outside. -/
def outside : Client := fun r _ => do
  Flow.ofExcept (Response.ofValue (← Flow.consult service r.toValue))

end WorkflowEngine.Http
