import WorkflowEngine.Flow
import WorkflowEngine.Json.Fragments

/-!
# Language models

A language model answers a text under a persona. It can also be asked for a value that follows a
schema; a model without a way of its own to do that is asked in words, and the first JSON fragment
of its reply is taken.
-/

namespace WorkflowEngine

structure LanguageModel where
  prompt : (persona text : String) → Flow String
  promptForJson : (persona text : String) → (schema : Value) → Flow Value

namespace LanguageModel

/-- The request for a value that follows a schema, in words. -/
def jsonRequest (text : String) (schema : Value) : String :=
  text ++ "\n\nRespond only with JSON matching this schema:\n" ++ schema.text

/-- The first JSON fragment of a reply. -/
def firstFragment (reply : String) : Except Fault Value :=
  match Json.fragments reply with
  | v :: _ => .ok v
  | [] => .error (.other "Model reply contained no JSON")

/-- A model that is asked for values in words. -/
def ofPrompt (prompt : (persona text : String) → Flow String) : LanguageModel where
  prompt
  promptForJson persona text schema := do
    let reply ← prompt persona (jsonRequest text schema)
    firstFragment reply

end LanguageModel

end WorkflowEngine
