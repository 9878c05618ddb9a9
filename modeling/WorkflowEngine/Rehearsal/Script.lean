import WorkflowEngine.FanOut
import WorkflowEngine.Rehearsal.Executors
import WorkflowEngine.World

/-!
# Scripts for rehearsals

A language model that answers from a script, and tasks for a fan-out that do what they are told.
Both write what they do into the journal.
-/

namespace WorkflowEngine.Rehearsal

/-! ## A scripted language model -/

/-- The service that the scripted model puts its texts to. -/
def modelService : String := "model"

/-- The next reply of a script; past its end, a reply that repeats the text. -/
def nextReply (script : List Value) (asked : List Query) : Value :=
  let calls := asked.filter (·.service = modelService)
  match script[calls.length - 1]? with
  | some reply => reply
  | none =>
    let text := (calls.head?.map (·.question.plain)).getD ""
    .ofRecord (.ofList [("text", .string ("reply to: " ++ text))])

/-- Gives a reply: never, or after some pauses as a text or a fault. -/
def giveReply (fuel : Nat) (reply : Value) : Flow String := do
  if reply.field? "hang" = some (.bool true) then Flow.hang fuel
  else
    Flow.wait (ticks (reply.field? "ticks"))
    match reply.field? "error", reply.field? "text" with
    | some (.string message), _ => Flow.fail (.other message)
    | _, some (.string s) => return s
    | _, _ => return ""

/-- Answers a text from the script. -/
def prompt (fuel : Nat) (persona text : String) : Flow String := do
  Flow.note (.array [.string modelService, .string persona, .string text])
  giveReply fuel (← Flow.consult modelService (.string text))

/-- The scripted model. If it is `native`, it has its own way of answering with values. -/
def model (fuel : Nat) (native : Bool) : LanguageModel :=
  if native then
    { prompt := prompt fuel
      promptForJson := fun persona text schema => do
        let reply ← prompt fuel persona text
        return .ofRecord (.ofList [("reply", .string reply), ("schema", schema)]) }
  else .ofPrompt (prompt fuel)

/-! ## Scripted tasks -/

/-- A task that pauses, perhaps requests a stop, and fails or gives a value. -/
structure Task where
  value : Value
  ticks : Nat
  cancels : Bool
  fault : Option Fault

/-- A task with its index, as a flow. -/
def Task.flow (t : Task) (index : Nat) : Flow Value := do
  Flow.note (.array [.string "start", .nat index])
  Flow.wait t.ticks
  Flow.note (.array [.string "end", .nat index])
  if t.cancels then Flow.requestStop
  match t.fault with
  | some e => Flow.fail e
  | none => return t.value

/-- Tasks as flows. -/
def flows (tasks : List Task) : List (Flow Value) := tasks.zipIdx.map fun p => p.1.flow p.2

/-- Writes the progress of a fan-out into the journal. -/
def noteProgress : FanOut.Report := fun p => Flow.note (.array [.string "progress", .string p.text])

/-- The greatest number of tasks that were running at a time, read off a journal, oldest entry
first, given the number of those running before. -/
def peak (running : Nat) : List Value → Nat
  | [] => running
  | .array (.string "start" :: _) :: rest => max running (peak (running + 1) rest)
  | .array (.string "end" :: _) :: rest => max running (peak (running - 1) rest)
  | _ :: rest => peak running rest

end WorkflowEngine.Rehearsal
