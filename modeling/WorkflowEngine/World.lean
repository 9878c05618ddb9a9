import WorkflowEngine.Cancellation
import WorkflowEngine.Flow

/-!
# Worlds: where flows run

A world is what the actions of a flow read and write: the contexts, the state of the cancellation,
the journal, and the record of what has been asked of the outside. The environment is what stays the
same during a run: the listener, and the services outside, whose answers depend on all that has been
asked of them so far.

Main definition: `Flow.run`, which runs a flow to its end, taking it up again at once after a pause.
-/

namespace WorkflowEngine

/-- A question to a service. -/
structure Query where
  service : String
  question : Value

/-- What does not change during a run. -/
structure Environment where
  listener : Listener := .silent
  /-- The answer to the newest of the questions put so far, which are listed newest first. -/
  answer : List Query → Value := fun _ => .null

structure World where
  contexts : Store := .empty
  cancellation : Cancellation := {}
  /-- The entries of the journal, newest first. -/
  journal : List Value := []
  /-- The questions put to the outside, newest first. -/
  asked : List Query := []

namespace World

instance : Inhabited World := ⟨{}⟩

/-- Performs an action. -/
def perform (env : Environment) (w : World) : (a : Action) → a.Answer × World
  | .poll =>
    let (stop, c) := w.cancellation.poll w.journal
    (stop, { w with cancellation := c })
  | .signal => (w.cancellation.requested, w)
  | .requestStop => ((), { w with cancellation := w.cancellation.request })
  | .announce e =>
    let r := env.listener e (w.contexts.view e.context)
    let c := if r.stops then w.cancellation.request else w.cancellation
    ((), { w with journal := r.notes.reverse ++ w.journal, cancellation := c })
  | .view h => (w.contexts.view h, w)
  | .bind h key value => ((), { w with contexts := w.contexts.bind h key value })
  | .unbind h key => ((), { w with contexts := w.contexts.unbind h key })
  | .create b =>
    let (h, s) := w.contexts.create b
    (h, { w with contexts := s })
  | .consult service question =>
    let asked := ⟨service, question⟩ :: w.asked
    (env.answer asked, { w with asked })
  | .note entry => ((), { w with journal := entry :: w.journal })
  | .raise _ => ((), w)

end World

/-- How a run ends. -/
inductive Outcome (α : Type) where
  | ended (result : Except Fault α)
  | starved

/-- Goes on from the end of a run, unless it ended with a fault or was cut off. -/
def Outcome.andThen {α β : Type} (o : Outcome α × World) (k : α → World → Outcome β × World) :
    Outcome β × World :=
  match o with
  | (.ended (.ok a), w) => k a w
  | (.ended (.error e), w) => (.ended (.error e), w)
  | (.starved, w) => (.starved, w)

/-- Runs a flow to its end. -/
def Flow.run {α : Type} (env : Environment) : Flow α → World → Outcome α × World
  | .done r, w => (.ended r, w)
  | .starved, w => (.starved, w)
  | .pause rest, w => (rest ()).run env w
  | .act a next, w =>
    let p := w.perform env a
    (next p.1).run env p.2

theorem Flow.run_bind {α β : Type} (env : Environment) (f : Flow α) (k : α → Flow β) (w : World) :
    (f.bind k).run env w = Outcome.andThen (f.run env w) fun a w => (k a).run env w := by
  induction f generalizing w with
  | done r => cases r <;> rfl
  | starved => rfl
  | pause rest ih => exact ih () w
  | act a next ih => exact ih _ _

end WorkflowEngine
