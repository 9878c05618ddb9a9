import WorkflowEngine.Event

/-!
# Flows: what a run does, action by action

A flow is a computation laid open. It is done, with a result or a fault; or it pauses, to be taken
up again later; or it performs an action and goes on with the answer. Nothing else happens in a run,
so what a run does can be read off its flow, and running two flows at the same time means to pass
from one to the other wherever one of them pauses.

**Actions.** Asking whether to stop, announcing an event, reading and writing contexts, consulting
the outside. Their answers come from whoever runs the flow.

**Faults.** A fault that arises is made known first (`Flow.fail`); from then on it is only handed on.

**Starving.** Loops need not end. A flow is cut off after a given number of steps, and then it is
`starved`: it has no result, and with more steps it might have one.
-/

namespace WorkflowEngine

inductive Action where
  /-- Asks whether to stop, by request or by rule. -/
  | poll
  /-- Asks whether a stop has been requested. -/
  | signal
  | requestStop
  | announce (event : Event)
  | view (context : Handle)
  | bind (context : Handle) (key : String) (value : Value)
  | unbind (context : Handle) (key : String)
  /-- Makes a new context. -/
  | create (bindings : Bindings)
  /-- Puts a question to a service outside the engine. -/
  | consult (service : String) (question : Value)
  /-- Writes an entry into the journal. -/
  | note (entry : Value)
  /-- Makes a fault known at the moment it arises. -/
  | raise (fault : Fault)

/-- What an action is answered with. -/
abbrev Action.Answer : Action → Type
  | .poll | .signal => Bool
  | .view _ => Bindings
  | .create _ => Handle
  | .consult _ _ => Value
  | .requestStop | .announce _ | .bind _ _ _ | .unbind _ _ | .note _ | .raise _ => Unit

inductive Flow (α : Type) where
  | done (result : Except Fault α)
  | starved
  | pause (rest : Unit → Flow α)
  | act (action : Action) (next : action.Answer → Flow α)

namespace Flow

variable {α β : Type}

instance : Inhabited (Flow α) := ⟨.starved⟩

/-! ## Sequencing -/

/-- Goes on with the result of a flow. A fault ends the whole. -/
def bind (f : Flow α) (k : α → Flow β) : Flow β :=
  match f with
  | .done (.ok a) => k a
  | .done (.error e) => .done (.error e)
  | .starved => .starved
  | .pause rest => .pause fun u => (rest u).bind k
  | .act a next => .act a fun x => (next x).bind k

instance : Monad Flow where
  pure a := .done (.ok a)
  bind := bind

/-- A function of the result. -/
def map (f : Flow α) (g : α → β) : Flow β := f.bind fun a => .done (.ok (g a))

/-- A fault arises. -/
def fail (e : Fault) : Flow α := .act (.raise e) fun _ => .done (.error e)

/-- A result that needs no action, or a fault that arises. -/
def ofExcept : Except Fault α → Flow α
  | .ok a => .done (.ok a)
  | .error e => fail e

instance : MonadLift (Except Fault) Flow where
  monadLift := ofExcept

/-- The outcome of a flow as its result, so that a fault does not end the whole. -/
def attempt : Flow α → Flow (Except Fault α)
  | .done r => .done (.ok r)
  | .starved => .starved
  | .pause rest => .pause fun u => attempt (rest u)
  | .act a next => .act a fun x => attempt (next x)

/-! ## Laws of sequencing -/

theorem bind_pure (f : Flow α) : (f.bind fun a => .done (.ok a)) = f := by
  induction f with
  | done r => cases r <;> rfl
  | starved => rfl
  | pause rest ih => exact congrArg Flow.pause (funext ih)
  | act a next ih => exact congrArg (Flow.act a) (funext ih)

theorem bind_assoc {γ : Type} (f : Flow α) (k : α → Flow β) (l : β → Flow γ) :
    (f.bind k).bind l = f.bind fun a => (k a).bind l := by
  induction f with
  | done r => cases r <;> rfl
  | starved => rfl
  | pause rest ih => exact congrArg Flow.pause (funext ih)
  | act a next ih => exact congrArg (Flow.act a) (funext ih)

instance : LawfulMonad Flow := .mk' _ bind_pure (fun _ _ => rfl) bind_assoc

/-- The outcome of a sequence: that of its second part, or a fault of the first. -/
theorem attempt_bind (f : Flow α) (k : α → Flow β) :
    (f.bind k).attempt = f.attempt.bind fun
      | .ok a => (k a).attempt
      | .error e => .done (.ok (.error e)) := by
  induction f with
  | done r => cases r <;> rfl
  | starved => rfl
  | pause rest ih => exact congrArg Flow.pause (funext ih)
  | act a next ih => exact congrArg (Flow.act a) (funext ih)

/-! ## Actions as flows -/

/-- Performs one action. -/
def perform (a : Action) : Flow a.Answer := .act a fun x => .done (.ok x)

/-- Ends with the fault of cancellation if the run is to stop. -/
def check : Flow Unit :=
  .act .poll fun stop => if stop then fail .cancelled else .done (.ok ())

def requestStop : Flow Unit := perform .requestStop

def announce (stage : Stage) (op : Op) (context : Handle) : Flow Unit :=
  perform (.announce ⟨stage, op, context⟩)

def view (context : Handle) : Flow Bindings := perform (.view context)

def store (context : Handle) (key : String) (value : Value) : Flow Unit :=
  perform (.bind context key value)

def unbind (context : Handle) (key : String) : Flow Unit := perform (.unbind context key)

def create (bindings : Bindings) : Flow Handle := perform (.create bindings)

/-- A new context with the same bindings. -/
def copy (context : Handle) : Flow Handle := do create (← view context)

def consult (service : String) (question : Value) : Flow Value :=
  perform (.consult service question)

def note (entry : Value) : Flow Unit := perform (.note entry)

/-! ## Pauses -/

/-- Pauses a number of times. -/
def wait : Nat → Flow Unit
  | 0 => .done (.ok ())
  | n + 1 => .pause fun _ => wait n

/-- Never goes on: pauses until it starves. -/
def hang : Nat → Flow α
  | 0 => .starved
  | n + 1 => .pause fun _ => hang n

/-- What a flow has come to when it gives up control. -/
inductive Stretch (α : Type) where
  | settled (a : α)
  | suspended (rest : Flow α)

/-- Runs a flow up to its next pause or its end. A fault ends the whole. -/
def advance : Flow α → Flow (Stretch α)
  | .done (.ok a) => .done (.ok (.settled a))
  | .done (.error e) => .done (.error e)
  | .starved => .starved
  | .pause rest => .done (.ok (.suspended (rest ())))
  | .act a next => .act a fun x => (next x).advance

/-! ## Aborting -/

/-- After every pause, gives up with the fault of cancellation if a stop has been requested. -/
def guardPauses : Flow α → Flow α
  | .done r => .done r
  | .starved => .starved
  | .pause rest =>
    .pause fun u => .act .signal fun stop =>
      if stop then fail .cancelled else guardPauses (rest u)
  | .act a next => .act a fun x => guardPauses (next x)

/-- A call that is given up as soon as a stop has been requested: it is not begun then, and not
taken up again after a pause, even if its answer is ready. -/
def abortable (call : Flow α) : Flow α :=
  .act .signal fun stop => if stop then fail .cancelled else guardPauses call

end Flow

end WorkflowEngine
