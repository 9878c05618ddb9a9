import WorkflowEngine.Context.Store

/-!
# Sessions: handles under names

A session gives names to handles on contexts, and carries out commands on the contexts behind them.
A name that has not been used stands for a new, empty context from its first use on. Cloning and
extending give a second name to the same context; copying and deriving give a name to a new one.
-/

namespace WorkflowEngine

/-- What can be done with named contexts. -/
inductive Command where
  /-- A new, empty context. -/
  | fresh (name : String)
  /-- A new context with the given bindings. -/
  | seed (name : String) (bindings : Bindings)
  | set (name key : String) (value : Value)
  | remove (name key : String)
  | clone (name target : String)
  /-- Binds a value and hands the context on: the target is a second name for it. -/
  | extend (name target key : String) (value : Value)
  | copy (name target : String)
  /-- A copy with one more binding. -/
  | derive (name target key : String) (value : Value)

structure Session where
  store : Store := .empty
  names : Record Handle := .empty

namespace Session

/-- Lets a name stand for a new context. -/
def create (s : Session) (name : String) (b : Bindings) : Session :=
  let (h, store) := s.store.create b
  ⟨store, s.names.insert name h⟩

/-- Makes sure that a name stands for a context. -/
def touch (s : Session) (name : String) : Session :=
  if s.names.contains name then s else s.create name .empty

/-- The handle that a name stands for; no handle on a context if the name has not been used. -/
def handle (s : Session) (name : String) : Handle :=
  (s.names.get? name).getD ⟨s.store.cells.size⟩

/-- The bindings of the context behind a name. -/
def view (s : Session) (name : String) : Bindings := s.store.view (s.handle name)

/-- Whether two names stand for one context. -/
def shares (s : Session) (name other : String) : Bool := s.handle name == s.handle other

/-- Whether the contexts behind two names are one, or bind the same values. -/
def agrees (s : Session) (name other : String) : Bool :=
  s.store.agrees (s.handle name) (s.handle other)

/-- Carries out a command. -/
def run (s : Session) : Command → Session
  | .fresh name => s.create name .empty
  | .seed name b => s.create name b
  | .set name key value =>
    let s := s.touch name
    { s with store := s.store.bind (s.handle name) key value }
  | .remove name key =>
    let s := s.touch name
    { s with store := s.store.unbind (s.handle name) key }
  | .clone name target =>
    let s := s.touch name
    { s with names := s.names.insert target (s.handle name) }
  | .extend name target key value =>
    let s := s.touch name
    ⟨s.store.bind (s.handle name) key value, s.names.insert target (s.handle name)⟩
  | .copy name target =>
    let s := s.touch name
    s.create target (s.view name)
  | .derive name target key value =>
    let s := s.touch name
    s.create target ((s.view name).insert key value)

end Session

end WorkflowEngine
