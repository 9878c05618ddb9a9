import WorkflowEngine.Engine
import WorkflowEngine.Proofs.Interleaving.Keys
import WorkflowEngine.Proofs.Interleaving.Script

/-!
# What an op tree comes to when its branches are apart

If the branches of parallel ops are apart, what an op comes to can be said without engines, contexts
and pauses, as a relation between the bindings before and after it and its result (`Yields`). Every
branch of a parallel op starts from the bindings before the op, as if it were alone, and what the
branches leave is put together key by key (`Merges`). Copies of a context are bindings that are
forgotten in the end. Loops are gone through as a runner does it, frame by frame.

A leaf comes to what its script comes to alone.
-/

namespace WorkflowEngine

/-- The bindings after an op has come to a result. -/
def Op.bound (op : Op) (v : Value) (b : Bindings) : Bindings :=
  (op.outputBinding.elim b (b.insert · v)).insert Bindings.outputKey v

/-- What branches leave, each of which starts from `b` and comes to its own end: a key that a branch
may bind is bound as at its end. What the reserved name is bound to is left open. -/
structure Merges (binds : Op → String → Prop) (ops : List Op) (ends : Nat → Bindings)
    (b c : Bindings) : Prop where
  bound : ∀ i op key, ops[i]? = some op → binds op key → key ≠ Bindings.outputKey →
    c.get? key = (ends i).get? key
  rest : ∀ key, (∀ op ∈ ops, ¬binds op key) → key ≠ Bindings.outputKey → c.get? key = b.get? key

/-- What there is to be done. -/
inductive Work where
  /-- An op that is no loop. -/
  | exec (op : Op)
  /-- An op that may be a loop. -/
  | branch (op : Op)
  /-- What is left of op lists, innermost first. -/
  | frames (frames : List Frame)
  /-- Ops for each of some items. -/
  | items (ops : List Op) (name : String) (items : List Value)

/-- A list of ops that has not been begun. -/
def Work.list (ops : List Op) : Work := .frames [⟨ops, ops, none⟩]

/-- Enters loops, and knows the limit of those that have none of their own. -/
def Dispatcher.limited (limit : Option Nat) : Dispatcher :=
  ⟨{ maxLoopIterations := limit }, 0, fun _ _ => .starved⟩

/-- What leaves come to, the limit of loops, and the keys that ops may bind. -/
structure Lore where
  ans : Query → Value
  leaf : Op → Bindings → Value → Bindings → Prop
  limit : Option Nat
  binds : Op → String → Prop

/-- Work leads from bindings to results and to bindings. -/
inductive Yields (lore : Lore) : Work → Bindings → List Value → Bindings → Prop
  | leaf {op : Op} {v : Value} {b c : Bindings} :
      op.IsLeaf → lore.leaf op b v c → Yields lore (.exec op) b [v] (op.bound v c)
  | sequential {op : Op} {ops : List Op} {vs : List Value} {b c : Bindings} :
      op.kind = "sequential" → op.innerOps = .ok ops → Yields lore (.list ops) b vs c →
      Yields lore (.exec op) b [.array vs] (op.bound (.array vs) b)
  | map {op : Op} {ops : List Op} {items vs : List Value} {name : Option String} {b : Bindings} :
      op.kind = "map" → Executor.inputArray op b = .ok items →
      op.textParam "itemVariable" = .ok name → op.innerOps = .ok ops →
      Yields lore (.items ops (name.getD "item") items) b vs b →
      Yields lore (.exec op) b [.array vs] (op.bound (.array vs) b)
  | parallel {op : Op} {ops : List Op} {vs : List Value} {cap : Option Nat}
      {ends : Nat → Bindings} {b c : Bindings} :
      op.kind = "parallel" → op.innerOps = .ok ops → op.natParam "concurrency" = .ok cap →
      vs.length = ops.length →
      (∀ i o v, ops[i]? = some o → vs[i]? = some v → Yields lore (.branch o) b [v] (ends i)) →
      Merges lore.binds ops ends b c →
      Yields lore (.exec op) b [.array vs] (op.bound (.array vs) c)
  | straight {op : Op} {vs : List Value} {b c : Bindings} :
      LoopMode.ofKind? op.kind = none → Yields lore (.exec op) b vs c →
      Yields lore (.branch op) b vs c
  | loop {op : Op} {mode : LoopMode} {vs : List Value} {b c : Bindings} :
      LoopMode.ofKind? op.kind = some mode → Yields lore (.list [op]) b vs c →
      Yields lore (.branch op) b [vs.getLast?.getD .null] c
  | finished {b : Bindings} : Yields lore (.frames []) b [] b
  | again {f : Frame} {next : Option Frame} {outer : List Frame} {vs : List Value}
      {b b' c : Bindings} :
      f.rest = [] → (Runner.again? f ⟨0⟩).solo lore.ans b = some (next, b') →
      Yields lore (.frames (next.toList ++ outer)) b' vs c →
      Yields lore (.frames (f :: outer)) b vs c
  | enter {f : Frame} {op : Op} {rest : List Op} {mode : LoopMode} {next : Option Frame}
      {outer : List Frame} {vs : List Value} {b b' c : Bindings} :
      f.rest = op :: rest → LoopMode.ofKind? op.kind = some mode →
      (Runner.enter? (.limited lore.limit) mode op ⟨0⟩).solo lore.ans b = some (next, b') →
      Yields lore (.frames (next.toList ++ { f with rest } :: outer)) b' vs c →
      Yields lore (.frames (f :: outer)) b vs c
  | step {f : Frame} {op : Op} {rest : List Op} {outer : List Frame} {v : Value} {vs : List Value}
      {b b' c : Bindings} :
      f.rest = op :: rest → LoopMode.ofKind? op.kind = none → Yields lore (.exec op) b [v] b' →
      Yields lore (.frames ({ f with rest } :: outer)) b' vs c →
      Yields lore (.frames (f :: outer)) b (v :: vs) c
  | noItem {ops : List Op} {name : String} {b : Bindings} : Yields lore (.items ops name []) b [] b
  | item {ops : List Op} {name : String} {item : Value} {items vs ws : List Value}
      {b c : Bindings} :
      Yields lore (.list ops) (Executor.itemBindings b name item) ws c →
      Yields lore (.items ops name items) b vs b →
      Yields lore (.items ops name (item :: items)) b (c.output.getD .null :: vs) b

end WorkflowEngine
