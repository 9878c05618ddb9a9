import WorkflowEngine.Proofs.Monitor.Builtin
import WorkflowEngine.World

/-!
# What an op may write

A context is shared by all that hold a handle on it, so it matters which of its keys an op can
change. An op binds its result under its output binding and under the reserved name. The inner ops
of `parallel` and of loops work in the same context, so what they may write belongs to what the op
may write (`Op.MayWrite`). The inner ops of `sequential` and `map` work in copies, so it does not.

**Theorem (`Engine.writes_only_its_write_set`).** Whatever the op, the context and the world, and
however a run ends, every key outside the write set is bound as it was. And if the execution of an
op of a built-in kind other than `parallel` fails, its context is as it was altogether.

The monitor `Monitor.writing` allows writes to one context under the keys of a set, and writes to
contexts that were made during the run. New contexts get new handles, which is what it expects
(`Monitor.writing.run`). That the engine keeps within it is shown in two steps: in a context made
during the run everything is allowed (`Engine.exec_keeps_new`), and in the context of the op what is
in the write set (`Engine.exec_keeps_writing`). Both are inductions on how deep ops nest.
-/

namespace WorkflowEngine

/-! ## Write sets -/

/-- The kinds of the executors of this library. -/
def Registry.builtinKinds : List String :=
  ["format", "join", "set", "sequential", "parallel", "map", "extractJson", "parseJSON", "fetch",
    "prompt", "promptForJson"]

/-- The keys that an op may bind in its context. Nothing is said of ops that neither loop nor are of
a built-in kind: they may write what they like. -/
inductive Op.MayWrite : Op → String → Prop
  | output {op : Op} : LoopMode.ofKind? op.kind = none → MayWrite op Bindings.outputKey
  | binding {op : Op} {name : String} :
      LoopMode.ofKind? op.kind = none → op.outputBinding = some name → MayWrite op name
  | inner {op inner : Op} {ops : List Op} {key : String} :
      op.kind = "parallel" ∨ (LoopMode.ofKind? op.kind).isSome → op.innerOps = .ok ops →
      inner ∈ ops → MayWrite inner key → MayWrite op key
  | other {op : Op} {key : String} :
      LoopMode.ofKind? op.kind = none → op.kind ∉ Registry.builtinKinds → MayWrite op key

/-- Whether an action writes to a context. -/
def Action.Writes : Action → Prop
  | .bind _ _ _ | .unbind _ _ => True
  | _ => False

/-- Whether an action writes to another context. -/
def Action.WritesElsewhere (context : Handle) : Action → Prop
  | .bind h _ _ | .unbind h _ => h ≠ context
  | _ => False

/-- The engine executes the built-in kinds with the executors of this library. Executors of other
kinds execute no ops, and they write to no context but the one they are given. The language model
and the client, which are given none, write to none. -/
structure Engine.Confined (e : Engine) (model : Option LanguageModel) (client : Http.Client) :
    Prop where
  builtin : ∀ kind x, kind ∈ Registry.builtinKinds → e.registry.get? kind = some x →
    (kind, x) ∈ (Registry.builtin model client).entries
  host : ∀ kind x, kind ∉ Registry.builtinKinds → e.registry.get? kind = some x →
    ∃ leaf : Config → Op → Handle → Flow Value, x = (fun d => leaf d.config) ∧
      ∀ config op context, (leaf config op context).Avoids (Action.WritesElsewhere context)
  model : ∀ m ∈ model, m.Avoids Action.Writes
  client : client.Avoids Action.Writes

/-- However a run of the flow ends, in one context it has changed at most the given keys, and in
every other context that was there before it has changed nothing. -/
def Flow.WritesOnly {α : Type} (context : Handle) (keys : String → Prop) (f : Flow α) : Prop :=
  ∀ (env : Environment) (w : World), w.contexts.Valid context →
    (∀ key, ¬keys key → ((f.run env w).2.contexts.view context).get? key =
      (w.contexts.view context).get? key) ∧
    ∀ h, h ≠ context → w.contexts.Valid h →
      (f.run env w).2.contexts.view h = w.contexts.view h

/-- If a run of the flow fails, all contexts that were there before are as they were. -/
def Flow.FailsUnchanged {α : Type} (f : Flow α) : Prop :=
  ∀ (env : Environment) (w v : World) (fault : Fault), f.run env w = (.ended (.error fault), v) →
    ∀ h, w.contexts.Valid h → v.contexts.view h = w.contexts.view h

/-! ## The monitor -/

/-- Allows writes to one context under some keys, and writes to contexts with a handle from `bound`
on, such as new ones have. -/
def Monitor.writing (bound : Nat) (context : Handle) (keys : String → Prop) : Monitor where
  State := Unit
  live := ()
  allows
    | _, .bind h key _ | _, .unbind h key => (h = context ∧ keys key) ∨ bound ≤ h.index
    | _, _ => True
  expects
    | .create _, h => bound ≤ h.index
    | _, _ => True
  after _ _ _ := ()
  fails _ _ := True

namespace Monitor.writing

variable {bound : Nat} {context : Handle} {keys : String → Prop}

theorem neutral {a : Action} (h : ¬a.Writes) : Neutral (writing bound context keys) a := by
  refine ⟨?_, fun _ => rfl⟩
  cases a with
  | bind h key value => exact absurd trivial h
  | unbind h key => exact absurd trivial h
  | _ => exact trivial

theorem neutral_bind {h : Handle} {key : String} (value : Value)
    (hallowed : (h = context ∧ keys key) ∨ bound ≤ h.index) :
    Neutral (writing bound context keys) (.bind h key value) := ⟨hallowed, fun _ => rfl⟩

theorem suits : Suits (writing bound context keys) where
  raise _ := ⟨trivial, trivial⟩
  check := by
    refine Flow.obeys_act (neutral id) fun stop _ => ?_
    cases stop with
    | true => exact ⟨trivial, fun _ _ => trivial⟩
    | false => exact Flow.obeys_ok trivial
  signal := neutral id
  view _ := neutral id
  create _ := neutral id
  announce _ := neutral id

/-- What an executor does that writes to no context but its own. -/
theorem keeps_of_avoids {h : Handle} {f : Flow Value} (hf : f.Avoids (Action.WritesElsewhere h))
    (hallowed : ∀ key, (h = context ∧ keys key) ∨ bound ≤ h.index) :
    f.Keeps (writing bound context keys) := by
  refine hf.keeps (fun a ha => ⟨?_, fun _ => rfl⟩) fun _ => trivial
  cases a with
  | bind h' key value =>
    have hsame : h' = h := Decidable.of_not_not ha
    rw [hsame]
    exact hallowed key
  | unbind h' key =>
    have hsame : h' = h := Decidable.of_not_not ha
    rw [hsame]
    exact hallowed key
  | _ => exact trivial

/-! ## What the monitor says of stores -/

/-- The second store has the contexts of the first; what is bound in them has changed at most in one
context under some keys. -/
structure Frame (bound : Nat) (context : Handle) (keys : String → Prop) (s t : Store) : Prop where
  size : bound ≤ t.cells.size
  others : ∀ h : Handle, h.index < bound → h ≠ context → t.view h = s.view h
  rest : context.index < bound → ∀ key, ¬keys key →
    (t.view context).get? key = (s.view context).get? key

theorem Frame.refl {s : Store} (h : bound ≤ s.cells.size) : Frame bound context keys s s :=
  ⟨h, fun _ _ _ => rfl, fun _ _ _ => rfl⟩

theorem Frame.trans {s t u : Store} (hst : Frame bound context keys s t)
    (htu : Frame bound context keys t u) : Frame bound context keys s u where
  size := htu.size
  others h hlt hne := (htu.others h hlt hne).trans (hst.others h hlt hne)
  rest hlt key hkey := (htu.rest hlt key hkey).trans (hst.rest hlt key hkey)

theorem frame_update {s : Store} (hsize : bound ≤ s.cells.size) {h : Handle} {key : String}
    (hallowed : (h = context ∧ keys key) ∨ bound ≤ h.index) {f : Bindings → Bindings}
    (hf : ∀ b k, k ≠ key → (f b).get? k = b.get? k) :
    Frame bound context keys s (s.update h f) where
  size := by
    show bound ≤ (s.cells.modify h.index f).size
    rwa [Array.size_modify]
  others k hlt hne := by
    refine Store.view_update_of_ne (fun heq => ?_) f
    subst heq
    rcases hallowed with ⟨heq, -⟩ | hle
    · exact hne heq
    · exact Nat.not_le_of_lt hlt hle
  rest hlt k hk := by
    by_cases heq : context = h
    · subst heq
      rcases hallowed with ⟨-, hkey⟩ | hle
      · rw [Store.view_update_self (Nat.lt_of_lt_of_le hlt hsize)]
        exact hf _ k fun hsame => hk (hsame ▸ hkey)
      · exact absurd hle (Nat.not_le_of_lt hlt)
    · rw [Store.view_update_of_ne heq]

theorem frame_create {s : Store} (hsize : bound ≤ s.cells.size) (b : Bindings) :
    Frame bound context keys s (s.create b).2 where
  size := by
    show bound ≤ (s.cells.push b).size
    rw [Array.size_push]
    exact Nat.le_succ_of_le hsize
  others h hlt _ := Store.view_create_of_valid (Nat.lt_of_lt_of_le hlt hsize) b
  rest hlt key _ := by rw [Store.view_create_of_valid (Nat.lt_of_lt_of_le hlt hsize) b]

/-- An action that is allowed, in a world that has the contexts in question. -/
theorem frame_perform (env : Environment) {w : World} (hsize : bound ≤ w.contexts.cells.size)
    {a : Action} (ha : (writing bound context keys).allows () a) :
    (writing bound context keys).expects a (w.perform env a).1 ∧
      Frame bound context keys w.contexts (w.perform env a).2.contexts := by
  cases a with
  | bind h key value =>
    exact ⟨trivial, frame_update hsize ha fun b k hne => Record.get?_insert_of_ne hne⟩
  | unbind h key =>
    refine ⟨trivial, frame_update hsize ha fun b k hne => ?_⟩
    rw [Record.get?_erase, if_neg hne]
  | create b => exact ⟨hsize, frame_create hsize b⟩
  | _ => exact ⟨trivial, .refl hsize⟩

/-- **What the monitor says of a run.** -/
theorem run {α : Type} {f : Flow α} (hf : f.Keeps (writing bound context keys)) (env : Environment)
    {w : World} (hsize : bound ≤ w.contexts.cells.size) :
    Frame bound context keys w.contexts (f.run env w).2.contexts := by
  suffices hs : ∀ s, f.Passes (writing bound context keys)
      ((writing bound context keys).Ends fun _ => True) s →
      Frame bound context keys w.contexts (f.run env w).2.contexts from hs _ hf
  clear hf
  induction f generalizing w with
  | done r => exact fun _ _ => .refl hsize
  | starved => exact fun _ _ => .refl hsize
  | pause rest ih => exact fun s hf => ih () hsize _ hf.2
  | act a next ih =>
    intro s hf
    obtain ⟨hexpected, hframe⟩ := frame_perform env hsize hf.1
    exact hframe.trans (ih _ hframe.size _ (hf.2 _ hexpected))

end Monitor.writing

/-! ## Engines -/

section

variable {bound : Nat} {context : Handle} {keys : String → Prop} {e : Engine}
  {model : Option LanguageModel} {client : Http.Client}

open Monitor

/-- What an executor does keeps within the monitor if that is so of runs in new contexts, of
`parallel`, and of a leaf of the host. -/
theorem Engine.Confined.executor_keeps (he : e.Confined model client) {n : Nat} {op : Op}
    {h : Handle} {x : Executor} (hx : e.registry.get? op.kind = some x)
    (hnew : ∀ {inner : Handle}, bound ≤ inner.index →
      (e.dispatcher n).Covers (writing bound context keys) (fun _ => True) inner)
    (hparallel : op.kind = "parallel" →
      (Executor.parallel (e.dispatcher n) op h).Keeps (writing bound context keys))
    (hhost : op.kind ∉ Registry.builtinKinds →
      ∀ key, (h = context ∧ keys key) ∨ bound ≤ h.index) :
    (x (e.dispatcher n) op h).Keeps (writing bound context keys) := by
  have hM : (writing bound context keys).Suits := writing.suits
  by_cases hkind : op.kind ∈ Registry.builtinKinds
  · have hclient : client.Keeps (writing bound context keys) :=
      he.client.keeps (fun _ => writing.neutral) fun _ => trivial
    have hmodel : ∀ m ∈ model, m.Keeps (writing bound context keys) := by
      intro m hm
      exact (he.model m hm).keeps (fun _ => writing.neutral) fun _ => trivial
    have hentry := he.builtin op.kind x hkind hx
    rcases Registry.builtin_cases hM.toSuitsLeaves hclient hmodel hentry with
      ⟨hp, rfl⟩ | rfl | rfl | ⟨leaf, rfl, hleaf⟩
    · exact hparallel hp
    · apply Executor.sequential_keeps hM
      intro ops b inner _ hinner
      exact Dispatcher.runOps_keeps hM (hnew hinner) fun _ _ => trivial
    · apply Executor.map_keeps hM
      intro ops b inner _ hinner
      exact Dispatcher.runOps_keeps hM (hnew hinner) fun _ _ => trivial
    · exact hleaf e.config op h
  · obtain ⟨leaf, rfl, hleaf⟩ := he.host op.kind x hkind hx
    exact writing.keeps_of_avoids (hleaf e.config op h) (hhost hkind)

/-- **In a new context every op may write what it likes.** -/
theorem Engine.exec_keeps_new (he : e.Confined model client) (n : Nat) (op : Op) {h : Handle}
    (hnew : bound ≤ h.index) : (e.exec n op h).Keeps (writing bound context keys) := by
  have hM : (writing bound context keys).Suits := writing.suits
  induction n generalizing op h with
  | zero => exact Flow.obeys_starved
  | succ n ih =>
    have hall : ∀ {h : Handle}, bound ≤ h.index →
        (e.dispatcher n).Covers (writing bound context keys) (fun _ => True) h := by
      intro h hnew
      exact Dispatcher.covers_all fun op => ih op hnew
    apply exec_keeps hM
    · intro x hx
      refine he.executor_keeps hx hall (fun _ => ?_) fun _ _ => .inr hnew
      apply Executor.parallel_keeps hM
      intro ops _ inner _
      exact Dispatcher.dispatch_keeps hM (hall hnew) trivial
    · intro key value _
      exact writing.neutral_bind value (.inr hnew)

/-- The ops that write nothing but the given keys. -/
def Op.Within (keys : String → Prop) (op : Op) : Prop := ∀ key, op.MayWrite key → keys key

/-- The body of a loop writes nothing but what the loop may write. -/
theorem Dispatcher.covers_within {d : Dispatcher}
    (h : ∀ op, op.Within keys → LoopMode.ofKind? op.kind = none →
      (d.exec op context).Keeps (writing bound context keys)) :
    d.Covers (writing bound context keys) (Op.Within keys) context where
  body _ _ hop hmode hops _ hinner key hkey := hop key (.inner (.inr hmode) hops hinner hkey)
  exec := h

/-- **In the context of an op its write set is all that it writes.** -/
theorem Engine.exec_keeps_writing (he : e.Confined model client) (n : Nat) {op : Op}
    (hop : op.Within keys) (hloop : LoopMode.ofKind? op.kind = none) :
    (e.exec n op context).Keeps (writing bound context keys) := by
  have hM : (writing bound context keys).Suits := writing.suits
  induction n generalizing op with
  | zero => exact Flow.obeys_starved
  | succ n ih =>
    have hcovers : (e.dispatcher n).Covers (writing bound context keys) (Op.Within keys) context :=
      Dispatcher.covers_within fun _ ho hmode => ih ho hmode
    apply exec_keeps hM
    · intro x hx
      refine he.executor_keeps hx ?_ (fun hparallel => ?_) fun hkind key => ?_
      · intro inner hnew
        exact Dispatcher.covers_all fun op => exec_keeps_new he n op hnew
      · apply Executor.parallel_keeps hM
        intro ops hops inner hinner
        apply Dispatcher.dispatch_keeps hM hcovers
        intro key hkey
        exact hop key (.inner (.inl hparallel) hops hinner hkey)
      · exact .inl ⟨rfl, hop key (.other hloop hkind)⟩
    · intro key value hkey
      refine writing.neutral_bind value (.inl ⟨rfl, ?_⟩)
      rcases hkey with hbinding | rfl
      · exact hop key (.binding hloop hbinding)
      · exact hop _ (.output hloop)

theorem Flow.writesOnly {α : Type} {f : Flow α}
    (hf : ∀ bound, f.Keeps (writing bound context keys)) : f.WritesOnly context keys := by
  intro env w hvalid
  have hframe := writing.run (hf w.contexts.cells.size) env (Nat.le_refl _)
  exact ⟨hframe.rest hvalid, fun h hne hh => hframe.others h hh hne⟩

/-! ## Failures -/

/-- What an engine does after the executor of an op: it does not fail. -/
theorem Engine.bound_ok (op : Op) (context : Handle) (result : Value) (env : Environment)
    (w : World) : ∃ v, Flow.run env (do
      bindResult op context result
      Flow.announce .opPost op context
      return result) w = (.ended (.ok result), v) := by
  unfold bindResult
  cases op.outputBinding <;> exact ⟨_, rfl⟩

theorem Engine.run_exec (n : Nat) {op : Op} {x : Executor} (hx : e.registry.get? op.kind = some x)
    (env : Environment) (w : World) :
    (e.exec (n + 1) op context).run env w = Outcome.andThen
      ((x (e.dispatcher n) op context).run env (w.perform env (.announce ⟨.opPre, op, context⟩)).2)
      fun result w => Flow.run env (do
        bindResult op context result
        Flow.announce .opPost op context
        return result) w := by
  rw [exec, hx]
  exact Flow.run_bind env (x (e.dispatcher n) op context) _ _

/-- **An op of a built-in kind other than `parallel` that fails leaves all contexts as they
were.** -/
theorem Engine.exec_failsUnchanged (he : e.Confined model client) (n : Nat) {op : Op}
    (hkind : op.kind ∈ Registry.builtinKinds) (hparallel : op.kind ≠ "parallel") :
    (e.exec n op context).FailsUnchanged := by
  intro env w v fault hrun h hvalid
  cases n with
  | zero => cases congrArg Prod.fst hrun
  | succ n =>
    cases hx : e.registry.get? op.kind with
    | none =>
      rw [exec, hx] at hrun
      cases hrun
      rfl
    | some x =>
      have hkeeps : (x (e.dispatcher n) op context).Keeps
          (writing w.contexts.cells.size ⟨w.contexts.cells.size⟩ fun _ => False) := by
        refine he.executor_keeps hx ?_ (fun h => absurd h hparallel) fun h => absurd hkind h
        intro inner hnew
        exact Dispatcher.covers_all fun op => exec_keeps_new he n op hnew
      obtain ⟨outcome, u, hend⟩ : ∃ outcome u, (x (e.dispatcher n) op context).run env
          (w.perform env (.announce ⟨.opPre, op, context⟩)).2 = (outcome, u) := ⟨_, _, rfl⟩
      have hframe := writing.run hkeeps env
        (w := (w.perform env (.announce ⟨.opPre, op, context⟩)).2) (Nat.le_refl _)
      rw [hend] at hframe
      rw [run_exec n hx, hend] at hrun
      match outcome with
      | .ended (.ok result) =>
        obtain ⟨u', hok⟩ := bound_ok op context result env u
        cases hok.symm.trans hrun
      | .ended (.error fault') =>
        cases hrun
        exact hframe.others h hvalid fun heq => Nat.lt_irrefl _ (heq ▸ hvalid)
      | .starved => cases hrun

/-! ## The theorem -/

/-- **An op writes only what is in its write set.** Whatever the ops and the context, the limits,
the answers and the stops, and however a run ends: a run of an op, of an op list, or of a workflow
leaves every key outside the write set as it was, and all other contexts. And if the execution of an
op of a built-in kind other than `parallel` fails, it leaves all contexts as they were. -/
theorem Engine.writes_only_its_write_set (he : e.Confined model client) (n : Nat) (w : Workflow)
    (ops : List Op) (op : Op) (context : Handle) :
    ((e.dispatcher n).dispatch op context).WritesOnly context op.MayWrite ∧
    ((e.dispatcher n).runOps ops context).WritesOnly context
      (fun key => ∃ op ∈ ops, op.MayWrite key) ∧
    (w.run (e.dispatcher n) context).WritesOnly context
      (fun key => ∃ op ∈ w.ops, op.MayWrite key) ∧
    (op.kind ∈ Registry.builtinKinds → op.kind ≠ "parallel" →
      (e.exec n op context).FailsUnchanged) := by
  have hcovers : ∀ bound keys, (e.dispatcher n).Covers (writing bound context keys)
      (Op.Within keys) context := fun _ _ =>
    Dispatcher.covers_within fun _ hop hloop => exec_keeps_writing he n hop hloop
  refine ⟨?_, ?_, ?_, fun hkind hparallel => exec_failsUnchanged he n hkind hparallel⟩
  · exact Flow.writesOnly fun _ => Dispatcher.dispatch_keeps writing.suits (hcovers _ _)
      fun _ hkey => hkey
  · exact Flow.writesOnly fun _ => Dispatcher.runOps_keeps writing.suits (hcovers _ _)
      fun op hop _ hkey => ⟨op, hop, hkey⟩
  · exact Flow.writesOnly fun _ => Workflow.run_keeps writing.suits (hcovers _ _)
      fun op hop _ hkey => ⟨op, hop, hkey⟩

end

/-! ## An engine as it is built -/

theorem Registry.mem_builtinKinds {model : Option LanguageModel} {client : Http.Client}
    {kind : String} {x : Executor} (h : (kind, x) ∈ (builtin model client).entries) :
    kind ∈ builtinKinds := by
  cases mem_builtin_iff.1 h <;> decide

/-- An engine to which its host adds nothing but leaves of other kinds that write to no context but
their own is confined. -/
theorem EngineBuilder.confined_build {b : EngineBuilder}
    (hmodel : ∀ m ∈ b.model, m.Avoids Action.Writes)
    (hhost : ∀ host ∈ b.executors.entries, host.1 ∉ Registry.builtinKinds ∧
      ∃ leaf : Config → Op → Handle → Flow Value, host.2 = (fun d => leaf d.config) ∧
        ∀ config op context, (leaf config op context).Avoids (Action.WritesElsewhere context)) :
    b.build.Confined b.model Http.outside where
  builtin kind x hkind hx := by
    rcases EngineBuilder.builtin_or_supplied hx with hbuiltin | hown
    · exact hbuiltin
    · exact absurd hkind (hhost _ hown).1
  host kind x hkind hx := by
    rcases EngineBuilder.builtin_or_supplied hx with hbuiltin | hown
    · exact absurd (Registry.mem_builtinKinds hbuiltin) hkind
    · exact (hhost _ hown).2
  model := hmodel
  client r timeoutMs := by
    have hM : (Monitor.avoiding Action.Writes).SuitsLeaves :=
      Monitor.avoiding_suitsLeaves (fun _ => id) id fun _ => id
    exact Flow.avoids_iff_keeps.2
      (Http.outside_keeps hM (fun _ _ => Monitor.avoiding_neutral id) r timeoutMs)

/-- A group that binds `b` in its copy of the context, and then fails for want of an executor. -/
def Op.failingGroup : Op :=
  (Op.sequential [(Op.set .null).output "b", .new "nowhere"]).output "a"

theorem Op.failingGroup_not_mayWrite : ¬Op.failingGroup.MayWrite "b" := by
  intro h
  generalize hkey : "b" = key at h
  cases h with
  | output _ => exact absurd hkey (by decide)
  | binding _ hname =>
    subst hkey
    exact absurd hname (by decide)
  | inner hkind _ _ _ => exact absurd hkind (by decide)
  | other _ hkind => exact absurd hkind (by decide)

/-- A world with one context, in which `b` is bound. -/
def World.holdingB : World :=
  { contexts := (Store.empty.create (.ofList [("b", .bool true)])).2 }

/-- The group may write `a` but not `b`, and as it fails it has not written `a` either. -/
theorem Engine.failing_group_writes_nothing :
    (EngineBuilder.build {}).Confined none Http.outside ∧ World.holdingB.contexts.Valid ⟨0⟩ ∧
    ¬Op.failingGroup.MayWrite "b" ∧
    (((((EngineBuilder.build {}).dispatcher 9).dispatch Op.failingGroup ⟨0⟩).run {}
      World.holdingB).2.contexts.view ⟨0⟩).get? "b" =
        (World.holdingB.contexts.view ⟨0⟩).get? "b" ∧
    ∃ fault v, ((EngineBuilder.build {}).exec 9 Op.failingGroup ⟨0⟩).run {} World.holdingB =
      (.ended (.error fault), v) ∧ v.contexts.view ⟨0⟩ = World.holdingB.contexts.view ⟨0⟩ := by
  have he : (EngineBuilder.build {}).Confined none Http.outside :=
    EngineBuilder.confined_build (b := {}) (fun _ h => nomatch h) fun _ h => nomatch h
  have hvalid : World.holdingB.contexts.Valid ⟨0⟩ := by decide
  obtain ⟨hdispatch, -, -, hfails⟩ := Engine.writes_only_its_write_set he 9 (Workflow.empty "") []
    Op.failingGroup ⟨0⟩
  obtain ⟨outcome, v, hrun⟩ : ∃ outcome v,
      ((EngineBuilder.build {}).exec 9 Op.failingGroup ⟨0⟩).run {} World.holdingB = (outcome, v) :=
    ⟨_, _, rfl⟩
  have hfault : (((EngineBuilder.build {}).exec 9 Op.failingGroup ⟨0⟩).run {} World.holdingB).1 =
      .ended (.error (.unknownKind "nowhere")) := rfl
  rw [hrun] at hfault
  subst hfault
  have hunchanged := hfails (by decide) (by decide) {} _ _ _ hrun ⟨0⟩ hvalid
  exact ⟨he, hvalid, Op.failingGroup_not_mayWrite,
    (hdispatch {} _ hvalid).1 "b" Op.failingGroup_not_mayWrite, _, v, hrun, hunchanged⟩

end WorkflowEngine
