import WorkflowEngine.Proofs.Judgement.FanOut
import WorkflowEngine.Proofs.Judgement.Group
import WorkflowEngine.Proofs.Monitor

/-!
# What a run obeys, part by part

The engine puts flows together: workers take turns, runners go through op lists, groups run their
inner ops, and every op is executed between two events. Each of these keeps within a monitor that
suits the engine if the flows it is made of do. So to show that every run obeys a monitor, only the
executors that are no groups and the writes of the engine itself are left to be looked at.

To pass a monitor is a judgement on flows (`Monitor.judgement`), and between two ops, two turns of
workers, and two calls of `next` the monitor is live.

**Fan-outs** (`FanOut.run_keeps`). Between two turns every task is either unclaimed, or the rest of
a stretch; both obey.

**Runners** (`Monitor.Suits.runs`). `Dispatcher.Covers` says of a class of ops that the bodies of its
loops are in it, and that its other ops are executed as the monitor asks.

**Engines** (`Engine.exec_keeps_of_composed`). If the executors of an engine are groups and leaves,
and the leaves obey, then so does every execution of an op, however deep its inner ops are nested.
-/

namespace WorkflowEngine

variable {M : Monitor}

/-! ## The judgement -/

namespace Monitor

/-- The end of a flow: in a state and with a result as described, or with a fault that may be. -/
def Comes {α : Type} (M : Monitor) (P : M.State → α → Prop) (s : M.State) :
    Except Fault α → Prop
  | .ok a => P s a
  | .error e => M.fails s e

/-- Flows pass the monitor. -/
def judgement (M : Monitor) : Judgement where
  State := M.State
  judges P f s := f.Passes M (M.Comes P) s
  ok h := h
  bind h hk := h.bind hk fun _ _ he => he

theorem returns_iff {α : Type} {f : Flow α} :
    M.judgement.Returns (· = M.live) f ↔ f.Keeps M := by
  constructor
  · exact fun h => M.judgement.mono (h _ rfl) fun _ _ hs => ⟨hs, trivial⟩
  · rintro h _ rfl
    exact M.judgement.mono h fun _ _ hs => hs.1

end Monitor

/-! ## Fan-outs -/

namespace FanOut

variable {α : Type} {report : Report}

/-- The unclaimed tasks obey. -/
def Board.Good (M : Monitor) (b : Board α) : Prop := ∀ task ∈ b.waiting, task.1.Keeps M

/-- What is left of the worker's task obeys. -/
def Worker.Good (M : Monitor) : Worker α → Prop
  | .busy _ rest => rest.Keeps M
  | _ => True

/-- The monitor is live, and what is left of the tasks obeys. -/
def Obeying (M : Monitor) (α : Type) : Situation M.judgement α := fun s done ahead b =>
  s = M.live ∧ (∀ w ∈ done ++ ahead, w.Good M) ∧ b.Good M

theorem settle_keeps (hM : M.Suits) (hr : ∀ p, (report p).Keeps M) (t : Tally α) (index : Nat)
    (a : α) : (t.settle report index a).Keeps M :=
  hM.check.bind fun _ _ => (hr _).bind fun _ _ => Flow.obeys_ok trivial

/-- After a stretch the monitor is live, and what is left of the task obeys. -/
theorem stretched_obeying (hM : M.Suits) (hr : ∀ p, (report p).Keeps M) {f : Flow (Flow.Stretch α)}
    {done ahead : List (Worker α)} {w : Worker α} {index : Nat} {b : Board α}
    (hf : f.Obeys M fun
      | .settled _ => True
      | .suspended rest => rest.Keeps M) (hw : ∀ v ∈ done ++ w :: ahead, v.Good M)
    (hb : b.Good M) :
    M.judgement.judges (AfterStretch M.judgement report (Obeying M α) done ahead index b) f M.live := by
  refine M.judgement.mono hf fun s x hx => ?_
  obtain ⟨rfl, hx⟩ := hx
  cases x with
  | suspended rest => exact ⟨rfl, forall_mem_turned hw hx, hb⟩
  | settled a =>
    refine M.judgement.mono (settle_keeps hM hr b.tally index a) fun s tally hs => ?_
    exact ⟨hs.1, forall_mem_replaced hw trivial, hb⟩

theorem obeying_kept (hM : M.Suits) (hr : ∀ p, (report p).Keeps M) :
    Kept M.judgement report (Obeying M α) where
  claim hs := by
    obtain ⟨rfl, hw, hb⟩ := hs
    obtain ⟨htask, hrest⟩ := List.forall_mem_cons.1 hb
    exact stretched_obeying hM hr (hM.check.bind fun _ _ => Flow.Obeys.advance htask) hw hrest
  resume {s done ahead index rest b} hs := by
    obtain ⟨rfl, hw, hb⟩ := hs
    have hrest : rest.Keeps M := hw (.busy index rest) (by simp)
    exact stretched_obeying hM hr hrest.advance hw hb
  nothing hs := by
    obtain ⟨rfl, hw, hb⟩ := hs
    exact M.judgement.mono hM.check fun s _ h => ⟨h.1, forall_mem_turned hw trivial, hb⟩
  finished hs := ⟨hs.1, forall_mem_turned hs.2.1 trivial, hs.2.2⟩

theorem obeying_outlasts :
    Outlasts M.judgement (fun _ => Obeying M α) (fun s _ => s = M.live) where
  starved hs := hs.1
  ended hs _ := hs.1
  pause hs _ h := ⟨hs.1, h _ ⟨hs.1, by simpa using hs.2.1, hs.2.2⟩⟩

/-- **A fan-out obeys what its tasks and its reports obey.** -/
theorem run_keeps (hM : M.Suits) (hr : ∀ p, (report p).Keeps M) (fuel : Nat)
    {tasks : List (Flow α)} (cap : Nat) (h : ∀ task ∈ tasks, task.Keeps M) :
    (run fuel tasks cap report).Keeps M := by
  refine run_judged (J := M.judgement) (fun _ => obeying_kept hM hr) obeying_outlasts fuel cap
    (fun _ => ⟨rfl, trivial⟩) (fun task htasks => ?_) (fun _ => ?_)
    (fun s _ hs => ⟨hs, trivial⟩) fun s _ hs _ => ?_
  · have htask : task.Keeps M := h task (by simp [htasks])
    refine M.judgement.mono (hM.check.bind fun _ _ => htask) fun s a hs => ?_
    obtain ⟨rfl, -⟩ := hs
    exact settle_keeps hM hr _ 0 a
  · refine M.judgement.mono hM.check fun s _ hs => ⟨hs.1, fun w hw => ?_, fun task ht => ?_⟩
    · have hidle : w = .idle := List.eq_of_mem_replicate hw
      rw [hidle]
      trivial
    · exact h task.1 (List.fst_mem_of_mem_zipIdx ht)
  · subst hs
    exact Flow.obeys_fail hM.toSuitsLeaves _ _

end FanOut

/-! ## Runners -/

/-- A class of ops that is executed in a context as the monitor asks: the bodies of its loops are in
the class, and its other ops are executed obeying the monitor. -/
structure Dispatcher.Covers (d : Dispatcher) (M : Monitor) (good : Op → Prop) (context : Handle) :
    Prop where
  body : ∀ op ops, good op → (LoopMode.ofKind? op.kind).isSome → op.innerOps = .ok ops →
    ∀ inner ∈ ops, good inner
  exec : ∀ op, good op → LoopMode.ofKind? op.kind = none → (d.exec op context).Keeps M

namespace Monitor

theorem Suits.raises (hM : M.Suits) (e : Fault) : M.judgement.Raises (· = M.live) e := by
  rintro _ P _ rfl
  exact Flow.Passes.mono (Flow.obeys_fail hM.toSuitsLeaves (fun _ => False) e) fun s r hr => by
    cases r with
    | ok a => exact hr.2.elim
    | error e => exact hr

/-- A live monitor that suits the engine goes with whatever a runner does. -/
theorem Suits.runs (hM : M.Suits) :
    M.judgement.Runs (· = M.live) (fun _ => True) M.fails where
  starved hs := hs
  check hs := by
    subst hs
    exact M.judgement.mono hM.check fun _ _ h => h
  view h := returns_iff.2 (Flow.keeps_view hM.toSuitsLeaves h)
  raises _ := hM.raises _
  error he := he
  attempt h := h.attempt.mono fun s r hr => by
    obtain ⟨q, rfl, hq⟩ := hr
    cases q with
    | ok a => exact hq
    | error e => exact hq
  announce op h _ := returns_iff.2 (Flow.keeps_announce hM _ op h)

theorem Suits.creates (hM : M.Suits) : M.judgement.Creates (· = M.live) fun b h =>
    M.expects (.create b) h := by
  rintro b _ rfl
  exact M.judgement.mono (Flow.obeys_perform (hM.create b)) fun _ _ h => h

end Monitor

section Runs

variable {d : Dispatcher} {good : Op → Prop} {context : Handle}

theorem Dispatcher.Covers.executes (hM : M.Suits) (hd : d.Covers M good context) :
    d.Executes M.judgement (· = M.live) (fun _ => True) (Runner.Back (· = M.live)) good context where
  body := hd.body
  decodes _ e _ _ _ := hM.raises e
  exec op s hop hkind hs _ := Monitor.returns_iff.2 (hd.exec op hop hkind) s hs

variable (hM : M.Suits) (hd : d.Covers M good context)

include hM hd

theorem Dispatcher.runOps_keeps {ops : List Op} (h : ∀ op ∈ ops, good op) :
    (d.runOps ops context).Keeps M :=
  Monitor.returns_iff.1 (runOps_returns hM.runs (hd.executes hM) h)

theorem Dispatcher.dispatch_keeps {op : Op} (h : good op) : (d.dispatch op context).Keeps M :=
  Monitor.returns_iff.1 fun _ hs => dispatch_judged hM.runs (hd.executes hM) h hs trivial

theorem Workflow.execute_keeps {w : Workflow} (h : ∀ op ∈ w.ops, good op) :
    (w.execute d context).Keeps M :=
  Monitor.returns_iff.1 (execute_returns hM.runs (hd.executes hM) h)

theorem Workflow.run_keeps {w : Workflow} (h : ∀ op ∈ w.ops, good op) :
    (w.run d context).Keeps M :=
  Monitor.returns_iff.1 (run_returns hM.runs (hd.executes hM) h)

end Runs

/-! ## Streams -/

namespace Flow

variable {α β : Type}

/-- Whatever the answers, the flow does not end with a fault. -/
inductive Unfailing : Flow α → Prop
  | ok (a : α) : Unfailing (.done (.ok a))
  | starved : Unfailing .starved
  | pause {rest : Unit → Flow α} : Unfailing (rest ()) → Unfailing (.pause rest)
  | act {a : Action} {next : a.Answer → Flow α} : (∀ x, Unfailing (next x)) →
      Unfailing (.act a next)

theorem Unfailing.bind {f : Flow α} {k : α → Flow β} (h : f.Unfailing)
    (hk : ∀ a, (k a).Unfailing) : (f.bind k).Unfailing := by
  induction h with
  | ok a => exact hk a
  | starved => exact .starved
  | pause _ ih => exact .pause ih
  | act _ ih => exact .act ih

theorem attempt_unfailing (f : Flow α) : f.attempt.Unfailing := by
  induction f with
  | done r => exact .ok r
  | starved => exact .starved
  | pause rest ih => exact .pause (ih ())
  | act a next ih => exact .act ih

theorem Unfailing.passes {Q : M.State → Except Fault α → Prop} {f : Flow α} {s : M.State}
    (hf : f.Unfailing) (h : f.Passes M Q s) : f.Passes M (fun s r => ∃ a, r = .ok a ∧ Q s r) s := by
  induction hf generalizing s with
  | ok a => exact ⟨a, rfl, h⟩
  | starved => exact h
  | pause _ ih => exact ⟨h.1, ih h.2⟩
  | act _ ih => exact ⟨h.1, fun x hx => ih x (h.2 x hx)⟩

end Flow

namespace Runner

theorem announce_unfailing (r : Runner) (stage : Stage) : (r.announce stage).Unfailing := by
  unfold announce
  split
  · exact .act fun _ => .ok _
  · exact .ok _

theorem deliver_unfailing (r : Runner) (x : Except Fault (Option Step × Runner)) :
    (r.deliver x).Unfailing := by
  match x with
  | .ok (some _, _) => exact .ok _
  | .ok (none, r) => exact (announce_unfailing r _).bind fun _ => .ok _
  | .error _ => exact .ok _

/-- A fault is yielded by `next`, which does not itself fail. -/
theorem next_unfailing (d : Dispatcher) (n : Nat) (r : Runner) : (next d n r).Unfailing := by
  have hrunning : ∀ r : Runner, r.phase = .running → (next d n r).Unfailing := by
    intro r hphase
    rw [next_of_running hphase]
    exact (Flow.attempt_unfailing _).bind (deliver_unfailing r)
  match hphase : r.phase with
  | .finished =>
    rw [next_of_finished hphase]
    exact .ok _
  | .running => exact hrunning r hphase
  | .pending =>
    rw [next_of_pending hphase]
    exact (announce_unfailing r _).bind fun _ => hrunning _ rfl

theorem streamFrom_unfailing (d : Dispatcher) (yielded : List (Except Fault Step)) (n : Nat)
    (r : Runner) : (streamFrom d yielded n r).Unfailing := by
  induction n generalizing yielded r with
  | zero => exact .starved
  | succ n ih =>
    refine (next_unfailing d n r).bind fun x => ?_
    match x with
    | (none, _) => exact .ok _
    | (some _, r) => exact ih _ r

/-- What a stream ends with: live, or with a fault as the monitor asks for it as its last item. -/
def StreamEnds (M : Monitor) (s : M.State) : Except Fault (List (Except Fault Step)) → Prop
  | .ok items => s = M.live ∨ ∃ (steps : List Step) (e : Fault),
      items = steps.map .ok ++ [.error e] ∧ M.fails s e
  | .error _ => False

end Runner

/-- **A stream obeys what the execution of its ops obeys**, and it ends with the first fault. -/
theorem Workflow.stream_passes {d : Dispatcher} {good : Op → Prop} {context : Handle}
    (hM : M.Suits) (hd : d.Covers M good context) {w : Workflow} (h : ∀ op ∈ w.ops, good op) :
    ((w.runner context).stream d).Passes M (Runner.StreamEnds M) M.live := by
  have hstream := stream_judged hM.runs (hd.executes hM) h rfl
  refine ((Runner.streamFrom_unfailing d [] _ _).passes hstream).mono fun s r hr => ?_
  obtain ⟨items, rfl, hlive | hfault⟩ := hr
  · exact .inl hlive.1
  · exact .inr hfault

/-! ## Groups -/

namespace Executor

variable {d : Dispatcher} {op : Op} {context : Handle}

/-- `parallel` obeys what the execution of its inner ops obeys. -/
theorem parallel_keeps (hM : M.Suits)
    (h : ∀ ops, op.innerOps = .ok ops → ∀ inner ∈ ops, (d.dispatch inner context).Keeps M) :
    (parallel d op context).Keeps M := by
  refine Monitor.returns_iff.1 (parallel_returns hM.runs.toWalks (fun e _ => hM.raises e) ?_)
  intro ops cap hops _
  refine Monitor.returns_iff.2
    (FanOut.run_keeps hM (fun _ => Flow.obeys_ok trivial) d.fuel cap fun task ht => ?_)
  obtain ⟨inner, hinner, rfl⟩ := List.mem_map.1 ht
  exact h ops hops inner hinner

variable (hM : M.Suits) (h : ∀ ops b inner, op.innerOps = .ok ops →
  M.expects (.create b) inner → (d.runOps ops inner).Keeps M)

include hM h

/-- `sequential` obeys what a run of its inner ops in a new context obeys. -/
theorem sequential_keeps : (sequential d op context).Keeps M :=
  Monitor.returns_iff.1 (sequential_returns hM.runs.toWalks (fun e _ => hM.raises e) hM.creates
    fun ops b inner hops hb => Monitor.returns_iff.2 (h ops b inner hops hb))

theorem map_keeps : (map d op context).Keeps M :=
  Monitor.returns_iff.1 (map_returns hM.runs.toWalks (fun e _ => hM.raises e) hM.creates
    fun ops b inner hops hb => Monitor.returns_iff.2 (h ops b inner hops hb))

end Executor

/-! ## Engines -/

/-- **The execution of an op obeys what its executor and the binding of its result obey.** -/
theorem Engine.exec_keeps (hM : M.Suits) {e : Engine} {n : Nat} {op : Op} {context : Handle}
    (hx : ∀ x, e.registry.get? op.kind = some x → (x (e.dispatcher n) op context).Keeps M)
    (hbind : ∀ key value, op.outputBinding = some key ∨ key = Bindings.outputKey →
      M.Neutral (.bind context key value)) : (e.exec (n + 1) op context).Keeps M := by
  refine (Flow.keeps_announce hM _ _ _).bind fun _ _ => ?_
  split
  · exact Flow.obeys_fail hM.toSuitsLeaves _ _
  · next x hx' =>
    refine (hx x hx').bind fun result _ => ?_
    have hbound : (bindResult op context result).Keeps M := by
      unfold bindResult
      split
      · next name hname =>
        exact (Flow.obeys_perform (hbind name result (.inl hname))).bind fun _ _ =>
          (Flow.obeys_perform (hbind _ result (.inr rfl))).keeps
      · exact (Flow.obeys_perform (hbind _ result (.inr rfl))).keeps
    refine hbound.bind fun _ _ => (Flow.keeps_announce hM _ _ _).bind fun _ _ => ?_
    exact Flow.obeys_ok trivial

/-! ## Engines made of groups and leaves -/

/-- The executors that execute ops themselves. -/
def Executor.IsGroup (x : Executor) : Prop :=
  x = Executor.sequential ∨ x = Executor.parallel ∨ x = Executor.map

/-- An executor that executes no ops; what it does for an op is described by `p`. -/
def Executor.IsLeaf (p : Flow Value → Prop) (x : Executor) : Prop :=
  ∃ leaf : Config → Op → Handle → Flow Value,
    x = (fun d => leaf d.config) ∧ ∀ config op context, p (leaf config op context)

/-- Every executor of the engine is a group or a leaf as described. -/
def Engine.Composed (e : Engine) (p : Flow Value → Prop) : Prop :=
  ∀ kind x, e.registry.get? kind = some x → x.IsGroup ∨ x.IsLeaf p

theorem Engine.Composed.mono {e : Engine} {p q : Flow Value → Prop} (he : e.Composed p)
    (h : ∀ f, p f → q f) : e.Composed q := by
  intro kind x hx
  rcases he kind x hx with hgroup | ⟨leaf, rfl, hleaf⟩
  · exact .inl hgroup
  · exact .inr ⟨leaf, rfl, fun config op context => h _ (hleaf config op context)⟩

/-- All ops together are executed as the monitor asks if every single one is. -/
theorem Dispatcher.covers_all {d : Dispatcher} {context : Handle}
    (h : ∀ op, (d.exec op context).Keeps M) : d.Covers M (fun _ => True) context :=
  ⟨fun _ _ _ _ _ _ _ => trivial, fun op _ _ => h op⟩

/-- **An engine obeys what its leaves obey**, whatever ops it executes and however they nest. -/
theorem Engine.exec_keeps_of_composed (hM : M.Suits)
    (hbind : ∀ context key value, M.Neutral (.bind context key value)) {e : Engine}
    (he : e.Composed (Flow.Keeps M)) (n : Nat) (op : Op) (context : Handle) :
    (e.exec n op context).Keeps M := by
  induction n generalizing op context with
  | zero => exact Flow.obeys_starved
  | succ n ih =>
    have hall : ∀ context, (e.dispatcher n).Covers M (fun _ => True) context :=
      fun context => Dispatcher.covers_all fun op => ih op context
    refine exec_keeps hM (fun x hx => ?_) fun key value _ => hbind context key value
    rcases he op.kind x hx with (rfl | rfl | rfl) | ⟨leaf, rfl, hleaf⟩
    · exact Executor.sequential_keeps hM fun _ _ inner _ _ =>
        Dispatcher.runOps_keeps hM (hall inner) fun _ _ => trivial
    · exact Executor.parallel_keeps hM fun _ _ _ _ =>
        Dispatcher.dispatch_keeps hM (hall context) trivial
    · exact Executor.map_keeps hM fun _ _ inner _ _ =>
        Dispatcher.runOps_keeps hM (hall inner) fun _ _ => trivial
    · exact hleaf e.config op context

theorem Engine.covers_of_composed (hM : M.Suits)
    (hbind : ∀ context key value, M.Neutral (.bind context key value)) {e : Engine}
    (he : e.Composed (Flow.Keeps M)) (n : Nat) (context : Handle) :
    (e.dispatcher n).Covers M (fun _ => True) context :=
  Dispatcher.covers_all fun op => exec_keeps_of_composed hM hbind he n op context

end WorkflowEngine
