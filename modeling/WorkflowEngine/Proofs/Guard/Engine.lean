import Mathlib
import WorkflowEngine.Proofs.Guard
import WorkflowEngine.Proofs.Library
import WorkflowEngine.Rehearsal.Executors
import WorkflowEngine.Workflow

/-!
# The limit of loops is only a guard

A loop without a limit of its own has that of the configuration. It is read when the loop is
entered, in the runner of the workflow and in those of groups, branches and items alike, and it
counts the passes since then.

**Theorem (`Engine.limit_only_guards`).** Take two engines that differ in that limit alone, the
second without one or with a larger one. As long as the first raises no fault of a limit, the second
does the same, action by action; and what the first has done before it raises one, the second does
as well. This is so for all workflows and contexts, however ops nest and executors pause.

**Executors of the host.** They may not look at the limit: with two dispatchers that do the same up
to a limit, they do the same up to a limit (`Executor.Indifferent`). Whether they pass on the fault
of an op that they have had executed, or make something else of it, is their business (`passedOn`).
If they pass it on, as the groups do, then a run raises the fault of a limit only to end with it.

The two engines are compared by induction on the nesting of their calls. Of fan-outs only the tasks
need to be looked at, and of runners only single moves (`Proofs/Comparison`).
-/

namespace WorkflowEngine

open WorkflowEngine.Flow (SameUpToLimit UpToLimit FailsWith GuardsOnly)

/-! ## Limits -/

/-- The second limit is no smaller; to have none is to have the largest. -/
def LimitLe : Option Nat → Option Nat → Prop
  | _, none => True
  | none, some _ => False
  | some m, some n => m ≤ n

theorem LimitLe.refl (limit : Option Nat) : LimitLe limit limit := by
  cases limit with
  | none => trivial
  | some n => exact Nat.le_refl n

/-- An own limit counts more than that of the configuration. -/
theorem LimitLe.or {limit limit' : Option Nat} (h : LimitLe limit limit') (own : Option Nat) :
    LimitLe (own.or limit) (own.or limit') := by
  cases own with
  | none => exact h
  | some n => exact .refl _

/-- The same loop, with a limit that is no smaller. -/
def Loop.LoosensTo (l l' : Loop) : Prop :=
  ∃ limit, LimitLe l.limit limit ∧ l' = { l with limit }

/-- The same place in the same op list, in the body of the same loop with a limit that is no
smaller. -/
structure Frame.LoosensTo (f f' : Frame) : Prop where
  body : f'.body = f.body
  rest : f'.rest = f.rest
  loop : Option.Rel Loop.LoosensTo f.loop f'.loop

/-- The same runner, with loops whose limits are no smaller. -/
def Runner.LoosensTo (r r' : Runner) : Prop :=
  ∃ frames, List.Forall₂ Frame.LoosensTo r.frames frames ∧ r' = { r with frames }

/-- The same configuration, with a limit on loops that is no smaller. -/
def Config.LoosensTo (c c' : Config) : Prop :=
  ∃ limit, LimitLe c.maxLoopIterations limit ∧ c' = { c with maxLoopIterations := limit }

/-- The second dispatcher executes ops as the first does, up to a limit. -/
structure Dispatcher.LoosensTo (passedOn : Prop) (d d' : Dispatcher) : Prop where
  config : d.config.LoosensTo d'.config
  fuel : d'.fuel = d.fuel
  exec : ∀ op context, SameUpToLimit passedOn (d.exec op context) (d'.exec op context)

/-! ## Loops -/

variable {passedOn : Prop}

/-- A test of the condition: it has the same answer, or the smaller limit is used up. -/
theorem Loop.begin?_upToLimit {l l' : Loop} (h : l.LoosensTo l') (context : Handle) :
    UpToLimit (FailsWith passedOn) (Option.Rel Loop.LoosensTo) (l.begin? context)
      (l'.begin? context) := by
  obtain ⟨mode, condition, limit, passes⟩ := l
  obtain ⟨limit', hle, rfl⟩ := h
  refine .after _ fun b => ?_
  dsimp only
  split
  · match limit, limit', hle with
    | none, none, hle => exact .ok (.some ⟨none, hle, rfl⟩)
    | some m, limit', hle =>
      dsimp only
      split
      · exact .limit _ trivial fun _ => rfl
      · next hm =>
        match limit', hle with
        | none, hle => exact .ok (.some ⟨none, hle, rfl⟩)
        | some n, hle =>
          have hn : ¬n ≤ passes := fun hn => hm (Nat.le_trans hle hn)
          dsimp only
          rw [if_neg hn]
          exact .ok (.some ⟨some n, hle, rfl⟩)
  · exact .ok .none

theorem Loop.ofOp_loosened {c c' : Config} (h : c.LoosensTo c') (mode : LoopMode) (op : Op) :
    (∃ e, Loop.ofOp c mode op = .error e ∧ Loop.ofOp c' mode op = .error e) ∨
    ∃ l l' body, Loop.ofOp c mode op = .ok (l, body) ∧ Loop.ofOp c' mode op = .ok (l', body) ∧
      l.LoosensTo l' := by
  obtain ⟨limit, hle, rfl⟩ := h
  unfold Loop.ofOp
  cases op.innerOps with
  | error e => exact .inl ⟨e, rfl, rfl⟩
  | ok body =>
    cases op.natParam "maxIterations" with
    | error e => exact .inl ⟨e, rfl, rfl⟩
    | ok own =>
      cases op.requireText "condition" with
      | error e => exact .inl ⟨e, rfl, rfl⟩
      | ok condition => exact .inr ⟨_, _, body, rfl, rfl, own.or limit, hle.or own, rfl⟩

/-! ## Runners -/

namespace Runner

variable {d d' : Dispatcher}

theorem begun_upToLimit {l l' : Loop} (h : l.LoosensTo l') (body : List Op) (context : Handle) :
    UpToLimit (FailsWith passedOn) (Option.Rel Frame.LoosensTo)
      (do match ← l.begin? context with
          | some loop => return some ⟨body, body, some loop⟩
          | none => return none)
      (do match ← l'.begin? context with
          | some loop => return some ⟨body, body, some loop⟩
          | none => return none) := by
  refine (Loop.begin?_upToLimit h context).andThen fun o o' ho => ?_
  cases ho with
  | none => exact .ok .none
  | some hl => exact .ok (.some ⟨rfl, rfl, .some hl⟩)

theorem enter?_upToLimit (hd : d.LoosensTo passedOn d') (mode : LoopMode) (op : Op)
    (context : Handle) :
    UpToLimit (FailsWith passedOn) (Option.Rel Frame.LoosensTo) (enter? d mode op context)
      (enter? d' mode op context) := by
  unfold enter?
  rcases Loop.ofOp_loosened hd.config mode op with ⟨e, h, h'⟩ | ⟨l, l', body, h, h', hl⟩
  · rw [h, h']
    exact .act fun _ => .error e
  · rw [h, h']
    change UpToLimit _ _ (if body.isEmpty then _ else _) (if body.isEmpty then _ else _)
    split
    · exact .ok .none
    · exact begun_upToLimit hl body context

theorem again?_upToLimit {f f' : Frame} (hf : f.LoosensTo f') (context : Handle) :
    UpToLimit (FailsWith passedOn) (Option.Rel Frame.LoosensTo) (again? f context)
      (again? f' context) := by
  obtain ⟨body, rest, loop⟩ := f
  obtain ⟨body', rest', loop'⟩ := f'
  obtain ⟨rfl, rfl, hloop⟩ := hf
  unfold again?
  cases hloop with
  | none => exact .ok .none
  | some hl => exact begun_upToLimit hl body' context

theorem pushed_loosensTo {o o' : Option Frame} {fs fs' : List Frame}
    (ho : Option.Rel Frame.LoosensTo o o') (hfs : List.Forall₂ Frame.LoosensTo fs fs') :
    List.Forall₂ Frame.LoosensTo (o.toList ++ fs) (o'.toList ++ fs') := by
  cases ho with
  | none => exact hfs
  | some hf => exact .cons hf hfs

/-- **One move.** -/
theorem move_upToLimit (hd : d.LoosensTo passedOn d') {r r' : Runner} (hr : r.LoosensTo r') :
    UpToLimit (FailsWith passedOn) (Moved.Rel Eq Runner.LoosensTo) (move d r) (move d' r') := by
  obtain ⟨topLevel, context, frames, phase, dispatched⟩ := r
  obtain ⟨frames', hframes, rfl⟩ := hr
  unfold move
  cases hframes with
  | nil => exact .ok .atEnd
  | @cons f f' outer outer' hf houter =>
    obtain ⟨body, rest, loop⟩ := f
    obtain ⟨body', rest', loop'⟩ := f'
    obtain ⟨rfl, rfl, hloop⟩ := hf
    cases rest' with
    | nil =>
      have hf : Frame.LoosensTo ⟨body', [], loop⟩ ⟨body', [], loop'⟩ := ⟨rfl, rfl, hloop⟩
      refine (again?_upToLimit hf context).andThen fun o o' ho => ?_
      exact .ok (.onward ⟨_, pushed_loosensTo ho houter, rfl⟩)
    | cons op rest =>
      have hleft : List.Forall₂ Frame.LoosensTo (⟨body', rest, loop⟩ :: outer)
          (⟨body', rest, loop'⟩ :: outer') := .cons ⟨rfl, rfl, hloop⟩ houter
      refine .after _ fun _ => ?_
      dsimp only
      split
      · next mode _ =>
        refine (enter?_upToLimit hd mode op context).andThen fun o o' ho => ?_
        exact .ok (.onward ⟨_, pushed_loosensTo ho hleft, rfl⟩)
      · refine UpToLimit.andThen (hd.exec op context) fun v v' hv => ?_
        subst hv
        exact .ok (.handed rfl ⟨_, hleft, rfl⟩)

theorem advance_upToLimit (hd : d.LoosensTo passedOn d') (n : Nat) {r r' : Runner}
    (hr : r.LoosensTo r') :
    UpToLimit (FailsWith passedOn) (fun p q => Option.Rel Eq p.1 q.1 ∧ p.2.LoosensTo q.2)
      (advance d n r) (advance d' n r') :=
  advance_alike (C := Flow.upToLimit passedOn) (s := ()) (R := fun _ => Runner.LoosensTo)
    (fun _ hr => hr) (fun hr => move_upToLimit hd hr) n hr

/-- If faults are passed on, one of a limit is yielded, and the runner is finished. -/
def YieldsLimit (passedOn : Prop) (n : Nat) (e : Fault)
    (f : Flow (Option (Except Fault Step) × Runner)) : Prop :=
  passedOn → n ≠ 0 ∧ ∃ r : Runner, r.phase = .finished ∧ f = .done (.ok (some (.error e), r))

/-- What a call of `next` comes to: it yields the same, and the runner is the same up to its
limits. -/
def SameYield (p q : Option (Except Fault Step) × Runner) : Prop :=
  q.1 = p.1 ∧ p.2.LoosensTo q.2

theorem next_upToLimit_of_running (hd : d.LoosensTo passedOn d') (n : Nat) {r r' : Runner}
    (hr : r.LoosensTo r') (hphase : r.phase = .running) :
    UpToLimit (YieldsLimit passedOn n) SameYield (next d n r) (next d' n r') := by
  have hphase' : r'.phase = .running := by
    obtain ⟨frames, -, rfl⟩ := hr
    exact hphase
  rw [next_of_running hphase, next_of_running hphase']
  cases n with
  | zero => exact .starved
  | succ n =>
    refine (advance_upToLimit hd (n + 1) hr).attempt (fun p q hpq => ?_) (fun e => ?_)
      fun e f hf hpassed => ?_
    · obtain ⟨step, r₁⟩ := p
      obtain ⟨step', r₁'⟩ := q
      obtain ⟨hstep, frames, hframes, rfl⟩ := hpq
      dsimp only at hstep
      cases hstep with
      | some hs =>
        cases hs
        exact .ok ⟨rfl, frames, hframes, rfl⟩
      | none =>
        refine (UpToLimit.refl (r₁.announce .workflowDone)).bind (fun _ _ _ => ?_) fun e f h => h
        exact .ok ⟨rfl, frames, hframes, rfl⟩
    · obtain ⟨frames, hframes, rfl⟩ := hr
      exact .ok ⟨rfl, frames, hframes, rfl⟩
    · exact ⟨n.succ_ne_zero, _, rfl, hf hpassed⟩

/-- **A call of `next`.** -/
theorem next_upToLimit (hd : d.LoosensTo passedOn d') (n : Nat) {r r' : Runner}
    (hr : r.LoosensTo r') :
    UpToLimit (YieldsLimit passedOn n) SameYield (next d n r) (next d' n r') := by
  obtain ⟨topLevel, context, frames, phase, dispatched⟩ := r
  obtain ⟨frames', hframes, rfl⟩ := hr
  cases phase with
  | running => exact next_upToLimit_of_running hd n ⟨frames', hframes, rfl⟩ rfl
  | finished =>
    rw [next_of_finished rfl, next_of_finished rfl]
    exact .ok ⟨rfl, frames', hframes, rfl⟩
  | pending =>
    rw [next_of_pending (d := d) rfl, next_of_pending (d := d') rfl]
    refine (UpToLimit.refl _).bind (fun _ _ _ => ?_) fun e f h => h
    exact next_upToLimit_of_running hd n ⟨frames', hframes, rfl⟩ rfl

theorem stepsFrom_upToLimit (hd : d.LoosensTo passedOn d') (taken : List Step) (n : Nat)
    {r r' : Runner} (hr : r.LoosensTo r') :
    UpToLimit (FailsWith passedOn) (fun p q => q.1 = p.1 ∧ p.2.LoosensTo q.2)
      (stepsFrom d taken n r) (stepsFrom d' taken n r') := by
  induction n generalizing taken r r' with
  | zero => exact .starved
  | succ n ih =>
    refine (next_upToLimit hd n hr).bind (fun p q hpq => ?_) fun e f hf hpassed => ?_
    · obtain ⟨item, r₁⟩ := p
      obtain ⟨item', r₁'⟩ := q
      obtain ⟨hitem, hr₁⟩ := hpq
      cases hitem
      match item with
      | none => exact .ok ⟨rfl, hr₁⟩
      | some (.ok step) => exact ih (step :: taken) hr₁
      | some (.error e) => exact .error e
    · obtain ⟨-, r₁, -, rfl⟩ := hf hpassed
      rfl

/-- If faults are passed on, a stream that meets one of a limit ends with it. -/
def EndsYieldingLimit (passedOn : Prop) (e : Fault) (f : Flow (List (Except Fault Step))) : Prop :=
  passedOn → ∃ items, f = .done (.ok (items ++ [.error e]))

theorem streamFrom_upToLimit (hd : d.LoosensTo passedOn d') (yielded : List (Except Fault Step))
    (n : Nat) {r r' : Runner} (hr : r.LoosensTo r') :
    UpToLimit (EndsYieldingLimit passedOn) Eq (streamFrom d yielded n r)
      (streamFrom d' yielded n r') := by
  induction n generalizing yielded r r' with
  | zero => exact .starved
  | succ n ih =>
    refine (next_upToLimit hd n hr).bind (fun p q hpq => ?_) fun e f hf hpassed => ?_
    · obtain ⟨item, r₁⟩ := p
      obtain ⟨item', r₁'⟩ := q
      obtain ⟨hitem, hr₁⟩ := hpq
      cases hitem
      match item with
      | none => exact .ok rfl
      | some item => exact ih (item :: yielded) hr₁
    · obtain ⟨hn, r₁, hfinished, rfl⟩ := hf hpassed
      obtain ⟨m, rfl⟩ := Nat.exists_eq_succ_of_ne_zero hn
      refine ⟨yielded.reverse, ?_⟩
      change streamFrom d (.error e :: yielded) (m + 1) r₁ = _
      rw [streamFrom, next_of_finished hfinished, ← List.reverse_cons]
      rfl

theorem start_loosensTo (topLevel : Bool) (ops : List Op) (context : Handle) :
    (start topLevel ops context).LoosensTo (start topLevel ops context) :=
  ⟨_, .cons ⟨rfl, rfl, .none⟩ .nil, rfl⟩

theorem steps_upToLimit (hd : d.LoosensTo passedOn d') {r r' : Runner} (hr : r.LoosensTo r') :
    UpToLimit (FailsWith passedOn) (fun p q => q.1 = p.1 ∧ p.2.LoosensTo q.2) (r.steps d)
      (r'.steps d') := by
  rw [steps, steps, hd.fuel]
  exact stepsFrom_upToLimit hd [] d.fuel hr

theorem stream_upToLimit (hd : d.LoosensTo passedOn d') {r r' : Runner} (hr : r.LoosensTo r') :
    UpToLimit (EndsYieldingLimit passedOn) Eq (r.stream d) (r'.stream d') := by
  rw [stream, stream, hd.fuel]
  exact streamFrom_upToLimit hd [] d.fuel hr

end Runner

namespace Dispatcher.LoosensTo

variable {d d' : Dispatcher}

theorem runOps (hd : d.LoosensTo passedOn d') (ops : List Op) (context : Handle) :
    SameUpToLimit passedOn (d.runOps ops context) (d'.runOps ops context) := by
  refine (Runner.steps_upToLimit hd (Runner.start_loosensTo false ops context)).andThen
    fun p q hpq => ?_
  exact .ok (congrArg (List.map Step.result) hpq.1.symm)

theorem dispatch (hd : d.LoosensTo passedOn d') (op : Op) (context : Handle) :
    SameUpToLimit passedOn (d.dispatch op context) (d'.dispatch op context) := by
  unfold Dispatcher.dispatch
  split
  · exact (hd.runOps [op] context).andThen fun results _ h => .ok (h ▸ rfl)
  · exact hd.exec op context

end Dispatcher.LoosensTo

/-! ## Executors -/

/-- The executor does not look at the limit on loops: with two dispatchers that execute ops alike up
to a limit, it does the same up to a limit. -/
def Executor.Indifferent (passedOn : Prop) (x : Executor) : Prop :=
  ∀ d d' : Dispatcher, d.LoosensTo passedOn d' → ∀ op context,
    SameUpToLimit passedOn (x d op context) (x d' op context)

namespace Executor

/-- An executor to which only the rest of the configuration makes a difference. -/
theorem indifferent_of_leaf {x : Executor} (h : ∀ d limit fuel exec,
    x ⟨{ d.config with maxLoopIterations := limit }, fuel, exec⟩ = x d) :
    x.Indifferent passedOn := by
  intro d d' hd op context
  obtain ⟨config, fuel, exec⟩ := d'
  obtain ⟨limit, -, rfl⟩ : d.config.LoosensTo config := hd.config
  rw [h d limit fuel exec]
  exact .refl _

theorem sequential_indifferent : sequential.Indifferent passedOn := by
  intro d d' hd op context
  refine .after _ fun ops => .after _ fun inner => ?_
  exact (hd.runOps ops inner).andThen fun _ _ h => .ok (h ▸ rfl)

theorem parallel_indifferent : parallel.Indifferent passedOn := by
  intro d d' hd op context
  refine .after _ fun ops => ?_
  have hcap : concurrency d'.config op ops.length = concurrency d.config op ops.length := by
    obtain ⟨limit, -, h⟩ := hd.config
    rw [h]
    rfl
  rw [hcap, hd.fuel]
  refine .after _ fun cap => ?_
  have htasks : List.Forall₂ (SameUpToLimit passedOn) (ops.map (d.dispatch · context))
      (ops.map (d'.dispatch · context)) := by
    rw [List.forall₂_map_left_iff, List.forall₂_map_right_iff, List.forall₂_same]
    exact fun op _ => hd.dispatch op context
  have hrun := FanOut.run_alike (C := Flow.upToLimit passedOn) (s := ()) Flow.upToLimit_suspends
    (fun _ _ => UpToLimit.refl (return)) htasks d.fuel cap
  exact UpToLimit.andThen hrun fun _ _ h => .ok (h ▸ rfl)

theorem mapItems_upToLimit {d d' : Dispatcher} (hd : d.LoosensTo passedOn d') (ops : List Op)
    (name : String) (context : Handle) (results items : List Value) :
    SameUpToLimit passedOn (mapItems d ops name context results items)
      (mapItems d' ops name context results items) := by
  induction items generalizing results with
  | nil => exact .ok rfl
  | cons item items ih =>
    refine .after _ fun _ => .after _ fun b => .after _ fun inner => ?_
    refine (hd.runOps ops inner).andThen fun _ _ _ => .after _ fun b => ?_
    exact ih (b.output.getD .null :: results)

theorem map_indifferent : map.Indifferent passedOn := by
  intro d d' hd op context
  refine .after _ fun b => .after _ fun items => .after _ fun name => .after _ fun ops => ?_
  exact (mapItems_upToLimit hd ops _ context [] items).andThen fun _ _ h => .ok (h ▸ rfl)

end Executor

namespace Registry

/-- All executors of the registry are indifferent to the limit on loops. -/
def Indifferent (passedOn : Prop) (r : Registry) : Prop :=
  ∀ kind x, (kind, x) ∈ r.entries → x.Indifferent passedOn

/-- **The built-in executors do not look at the limit.** -/
theorem builtin_indifferent (model : Option LanguageModel) (client : Http.Client) :
    (builtin model client).Indifferent passedOn := by
  intro kind x h
  cases mem_builtin_iff.1 h with
  | sequential => exact Executor.sequential_indifferent
  | parallel => exact Executor.parallel_indifferent
  | map => exact Executor.map_indifferent
  | _ => exact Executor.indifferent_of_leaf fun _ _ _ _ => rfl

end Registry

/-! ## Engines -/

namespace Engine

variable {e : Engine}

/-- The engine, with another limit on loops. -/
def withLimit (e : Engine) (limit : Option Nat) : Engine :=
  { e with config := { e.config with maxLoopIterations := limit } }

theorem exec_upToLimit (he : e.registry.Indifferent passedOn) {limit : Option Nat}
    (hlimit : LimitLe e.config.maxLoopIterations limit) (n : Nat) (op : Op) (context : Handle) :
    SameUpToLimit passedOn (e.exec n op context) ((e.withLimit limit).exec n op context) := by
  induction n generalizing op context with
  | zero => exact .starved
  | succ n ih =>
    refine .after _ fun _ => ?_
    have hregistry : (e.withLimit limit).registry = e.registry := rfl
    rw [hregistry]
    split
    · exact .refl _
    · next x hx =>
      have hd : Dispatcher.LoosensTo passedOn ⟨e.config, n, e.exec n⟩
          ⟨(e.withLimit limit).config, n, (e.withLimit limit).exec n⟩ :=
        ⟨⟨limit, hlimit, rfl⟩, rfl, ih⟩
      have hresult := he op.kind x (Record.mem_of_get? hx) _ _ hd op context
      exact hresult.andThen fun v _ hv => hv ▸ .refl _

/-- **The limit of the configuration reaches a dispatcher as nothing but a guard.** -/
theorem dispatcher_loosensTo (he : e.registry.Indifferent passedOn) {limit : Option Nat}
    (hlimit : LimitLe e.config.maxLoopIterations limit) (n : Nat) :
    (e.dispatcher n).LoosensTo passedOn ((e.withLimit limit).dispatcher n) :=
  ⟨⟨limit, hlimit, rfl⟩, rfl, exec_upToLimit he hlimit n⟩

/-- The run has ended with the fault of a limit. -/
def EndsInLimit {α : Type} (r : Except Fault α) : Prop := ∃ e, e.IsLimit ∧ r = .error e

/-- The last thing that the run has yielded is the fault of a limit. -/
def YieldedLimit (r : Except Fault (List (Except Fault Step))) : Prop :=
  ∃ items e, e.IsLimit ∧ r = .ok (items ++ [.error e])

/-- **The limit of loops is only a guard**, for all that an engine can be asked for. As long as no
fault of a limit is raised, a larger limit makes no difference, and what comes before the first one
comes with the larger limit as well.

`Indifferent` restricts only executors of the host that read the configured limit; the built-in ones
do not. With `passedOn` true, executors also hand on the fault of a limit, and a run raises one only
to end with it. With `passedOn := False` they may swallow it: the run may then go on after such a
fault and end otherwise, and the two runs are compared up to that fault. -/
theorem limit_only_guards {passedOn : Prop} {e : Engine} (he : e.registry.Indifferent passedOn)
    {limit : Option Nat} (hlimit : LimitLe e.config.maxLoopIterations limit) (n : Nat)
    (context : Handle) :
    (∀ w : Workflow,
      GuardsOnly passedOn EndsInLimit (w.run (e.dispatcher n) context)
        (w.run ((e.withLimit limit).dispatcher n) context) ∧
      GuardsOnly passedOn EndsInLimit (w.execute (e.dispatcher n) context)
        (w.execute ((e.withLimit limit).dispatcher n) context) ∧
      GuardsOnly passedOn YieldedLimit ((w.runner context).stream (e.dispatcher n))
        ((w.runner context).stream ((e.withLimit limit).dispatcher n))) ∧
    (∀ ops, GuardsOnly passedOn EndsInLimit ((e.dispatcher n).runOps ops context)
      (((e.withLimit limit).dispatcher n).runOps ops context)) ∧
    ∀ op, GuardsOnly passedOn EndsInLimit ((e.dispatcher n).dispatch op context)
      (((e.withLimit limit).dispatcher n).dispatch op context) := by
  have hd := dispatcher_loosensTo he hlimit n
  refine ⟨fun w => ?_, fun ops => (hd.runOps ops context).guardsOnly,
    fun op => (hd.dispatch op context).guardsOnly⟩
  have hstart := Runner.start_loosensTo true w.ops context
  have hsteps := Runner.steps_upToLimit hd hstart
  refine ⟨SameUpToLimit.guardsOnly ?_, SameUpToLimit.guardsOnly ?_, ?_⟩
  · refine hsteps.andThen fun p q hpq => ?_
    obtain ⟨-, frames, -, hq⟩ := hpq
    exact .ok (congrArg Runner.context hq).symm
  · refine hsteps.andThen fun p q hpq => ?_
    obtain ⟨steps, r⟩ := p
    obtain ⟨steps', r'⟩ := q
    obtain ⟨hsteps, frames, -, hr⟩ := hpq
    cases hsteps
    cases hr
    exact .ok rfl
  · refine (Runner.stream_upToLimit hd hstart).guardsOnly fun e f he hf hpassed => ?_
    obtain ⟨items, rfl⟩ := hf hpassed
    exact ⟨_, rfl, items, e, he, rfl⟩

end Engine

/-- An engine is indifferent to the limit if the executors of its host are. -/
theorem EngineBuilder.indifferent_build {b : EngineBuilder}
    (h : b.executors.Indifferent passedOn) : b.build.registry.Indifferent passedOn := by
  intro kind x hx
  rcases EngineBuilder.builtin_or_supplied (Record.mem_entries_iff.1 hx) with hbuiltin | hhost
  · exact Registry.builtin_indifferent b.model _ kind x hbuiltin
  · exact h kind x hhost

namespace Rehearsal

theorem dispatch_indifferent : dispatch.Indifferent passedOn := by
  intro d d' hd op context
  unfold dispatch
  split
  · exact .refl _
  · next target _ =>
    split
    · exact hd.exec target context
    · exact (hd.runOps [target] context).andThen fun _ _ h => .ok (h ▸ rfl)
    · exact hd.dispatch target context

/-- The executors for rehearsals do not look at the limit, and pass on the faults of others. -/
theorem executors_indifferent : executors.Indifferent passedOn := by
  intro kind x h
  have hm := Record.mem_of_mem_ofList h
  simp only [List.mem_cons, List.not_mem_nil, or_false, Prod.mk.injEq] at hm
  rcases hm with ⟨-, rfl⟩ | ⟨-, rfl⟩ | ⟨-, rfl⟩ | ⟨-, rfl⟩ | ⟨-, rfl⟩ | ⟨-, rfl⟩ | ⟨-, rfl⟩ |
    ⟨-, rfl⟩
  · exact Executor.indifferent_of_leaf fun _ _ _ _ => rfl
  · exact Executor.indifferent_of_leaf fun _ _ _ _ => rfl
  · exact Executor.indifferent_of_leaf fun _ _ _ _ => rfl
  · exact Executor.indifferent_of_leaf fun _ _ _ _ => rfl
  · exact Executor.indifferent_of_leaf fun _ _ _ _ => rfl
  · exact Executor.indifferent_of_leaf fun _ _ _ _ => rfl
  · exact Executor.indifferent_of_leaf fun _ _ _ _ => rfl
  · exact dispatch_indifferent

end Rehearsal

/-- An engine for rehearsals. -/
def Engine.rehearsingWithin (limit : Option Nat) : Engine :=
  ({ executors := Rehearsal.executors, config := { maxLoopIterations := limit } } :
    EngineBuilder).build

/-- A context that calls for a pass. -/
def countingWorld : World :=
  { contexts := (Store.empty.create (.ofList [("go", .bool true), ("n", .nat 0)])).2 }

/-- Counts to three in a copy of the context. -/
def Workflow.counting : Workflow :=
  (Workflow.empty "counting").add
    (.sequential [.repeatWhile "go" [.new "increment", (Op.new "less").withParam "than" (.nat 3)]])

def countingWithin (limit : Option Nat) : Flow Handle :=
  Workflow.counting.run ((Engine.rehearsingWithin limit).dispatcher 20) ⟨0⟩

/-- Counting to three within two passes ends with the fault of the limit, and has done what it does
without a limit; within three passes it is the same as without a limit. -/
theorem Engine.limit_only_guards_counting :
    (∀ limit, (rehearsingWithin limit).registry.Indifferent True) ∧ LimitLe (some 2) none ∧
    LimitLe (some 3) none ∧
    ((countingWithin (some 2)).run {} countingWorld).1 =
      .ended (.error (.loopLimit "while" "go" 2)) ∧
    (∃ before e, e.IsLimit ∧
      (countingWithin (some 2)).trace {} countingWorld = before ++ [.did (.raise e) ()] ∧
      before <+: (countingWithin none).trace {} countingWorld) ∧
    (countingWithin none).trace {} countingWorld =
      (countingWithin (some 3)).trace {} countingWorld := by
  have hindifferent (limit) : (rehearsingWithin limit).registry.Indifferent True :=
    EngineBuilder.indifferent_build Rehearsal.executors_indifferent
  have htwo : ((countingWithin (some 2)).run {} countingWorld).1 =
      .ended (.error (.loopLimit "while" "go" 2)) := by cbv
  have hthree : ((countingWithin (some 3)).run {} countingWorld).1 = .ended (.ok ⟨0⟩) := by cbv
  have hnone : ((countingWithin none).run {} countingWorld).1 = .ended (.ok ⟨0⟩) := by cbv
  have guards {m : Nat} (h : LimitLe (some m) none) :
      GuardsOnly True EndsInLimit (countingWithin (some m)) (countingWithin none) :=
    ((limit_only_guards (hindifferent (some m)) h 20 ⟨0⟩).1 Workflow.counting).1
  refine ⟨hindifferent, trivial, trivial, htwo, ?_, ?_⟩
  · rcases (guards trivial).prior {} countingWorld with
      ⟨-, hrun⟩ | ⟨before, e, after, he, htrace, hprefix, hafter⟩
    · rw [← hrun, hnone] at htwo
      cases htwo
    · rw [hafter trivial] at htrace
      exact ⟨before, e, he, htrace, hprefix⟩
  · refine ((guards trivial).unlimited trivial {} countingWorld fun r hr hlimited => ?_).1
    obtain ⟨e, -, rfl⟩ := hlimited
    rw [hthree] at hr
    cases hr

end WorkflowEngine
