import WorkflowEngine.Proofs.Judgement
import WorkflowEngine.Proofs.Moves
import WorkflowEngine.Proofs.Parameters
import WorkflowEngine.Workflow

/-!
# What may be said of runners

A runner does little by itself: it asks whether to stop, reads its context, raises a fault, announces
the start and the end of the run. Everything else is done by the ops it has executed. So what a
judgement says of these single actions and of the execution of ops, it says of runs.

**States.** Between two ops a judgement is in one of its *home* states; the question whether to stop
leads to a state in which it has been *asked*, and there an op is executed (`Judgement.Walks`).

**Classes of ops** (`Dispatcher.Executes`). What is asked of the executions is asked of the ops of a
class that holds, with a loop, the ops of its body. The frames of a runner hold ops of the class
only (`Runner.Holds`), and every move keeps to that (`Runner.move_judged`).

**From moves to runs.** An advance is one move after another (`Runner.advance_judged`). If the
judgement can also be followed where a fault is kept as a result (`Judgement.Runs`), then it holds
of the calls of `next`, and so of a run to the end, and of a stream with its last fault
(`Runner.stepsFrom_returns`, `Runner.streamFrom_judged`).
-/

namespace WorkflowEngine

namespace Judgement

variable {J : Judgement} {home asked : J.State → Prop} {fails : J.State → Fault → Prop} {α : Type}
  {s : J.State}

/-- Between two ops the flow may be begun, and it leads back to where it began. -/
def Returns (J : Judgement) (home : J.State → Prop) (f : Flow α) : Prop :=
  ∀ s, home s → J.judges (fun s _ => home s) f s

/-- Between two ops the fault may be raised. -/
def Raises (J : Judgement) (home : J.State → Prop) (e : Fault) : Prop :=
  ∀ {α : Type} (P : J.State → α → Prop) s, home s → J.judges P (Flow.fail e) s

/-- What is done between two ops may be done, and leads back to where it began, or right after the
question whether to stop. -/
structure Walks (J : Judgement) (home asked : J.State → Prop) : Prop where
  starved {α : Type} {P : J.State → α → Prop} {s : J.State} : home s → J.judges P .starved s
  check {s : J.State} : home s → J.judges (fun s _ => home s ∧ asked s) Flow.check s
  view (h : Handle) : J.Returns home (Flow.view h)
  raises {e : Fault} : ¬e.IsInnerOps → J.Raises home e

/-- A flow may be followed to its fault, which may then end another; and the start and the end of a
run may be announced. -/
structure Runs (J : Judgement) (home asked : J.State → Prop) (fails : J.State → Fault → Prop) :
    Prop extends J.Walks home asked where
  error {α : Type} {P : J.State → α → Prop} {e : Fault} {s : J.State} : fails s e →
    J.judges P (.done (.error e)) s
  attempt {α : Type} {P : J.State → α → Prop} {f : Flow α} {s : J.State} : J.judges P f s →
    J.judges (fun s r => match r with
      | .ok a => P s a
      | .error e => fails s e) f.attempt s
  announce {stage : Stage} (op : Op) (h : Handle) : stage = .workflowStart ∨ stage = .workflowDone →
    J.Returns home (Flow.announce stage op h)

theorem Walks.ofExcept (hs : home s) {r : Except Fault α}
    (h : ∀ e, r = .error e → J.Raises home e) :
    J.judges (fun s a => home s ∧ r = .ok a) (Flow.ofExcept r) s := by
  cases r with
  | ok a => exact J.ok ⟨hs, rfl⟩
  | error e => exact h e rfl _ s hs

end Judgement

/-- A class of ops that is executed in a context as the judgement asks. The bodies of its loops are
in the class, or else what is wrong with them may be raised; its other ops are executed right after
the question whether to stop, and at their end `served` holds. -/
structure Dispatcher.Executes (d : Dispatcher) (J : Judgement) (home asked : J.State → Prop)
    (served : Op → Value → J.State → Prop) (good : Op → Prop) (context : Handle) : Prop where
  body : ∀ op ops, good op → (LoopMode.ofKind? op.kind).isSome → op.innerOps = .ok ops →
    ∀ inner ∈ ops, good inner
  decodes : ∀ op e, good op → (LoopMode.ofKind? op.kind).isSome → op.innerOps = .error e →
    J.Raises home e
  exec : ∀ op s, good op → LoopMode.ofKind? op.kind = none → home s → asked s →
    J.judges (fun s v => served op v s) (d.exec op context) s

variable {J : Judgement} {home asked : J.State → Prop} {fails : J.State → Fault → Prop}
  {s : J.State}

theorem Loop.begin?_returns (hJ : J.Walks home asked) (l : Loop) (context : Handle) :
    J.Returns home (l.begin? context) := by
  intro s hs
  rw [begin?_eq_test]
  refine J.bind (hJ.view context s hs) fun s b hs => ?_
  refine J.mono (Judgement.Walks.ofExcept hs fun e he => ?_) fun _ _ h => h.1
  obtain ⟨-, limit, -, -, rfl⟩ := test_eq_error.1 he
  exact hJ.raises id

theorem Loop.innerOps_of_ofOp {config : Config} {mode : LoopMode} {op : Op} {loop : Loop}
    {body : List Op} (h : Loop.ofOp config mode op = .ok (loop, body)) :
    op.innerOps = .ok body := by
  obtain ⟨-, -, hbody, -⟩ := of_ofOp h
  exact hbody

namespace Runner

variable {d : Dispatcher} {good : Op → Prop} {context : Handle} {served : Op → Value → J.State → Prop}

/-! ## Frames -/

/-- The ops of a frame are in the class. -/
def FrameGood (good : Op → Prop) (f : Frame) : Prop :=
  (∀ op ∈ f.body, good op) ∧ ∀ op ∈ f.rest, good op

/-- The runner works in the context, on ops of the class. -/
def Holds (good : Op → Prop) (context : Handle) (r : Runner) : Prop :=
  r.context = context ∧ ∀ f ∈ r.frames, FrameGood good f

theorem holds_start {ops : List Op} (h : ∀ op ∈ ops, good op) (topLevel : Bool) (context : Handle) :
    Holds good context (start topLevel ops context) := by
  refine ⟨rfl, fun f hf => ?_⟩
  cases List.mem_singleton.1 hf
  exact ⟨h, h⟩

theorem frames_push {o : Option Frame} {frames : List Frame} (ho : ∀ f ∈ o, FrameGood good f)
    (hframes : ∀ f ∈ frames, FrameGood good f) : ∀ f ∈ o.toList ++ frames, FrameGood good f := by
  intro f hf
  rcases List.mem_append.1 hf with hf | hf
  · exact ho f (by simpa using hf)
  · exact hframes f hf

theorem frames_rest {body rest : List Op} {op : Op} {loop : Option Loop} {outer : List Frame}
    (h : ∀ f ∈ (⟨body, op :: rest, loop⟩ : Frame) :: outer, FrameGood good f) :
    ∀ f ∈ (⟨body, rest, loop⟩ : Frame) :: outer, FrameGood good f := by
  obtain ⟨hfirst, houter⟩ := List.forall_mem_cons.1 h
  exact List.forall_mem_cons.2 ⟨⟨hfirst.1, (List.forall_mem_cons.1 hfirst.2).2⟩, houter⟩

/-! ## Moves -/

theorem enter?_judged (hJ : J.Walks home asked) (hd : d.Executes J home asked served good context)
    {mode : LoopMode} {op : Op} (hmode : LoopMode.ofKind? op.kind = some mode) (hop : good op)
    (hs : home s) : J.judges (fun s o => home s ∧ ∀ f ∈ o, FrameGood good f)
      (enter? d mode op context) s := by
  have hloop : (LoopMode.ofKind? op.kind).isSome := by rw [hmode]; rfl
  have hfault : ∀ e, Loop.ofOp d.config mode op = .error e → J.Raises home e := by
    intro e he
    rcases Loop.fault_of_ofOp he with hinner | hother
    · exact hd.decodes op e hop hloop hinner
    · exact hJ.raises hother
  refine J.bind (Judgement.Walks.ofExcept hs hfault) fun s p hp => ?_
  obtain ⟨loop, body⟩ := p
  obtain ⟨hs, hparts⟩ := hp
  have hbody : ∀ inner ∈ body, good inner :=
    hd.body op body hop hloop (Loop.innerOps_of_ofOp hparts)
  dsimp only
  split
  · exact J.ok ⟨hs, by simp⟩
  · refine J.bind (Loop.begin?_returns hJ loop context s hs) fun s o hs => ?_
    cases o with
    | none => exact J.ok ⟨hs, by simp⟩
    | some loop => exact J.ok ⟨hs, by simpa [FrameGood] using hbody⟩

theorem again?_judged (hJ : J.Walks home asked) {f : Frame} (hf : FrameGood good f)
    (context : Handle) (hs : home s) :
    J.judges (fun s o => home s ∧ ∀ g ∈ o, FrameGood good g) (again? f context) s := by
  unfold again?
  split
  · exact J.ok ⟨hs, by simp⟩
  · next loop _ =>
    refine J.bind (Loop.begin?_returns hJ loop context s hs) fun s o hs => ?_
    cases o with
    | none => exact J.ok ⟨hs, by simp⟩
    | some loop => exact J.ok ⟨hs, by simpa [FrameGood] using hf.1⟩

/-- What a move comes to. -/
inductive Walked (J : Judgement) (home : J.State → Prop) (served : Op → Value → J.State → Prop)
    (good : Op → Prop) (r : Runner) : J.State → Moved → Prop
  | atEnd {s : J.State} : home s → r.frames = [] → Walked J home served good r s .atEnd
  | onward {s : J.State} {frames : List Frame} : home s → (∀ f ∈ frames, FrameGood good f) →
      Walked J home served good r s (.onward { r with frames })
  | handed {s : J.State} {op : Op} {v : Value} {frames : List Frame} : good op →
      LoopMode.ofKind? op.kind = none → served op v s → (∀ f ∈ frames, FrameGood good f) →
      Walked J home served good r s (.handed ⟨r.dispatched, op, v, r.context⟩
        { r with frames, dispatched := r.dispatched + 1 })

/-- **One move.** -/
theorem move_judged (hJ : J.Walks home asked) (hd : d.Executes J home asked served good context)
    {r : Runner} (hr : Holds good context r) (hs : home s) :
    J.judges (Walked J home served good r) (move d r) s := by
  obtain ⟨topLevel, ctx, frames, phase, dispatched⟩ := r
  obtain ⟨rfl, hframes⟩ := hr
  unfold move
  match frames with
  | [] => exact J.ok (.atEnd hs rfl)
  | ⟨body, [], loop⟩ :: outer =>
    obtain ⟨hfirst, houter⟩ := List.forall_mem_cons.1 hframes
    exact J.bind (again?_judged hJ hfirst ctx hs) fun s o ho =>
      J.ok (.onward ho.1 (frames_push ho.2 houter))
  | ⟨body, op :: rest, loop⟩ :: outer =>
    have hop : good op := (List.forall_mem_cons.1 hframes).1.2 op (List.mem_cons_self ..)
    have hnext := frames_rest hframes
    refine J.bind (hJ.check hs) fun s _ hs => ?_
    dsimp only
    split
    · next mode hmode =>
      exact J.bind (enter?_judged hJ hd hmode hop hs.1) fun s o ho =>
        J.ok (.onward ho.1 (frames_push ho.2 hnext))
    · next hmode =>
      exact J.bind (hd.exec op s hop hmode hs.1 hs.2) fun s v hv =>
        J.ok (.handed hop hmode hv hnext)

/-- What an advance comes to: the end of the run, or a step. -/
inductive Advanced (J : Judgement) (home : J.State → Prop) (served : Op → Value → J.State → Prop)
    (good : Op → Prop) (r : Runner) : J.State → Option Step × Runner → Prop
  | ended {s : J.State} : home s →
      Advanced J home served good r s (none, { r with frames := [] })
  | step {s : J.State} {op : Op} {v : Value} {frames : List Frame} : good op →
      LoopMode.ofKind? op.kind = none → served op v s → (∀ f ∈ frames, FrameGood good f) →
      Advanced J home served good r s (some ⟨r.dispatched, op, v, r.context⟩,
        { r with frames, dispatched := r.dispatched + 1 })

/-- **An advance**, move by move. -/
theorem advance_judged (hJ : J.Walks home asked) (hd : d.Executes J home asked served good context)
    (n : Nat) {r : Runner} (hr : Holds good context r) (hs : home s) :
    J.judges (Advanced J home served good r) (advance d n r) s := by
  induction n generalizing r s with
  | zero => exact hJ.starved hs
  | succ n ih =>
    rw [advance_succ]
    refine J.bind (move_judged hJ hd hr hs) fun s m hm => ?_
    cases hm with
    | atEnd hs hend =>
      obtain ⟨topLevel, ctx, frames, phase, dispatched⟩ := r
      cases hend
      exact J.ok (.ended hs)
    | onward hs hframes =>
      refine J.mono (ih ⟨hr.1, hframes⟩ hs) fun s x hx => ?_
      cases hx with
      | ended hs => exact .ended hs
      | step hop hmode hv hframes => exact .step hop hmode hv hframes
    | handed hop hmode hv hframes => exact J.ok (.step hop hmode hv hframes)

/-! ## Calls -/

/-- What a call of `next` ends with: a step or the end of the run, or the run finished by a fault. -/
def Nexted (home : J.State → Prop) (fails : J.State → Fault → Prop) (good : Op → Prop)
    (context : Handle) (s : J.State) : Option (Except Fault Step) × Runner → Prop
  | (some (.error e), r) => fails s e ∧ r.phase = .finished ∧ Holds good context r
  | (_, r) => home s ∧ Holds good context r

theorem announce_returns (hJ : J.Runs home asked fails) (r : Runner) {stage : Stage}
    (hstage : stage = .workflowStart ∨ stage = .workflowDone) :
    J.Returns home (r.announce stage) := by
  unfold announce
  split
  · exact hJ.announce _ r.context hstage
  · exact fun _ hs => J.ok hs

/-- The op that has been executed leaves the judgement where it was between two ops. -/
abbrev Back (home : J.State → Prop) : Op → Value → J.State → Prop := fun _ _ s => home s

theorem next_judged_of_running (hJ : J.Runs home asked fails)
    (hd : d.Executes J home asked (Back home) good context) (n : Nat) {r : Runner}
    (hr : Holds good context r) (hphase : r.phase = .running) (hs : home s) :
    J.judges (Nexted home fails good context) (next d n r) s := by
  rw [next_of_running hphase]
  refine J.bind (hJ.attempt (advance_judged hJ.toWalks hd n hr hs)) fun s x hx => ?_
  match x with
  | .error e => exact J.ok ⟨hx, rfl, hr⟩
  | .ok (none, r') =>
    cases hx with
    | ended hs =>
      exact J.bind (announce_returns hJ _ (.inr rfl) s hs) fun s _ hs => J.ok ⟨hs, hr.1, by simp⟩
  | .ok (some step, r') =>
    cases hx with
    | step _ _ hs hframes => exact J.ok ⟨hs, hr.1, hframes⟩

theorem next_judged (hJ : J.Runs home asked fails)
    (hd : d.Executes J home asked (Back home) good context) (n : Nat) {r : Runner}
    (hr : Holds good context r) (hs : home s) :
    J.judges (Nexted home fails good context) (next d n r) s := by
  match hphase : r.phase with
  | .finished =>
    rw [next_of_finished hphase]
    exact J.ok ⟨hs, hr⟩
  | .running => exact next_judged_of_running hJ hd n hr hphase hs
  | .pending =>
    rw [next_of_pending hphase]
    refine J.bind (announce_returns hJ r (.inl rfl) s hs) fun s _ hs => ?_
    exact next_judged_of_running hJ hd n (r := { r with phase := .running }) hr rfl hs

/-- Without steps to go a call of `next` yields no fault. -/
theorem next_zero_judged (hJ : J.Runs home asked fails) (r : Runner) (hs : home s) :
    J.judges (fun s x => home s ∧ x.1 = none) (next d 0 r) s := by
  match hphase : r.phase with
  | .finished =>
    rw [next_of_finished hphase]
    exact J.ok ⟨hs, rfl⟩
  | .running =>
    rw [next_of_running hphase]
    exact hJ.starved hs
  | .pending =>
    rw [next_of_pending hphase]
    refine J.bind (announce_returns hJ r (.inl rfl) s hs) fun s _ hs => ?_
    rw [next_of_running rfl]
    exact hJ.starved hs

/-! ## Runs -/

/-- **A run to the end.** -/
theorem stepsFrom_returns (hJ : J.Runs home asked fails)
    (hd : d.Executes J home asked (Back home) good context) (n : Nat) (taken : List Step)
    {r : Runner} (hr : Holds good context r) : J.Returns home (stepsFrom d taken n r) := by
  intro s hs
  induction n generalizing taken r s with
  | zero => exact hJ.starved hs
  | succ n ih =>
    refine J.bind (next_judged hJ hd n hr hs) fun s x hx => ?_
    match x with
    | (none, r') => exact J.ok hx.1
    | (some (.ok step), r') => exact ih (step :: taken) hx.2 s hx.1
    | (some (.error e), r') => exact hJ.error hx.1

/-- What a stream yields: steps, and then perhaps a fault. -/
def Streamed (home : J.State → Prop) (fails : J.State → Fault → Prop) (s : J.State)
    (items : List (Except Fault Step)) : Prop :=
  (home s ∧ ∃ steps : List Step, items = steps.map .ok) ∨
    ∃ (steps : List Step) (e : Fault), items = steps.map .ok ++ [.error e] ∧ fails s e

/-- **A stream.** It ends with the first fault. -/
theorem streamFrom_judged (hJ : J.Runs home asked fails)
    (hd : d.Executes J home asked (Back home) good context) (n : Nat) (taken : List Step)
    {r : Runner} (hr : Holds good context r) (hs : home s) :
    J.judges (Streamed home fails) (streamFrom d (taken.map .ok).reverse n r) s := by
  induction n generalizing taken r s with
  | zero => exact hJ.starved hs
  | succ n ih =>
    have htaken : ((taken.map .ok).reverse : List (Except Fault Step)).reverse = taken.map .ok :=
      List.reverse_reverse _
    cases n with
    | zero =>
      refine J.bind (next_zero_judged hJ r hs) fun s x hx => ?_
      obtain ⟨item, r'⟩ := x
      obtain ⟨hs, rfl⟩ := hx
      exact J.ok (.inl ⟨hs, taken, htaken⟩)
    | succ n =>
      refine J.bind (next_judged hJ hd _ hr hs) fun s x hx => ?_
      match x with
      | (none, r') => exact J.ok (.inl ⟨hx.1, taken, htaken⟩)
      | (some (.ok step), r') =>
        have hmore := ih (taken ++ [step]) hx.2 hx.1
        rwa [List.map_append, List.reverse_append] at hmore
      | (some (.error e), r') =>
        obtain ⟨hfails, hphase, -⟩ := hx
        show J.judges _ (streamFrom d (.error e :: (taken.map .ok).reverse) (n + 1) r') s
        rw [streamFrom, next_of_finished hphase]
        refine J.ok (.inr ⟨taken, e, ?_, hfails⟩)
        rw [List.reverse_cons, htaken]

end Runner

section Runs

variable {d : Dispatcher} {good : Op → Prop} {context : Handle} (hJ : J.Runs home asked fails)
  (hd : d.Executes J home asked (Runner.Back home) good context)

include hJ hd

theorem Dispatcher.runOps_returns {ops : List Op} (h : ∀ op ∈ ops, good op) :
    J.Returns home (d.runOps ops context) := fun s hs =>
  J.bind (Runner.stepsFrom_returns hJ hd d.fuel [] (Runner.holds_start h false context) s hs)
    fun _ _ hs => J.ok hs

theorem Dispatcher.dispatch_judged {op : Op} (h : good op) (hs : home s) (hasked : asked s) :
    J.judges (fun s _ => home s) (d.dispatch op context) s := by
  unfold Dispatcher.dispatch
  split
  · exact J.bind (runOps_returns hJ hd (by simpa using h) s hs) fun _ _ hs => J.ok hs
  · next hkind => exact hd.exec op s h (by simpa using hkind) hs hasked

variable {w : Workflow} (h : ∀ op ∈ w.ops, good op)

include h

theorem Workflow.execute_returns : J.Returns home (w.execute d context) := fun s hs =>
  J.bind (Runner.stepsFrom_returns hJ hd d.fuel [] (Runner.holds_start h true context) s hs)
    fun _ _ hs => J.ok hs

theorem Workflow.run_returns : J.Returns home (w.run d context) := fun s hs =>
  J.bind (Runner.stepsFrom_returns hJ hd d.fuel [] (Runner.holds_start h true context) s hs)
    fun _ _ hs => J.ok hs

theorem Workflow.stream_judged (hs : home s) :
    J.judges (Runner.Streamed home fails) ((w.runner context).stream d) s :=
  Runner.streamFrom_judged hJ hd d.fuel [] (Runner.holds_start h true context) hs

end Runs

end WorkflowEngine
