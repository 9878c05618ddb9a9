import WorkflowEngine.Engine
import WorkflowEngine.Proofs.Comparison
import WorkflowEngine.Proofs.Trace

/-!
# One op in the place of another

Let an op be put in the place of another in a list of ops. If the two do the same when they are
executed, then so do the two lists, but for one thing: events show the op that is there.

**The relation** (`Flow.SameBut`). It follows two flows step by step, under the same answers. They
perform the same actions, except that an event of the second may be about the new op where that of
the first is about the old one (`Op.Swap`).

**What it means for runs** (`Flow.RunAlike`). At every moment, whatever the answers, both have done
the same but for the ops in their events, and they end alike. If the listener does not tell the two
ops apart, the worlds they leave behind are equal, too.

**Theorem (`Engine.Replaces.runAlike`).** It is enough to look at the executor of the ops, or at the
loop that they stand for.
-/

namespace WorkflowEngine

/-! ## The relation -/

/-- The ops are equal, or the second is `b` where the first is `a`. -/
inductive Op.Swap (a b : Op) : Op → Op → Prop
  | same (op : Op) : Swap a b op op
  | swapped : Swap a b a b

/-- The events are equal but for a swap of their ops. -/
structure Event.Swap (a b : Op) (e e' : Event) : Prop where
  stage : e'.stage = e.stage
  op : Op.Swap a b e.op e'.op
  context : e'.context = e.context

/-- Equal marks, or announcements of events that are equal but for a swap. -/
inductive Mark.Swap (a b : Op) : Mark → Mark → Prop
  | same (m : Mark) : Swap a b m m
  | announced {e e' : Event} :
      e.Swap a b e' → Swap a b (.did (.announce e) ()) (.did (.announce e') ())

/-- The listener does not tell the two ops apart. -/
def Environment.Blind (a b : Op) (env : Environment) : Prop :=
  ∀ e e' : Event, e.Swap a b e' → env.listener e' = env.listener e

namespace Flow

variable {α β γ δ : Type} {a b : Op}

/-- The second flow does what the first does, with results that belong together, but for a swap of
the ops in its events. -/
inductive SameBut (a b : Op) (Q : α → β → Prop) : Flow α → Flow β → Prop
  | ok {x : α} {y : β} : Q x y → SameBut a b Q (.done (.ok x)) (.done (.ok y))
  | error (e : Fault) : SameBut a b Q (.done (.error e)) (.done (.error e))
  | starved : SameBut a b Q .starved .starved
  | pause {rest : Unit → Flow α} {rest' : Unit → Flow β} :
      SameBut a b Q (rest ()) (rest' ()) → SameBut a b Q (.pause rest) (.pause rest')
  | act {action : Action} {next : action.Answer → Flow α} {next' : action.Answer → Flow β} :
      (∀ x, SameBut a b Q (next x) (next' x)) → SameBut a b Q (.act action next) (.act action next')
  | announce {e e' : Event} {next : Unit → Flow α} {next' : Unit → Flow β} :
      e.Swap a b e' → SameBut a b Q (next ()) (next' ()) →
      SameBut a b Q (.act (.announce e) next) (.act (.announce e') next')

variable {P : α → β → Prop} {Q : γ → δ → Prop} {f : Flow α} {g : Flow β} {k : α → Flow γ}
  {l : β → Flow δ}

theorem SameBut.refl (f : Flow α) : SameBut a b Eq f f := by
  induction f with
  | done r =>
    cases r with
    | ok x => exact .ok rfl
    | error e => exact .error e
  | starved => exact .starved
  | pause rest ih => exact .pause (ih ())
  | act action next ih => exact .act ih

theorem SameBut.bind (h : SameBut a b P f g) (hk : ∀ x y, P x y → SameBut a b Q (k x) (l y)) :
    SameBut a b Q (f.bind k) (g.bind l) := by
  induction h with
  | ok h => exact hk _ _ h
  | error e => exact .error e
  | starved => exact .starved
  | pause _ ih => exact .pause ih
  | act _ ih => exact .act ih
  | announce he _ ih => exact .announce he ih

/-- Sequencing, where the first part is the same for both. -/
theorem SameBut.after (f : Flow α) {l : α → Flow δ} (hk : ∀ x, SameBut a b Q (k x) (l x)) :
    SameBut a b Q (f.bind k) (f.bind l) :=
  (SameBut.refl f).bind fun x _ hxy => hxy ▸ hk x

theorem announce_sameBut (a b : Op) (stage : Stage) (context : Handle) :
    SameBut a b Eq (announce stage a context) (announce stage b context) :=
  .announce ⟨rfl, .swapped, rfl⟩ (.ok rfl)

theorem SameBut.attempt {k : Except Fault α → Flow γ} {l : Except Fault β → Flow δ}
    (h : SameBut a b P f g) (hok : ∀ x y, P x y → SameBut a b Q (k (.ok x)) (l (.ok y)))
    (herror : ∀ e, SameBut a b Q (k (.error e)) (l (.error e))) :
    SameBut a b Q (f.attempt.bind k) (g.attempt.bind l) := by
  induction h with
  | ok h => exact hok _ _ h
  | error e => exact herror e
  | starved => exact .starved
  | pause _ ih => exact .pause ih
  | act _ ih => exact .act ih
  | announce he _ ih => exact .announce he ih

/-- Being the same but for a swap, as a comparison. -/
abbrev sameBut (a b : Op) : Comparison where
  State := Unit
  Le _ _ := True
  compares Q _ f g := SameBut a b (Q ()) f g
  ok := .ok
  starved := .starved
  bind h hk := h.bind fun x y hxy => hk () x y trivial hxy

/-! ## Runs -/

/-- Two flows do the same but for a swap of the ops in their events: at every moment of the first
and when they end, whatever the answers; and in a world whose listener does not tell the ops apart,
they leave the same behind. -/
structure RunAlike (a b : Op) (f g : Flow α) : Prop where
  moment : ∀ t f', f.Goes t f' → ∃ t' g', g.Goes t' g' ∧ List.Forall₂ (Mark.Swap a b) t t' ∧
    ∀ r, f' = .done r ↔ g' = .done r
  run : ∀ env : Environment, env.Blind a b → ∀ w, g.run env w = f.run env w ∧
    List.Forall₂ (Mark.Swap a b) (f.trace env w) (g.trace env w)

theorem SameBut.goes {f g f' : Flow α} {t : List Mark} (h : SameBut a b Eq f g)
    (hf : f.Goes t f') :
    ∃ t' g', g.Goes t' g' ∧ List.Forall₂ (Mark.Swap a b) t t' ∧ SameBut a b Eq f' g' := by
  induction hf generalizing g with
  | here f => exact ⟨[], g, .here g, .nil, h⟩
  | pause _ ih =>
    cases h with
    | pause h =>
      obtain ⟨t', g', hg, ht, h⟩ := ih h
      exact ⟨_, g', .pause hg, .cons (.same _) ht, h⟩
  | act x _ ih =>
    cases h with
    | act h =>
      obtain ⟨t', g', hg, ht, h⟩ := ih (h x)
      exact ⟨_, g', .act x hg, .cons (.same _) ht, h⟩
    | announce he h =>
      obtain ⟨t', g', hg, ht, h⟩ := ih h
      exact ⟨_, g', .act () hg, .cons (.announced he) ht, h⟩

theorem SameBut.done_iff {f g : Flow α} (h : SameBut a b Eq f g) (r : Except Fault α) :
    f = .done r ↔ g = .done r := by
  cases h with
  | ok h => rw [h]
  | error e => rfl
  | starved | pause | act | announce => exact iff_of_false nofun nofun

theorem SameBut.run_eq {f g : Flow α} (h : SameBut a b Eq f g) {env : Environment}
    (henv : env.Blind a b) (w : World) : g.run env w = f.run env w ∧
      List.Forall₂ (Mark.Swap a b) (f.trace env w) (g.trace env w) := by
  induction h generalizing w with
  | ok h => exact ⟨by rw [h], .nil⟩
  | error e => exact ⟨rfl, .nil⟩
  | starved => exact ⟨rfl, .nil⟩
  | pause _ ih => exact ⟨(ih w).1, .cons (.same _) (ih w).2⟩
  | @act action _ _ _ ih =>
    obtain ⟨hrun, htrace⟩ := ih (w.perform env action).1 (w.perform env action).2
    exact ⟨hrun, .cons (.same _) htrace⟩
  | @announce e e' next next' he _ ih =>
    have hworld : (w.perform env (.announce e')).2 = (w.perform env (.announce e)).2 := by
      simp only [World.perform, henv e e' he, he.context]
    obtain ⟨hrun, htrace⟩ := ih (w.perform env (.announce e)).2
    constructor
    · change (next' ()).run env (w.perform env (.announce e')).2 = _
      rw [hworld]
      exact hrun
    · change List.Forall₂ _ (_ :: (next ()).trace env _) (_ :: (next' ()).trace env _)
      rw [hworld]
      exact .cons (.announced he) htrace

/-- **What the relation says of two runs.** -/
theorem SameBut.runAlike {f g : Flow α} (h : SameBut a b Eq f g) : RunAlike a b f g where
  moment t f' hf := by
    obtain ⟨t', g', hg, ht, h⟩ := h.goes hf
    exact ⟨t', g', hg, ht, h.done_iff⟩
  run _ henv := h.run_eq henv

end Flow

/-! ## Runners -/

variable {a b : Op}

/-- The same place in two lists of ops that are equal but for a swap, in the body of one loop. -/
structure Frame.Swap (a b : Op) (f f' : Frame) : Prop where
  body : List.Forall₂ (Op.Swap a b) f.body f'.body
  rest : List.Forall₂ (Op.Swap a b) f.rest f'.rest
  loop : f'.loop = f.loop

theorem Op.forall₂_swap (ops : List Op) : List.Forall₂ (Op.Swap a b) ops ops :=
  List.forall₂_same.2 fun op _ => .same op

theorem Frame.Swap.refl (f : Frame) : f.Swap a b f :=
  ⟨Op.forall₂_swap f.body, Op.forall₂_swap f.rest, rfl⟩

/-- The same runner in lists of ops that are equal but for a swap. -/
def Runner.Swap (a b : Op) (r r' : Runner) : Prop :=
  ∃ frames, List.Forall₂ (Frame.Swap a b) r.frames frames ∧ r' = { r with frames }

/-- The same step but for a swap of its op. -/
def Step.Swap (a b : Op) (s s' : Step) : Prop := ∃ op, Op.Swap a b s.op op ∧ s' = { s with op }

/-- The two ops are the same loop, or to execute the second is to do what the first does. -/
structure Dispatcher.Swaps (d : Dispatcher) (a b : Op) : Prop where
  kind : b.kind = a.kind
  loop : ∀ mode, LoopMode.ofKind? a.kind = some mode →
    Loop.ofOp d.config mode b = Loop.ofOp d.config mode a
  exec : LoopMode.ofKind? a.kind = none → ∀ context,
    Flow.SameBut a b Eq (d.exec a context) (d.exec b context)

namespace Dispatcher.Swaps

variable {d : Dispatcher} {op op' : Op}

theorem kind_eq (hd : d.Swaps a b) (h : Op.Swap a b op op') : op'.kind = op.kind := by
  cases h with
  | same => rfl
  | swapped => exact hd.kind

theorem exec_sameBut (hd : d.Swaps a b) (h : Op.Swap a b op op')
    (hkind : LoopMode.ofKind? op.kind = none) (context : Handle) :
    Flow.SameBut a b Eq (d.exec op context) (d.exec op' context) := by
  cases h with
  | same => exact .refl _
  | swapped => exact hd.exec hkind context

end Dispatcher.Swaps

namespace Runner

open WorkflowEngine.Flow (SameBut)

variable {d : Dispatcher}

theorem begun_sameBut {body body' : List Op} (h : List.Forall₂ (Op.Swap a b) body body') (l : Loop)
    (context : Handle) : SameBut a b (Option.Rel (Frame.Swap a b))
      (do match ← l.begin? context with
          | some loop => return some ⟨body, body, some loop⟩
          | none => return none)
      (do match ← l.begin? context with
          | some loop => return some ⟨body', body', some loop⟩
          | none => return none) := by
  refine .after _ fun o => ?_
  cases o with
  | none => exact .ok .none
  | some l => exact .ok (.some ⟨h, h, rfl⟩)

theorem again?_sameBut {f f' : Frame} (hf : f.Swap a b f') (context : Handle) :
    SameBut a b (Option.Rel (Frame.Swap a b)) (again? f context) (again? f' context) := by
  obtain ⟨body, rest, loop⟩ := f
  obtain ⟨body', rest', loop'⟩ := f'
  obtain ⟨hbody, -, rfl⟩ := hf
  unfold again?
  cases loop' with
  | none => exact .ok .none
  | some l => exact begun_sameBut hbody l context

theorem enter?_swap (hd : d.Swaps a b) {op op' : Op} (h : Op.Swap a b op op') {mode : LoopMode}
    (hkind : LoopMode.ofKind? op.kind = some mode) (context : Handle) :
    enter? d mode op' context = enter? d mode op context := by
  cases h with
  | same => rfl
  | swapped => rw [enter?, hd.loop mode hkind, enter?]

theorem optionRel_refl (o : Option Frame) : Option.Rel (Frame.Swap a b) o o := by
  cases o with
  | none => exact .none
  | some f => exact .some (.refl f)

theorem pushed_swap {o o' : Option Frame} {fs fs' : List Frame}
    (ho : Option.Rel (Frame.Swap a b) o o') (hfs : List.Forall₂ (Frame.Swap a b) fs fs') :
    List.Forall₂ (Frame.Swap a b) (o.toList ++ fs) (o'.toList ++ fs') := by
  cases ho with
  | none => exact hfs
  | some hf => exact .cons hf hfs

/-- **One move.** -/
theorem move_sameBut (hd : d.Swaps a b) {r r' : Runner} (hr : r.Swap a b r') :
    SameBut a b (Moved.Rel (Step.Swap a b) (Runner.Swap a b)) (move d r) (move d r') := by
  obtain ⟨topLevel, context, frames, phase, dispatched⟩ := r
  obtain ⟨frames', hframes, rfl⟩ := hr
  unfold move
  cases hframes with
  | nil => exact .ok .atEnd
  | @cons f f' outer outer' hf houter =>
    obtain ⟨body, rest, loop⟩ := f
    obtain ⟨body', rest', loop'⟩ := f'
    have hloop := hf.loop
    have hrest := hf.rest
    dsimp only at hloop hrest
    subst hloop
    cases hrest with
    | nil =>
      refine (again?_sameBut hf context).bind fun o o' ho => ?_
      exact .ok (.onward ⟨_, pushed_swap ho houter, rfl⟩)
    | @cons op op' rest rest' hop hrest =>
      have hleft : List.Forall₂ (Frame.Swap a b) (⟨body, rest, loop'⟩ :: outer)
          (⟨body', rest', loop'⟩ :: outer') := .cons ⟨hf.body, hrest, rfl⟩ houter
      refine .after _ fun _ => ?_
      dsimp only
      rw [hd.kind_eq hop]
      split
      · next mode hkind =>
        rw [enter?_swap hd hop hkind]
        refine .after _ fun o => ?_
        exact .ok (.onward ⟨_, pushed_swap (optionRel_refl o) hleft, rfl⟩)
      · next hkind =>
        refine (hd.exec_sameBut hop hkind context).bind fun v v' hv => ?_
        exact .ok (.handed ⟨op', hop, by rw [hv]⟩ ⟨_, hleft, rfl⟩)

theorem advance_sameBut (hd : d.Swaps a b) (n : Nat) {r r' : Runner} (hr : r.Swap a b r') :
    SameBut a b (fun p q => Option.Rel (Step.Swap a b) p.1 q.1 ∧ p.2.Swap a b q.2) (advance d n r)
      (advance d n r') :=
  advance_alike (C := Flow.sameBut a b) (s := ()) (R := fun _ => Runner.Swap a b)
    (fun _ hr => hr) (fun hr => move_sameBut hd hr) n hr

/-- What a call of `next` yields. -/
inductive SwapYield (a b : Op) : Option (Except Fault Step) → Option (Except Fault Step) → Prop
  | nothing : SwapYield a b none none
  | step {s s' : Step} : s.Swap a b s' → SwapYield a b (some (.ok s)) (some (.ok s'))
  | fault (e : Fault) : SwapYield a b (some (.error e)) (some (.error e))

theorem next_sameBut (hd : d.Swaps a b) (n : Nat) {r r' : Runner} (hr : r.Swap a b r') :
    SameBut a b (fun p q => SwapYield a b p.1 q.1 ∧ p.2.Swap a b q.2) (next d n r)
      (next d n r') := by
  obtain ⟨topLevel, context, frames, phase, dispatched⟩ := r
  obtain ⟨frames', hframes, rfl⟩ := hr
  have hrunning : SameBut a b (fun p q => SwapYield a b p.1 q.1 ∧ p.2.Swap a b q.2)
      (next d n ⟨topLevel, context, frames, .running, dispatched⟩)
      (next d n ⟨topLevel, context, frames', .running, dispatched⟩) := by
    have hr : Runner.Swap a b ⟨topLevel, context, frames, .running, dispatched⟩
        ⟨topLevel, context, frames', .running, dispatched⟩ := ⟨frames', hframes, rfl⟩
    rw [next_of_running rfl, next_of_running rfl]
    refine (advance_sameBut hd n hr).attempt (fun p q hpq => ?_) fun e => ?_
    · obtain ⟨step, r₁⟩ := p
      obtain ⟨step', r₁'⟩ := q
      obtain ⟨hstep, frames, hframes, rfl⟩ := hpq
      dsimp only at hstep
      cases hstep with
      | some hs => exact .ok ⟨.step hs, frames, hframes, rfl⟩
      | none =>
        exact .after (r₁.announce .workflowDone) fun _ => .ok ⟨.nothing, frames, hframes, rfl⟩
    · exact .ok ⟨.fault e, frames', hframes, rfl⟩
  cases phase with
  | running => exact hrunning
  | finished =>
    rw [next_of_finished rfl, next_of_finished rfl]
    exact .ok ⟨.nothing, frames', hframes, rfl⟩
  | pending =>
    have hpending : ∀ fs, next d n ⟨topLevel, context, fs, .pending, dispatched⟩ =
        (announce ⟨topLevel, context, [], .pending, dispatched⟩ .workflowStart).bind fun _ =>
          next d n ⟨topLevel, context, fs, .running, dispatched⟩ := fun fs => next_of_pending rfl
    rw [hpending, hpending]
    exact .after _ fun _ => hrunning

theorem stepsFrom_sameBut (hd : d.Swaps a b) {taken taken' : List Step}
    (htaken : List.Forall₂ (Step.Swap a b) taken taken') (n : Nat) {r r' : Runner}
    (hr : r.Swap a b r') :
    SameBut a b (fun p q => List.Forall₂ (Step.Swap a b) p.1 q.1) (stepsFrom d taken n r)
      (stepsFrom d taken' n r') := by
  induction n generalizing taken taken' r r' with
  | zero => exact .starved
  | succ n ih =>
    refine (next_sameBut hd n hr).bind fun p q hpq => ?_
    obtain ⟨item, r₁⟩ := p
    obtain ⟨item', r₁'⟩ := q
    obtain ⟨hitem, hr₁⟩ := hpq
    dsimp only at hitem
    cases hitem with
    | nothing => exact .ok (List.forall₂_reverse_iff.2 htaken)
    | step hs => exact ih (.cons hs htaken) hr₁
    | fault e => exact .error e

end Runner

namespace Dispatcher.Swaps

variable {d : Dispatcher}

/-- Lists of ops that are equal but for a swap have the same results. -/
theorem runOps (hd : d.Swaps a b) {ops ops' : List Op} (hops : List.Forall₂ (Op.Swap a b) ops ops')
    (context : Handle) : Flow.SameBut a b Eq (d.runOps ops context) (d.runOps ops' context) := by
  have hstart : (Runner.start false ops context).Swap a b (Runner.start false ops' context) :=
    ⟨[⟨ops', ops', none⟩], .cons ⟨hops, hops, rfl⟩ .nil, rfl⟩
  refine (Runner.stepsFrom_sameBut hd .nil d.fuel hstart).bind fun p q hpq => .ok ?_
  have hresult : ∀ s s' : Step, s.Swap a b s' → s.result = s'.result := by
    rintro s _ ⟨op, -, rfl⟩
    rfl
  rw [← List.forall₂_eq_eq_eq, List.forall₂_map_left_iff, List.forall₂_map_right_iff]
  exact hpq.imp hresult

theorem dispatch (hd : d.Swaps a b) (context : Handle) :
    Flow.SameBut a b Eq (d.dispatch a context) (d.dispatch b context) := by
  rw [Dispatcher.dispatch, Dispatcher.dispatch, hd.kind]
  split
  · refine (hd.runOps (.cons .swapped .nil) context).bind fun results results' h => ?_
    exact .ok (by rw [h])
  · next hkind => exact hd.exec (by simpa using hkind) context

end Dispatcher.Swaps

/-! ## Engines -/

/-- In this engine the second op is worked at as the first is: by the executor of their kind, or as
a loop. -/
structure Engine.Replaces (e : Engine) (a b : Op) : Prop where
  kind : b.kind = a.kind
  binding : b.outputBinding = a.outputBinding
  loop : ∀ mode, LoopMode.ofKind? a.kind = some mode →
    Loop.ofOp e.config mode b = Loop.ofOp e.config mode a
  work : LoopMode.ofKind? a.kind = none → ∀ x, e.registry.get? a.kind = some x →
    ∀ d context, x d b context = x d a context

namespace Engine.Replaces

variable {e : Engine}

theorem exec_sameBut (h : e.Replaces a b) (hkind : LoopMode.ofKind? a.kind = none) (n : Nat)
    (context : Handle) :
    Flow.SameBut a b Eq (e.exec n a context) (e.exec n b context) := by
  cases n with
  | zero => exact .starved
  | succ n =>
    rw [exec, exec, h.kind]
    refine (Flow.announce_sameBut a b .opPre context).bind fun _ _ _ => ?_
    cases hx : e.registry.get? a.kind with
    | none => exact .refl _
    | some x =>
      have hresult : ∀ v, bindResult b context v = bindResult a context v := fun v => by
        simp only [bindResult, h.binding]
      dsimp only
      rw [h.work hkind x hx]
      refine .after _ fun v => ?_
      rw [hresult]
      refine .after _ fun _ => ?_
      exact (Flow.announce_sameBut a b .opPost context).bind fun _ _ _ => .ok rfl

theorem swaps (h : e.Replaces a b) (n : Nat) : (e.dispatcher n).Swaps a b :=
  ⟨h.kind, h.loop, fun hkind => h.exec_sameBut hkind n⟩

end Engine.Replaces

/-- The second op does what the first does, dispatched by itself and in any list of ops. -/
structure Engine.RunAlike (e : Engine) (a b : Op) : Prop where
  dispatch : ∀ n context, Flow.RunAlike a b ((e.dispatcher n).dispatch a context)
    ((e.dispatcher n).dispatch b context)
  list : ∀ n context (before after : List Op), Flow.RunAlike a b
    ((e.dispatcher n).runOps (before ++ a :: after) context)
    ((e.dispatcher n).runOps (before ++ b :: after) context)

/-- **An op that is worked at as another may take its place.** -/
theorem Engine.Replaces.runAlike {e : Engine} (h : e.Replaces a b) : e.RunAlike a b where
  dispatch n context := ((h.swaps n).dispatch context).runAlike
  list n context before after := by
    refine ((h.swaps n).runOps ?_ context).runAlike
    exact List.rel_append (Op.forall₂_swap before) (.cons .swapped (Op.forall₂_swap after))

end WorkflowEngine
