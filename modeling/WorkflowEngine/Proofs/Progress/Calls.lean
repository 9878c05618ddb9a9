import WorkflowEngine.Proofs.Binding
import WorkflowEngine.Proofs.Progress

/-!
# Calls that end, and calls that do not

A call of `Runner.next` goes on until it hands out an op, fails, or finds the run over.

**Theorem (`Engine.next_ends_or_spins`).** If the ops that a runner can hand out end, a call of
`next` ends unless one of its loops spins under the bindings of its context. If one does, the call
hands out nothing, and does not end unless it is told to stop.

Loops without a body are passed over, so that they cannot keep a call from ending. But the body of a
loop may consist of loops that are passed over, and then nothing keeps the outer loop from spinning
(`Engine.next_never_ends`).
-/

namespace WorkflowEngine

/-! ## Runs -/

/-- A question whether to stop, a look at a context, or a fault. -/
def Mark.IsIdle : Mark → Prop
  | .did .poll _ => True
  | .did (.view _) _ => True
  | .did (.raise _) _ => True
  | _ => False

/-- No stop has been requested, and no rule can ask for one. -/
def World.Free (w : World) : Prop := w.cancellation.requested = false ∧ w.cancellation.rule = none

namespace Flow

variable {α : Type} {env : Environment} {w v : World}

/-- Run in the first world, the first flow does what the second does in the second world, after
nothing but questions and looks. -/
def Leads (env : Environment) (f : Flow α) (w : World) (g : Flow α) (v : World) : Prop :=
  ∃ t : List Mark, (∀ m ∈ t, m.IsIdle) ∧ f.run env w = g.run env v ∧
    f.trace env w = t ++ g.trace env v

theorem Leads.refl (f : Flow α) : f.Leads env w f w := ⟨[], by simp, rfl, rfl⟩

theorem Leads.trans {f g h : Flow α} {u : World} (hf : f.Leads env w g v)
    (hg : g.Leads env v h u) : f.Leads env w h u := by
  obtain ⟨t, ht, hrun, htrace⟩ := hf
  obtain ⟨t', ht', hrun', htrace'⟩ := hg
  refine ⟨t ++ t', fun m hm => ?_, hrun.trans hrun', ?_⟩
  · rcases List.mem_append.1 hm with hm | hm
    · exact ht m hm
    · exact ht' m hm
  · rw [htrace, htrace', List.append_assoc]

theorem Leads.bind {β : Type} {f g : Flow α} (h : f.Leads env w g v) (k : α → Flow β) :
    (f.bind k).Leads env w (g.bind k) v := by
  obtain ⟨t, ht, hrun, htrace⟩ := h
  refine ⟨t, ht, ?_, ?_⟩
  · rw [run_bind, run_bind, hrun]
  · rw [trace_bind, trace_bind, hrun, htrace, List.append_assoc]

theorem leads_view (h : Handle) (k : Bindings → Flow α) :
    ((view h).bind k).Leads env w (k (w.contexts.view h)) w :=
  ⟨[.did (.view h) (w.contexts.view h)], by simp [Mark.IsIdle], rfl, rfl⟩

theorem leads_fail (e : Fault) : (fail e : Flow α).Leads env w (.done (.error e)) w :=
  ⟨[.did (.raise e) ()], by simp [Mark.IsIdle], rfl, rfl⟩

theorem leads_check (env : Environment) (w : World) :
    ∃ v : World, v.contexts = w.contexts ∧ (w.Free → v.Free) ∧
      ((¬w.Free ∧ ∀ k : Unit → Flow α, (check.bind k).Leads env w (.done (.error .cancelled)) v) ∨
        ∀ k : Unit → Flow α, (check.bind k).Leads env w (k ()) v) := by
  have hfree (hw : w.Free) : w.perform env .poll = (false, w) := by
    simp only [World.perform, Cancellation.poll, hw.1, hw.2]
    rfl
  rcases hpoll : w.perform env .poll with ⟨stop, v⟩
  have hv : v = (w.perform env .poll).2 := by rw [hpoll]
  refine ⟨v, by rw [hv]; rfl, fun hw => ?_, ?_⟩
  · rw [hv, hfree hw]
    exact hw
  · cases stop with
    | true =>
      refine .inl ⟨fun hw => ?_, fun k => ⟨[.did .poll true, .did (.raise .cancelled) ()], ?_⟩⟩
      · rw [hfree hw] at hpoll
        cases hpoll
      · refine ⟨by simp [Mark.IsIdle], ?_, ?_⟩
        · simp only [check, bind, run, hpoll, if_true, fail]
          rfl
        · simp only [check, bind, trace, hpoll, if_true, fail]
          rfl
    | false =>
      refine .inr fun k => ⟨[.did .poll false], by simp [Mark.IsIdle], ?_, ?_⟩
      · simp only [check, bind, run, hpoll]
        rfl
      · simp only [check, bind, trace, hpoll]
        rfl

theorem run_attempt (f : Flow α) (w : World) : f.attempt.run env w =
    ((match (f.run env w).1 with
      | .ended r => .ended (.ok r)
      | .starved => .starved), (f.run env w).2) := by
  induction f generalizing w with
  | done r => rfl
  | starved => rfl
  | pause rest ih => exact ih () w
  | act a next ih => exact ih _ _

theorem trace_attempt (f : Flow α) (w : World) : f.attempt.trace env w = f.trace env w := by
  induction f generalizing w with
  | done r => rfl
  | starved => rfl
  | pause rest ih => exact congrArg (List.cons _) (ih () w)
  | act a next ih => exact congrArg (List.cons _) (ih _ _)

end Flow

namespace Runner

variable {env : Environment} {config : Config} {list : List Op} {fs : List Frame} {r : Runner}
  {w : World}

/-- A move that hands out nothing, in a run. -/
theorem move_onward (env : Environment)
    (h : onward? config (w.contexts.view r.context) r.frames = some fs) :
    ∃ v : World, v.contexts = w.contexts ∧ (w.Free → v.Free) ∧
      ((¬w.Free ∧ ∀ d, d.config = config →
        (move d r).Leads env w (.done (.error .cancelled)) v) ∨
      ∀ d, d.config = config →
        (move d r).Leads env w (.done (.ok (.onward { r with frames := fs }))) v) := by
  generalize hframes : r.frames = frames at h
  cases Onward.of_eq h with
  | up body outer =>
    refine ⟨w, rfl, id, .inr fun d _ => ?_⟩
    rw [move_up d r hframes]
    exact .refl _
  | again outer hbegun =>
    refine ⟨w, rfl, id, .inr fun d _ => ?_⟩
    rw [move_again d r hframes]
    refine (Flow.leads_view _ _).trans ?_
    rw [hbegun]
    exact .refl _
  | pass body rest loop outer hkind hop =>
    obtain ⟨v, hcontexts, hfree, ⟨hnot, hstop⟩ | hgo⟩ := Flow.leads_check (α := Moved) env w
    · refine ⟨v, hcontexts, hfree, .inl ⟨hnot, fun d hd => ?_⟩⟩
      rw [move_bodiless d r hframes hkind (hd ▸ hop)]
      exact hstop _
    · refine ⟨v, hcontexts, hfree, .inr fun d hd => ?_⟩
      rw [move_bodiless d r hframes hkind (hd ▸ hop)]
      exact hgo _
  | enter body rest loop outer hkind hop hinner hbegun =>
    obtain ⟨v, hcontexts, hfree, ⟨hnot, hstop⟩ | hgo⟩ := Flow.leads_check (α := Moved) env w
    · refine ⟨v, hcontexts, hfree, .inl ⟨hnot, fun d hd => ?_⟩⟩
      rw [move_enter d r hframes hkind (hd ▸ hop) hinner]
      exact hstop _
    · refine ⟨v, hcontexts, hfree, .inr fun d hd => ?_⟩
      rw [move_enter d r hframes hkind (hd ▸ hop) hinner]
      refine (hgo _).trans ((Flow.leads_view _ _).trans ?_)
      rw [hcontexts, hbegun]
      exact .refl _

/-- **A runner whose frames spin does nothing but ask and look**, and only a stop ends that. -/
theorem spins_advance (env : Environment) {d : Dispatcher} (n : Nat)
    (h : FramesSpin d.config (w.contexts.view r.context) r.frames) :
    (((advance d n r).run env w).1 = .starved ∨
      ((advance d n r).run env w).1 = .ended (.error .cancelled) ∧ ¬w.Free) ∧
    ∀ m ∈ (advance d n r).trace env w, m.IsIdle := by
  induction n generalizing r w with
  | zero => exact ⟨.inl rfl, by simp [advance, Flow.trace]⟩
  | succ n ih =>
    obtain ⟨fs, honward, hspin⟩ := h.onward
    rw [advance_succ]
    obtain ⟨v, hcontexts, hfree, ⟨hnot, hstop⟩ | hgo⟩ := move_onward env honward
    · obtain ⟨t, ht, hrun, htrace⟩ := (hstop d rfl).bind (goOn d n r)
      rw [hrun, htrace]
      exact ⟨.inr ⟨rfl, hnot⟩, by simpa [Flow.bind, Flow.trace] using ht⟩
    · obtain ⟨t, ht, hrun, htrace⟩ := (hgo d rfl).bind (goOn d n r)
      rw [← hcontexts] at hspin
      obtain ⟨houtcome, hidle⟩ := ih (r := { r with frames := fs }) (w := v) hspin
      rw [hrun, htrace]
      refine ⟨houtcome.imp_right (And.imp_right fun hnot hw => hnot (hfree hw)), fun m hm => ?_⟩
      rcases List.mem_append.1 hm with hm | hm
      · exact ht m hm
      · exact hidle m hm

theorem move_loop_fails (env : Environment) {d : Dispatcher} {body rest : List Op} {op : Op}
    {loop : Option Loop} {outer : List Frame} {mode : LoopMode} (hd : d.config = config)
    (hframes : r.frames = ⟨body, op :: rest, loop⟩ :: outer)
    (hkind : LoopMode.ofKind? op.kind = some mode)
    (h : onward? config (w.contexts.view r.context) r.frames = none) :
    ∃ e k, move d r = Flow.check.bind k ∧
      ∀ v : World, v.contexts = w.contexts → (k ()).Leads env v (.done (.error e)) v := by
  subst hd
  cases hop : Loop.ofOp d.config mode op with
  | error e => exact ⟨e, _, move_misread d r hframes hkind hop, fun v _ => Flow.leads_fail e⟩
  | ok p =>
    obtain ⟨l, inner⟩ := p
    by_cases hinner : inner = []
    · subst hinner
      simp only [hframes, onward?, hkind, hop, reduceCtorEq] at h
    · rw [hframes, onward?_enter hkind hop hinner] at h
      cases hbegun : l.begun inner (w.contexts.view r.context) with
      | ok begun =>
        rw [hbegun] at h
        cases h
      | error e =>
        refine ⟨e, _, move_enter d r hframes hkind hop hinner, fun v hv => ?_⟩
        refine (Flow.leads_view _ _).trans ?_
        rw [hv, hbegun]
        exact Flow.leads_fail e

/-- A move that does not go on without handing something out: the run is over or fails, or an op of
the list is handed out. -/
theorem move_settles (env : Environment)
    (h : onward? config (w.contexts.view r.context) r.frames = none)
    (hgood : ∀ f ∈ r.frames, FrameGood (Op.InLine list) f) :
    ∃ v : World, (∀ d, d.config = config → (move d r).Leads env w (.done (.ok .atEnd)) v ∨
        ∃ e, (move d r).Leads env w (.done (.error e)) v) ∨
      ∃ op, op.InLine list ∧ LoopMode.ofKind? op.kind = none ∧ ∀ d, d.config = config →
        ∃ (step : Value → Step) (r' : Runner), (move d r).Leads env w
          ((d.exec op r.context).map fun x => .handed (step x) r') v := by
  match hframes : r.frames with
  | [] =>
    refine ⟨w, .inl fun d _ => .inl ?_⟩
    rw [move_atEnd d r hframes]
    exact .refl _
  | ⟨body, [], none⟩ :: outer =>
    rw [hframes] at h
    cases h
  | ⟨body, [], some l⟩ :: outer =>
    rw [hframes, onward?] at h
    cases hbegun : l.begun body (w.contexts.view r.context) with
    | ok begun =>
      rw [hbegun] at h
      cases h
    | error e =>
      refine ⟨w, .inl fun d _ => .inr ⟨e, ?_⟩⟩
      rw [move_again d r hframes]
      refine (Flow.leads_view _ _).trans ?_
      rw [hbegun]
      exact Flow.leads_fail e
  | ⟨body, op :: rest, loop⟩ :: outer =>
    obtain ⟨v, hcontexts, -, hcheck⟩ := Flow.leads_check (α := Moved) env w
    refine ⟨v, ?_⟩
    cases hkind : LoopMode.ofKind? op.kind with
    | none =>
      rcases hcheck with ⟨-, hstop⟩ | hgo
      · refine .inl fun d _ => .inr ⟨.cancelled, ?_⟩
        rw [move_plain d r hframes hkind]
        exact hstop _
      · have hop : op.InLine list := (hgood _ (hframes ▸ List.mem_cons_self ..)).2 op (by simp)
        refine .inr ⟨op, hop, hkind, fun d _ => ?_⟩
        rw [move_plain d r hframes hkind]
        exact ⟨_, _, hgo _⟩
    | some mode =>
      refine .inl fun d hd => .inr ?_
      obtain ⟨e, k, hmove, hfails⟩ := move_loop_fails env hd hframes hkind h
      rw [hmove]
      rcases hcheck with ⟨-, hstop⟩ | hgo
      · exact ⟨.cancelled, hstop k⟩
      · exact ⟨e, (hgo k).trans (hfails v hcontexts)⟩

theorem onward_good {b : Bindings} {fs' : List Frame}
    (h : ∀ f ∈ fs, FrameGood (Op.InLine list) f) (honward : onward? config b fs = some fs') :
    ∀ f ∈ fs', FrameGood (Op.InLine list) f := by
  have hbegun {l : Loop} {body : List Op} {frames begun : List Frame}
      (hbody : ∀ o ∈ body, o.InLine list) (hframes : ∀ f ∈ frames, FrameGood (Op.InLine list) f)
      (hok : l.begun body b = .ok begun) : ∀ f ∈ begun ++ frames, FrameGood (Op.InLine list) f := by
    rcases Loop.begun_cases l body b with ⟨-, hb⟩ | ⟨-, -, hb⟩ | ⟨e, hb⟩ <;> rw [hb] at hok <;>
      cases hok
    · exact hframes
    · exact List.forall_mem_cons.2 ⟨⟨hbody, hbody⟩, hframes⟩
  have hleft {body rest : List Op} {op : Op} {loop : Option Loop}
      (hfirst : FrameGood (Op.InLine list) ⟨body, op :: rest, loop⟩) :
      FrameGood (Op.InLine list) ⟨body, rest, loop⟩ :=
    ⟨hfirst.1, fun o ho => hfirst.2 o (List.mem_cons_of_mem _ ho)⟩
  cases Onward.of_eq honward with
  | up body outer => exact (List.forall_mem_cons.1 h).2
  | again outer hok =>
    obtain ⟨hfirst, houter⟩ := List.forall_mem_cons.1 h
    exact hbegun hfirst.1 houter hok
  | pass body rest loop outer hkind hop =>
    obtain ⟨hfirst, houter⟩ := List.forall_mem_cons.1 h
    exact List.forall_mem_cons.2 ⟨hleft hfirst, houter⟩
  | @enter op mode l inner body rest loop outer begun hkind hop hne hok =>
    obtain ⟨hfirst, houter⟩ := List.forall_mem_cons.1 h
    have hinner : ∀ o ∈ inner, o.InLine list := fun o ho =>
      .body (hfirst.2 op (List.mem_cons_self ..)) (by rw [hkind]; rfl)
        (Loop.innerOps_of_ofOp hop) ho
    exact hbegun hinner (List.forall_mem_cons.2 ⟨hleft hfirst, houter⟩) hok

/-- With enough steps the run of an advance ends, on its own or if the execution ends that it hands
out. -/
def Arrives (config : Config) (env : Environment) (list : List Op) (r : Runner) (w : World) :
    Prop :=
  ∃ (N : Nat) (handed : Option (Op × World)),
    (∀ p ∈ handed, p.1.InLine list ∧ LoopMode.ofKind? p.1.kind = none) ∧
    ∀ d n, d.config = config → N ≤ n →
      (∀ p ∈ handed, ∃ x, ((d.exec p.1 r.context).run env p.2).1 = .ended x) →
      ∃ x, ((advance d n r).run env w).1 = .ended x

theorem run_map_ends {α β : Type} {f : Flow α} {x : Except Fault α} (g : α → β)
    (h : (f.run env w).1 = .ended x) : ∃ y, ((f.map g).run env w).1 = .ended y := by
  rw [Flow.map, Flow.run_bind]
  rcases hrun : f.run env w with ⟨o, v⟩
  rw [hrun] at h
  dsimp only at h
  subst h
  cases x with
  | ok a => exact ⟨.ok (g a), rfl⟩
  | error e => exact ⟨.error e, rfl⟩

/-- **A runner whose frames halt arrives.** -/
theorem arrives_of_halts (env : Environment) {b : Bindings} (h : Halts config b fs)
    (hframes : r.frames = fs) (hgood : ∀ f ∈ fs, FrameGood (Op.InLine list) f)
    (hb : w.contexts.view r.context = b) :
    Arrives config env list r w := by
  induction h generalizing r w with
  | @intro fs _ ih =>
    subst hframes
    subst hb
    cases hnext : onward? config (w.contexts.view r.context) r.frames with
    | none =>
      obtain ⟨v, hends | ⟨op, hop, hkind, hhands⟩⟩ := move_settles env hnext hgood
      · refine ⟨1, none, by simp, fun d n hd hn _ => ?_⟩
        obtain ⟨n, rfl⟩ := Nat.exists_eq_add_of_le' hn
        rw [advance_succ]
        rcases hends d hd with hover | ⟨e, hfault⟩
        · obtain ⟨t, -, hrun, -⟩ := hover.bind (goOn d n r)
          exact ⟨.ok (none, r), by rw [hrun]; rfl⟩
        · obtain ⟨t, -, hrun, -⟩ := hfault.bind (goOn d n r)
          exact ⟨.error e, by rw [hrun]; rfl⟩
      · refine ⟨1, some (op, v), by simpa using ⟨hop, hkind⟩, fun d n hd hn hexec => ?_⟩
        obtain ⟨n, rfl⟩ := Nat.exists_eq_add_of_le' hn
        obtain ⟨step, r', hleads⟩ := hhands d hd
        obtain ⟨t, -, hrun, -⟩ := hleads.bind (goOn d n r)
        obtain ⟨x, hx⟩ := hexec _ rfl
        rw [advance_succ, hrun, Flow.map, Flow.bind_assoc]
        exact run_map_ends (fun x => (some (step x), r')) hx
    | some fs' =>
      obtain ⟨v, hcontexts, -, ⟨-, hstop⟩ | hgo⟩ := move_onward env hnext
      · refine ⟨1, none, by simp, fun d n hd hn _ => ?_⟩
        obtain ⟨n, rfl⟩ := Nat.exists_eq_add_of_le' hn
        obtain ⟨t, -, hrun, -⟩ := (hstop d hd).bind (goOn d n r)
        rw [advance_succ, hrun]
        exact ⟨.error .cancelled, rfl⟩
      · obtain ⟨N, handed, hhanded, harrives⟩ := ih fs' hnext (r := { r with frames := fs' })
          (w := v) rfl (onward_good hgood hnext) (by rw [hcontexts])
        refine ⟨N + 1, handed, hhanded, fun d n hd hn hexec => ?_⟩
        obtain ⟨n, rfl⟩ := Nat.exists_eq_add_of_le' (Nat.le_of_add_left_le hn)
        obtain ⟨t, -, hrun, -⟩ := (hgo d hd).bind (goOn d n r)
        rw [advance_succ, hrun]
        exact harrives d n hd (by omega) hexec

/-! ## Calls -/

theorem run_deliver (env : Environment) (r : Runner) (x : Except Fault (Option Step × Runner))
    (w : World) : ∃ y v, (r.deliver x).run env w = (.ended (.ok y), v) := by
  rcases x with e | ⟨_ | step, r'⟩
  · exact ⟨_, _, rfl⟩
  · obtain ⟨topLevel, context, frames, phase, dispatched⟩ := r'
    cases topLevel with
    | false => exact ⟨_, _, rfl⟩
    | true => exact ⟨_, _, rfl⟩
  · exact ⟨_, _, rfl⟩

theorem next_ends_of_advance {d : Dispatcher} {n : Nat} {x : Except Fault (Option Step × Runner)}
    (hphase : r.phase = .running) (h : ((advance d n r).run env w).1 = .ended x) :
    ∃ y, ((next d n r).run env w).1 = .ended (.ok y) := by
  rw [next_of_running hphase, Flow.run_bind, Flow.run_attempt, h]
  obtain ⟨y, v, hy⟩ := run_deliver env r x ((advance d n r).run env w).2
  exact ⟨y, congrArg Prod.fst hy⟩

/-- A call that spins: it asks and looks, and is over only when it is told to stop. -/
theorem next_of_spins (env : Environment) {d : Dispatcher} (n : Nat) (hphase : r.phase = .running)
    (h : FramesSpin d.config (w.contexts.view r.context) r.frames) :
    (((next d n r).run env w).1 = .starved ∨
      (∃ r', ((next d n r).run env w).1 = .ended (.ok (some (.error .cancelled), r'))) ∧ ¬w.Free) ∧
    ∀ m ∈ (next d n r).trace env w, m.IsIdle := by
  obtain ⟨houtcome, hidle⟩ := spins_advance env n h
  rw [next_of_running hphase, Flow.run_bind, Flow.trace_bind, Flow.run_attempt, Flow.trace_attempt]
  rcases houtcome with hstarved | ⟨hcancelled, hfree⟩
  · rw [hstarved]
    exact ⟨.inl rfl, by simpa using hidle⟩
  · rw [hcancelled]
    exact ⟨.inr ⟨⟨_, rfl⟩, hfree⟩, by simpa [deliver, Flow.trace] using hidle⟩

/-- The start is announced before the first call goes on, if at all. -/
theorem run_announce_start {α : Type} (env : Environment) (r : Runner) (w : World) :
    ∃ v : World, v.contexts = w.contexts ∧ (r.topLevel = false → v = w) ∧
      ∀ k : Unit → Flow α, ((r.announce .workflowStart).bind k).run env w = (k ()).run env v ∧
        ∃ t : List Mark, (∀ m ∈ t, ∃ event x,
          m = .did (.announce event) x ∧ event.stage = .workflowStart) ∧
          ((r.announce .workflowStart).bind k).trace env w = t ++ (k ()).trace env v := by
  unfold announce
  cases r.topLevel with
  | false => exact ⟨w, rfl, fun _ => rfl, fun k => ⟨rfl, [], by simp, rfl⟩⟩
  | true =>
    refine ⟨(w.perform env (.announce ⟨.workflowStart, .noop, r.context⟩)).2, rfl, nofun,
      fun k => ⟨rfl, [.did (.announce ⟨.workflowStart, .noop, r.context⟩) ()], ?_, rfl⟩⟩
    intro m hm
    rw [List.mem_singleton.1 hm]
    exact ⟨_, _, rfl, rfl⟩

/-- The next call of `next` spins, if the context has these bindings. -/
def Spins (config : Config) (b : Bindings) (r : Runner) : Prop :=
  r.phase ≠ .finished ∧ FramesSpin config b r.frames

end Runner

/-! ## The theorem -/

/-- **A running runner whose frames do not spin comes to the end of a call**, if the ops that it can
hand out end. -/
theorem Engine.next_ends_of_running {e : Engine} {list : List Op} {context : Handle}
    {env : Environment}
    (hexec : ∀ op, op.InLine list → LoopMode.ofKind? op.kind = none → ∀ v, ∃ m x,
      ((e.exec m op context).run env v).1 = .ended x)
    {r : Runner} (hr : r.Holds (Op.InLine list) context) {w : World} (hphase : r.phase = .running)
    (hnot : ¬Runner.FramesSpin e.config (w.contexts.view context) r.frames) :
    ∃ m n x, ((Runner.next (e.dispatcher m) n r).run env w).1 = .ended (.ok x) := by
  obtain ⟨rfl, hgood⟩ := hr
  obtain ⟨N, handed, hhanded, harrives⟩ :=
    Runner.arrives_of_halts env (Runner.halts_of_not_spins hnot) rfl hgood rfl
  -- deep enough for the op that is handed out, if there is one
  obtain ⟨m, hm⟩ : ∃ m, ∀ p ∈ handed, ∃ x,
      ((e.exec m p.1 r.context).run env p.2).1 = .ended x := by
    cases handed with
    | none => exact ⟨0, by simp⟩
    | some p =>
      obtain ⟨hop, hkind⟩ := hhanded p rfl
      obtain ⟨m, hm⟩ := hexec p.1 hop hkind p.2
      exact ⟨m, by simpa using hm⟩
  obtain ⟨x, hx⟩ := harrives (e.dispatcher m) N rfl (Nat.le_refl N) hm
  exact ⟨m, N, Runner.next_ends_of_advance hphase hx⟩

/-- **A call of `next` ends unless a loop spins.** If one does, the call hands out nothing, however
long it goes on, and is over only when the run is told to stop. -/
theorem Engine.next_ends_or_spins {e : Engine} {list : List Op} {context : Handle}
    {env : Environment}
    (hexec : ∀ op, op.InLine list → LoopMode.ofKind? op.kind = none → ∀ v, ∃ m x,
      ((e.exec m op context).run env v).1 = .ended x)
    {r : Runner} (hr : r.Holds (Op.InLine list) context) (w : World) :
    (¬r.Spins e.config (w.contexts.view context) → ∃ m n x,
      ((Runner.next (e.dispatcher m) n r).run env w).1 = .ended (.ok x)) ∧
    (r.Spins e.config (w.contexts.view context) → ∀ m n,
      (((Runner.next (e.dispatcher m) n r).run env w).1 = .starved ∨
        ∃ r', ((Runner.next (e.dispatcher m) n r).run env w).1 =
          .ended (.ok (some (.error .cancelled), r'))) ∧
      (w.Free → r.topLevel = false ∨ r.phase = .running →
        ((Runner.next (e.dispatcher m) n r).run env w).1 = .starved) ∧
      ∀ mark ∈ (Runner.next (e.dispatcher m) n r).trace env w, mark.IsIdle ∨
        ∃ event x, mark = .did (.announce event) x ∧ event.stage = .workflowStart) := by
  obtain ⟨rfl, hgood⟩ := hr
  obtain ⟨v, hv, hquiet, hstart⟩ :=
    Runner.run_announce_start (α := Option (Except Fault Step) × Runner) env r w
  refine ⟨fun hnot => ?_, fun ⟨hphase, hspin⟩ m n => ?_⟩
  · cases hphase : r.phase with
    | finished => exact ⟨0, 0, (none, r), by rw [Runner.next_of_finished hphase]; rfl⟩
    | running =>
      exact Engine.next_ends_of_running hexec ⟨rfl, hgood⟩ hphase
        fun hspin => hnot ⟨by simp [hphase], hspin⟩
    | pending =>
      rw [← hv] at hnot
      obtain ⟨m, n, x, hx⟩ := Engine.next_ends_of_running hexec (w := v)
        (r := { r with phase := .running }) ⟨rfl, hgood⟩ rfl
        fun hspin => hnot ⟨by simp [hphase], hspin⟩
      exact ⟨m, n, x, by rw [Runner.next_of_pending hphase, (hstart _).1, hx]⟩
  · cases hp : r.phase with
    | finished => exact absurd hp hphase
    | running =>
      obtain ⟨houtcome, hidle⟩ := Runner.next_of_spins env (d := e.dispatcher m) n hp hspin
      refine ⟨houtcome.imp_right And.left, fun hfree _ => ?_,
        fun mark hmark => .inl (hidle mark hmark)⟩
      exact houtcome.resolve_right fun h => h.2 hfree
    | pending =>
      rw [← hv] at hspin
      obtain ⟨houtcome, hidle⟩ := Runner.next_of_spins env (d := e.dispatcher m)
        (r := { r with phase := .running }) n rfl hspin
      obtain ⟨hrun, t, ht, htrace⟩ := hstart fun _ =>
        Runner.next (e.dispatcher m) n { r with phase := .running }
      rw [Runner.next_of_pending hp, hrun, htrace]
      refine ⟨houtcome.imp_right And.left, fun hfree hsilent => ?_, fun mark hmark => ?_⟩
      · have htop : r.topLevel = false := hsilent.resolve_right nofun
        rw [hquiet htop] at houtcome ⊢
        exact houtcome.resolve_right fun h => h.2 hfree
      · exact (List.mem_append.1 hmark).symm.imp (hidle mark) (ht mark)

/-! ## A loop that spins -/

/-- A loop that is never entered, in a loop that is. -/
def idleLoop : Op := .repeatWhile "go" [.repeatWhile "no" [.set .null]]

theorem inLine_of_idleLoop {op : Op} (h : op.InLine [.set .null, idleLoop]) :
    op = .set .null ∨ op = idleLoop ∨ op = .repeatWhile "no" [.set .null] := by
  induction h with
  | here hm => simpa using Or.imp_right .inl (by simpa using hm)
  | body _ hloop hops hm ih =>
    rcases ih with rfl | rfl | rfl
    · cases hloop
    · have houter : idleLoop.innerOps = .ok [.repeatWhile "no" [.set .null]] := rfl
      rw [houter] at hops
      cases hops
      exact .inr (.inr (List.mem_singleton.1 hm))
    · have hinner : (Op.repeatWhile "no" [.set .null]).innerOps = .ok [.set .null] := rfl
      rw [hinner] at hops
      cases hops
      exact .inl (List.mem_singleton.1 hm)

theorem idleLoop_exec_ends (op : Op) (hop : op.InLine [.set .null, idleLoop])
    (hkind : LoopMode.ofKind? op.kind = none) (v : World) :
    ∃ m x, ((plainEngine.exec m op ⟨0⟩).run {} v).1 = .ended x := by
  rcases inLine_of_idleLoop hop with rfl | rfl | rfl
  · exact ⟨1, .ok .null, rfl⟩
  · cases hkind
  · cases hkind

/-- While `go` holds and `no` does not, the loop spins. -/
theorem idleLoop_spins :
    idleLoop.Spins plainEngine.config (goingWorld.contexts.view ⟨0⟩) := by
  have hop : Loop.ofOp plainEngine.config .asLongAs idleLoop =
      .ok (⟨.asLongAs, "go", none, 0⟩, [.repeatWhile "no" [.set .null]]) := rfl
  refine .idle rfl hop (by simp) rfl rfl ?_
  intro o ho
  rw [List.mem_singleton.1 ho]
  exact ⟨.asLongAs, ⟨.asLongAs, "no", none, 0⟩, [.set .null], rfl, rfl, .inr rfl⟩

/-- **Not every call ends**, though every op that can be handed out does: with any number of steps
the first call of this run is cut off. -/
theorem Engine.next_never_ends :
    (∀ op, op.InLine [.set .null, idleLoop] → LoopMode.ofKind? op.kind = none → ∀ v, ∃ m x,
      ((plainEngine.exec m op ⟨0⟩).run {} v).1 = .ended x) ∧
    ∀ m n, ((Runner.next (plainEngine.dispatcher m) n (.start true [idleLoop] ⟨0⟩)).run {}
      goingWorld).1 = .starved := by
  refine ⟨idleLoop_exec_ends, fun m n => ?_⟩
  have hspin : Runner.FramesSpin plainEngine.config (goingWorld.contexts.view ⟨0⟩)
      [⟨[idleLoop], [idleLoop], none⟩] := .rest (List.forall_mem_nil _) idleLoop_spins
  rw [Runner.next_of_pending rfl]
  have hnext := Runner.next_of_spins {} (d := plainEngine.dispatcher m)
    (r := { Runner.start true [idleLoop] ⟨0⟩ with phase := .running })
    (w := (goingWorld.perform {} (.announce ⟨.workflowStart, .noop, ⟨0⟩⟩)).2) n rfl hspin
  exact hnext.1.resolve_right fun h => h.2 ⟨rfl, rfl⟩

/-- A run that is about to set a value, and then to spin. -/
theorem Engine.next_ends_or_spins_of_idle :
    (∀ op, op.InLine [.set .null, idleLoop] → LoopMode.ofKind? op.kind = none → ∀ v, ∃ m x,
      ((plainEngine.exec m op ⟨0⟩).run {} v).1 = .ended x) ∧
    (∃ m n x, ((Runner.next (plainEngine.dispatcher m) n
      (.start true [.set .null, idleLoop] ⟨0⟩)).run {} goingWorld).1 = .ended (.ok x)) ∧
    ∀ m n, ((Runner.next (plainEngine.dispatcher m) n
      ⟨true, ⟨0⟩, [⟨[.set .null, idleLoop], [idleLoop], none⟩], .running, 1⟩).run {} goingWorld).1 =
        .starved := by
  have hall : ∀ o ∈ [Op.set .null, idleLoop], o.InLine [.set .null, idleLoop] := fun _ => .here
  refine ⟨idleLoop_exec_ends, ?_, fun m n => ?_⟩
  · refine (next_ends_or_spins idleLoop_exec_ends ⟨rfl, ?_⟩ goingWorld).1 ?_
    · exact List.forall_mem_singleton.2 ⟨hall, hall⟩
    · rintro ⟨-, hspin⟩
      obtain ⟨fs, honward, -⟩ := hspin.onward
      cases honward
  · refine ((next_ends_or_spins idleLoop_exec_ends ⟨rfl, ?_⟩ goingWorld).2 ⟨by simp, ?_⟩ m n).2.1
      ⟨rfl, rfl⟩ (.inr rfl)
    · exact List.forall_mem_singleton.2
        ⟨hall, fun o ho => hall o (List.mem_cons_of_mem _ ho)⟩
    · exact .rest (List.forall_mem_nil _) idleLoop_spins

end WorkflowEngine
