import WorkflowEngine.Proofs.Caution
import WorkflowEngine.Proofs.Monitor.Builtin

/-!
# Where a run asks whether to stop, part by part

A caution that suits the engine speaks of two things only: an op may be announced only right after
the question whether to stop, and some results may be bound and announced only right after the
question whether a stop has been requested. Of the parts of the engine one has to know which of them
may be begun whatever is known, and which only right after the question.

**Ops** (`Dispatcher.Careful`). To execute an op means to announce it, so this may only be begun
right after the question. Whatever has ops executed asks first: a runner before every op, a worker
before it claims a task, a fan-out of one task before that task (`FanOut.run_cautious`,
`Runner.next_cautious`). So runs and groups may be begun whatever is known.

**Calls** (`Flow.Avoids.abortable_heeds`). A call that is given up as soon as a stop has been
requested asks for that before it begins and after each of its pauses. If the call itself requests
no stop, then at its end it is known that none has been requested.
-/

namespace WorkflowEngine

/-- Requesting a stop, and announcing an event to a listener that may request one. -/
def Action.stops (a : Action) : Prop := a = .requestStop ∨ ∃ e, a = .announce e

/-! ## Cautions that suit the engine -/

namespace Caution

/-- The caution speaks of the announcements of ops, and of the bindings and announcements of their
results. -/
structure Suits (C : Caution) : Prop where
  needsPoll : ∀ a, C.needsPoll a → ∃ op context, a = .announce ⟨.opPre, op, context⟩
  needsSignal : ∀ a, C.needsSignal a → (∃ op context, a = .announce ⟨.opPost, op, context⟩) ∨
    ∃ context key value, a = .bind context key value

variable {C : Caution} {a : Action}

/-- Whatever is known, all else is allowed. -/
theorem Suits.allows (hC : C.Suits)
    (hannounce : ∀ e, a = .announce e → e.stage ≠ .opPre ∧ e.stage ≠ .opPost)
    (hbind : ∀ context key value, a ≠ .bind context key value) (s : Assurance) :
    C.Allows s a := by
  refine ⟨fun h => ?_, fun h => ?_⟩
  · obtain ⟨op, context, rfl⟩ := hC.needsPoll a h
    exact absurd rfl (hannounce _ rfl).1
  · rcases hC.needsSignal a h with ⟨op, context, rfl⟩ | ⟨context, key, value, rfl⟩
    · exact absurd rfl (hannounce _ rfl).2
    · exact absurd rfl (hbind context key value)

theorem Suits.poll_allowed (hC : C.Suits) (s : Assurance) : C.Allows s .poll :=
  hC.allows (by simp) (by simp) s

theorem Suits.signal_allowed (hC : C.Suits) (s : Assurance) : C.Allows s .signal :=
  hC.allows (by simp) (by simp) s

theorem Suits.raise_allowed (hC : C.Suits) (e : Fault) (s : Assurance) : C.Allows s (.raise e) :=
  hC.allows (by simp) (by simp) s

theorem Suits.allows_of_signal (hC : C.Suits) {s : Assurance} (hs : s.signal = true)
    (hpre : ∀ op context, a ≠ .announce ⟨.opPre, op, context⟩) : C.Allows s a := by
  refine ⟨fun h => ?_, fun _ => hs⟩
  obtain ⟨op, context, rfl⟩ := hC.needsPoll a h
  exact absurd rfl (hpre op context)

end Caution

variable {C : Caution}

/-! ## What executors do by themselves -/

namespace Flow

variable {α β : Type} {P : α → Prop}

theorem cautious_act {a : Action} {next : a.Answer → Flow α} (ha : ∀ s, C.Allows s a)
    (h : ∀ x, (next x).Cautious C P) : (Flow.act a next).Cautious C P :=
  fun s => ⟨ha s, fun x => h x _⟩

theorem cautious_perform {a : Action} (ha : ∀ s, C.Allows s a) :
    (perform a).Cautious C fun _ => True := cautious_act ha fun _ => cautious_ok trivial

theorem fail_heeds (hC : C.Suits) (P : Assurance → α → Prop) (e : Fault) (s : Assurance) :
    (fail e : Flow α).Heeds C P s := ⟨hC.raise_allowed e s, fun _ => trivial⟩

theorem cautious_fail (hC : C.Suits) (P : α → Prop) (e : Fault) :
    (fail e : Flow α).Cautious C P := fail_heeds hC _ e

theorem cautious_ofExcept (hC : C.Suits) {r : Except Fault α} (h : ∀ a, r = .ok a → P a) :
    (ofExcept r).Cautious C P := by
  cases r with
  | ok a => exact cautious_ok (h a rfl)
  | error e => exact cautious_fail hC _ e

theorem cautious_view (hC : C.Suits) (h : Handle) : (view h).Cautious C fun _ => True :=
  cautious_perform (hC.allows (by simp) (by simp))

theorem cautious_create (hC : C.Suits) (b : Bindings) : (create b).Cautious C fun _ => True :=
  cautious_perform (hC.allows (by simp) (by simp))

/-- What the caution does not speak of may be done whatever is known. -/
theorem Avoids.cautious {f : Flow α} (h : f.Avoids C.Concerns) : f.Cautious C fun _ => True := by
  induction h with
  | done r =>
    cases r with
    | ok a => exact cautious_ok trivial
    | error e => exact fun _ => trivial
  | starved => exact fun _ => trivial
  | pause _ ih => exact fun _ => ih ()
  | act ha _ ih => exact cautious_act (Caution.allows_of_not_concerns ha) ih

theorem check_heeds (hC : C.Suits) (s : Assurance) :
    check.Heeds C (fun s _ => s.poll = true) s := by
  refine ⟨hC.poll_allowed s, fun stop => ?_⟩
  cases stop with
  | true => exact fail_heeds hC _ _ _
  | false => exact rfl

/-! ## Calls that are given up -/

/-- A call that is not taken up again once a stop has been requested: at its end it is known that
none has been. -/
theorem Avoids.guardPauses_heeds (hC : C.Suits) {f : Flow α} (h : f.Avoids Action.stops)
    {s : Assurance} (hs : s.signal = true) :
    f.guardPauses.Heeds C (fun s _ => s.signal = true) s := by
  induction h generalizing s with
  | done r =>
    cases r with
    | ok a => exact hs
    | error e => trivial
  | starved => trivial
  | pause _ ih =>
    intro s
    refine ⟨hC.signal_allowed s, fun stop => ?_⟩
    cases stop with
    | true => exact fail_heeds hC _ _ _
    | false => exact ih () rfl
  | @act a next ha _ ih =>
    refine ⟨hC.allows_of_signal hs fun _ _ h => ha (.inr ⟨_, h⟩), fun x => ih x ?_⟩
    cases a with
    | requestStop => exact absurd (.inl rfl) ha
    | announce e => exact absurd (.inr ⟨e, rfl⟩) ha
    | poll => cases x <;> exact hs
    | signal => cases x <;> first | exact hs | rfl
    | _ => exact hs

/-- **Calls.** At the end of a call that is given up as soon as a stop has been requested, it is
known that none has been. -/
theorem Avoids.abortable_heeds (hC : C.Suits) {f : Flow α} (h : f.Avoids Action.stops)
    (s : Assurance) : f.abortable.Heeds C (fun s _ => s.signal = true) s := by
  refine ⟨hC.signal_allowed s, fun stop => ?_⟩
  cases stop with
  | true => exact fail_heeds hC _ _ _
  | false => exact h.guardPauses_heeds hC rfl

end Flow

/-! ## Fan-outs -/

namespace FanOut

variable {α : Type} {report : Report}

/-- The unclaimed tasks are begun right after the question whether to stop. -/
def Board.Careful (C : Caution) (b : Board α) : Prop :=
  ∀ task ∈ b.waiting, task.1.CautiousOnceAsked C

/-- What is left of the worker's task may be taken up whatever is known. -/
def Worker.Cautious (C : Caution) : Worker α → Prop
  | .busy _ rest => rest.Cautious C fun _ => True
  | _ => True

theorem settle_cautious (hC : C.Suits) (hr : ∀ p, (report p).Cautious C fun _ => True)
    (t : Tally α) (index : Nat) (a : α) :
    (t.settle report index a).Cautious C fun _ => True :=
  fun s => (Flow.check_heeds hC s).bind fun s _ _ =>
    ((hr _).bind fun _ _ => Flow.cautious_ok trivial) s

/-- What is left of the tasks may be taken up as a worker takes it up, whatever is known. -/
def Heeding (C : Caution) (α : Type) : Situation C.judgement α := fun _ done ahead b =>
  (∀ w ∈ done ++ ahead, w.Cautious C) ∧ b.Careful C

/-- After a stretch what is left of the task may be taken up whatever is known. -/
theorem stretched_heeding (hC : C.Suits) (hr : ∀ p, (report p).Cautious C fun _ => True)
    {f : Flow α} {s : Assurance} {done ahead : List (Worker α)} {w : Worker α} {index : Nat}
    {b : Board α} (hf : f.Heeds C (fun _ _ => True) s) (hw : ∀ v ∈ done ++ w :: ahead, v.Cautious C)
    (hb : b.Careful C) :
    C.judgement.judges (AfterStretch C.judgement report (Heeding C α) done ahead index b)
      f.advance s := by
  refine hf.advance.mono fun s x hx => ?_
  cases x with
  | suspended rest => exact ⟨forall_mem_turned hw hx, hb⟩
  | settled a =>
    exact (settle_cautious hC hr b.tally index a s).mono fun _ _ _ =>
      ⟨forall_mem_replaced hw trivial, hb⟩

theorem heeding_kept (hC : C.Suits) (hr : ∀ p, (report p).Cautious C fun _ => True) :
    Kept C.judgement report (Heeding C α) where
  claim hs := by
    obtain ⟨hw, hb⟩ := hs
    obtain ⟨htask, hrest⟩ := List.forall_mem_cons.1 hb
    refine (Flow.check_heeds hC _).bind fun s _ hs => ?_
    exact stretched_heeding hC hr (htask s hs) hw hrest
  resume {s done ahead index rest b} hs := by
    have hrest : rest.Cautious C fun _ => True := hs.1 (.busy index rest) (by simp)
    exact stretched_heeding hC hr (hrest s) hs.1 hs.2
  nothing hs := (Flow.check_heeds hC _).mono fun _ _ _ => ⟨forall_mem_turned hs.1 trivial, hs.2⟩
  finished hs := ⟨forall_mem_turned hs.1 trivial, hs.2⟩

theorem heeding_outlasts :
    Outlasts C.judgement (fun _ => Heeding C α) (fun _ _ => True) where
  starved _ := trivial
  ended _ _ := trivial
  pause hs _ h := fun s => h s ⟨by simpa using hs.1, hs.2⟩

/-- **A fan-out may be begun whatever is known**, if its tasks may be begun right after the question
whether to stop. -/
theorem run_cautious (hC : C.Suits) (hr : ∀ p, (report p).Cautious C fun _ => True) (fuel : Nat)
    {tasks : List (Flow α)} (cap : Nat) (h : ∀ task ∈ tasks, task.CautiousOnceAsked C) :
    (run fuel tasks cap report).Cautious C fun _ => True := by
  intro s
  refine run_judged (J := C.judgement) (fun _ => heeding_kept hC hr) heeding_outlasts fuel cap
    (fun _ => trivial) (fun task htasks => ?_) (fun _ => ?_) (fun _ _ _ => trivial)
    fun s _ _ _ => Flow.cautious_fail hC _ _ s
  · have htask : task.CautiousOnceAsked C := h task (by simp [htasks])
    refine (Flow.check_heeds hC s).bind fun s _ hs => (htask s hs).mono fun s _ _ => ?_
    exact (settle_cautious hC hr _ 0 _ s).mono fun _ _ _ => trivial
  · refine (Flow.check_heeds hC s).mono fun _ _ _ => ⟨fun w hw => ?_, fun task ht => ?_⟩
    · have hidle : w = .idle := List.eq_of_mem_replicate hw
      rw [hidle]
      trivial
    · exact h task.1 (List.fst_mem_of_mem_zipIdx ht)

end FanOut

/-! ## Runs -/

/-- A class of ops that, with an op, holds its inner ops, and whose ops are executed as the caution
asks once it has been asked whether to stop. -/
structure Dispatcher.Careful (C : Caution) (good : Op → Prop) (d : Dispatcher) : Prop where
  inner : ∀ op ops, good op → op.innerOps = .ok ops → ∀ inner ∈ ops, good inner
  exec : ∀ op context, good op → (d.exec op context).CautiousOnceAsked C

variable {good : Op → Prop}

namespace Caution

/-- Whatever is known. -/
abbrev Anyhow : Assurance → Prop := fun _ => True

/-- It has been asked whether to stop. -/
abbrev Asked : Assurance → Prop := fun s => s.poll = true

theorem returns {α : Type} {f : Flow α} (h : f.Cautious C fun _ => True) :
    C.judgement.Returns Anyhow f := fun s _ => h s

theorem Suits.raises (hC : C.Suits) (e : Fault) : C.judgement.Raises Anyhow e :=
  fun P s _ => Flow.fail_heeds hC P e s

theorem Suits.runs (hC : C.Suits) : C.judgement.Runs Anyhow Asked fun _ _ => True where
  starved _ := trivial
  check _ := (Flow.check_heeds hC _).mono fun _ _ hs => ⟨trivial, hs⟩
  view h := returns (Flow.cautious_view hC h)
  raises _ := hC.raises _
  error _ := trivial
  attempt h := h.attempt.mono fun s r hr => by
    cases r with
    | ok a => exact hr a rfl
    | error e => trivial
  announce op h hstage := by
    refine returns (Flow.cautious_perform (hC.allows (fun e he => ?_) (by simp)))
    cases he
    rcases hstage with rfl | rfl <;> simp

theorem Suits.creates (hC : C.Suits) : C.judgement.Creates Anyhow fun _ _ => True :=
  fun b s _ => (Flow.cautious_create hC b s).mono fun _ _ h => ⟨trivial, h⟩

end Caution

section Runs

variable {d : Dispatcher} (hC : C.Suits) (hd : d.Careful C good)

include hC hd

theorem Dispatcher.Careful.executes (context : Handle) :
    d.Executes C.judgement Caution.Anyhow Caution.Asked (Runner.Back Caution.Anyhow) good
      context where
  body op ops hop _ hops := hd.inner op ops hop hops
  decodes _ e _ _ _ := hC.raises e
  exec op s hop _ _ hs := hd.exec op context hop s hs

/-- **A runner may be asked for its next step whatever is known.** -/
theorem Runner.next_cautious {context : Handle} (n : Nat) {r : Runner} (hr : Holds good context r) :
    (next d n r).Cautious C fun p => Holds good context p.2 := by
  intro s
  refine Flow.Heeds.mono (next_judged hC.runs (hd.executes hC context) n hr trivial) fun s x hx => ?_
  match x with
  | (none, _) => exact hx.2
  | (some (.ok _), _) => exact hx.2
  | (some (.error _), _) => exact hx.2.2

theorem Dispatcher.runOps_cautious {ops : List Op} (h : ∀ op ∈ ops, good op) (context : Handle) :
    (d.runOps ops context).Cautious C fun _ => True :=
  fun s => runOps_returns hC.runs (hd.executes hC context) h s trivial

/-- An op that may be a loop is begun right after the question whether to stop. -/
theorem Dispatcher.dispatch_careful {op : Op} (h : good op) (context : Handle) :
    (d.dispatch op context).CautiousOnceAsked C :=
  fun _ hs => dispatch_judged hC.runs (hd.executes hC context) h trivial hs

variable {w : Workflow} (h : ∀ op ∈ w.ops, good op) (context : Handle)

include h

theorem Workflow.run_cautious : (w.run d context).Cautious C fun _ => True :=
  fun s => run_returns hC.runs (hd.executes hC context) h s trivial

theorem Workflow.execute_cautious : (w.execute d context).Cautious C fun _ => True :=
  fun s => execute_returns hC.runs (hd.executes hC context) h s trivial

theorem Workflow.stream_cautious :
    ((w.runner context).stream d).Cautious C fun _ => True := fun _ =>
  Flow.Heeds.mono (stream_judged hC.runs (hd.executes hC context) h trivial) fun _ _ _ => trivial

end Runs

/-! ## Groups -/

namespace Executor

variable {d : Dispatcher} {op : Op}

/-- **Groups may be begun whatever is known.** -/
theorem IsGroup.cautious (hC : C.Suits) (hd : d.Careful C good) {x : Executor} (hx : x.IsGroup)
    (hop : good op) (context : Handle) : (x d op context).Cautious C fun _ => True := by
  intro s
  have hrun : ∀ ops (b : Bindings) inner, op.innerOps = .ok ops → True →
      C.judgement.Returns Caution.Anyhow (d.runOps ops inner) := fun ops _ inner hops _ =>
    Caution.returns (Dispatcher.runOps_cautious hC hd (hd.inner op ops hop hops) inner)
  rcases hx with rfl | rfl | rfl
  · exact sequential_returns hC.runs.toWalks (fun e _ => hC.raises e) hC.creates hrun s trivial
  · refine parallel_returns hC.runs.toWalks (fun e _ => hC.raises e) (fun ops cap hops _ => ?_) s
      trivial
    refine Caution.returns (FanOut.run_cautious hC (fun _ => Flow.cautious_ok trivial) d.fuel cap
      fun task ht => ?_)
    obtain ⟨inner, hinner, rfl⟩ := List.mem_map.1 ht
    exact Dispatcher.dispatch_careful hC hd (hd.inner op ops hop hops inner hinner) context
  · exact map_returns hC.runs.toWalks (fun e _ => hC.raises e) hC.creates hrun s trivial

/-! ## Executors that are given up -/

/-- The executors that are given up as soon as a stop has been requested, with a model or a client
that requests none. -/
def IsAbortable (x : Executor) : Prop :=
  (∃ m : LanguageModel, m.Avoids Action.stops ∧ (x = prompt m ∨ x = promptForJson m)) ∨
    ∃ client : Http.Client, client.Avoids Action.stops ∧ x = fetch client

theorem send_avoids {client : Http.Client} (hc : client.Avoids Action.stops) (timeoutMs : Nat)
    (type : ResponseType) (r : Http.Request) :
    (send client timeoutMs type r).Avoids Action.stops := by
  have hleaves : (Monitor.avoiding Action.stops).SuitsLeaves :=
    Monitor.avoiding_suitsLeaves (by simp [Action.stops]) (by simp [Action.stops])
      (by simp [Action.stops])
  exact Flow.avoids_iff_keeps.2 (send_keeps hleaves
    (fun r timeoutMs => Flow.avoids_iff_keeps.1 (hc r timeoutMs)) timeoutMs type r)

/-- **Executors that are given up.** When such an executor has a result, it is known that no stop
has been requested. -/
theorem IsAbortable.heeds (hC : C.Suits) {x : Executor} (hx : x.IsAbortable) (op : Op)
    (context : Handle) (s : Assurance) :
    (x d op context).Heeds C (fun s _ => s.signal = true) s := by
  have hread : ∀ {α : Type} (r : Except Fault α) (s : Assurance),
      (Flow.ofExcept r).Heeds C (fun _ _ => True) s :=
    fun r s => Flow.cautious_ofExcept hC (fun _ _ => trivial) s
  rcases hx with ⟨m, hm, rfl | rfl⟩ | ⟨client, hc, rfl⟩
  · refine (Flow.cautious_view hC context s).bind fun s b _ => ?_
    refine (hread (persona d.config op b) s).bind fun s persona _ => ?_
    refine (hread (op.requireText "prompt") s).bind fun s text _ => ?_
    exact ((hm.prompt _ _).abortable_heeds hC s).bind fun s _ hs => hs
  · refine (Flow.cautious_view hC context s).bind fun s b _ => ?_
    refine (hread (persona d.config op b) s).bind fun s persona _ => ?_
    refine (hread (op.requireText "prompt") s).bind fun s text _ => ?_
    split
    · exact Flow.fail_heeds hC _ _ s
    · exact (hm.promptForJson _ _ _).abortable_heeds hC s
  · refine (Flow.cautious_view hC context s).bind fun s b _ => ?_
    refine (hread (ResponseType.ofOp op) s).bind fun s type _ => ?_
    refine (hread (request op b) s).bind fun s r _ => ?_
    exact (send_avoids hc d.config.fetchTimeoutMs type r).abortable_heeds hC s

end Executor

end WorkflowEngine
