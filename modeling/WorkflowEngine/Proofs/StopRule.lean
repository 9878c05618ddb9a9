import WorkflowEngine.Proofs.Monitor.Builtin
import WorkflowEngine.Proofs.Trace

/-!
# What a stop rule changes in a run

A run asks its stop rule again and again: before every op, before and after every task of a fan-out,
before every item. Take two runs from the same world, one under a rule that never says to stop, and
one under a rule that says so from the `n`-th time on that it is asked.

**Theorem (`Engine.stops_at_poll`).** If the first run asks fewer than `n` times, the two runs are
the same. Otherwise the second run does exactly what the first does before it asks for the `n`-th
time, and then it raises the fault of cancellation and is over: nothing else is done in any branch.

The monitor `Monitor.heeding` says that after a poll that says to stop there is only the fault of
cancellation. The engine keeps within it if its leaves do not poll. Since a rule is looked at by
polls alone, the two runs go side by side until the `n`-th poll (`Flow.compared_of_passes`), by
induction on the flow.
-/

namespace WorkflowEngine

/-- A rule that never says to stop. -/
def Cancellation.never : StopRule := fun _ _ => false

/-- The same world under another rule. -/
def World.under (w : World) (rule : StopRule) : World :=
  { w with cancellation := { w.cancellation with rule := some rule } }

/-- The same world under another rule that has not been asked yet. -/
def World.begun (w : World) (rule : StopRule) : World :=
  { w with cancellation := { requested := w.cancellation.requested, rule := some rule } }

/-- Whether a stop rule that does not say to stop has been asked. -/
def Mark.asksRule : Mark → Bool
  | .did .poll stop => !stop
  | _ => false

namespace Flow

variable {α : Type}

open Cancellation (never fromPoll)

/-- A rule that says to stop from its `n`-th poll on changes nothing if it is asked less often, and
otherwise it ends the run right there, with an end as described. -/
structure StopsAtPoll (n : Nat) (stopped : Except Fault α → Prop) (f : Flow α) : Prop where
  unheard : ∀ (env : Environment) (w : World),
    (f.run env (w.begun never)).2.cancellation.polls < n →
    f.trace env (w.begun (fromPoll n)) = f.trace env (w.begun never) ∧
    f.run env (w.begun (fromPoll n)) = ((f.run env (w.begun never)).1,
      (f.run env (w.begun never)).2.under (fromPoll n))
  heard : ∀ (env : Environment) (w : World),
    n ≤ (f.run env (w.begun never)).2.cancellation.polls →
    (∃ r, (f.run env (w.begun (fromPoll n))).1 = .ended r ∧ stopped r) ∧
    ∃ before after,
      f.trace env (w.begun never) = before ++ .did .poll false :: after ∧
      before.countP Mark.asksRule + 1 = n ∧
      f.trace env (w.begun (fromPoll n)) =
        before ++ [.did .poll true, .did (.raise .cancelled) ()]

end Flow

/-! ## The monitor -/

/-- How far a run has heard that it is to stop. -/
inductive Hearing where
  | running
  | told
  | raised

/-- After a poll that says to stop there is only the fault of cancellation. -/
def Monitor.heeding : Monitor where
  State := Hearing
  live := .running
  allows
    | .running, _ => True
    | .told, a => a = .raise .cancelled
    | .raised, _ => False
  expects _ _ := True
  after
    | .running, .poll, stop => if stop then .told else .running
    | .running, _, _ => .running
    | .told, _, _ => .raised
    | .raised, _, _ => .raised
  fails
    | .running, _ => True
    | .told, _ => False
    | .raised, e => e = .cancelled

namespace Monitor.heeding

theorem neutral {a : Action} (h : a ≠ .poll) : Neutral heeding a := by
  refine ⟨trivial, fun x => ?_⟩
  cases a with
  | poll => exact absurd rfl h
  | _ => rfl

theorem suits : Suits heeding where
  raise _ := ⟨trivial, trivial⟩
  check := by
    refine ⟨trivial, fun stop _ => ?_⟩
    cases stop with
    | true => exact ⟨rfl, fun _ _ => rfl⟩
    | false => exact Flow.obeys_ok trivial
  signal := neutral (by simp)
  view _ := neutral (by simp)
  create _ := neutral (by simp)
  announce _ := neutral (by simp)

theorem keeps_of_avoids {f : Flow Value} (h : f.Avoids (· = .poll)) : f.Keeps heeding :=
  h.keeps (fun _ => neutral) fun _ => trivial

/-- A flow that has been told to stop raises the fault of cancellation and is over. -/
theorem of_told {α : Type} {Q : Hearing → Except Fault α → Prop} {f : Flow α}
    (hQ : ∀ r, ¬Q .told r) (h : f.Passes heeding Q .told) :
    ∃ next r, f = .act (.raise .cancelled) next ∧ next () = .done r ∧ Q .raised r := by
  cases f with
  | done r => exact absurd h (hQ r)
  | starved => cases h
  | pause rest => cases h.1
  | act a next =>
    obtain ⟨rfl, hnext⟩ := h
    have hend : (next ()).Passes heeding Q .raised := hnext () trivial
    refine ⟨next, ?_⟩
    cases hf : next () with
    | done r =>
      rw [hf] at hend
      exact ⟨r, rfl, rfl, hend⟩
    | starved =>
      rw [hf] at hend
      cases hend
    | pause rest =>
      rw [hf] at hend
      cases hend.1
    | act a next =>
      rw [hf] at hend
      exact hend.1.elim

/-- So its run is over at once, without a change of the world. -/
theorem run_of_told {α : Type} {Q : Hearing → Except Fault α → Prop} {f : Flow α}
    (hQ : ∀ r, ¬Q .told r) (h : f.Passes heeding Q .told) :
    ∃ r, Q .raised r ∧ ∀ env w, f.run env w = (.ended r, w) ∧
      f.trace env w = [.did (.raise .cancelled) ()] := by
  obtain ⟨next, r, rfl, hend, hr⟩ := of_told hQ h
  refine ⟨r, hr, fun env w => ⟨?_, ?_⟩⟩
  · show (next ()).run env w = _
    rw [hend]
    rfl
  · show _ :: (next ()).trace env w = _
    rw [hend]
    rfl

end Monitor.heeding

/-! ## Polls -/

namespace World

open Cancellation (never fromPoll)

theorem perform_under (env : Environment) (w : World) (rule : StopRule) {a : Action}
    (h : a ≠ .poll) : (w.under rule).perform env a =
      ((w.perform env a).1, (w.perform env a).2.under rule) := by
  cases a with
  | poll => exact absurd rfl h
  | announce e =>
    cases hstops : (env.listener e (w.contexts.view e.context)).stops <;>
      simp only [perform, under, hstops] <;> rfl
  | _ => rfl

theorem polls_perform (env : Environment) (w : World) {a : Action} (h : a ≠ .poll) :
    (w.perform env a).2.cancellation.polls = w.cancellation.polls := by
  cases a with
  | poll => exact absurd rfl h
  | announce e =>
    simp only [perform]
    split <;> rfl
  | _ => rfl

/-- The world after its rule has been asked. -/
def polled (w : World) : World :=
  { w with cancellation := { w.cancellation with polls := w.cancellation.polls + 1 } }

theorem perform_poll_of_requested (env : Environment) (w : World) (rule : StopRule)
    (h : w.cancellation.requested) : (w.under rule).perform env .poll = (true, w.under rule) := by
  simp only [perform, under, Cancellation.poll, h]
  rfl

theorem perform_poll (env : Environment) (w : World) (rule : StopRule)
    (h : ¬w.cancellation.requested) : (w.under rule).perform env .poll =
      (rule (w.cancellation.polls + 1) w.journal, w.polled.under rule) := by
  have hpoll : (w.under rule).cancellation.poll w.journal =
      (rule (w.cancellation.polls + 1) w.journal, (w.polled.under rule).cancellation) := if_neg h
  show (((w.under rule).cancellation.poll w.journal).1, _) = _
  rw [hpoll]
  show (_, { w.under rule with
    cancellation := ((w.under rule).cancellation.poll w.journal).2 : World }) = _
  rw [hpoll]
  rfl

theorem polls_le_perform (env : Environment) (w : World) (a : Action) :
    w.cancellation.polls ≤ (w.perform env a).2.cancellation.polls := by
  by_cases h : a = .poll
  · subst h
    simp only [perform, Cancellation.poll]
    split
    · exact Nat.le_refl _
    · split
      · exact Nat.le_refl _
      · exact Nat.le_succ _
  · exact Nat.le_of_eq (polls_perform env w h).symm

end World

theorem Flow.polls_le_run {α : Type} (env : Environment) (f : Flow α) (w : World) :
    w.cancellation.polls ≤ (f.run env w).2.cancellation.polls := by
  induction f generalizing w with
  | done r => exact Nat.le_refl _
  | starved => exact Nat.le_refl _
  | pause rest ih => exact ih () w
  | act a next ih => exact Nat.le_trans (World.polls_le_perform env w a) (ih _ _)

/-! ## Two runs side by side -/

namespace Flow

variable {α : Type} {env : Environment} {n : Nat}

open Cancellation (never fromPoll)

/-- From world `w` on, the rule is asked too seldom to say to stop. -/
structure Unheard (env : Environment) (n : Nat) (f : Flow α) (w : World) : Prop where
  seldom : (f.run env (w.under never)).2.cancellation.polls < n
  trace : f.trace env (w.under (fromPoll n)) = f.trace env (w.under never)
  run : f.run env (w.under (fromPoll n)) = ((f.run env (w.under never)).1,
    (f.run env (w.under never)).2.under (fromPoll n))

/-- From world `w` on, the rule says to stop when it is asked for the `n`-th time. -/
structure Heard (env : Environment) (n : Nat) (stopped : Except Fault α → Prop) (f : Flow α)
    (w : World) : Prop where
  often : n ≤ (f.run env (w.under never)).2.cancellation.polls
  ended : ∃ r, (f.run env (w.under (fromPoll n))).1 = .ended r ∧ stopped r
  traces : ∃ before after,
    f.trace env (w.under never) = before ++ .did .poll false :: after ∧
    w.cancellation.polls + before.countP Mark.asksRule + 1 = n ∧
    f.trace env (w.under (fromPoll n)) = before ++ [.did .poll true, .did (.raise .cancelled) ()]

variable {stopped : Except Fault α → Prop} {a : Action} {next : a.Answer → Flow α} {w v : World}
  {x : a.Answer}

theorem Unheard.act (h : (next x).Unheard env n v)
    (hnever : (w.under never).perform env a = (x, v.under never))
    (hstop : (w.under (fromPoll n)).perform env a = (x, v.under (fromPoll n))) :
    (Flow.act a next).Unheard env n w where
  seldom := by
    rw [Flow.run, hnever]
    exact h.seldom
  trace := by
    rw [Flow.trace, Flow.trace, hnever, hstop]
    exact congrArg (List.cons _) h.trace
  run := by
    rw [Flow.run, Flow.run, hnever, hstop]
    exact h.run

theorem Heard.act (h : (next x).Heard env n stopped v)
    (hnever : (w.under never).perform env a = (x, v.under never))
    (hstop : (w.under (fromPoll n)).perform env a = (x, v.under (fromPoll n)))
    (hpolls : w.cancellation.polls + [Mark.did a x].countP Mark.asksRule = v.cancellation.polls) :
    (Flow.act a next).Heard env n stopped w where
  often := by
    rw [Flow.run, hnever]
    exact h.often
  ended := by
    rw [Flow.run, hstop]
    exact h.ended
  traces := by
    obtain ⟨before, after, h1, h2, h3⟩ := h.traces
    refine ⟨.did a x :: before, after, ?_, ?_, ?_⟩
    · rw [Flow.trace, hnever]
      exact congrArg (List.cons _) h1
    · rw [← h2, ← hpolls, ← List.singleton_append, List.countP_append]
      omega
    · rw [Flow.trace, hstop]
      exact congrArg (List.cons _) h3

theorem Unheard.pause {rest : Unit → Flow α} (h : (rest ()).Unheard env n w) :
    (Flow.pause rest).Unheard env n w where
  seldom := h.seldom
  trace := congrArg (List.cons _) h.trace
  run := h.run

theorem Heard.pause {rest : Unit → Flow α} (h : (rest ()).Heard env n stopped w) :
    (Flow.pause rest).Heard env n stopped w where
  often := h.often
  ended := h.ended
  traces := by
    obtain ⟨before, after, h1, h2, h3⟩ := h.traces
    refine ⟨.paused :: before, after, ?_, ?_, ?_⟩
    · exact congrArg (List.cons _) h1
    · rw [← h2, List.countP_cons_of_neg (by simp [Mark.asksRule])]
    · exact congrArg (List.cons _) h3

/-- The `n`-th poll, after which the flow is over if it is told to stop. -/
theorem Heard.here {next : Bool → Flow α} {r : Except Fault α}
    (hrequested : ¬w.cancellation.requested) (hw : w.cancellation.polls < n)
    (hlast : n ≤ w.cancellation.polls + 1) (hr : stopped r)
    (hend : ∀ env w, (next true).run env w = (.ended r, w) ∧
      (next true).trace env w = [.did (.raise .cancelled) ()]) :
    (Flow.act .poll next).Heard env n stopped w := by
  have hnever := World.perform_poll env w never hrequested
  have hstop := World.perform_poll env w (fromPoll n) hrequested
  have htrue : fromPoll n (w.cancellation.polls + 1) w.journal = true := decide_eq_true hlast
  rw [htrue] at hstop
  refine ⟨?_, ⟨r, ?_, hr⟩, [], (next false).trace env (w.polled.under never), ?_, ?_, ?_⟩
  · rw [Flow.run, hnever]
    exact Nat.le_trans hlast (polls_le_run env (next false) (w.polled.under never))
  · rw [Flow.run, hstop]
    exact congrArg Prod.fst (hend _ _).1
  · rw [Flow.trace, hnever]
    rfl
  · show w.cancellation.polls + 0 + 1 = n
    omega
  · rw [Flow.trace, hstop]
    exact congrArg (List.cons _) (hend _ _).2

/-- A request to stop is heard under every rule. -/
theorem Unheard.of_requested {next : Bool → Flow α} {r : Except Fault α}
    (hrequested : w.cancellation.requested) (hw : w.cancellation.polls < n)
    (hend : ∀ env w, (next true).run env w = (.ended r, w) ∧
      (next true).trace env w = [.did (.raise .cancelled) ()]) :
    (Flow.act .poll next).Unheard env n w := by
  have hsame : ∀ rule, (w.under rule).perform env .poll = (true, w.under rule) := by
    intro rule
    exact World.perform_poll_of_requested env w rule hrequested
  refine Unheard.act (v := w) ⟨?_, ?_, ?_⟩ (hsame never) (hsame (fromPoll n))
  · rw [(hend _ _).1]
    exact hw
  · rw [(hend _ _).2, (hend _ _).2]
  · rw [(hend _ _).1, (hend _ _).1]
    rfl

/-- **Two runs side by side.** A flow that heeds what it is told goes the same way under both rules,
up to the poll where they differ. -/
theorem compared_of_passes (env : Environment) {Q : Hearing → Except Fault α → Prop}
    (hQ : ∀ r, ¬Q .told r) {f : Flow α} (hf : f.Passes Monitor.heeding Q .running) {w : World}
    (hw : w.cancellation.polls < n) :
    f.Unheard env n w ∨ f.Heard env n (Q .raised) w := by
  induction f generalizing w with
  | done r => exact .inl ⟨hw, rfl, rfl⟩
  | starved => exact .inl ⟨hw, rfl, rfl⟩
  | pause rest ih =>
    rcases ih () hf.2 hw with h | h
    · exact .inl h.pause
    · exact .inr h.pause
  | act a next ih =>
    by_cases ha : a = .poll
    · subst ha
      obtain ⟨r, hr, hend⟩ := Monitor.heeding.run_of_told hQ (hf.2 true trivial)
      by_cases hrequested : w.cancellation.requested
      · exact .inl (.of_requested hrequested hw hend)
      · by_cases hlast : n ≤ w.cancellation.polls + 1
        · exact .inr (.here hrequested hw hlast hr hend)
        · -- The rule is asked, and neither of the two says to stop yet.
          have hnever := World.perform_poll env w never hrequested
          have hstop := World.perform_poll env w (fromPoll n) hrequested
          have hfalse : fromPoll n (w.cancellation.polls + 1) w.journal = false :=
            decide_eq_false hlast
          rw [hfalse] at hstop
          rcases ih false (hf.2 false trivial) (w := w.polled) (Nat.lt_of_not_le hlast) with h | h
          · exact .inl (h.act hnever hstop)
          · exact .inr (h.act hnever hstop rfl)
    · have hlive : Monitor.heeding.after .running a (w.perform env a).1 = .running :=
        (Monitor.heeding.neutral ha).2 _
      have hnext := hf.2 (w.perform env a).1 trivial
      rw [hlive] at hnext
      have hpolls := World.polls_perform env w ha
      have hmark : Mark.asksRule (.did a (w.perform env a).1) = false := by
        cases a with
        | poll => exact absurd rfl ha
        | _ => rfl
      rcases ih _ hnext (w := (w.perform env a).2) (hpolls ▸ hw) with h | h
      · exact .inl (h.act (World.perform_under env w never ha) (World.perform_under env w _ ha))
      · refine .inr (h.act (World.perform_under env w never ha) (World.perform_under env w _ ha) ?_)
        rw [hpolls, List.countP_cons_of_neg (by simp [hmark])]
        rfl

/-- **What the monitor says of two runs.** -/
theorem stopsAtPoll_of_passes {Q : Hearing → Except Fault α → Prop} (hQ : ∀ r, ¬Q .told r)
    {f : Flow α} (hf : f.Passes Monitor.heeding Q .running) (hn : 1 ≤ n) :
    f.StopsAtPoll n (Q .raised) where
  unheard env w h := by
    rcases compared_of_passes env hQ hf (w := w.begun never) hn with hc | hc
    · exact ⟨hc.trace, hc.run⟩
    · exact absurd hc.often (Nat.not_le_of_lt h)
  heard env w h := by
    rcases compared_of_passes env hQ hf (w := w.begun never) hn with hc | hc
    · exact absurd h (Nat.not_le_of_lt hc.seldom)
    · obtain ⟨before, after, h1, h2, h3⟩ := hc.traces
      refine ⟨hc.ended, before, after, h1, ?_, h3⟩
      rw [← h2]
      exact congrArg (· + 1) (Nat.zero_add _).symm

theorem StopsAtPoll.mono {P Q : Except Fault α → Prop} {f : Flow α} (h : f.StopsAtPoll n P)
    (hP : ∀ r, P r → Q r) : f.StopsAtPoll n Q where
  unheard := h.unheard
  heard env w hw := by
    obtain ⟨⟨r, hr, hp⟩, htraces⟩ := h.heard env w hw
    exact ⟨⟨r, hr, hP r hp⟩, htraces⟩

/-- A flow that keeps within the monitor is ended by a stop rule with the fault of cancellation. -/
theorem Keeps.stopsAtPoll {f : Flow α} (hf : f.Keeps Monitor.heeding) (hn : 1 ≤ n) :
    f.StopsAtPoll n (· = .error .cancelled) := by
  refine (stopsAtPoll_of_passes (fun r hr => ?_) hf hn).mono fun r hr => ?_
  · cases r with
    | ok a => cases hr.1
    | error e => exact hr
  · cases r with
    | ok a => cases hr.1
    | error e => exact congrArg Except.error hr

end Flow

theorem Runner.stopsAtPoll_stream {n : Nat} {f : Flow (List (Except Fault Step))}
    (hf : f.Passes Monitor.heeding (StreamEnds Monitor.heeding) .running) (hn : 1 ≤ n) :
    f.StopsAtPoll n fun r =>
      ∃ steps : List Step, r = .ok (steps.map .ok ++ [.error .cancelled]) := by
  refine (Flow.stopsAtPoll_of_passes (fun r hr => ?_) hf hn).mono fun r hr => ?_
  · cases r with
    | ok items =>
      rcases hr with hlive | ⟨steps, e, rfl, he⟩
      · cases hlive
      · exact he
    | error e => exact hr
  · cases r with
    | ok items =>
      rcases hr with hlive | ⟨steps, e, rfl, rfl⟩
      · cases hlive
      · exact ⟨steps, rfl⟩
    | error e => exact hr.elim

/-! ## Runs of an engine -/

/-- **A stop rule that says to stop from its `n`-th poll on.** In an engine made of groups and of
leaves that do not poll, it changes nothing in a run that polls less often. Any other run does what
it would have done before that poll, and then it ends with the fault of cancellation, without doing
anything else; whatever the workflow and the context, however ops nest, and however leaves pause. -/
theorem Engine.stops_at_poll {e : Engine} (he : e.Composed (Flow.Avoids (· = .poll))) {n : Nat}
    (hn : 1 ≤ n) (fuel : Nat) (w : Workflow) (ops : List Op) (op : Op) (context : Handle) :
    (w.run (e.dispatcher fuel) context).StopsAtPoll n (· = .error .cancelled) ∧
    (w.execute (e.dispatcher fuel) context).StopsAtPoll n (· = .error .cancelled) ∧
    ((w.runner context).stream (e.dispatcher fuel)).StopsAtPoll n
      (fun r => ∃ steps : List Step, r = .ok (steps.map .ok ++ [.error .cancelled])) ∧
    ((e.dispatcher fuel).runOps ops context).StopsAtPoll n (· = .error .cancelled) ∧
    ((e.dispatcher fuel).dispatch op context).StopsAtPoll n (· = .error .cancelled) := by
  have hM := Monitor.heeding.suits
  have hkeeps : e.Composed (Flow.Keeps Monitor.heeding) :=
    he.mono fun _ => Monitor.heeding.keeps_of_avoids
  have hd := Engine.covers_of_composed hM
    (fun _ _ _ => Monitor.heeding.neutral (by simp)) hkeeps fuel context
  refine ⟨?_, ?_, ?_, ?_, ?_⟩
  · exact (Workflow.run_keeps hM hd fun _ _ => trivial).stopsAtPoll hn
  · exact (Workflow.execute_keeps hM hd fun _ _ => trivial).stopsAtPoll hn
  · exact Runner.stopsAtPoll_stream (Workflow.stream_passes hM hd fun _ _ => trivial) hn
  · exact (Dispatcher.runOps_keeps hM hd fun _ _ => trivial).stopsAtPoll hn
  · exact (Dispatcher.dispatch_keeps hM hd trivial).stopsAtPoll hn

theorem Engine.builtin_avoids_poll :
    (EngineBuilder.build {}).Composed (Flow.Avoids (· = .poll)) := by
  have hM : (Monitor.avoiding (· = .poll)).SuitsLeaves :=
    Monitor.avoiding_suitsLeaves (by simp) (by simp) (by simp)
  have hclient : Http.outside.Keeps (Monitor.avoiding (· = .poll)) :=
    Http.outside_keeps hM fun _ _ => Monitor.avoiding_neutral (by simp)
  refine Engine.Composed.mono (EngineBuilder.composed_build hM hclient (by simp) ?_) fun _ =>
    Flow.avoids_iff_keeps.2
  exact fun host hhost => nomatch hhost

/-- A run of a group with a context of its own, and then of two branches. -/
def Engine.twoGroups : Flow Handle :=
  Workflow.run
    { name := "groups", ops := [.sequential [.set .null], .parallel [.set .null, .set .null]] }
    ((EngineBuilder.build {}).dispatcher 9) ⟨0⟩

/-- The third poll is the one before the second group: only the first is executed. -/
theorem Engine.stops_at_third_poll :
    (EngineBuilder.build {}).Composed (Flow.Avoids (· = .poll)) ∧ 1 ≤ 3 ∧
    3 ≤ (twoGroups.run {} (World.begun {} Cancellation.never)).2.cancellation.polls ∧
    (twoGroups.run {} (World.begun {} (Cancellation.fromPoll 3))).1 =
      .ended (.error .cancelled) := by
  have hoften :
      3 ≤ (twoGroups.run {} (World.begun {} Cancellation.never)).2.cancellation.polls := by
    decide +kernel
  obtain ⟨hstops, -⟩ := Engine.stops_at_poll Engine.builtin_avoids_poll (n := 3) (by decide) 9
    { name := "groups", ops := [.sequential [.set .null], .parallel [.set .null, .set .null]] }
    [] .noop ⟨0⟩
  obtain ⟨⟨r, hr, hcancelled⟩, -⟩ := hstops.heard {} {} hoften
  rw [hcancelled] at hr
  exact ⟨Engine.builtin_avoids_poll, by decide, hoften, hr⟩

end WorkflowEngine
