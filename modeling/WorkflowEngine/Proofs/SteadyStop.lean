import WorkflowEngine.Proofs.Trace

/-!
# Stops that stay

A stop rule may look at the journal only, and go on saying to stop once it has said so. Then a world
that is told to stop stays so, whatever is done in it (`World.Onward.toldToStop`), and since asking
is not writing, asking changes nothing about that (`World.toldToStop_poll`). So there is one moment
in a run from which on every poll is answered with yes (`Flow.not_told_of_poll`).

Two worlds that differ only in how often such a rule has been asked do not differ for any flow
(`Flow.run_indistinct`).
-/

namespace WorkflowEngine

/-- The rule looks at the journal only, and once it says to stop it goes on to do so. -/
def Cancellation.Steady (c : Cancellation) : Prop :=
  ∀ rule, c.rule = some rule → ∀ m n journal longer, journal <:+ longer →
    rule m journal = true → rule n longer = true

namespace World

/-- The next poll will be answered with yes. -/
def toldToStop (w : World) : Bool := (w.cancellation.poll w.journal).1

/-- What has become of a world when these actions have been performed in it. -/
def replay (env : Environment) (w : World) : List Mark → World
  | [] => w
  | .paused :: t => w.replay env t
  | .did a _ :: t => (w.perform env a).2.replay env t

variable {env : Environment} {w v : World}

@[simp] theorem replay_append (t u : List Mark) :
    w.replay env (t ++ u) = (w.replay env t).replay env u := by
  induction t generalizing w with
  | nil => rfl
  | cons m t ih =>
    cases m with
    | paused => exact ih
    | did a x => exact ih

theorem perform_poll_fst : (w.perform env .poll).1 = w.toldToStop := rfl

/-! ## What a step does to a stop -/

/-- A step leaves the rule in place, writes at most new entries and takes no request back. -/
structure Onward (w v : World) : Prop where
  rule : v.cancellation.rule = w.cancellation.rule
  journal : w.journal <:+ v.journal
  requested : w.cancellation.requested = true → v.cancellation.requested = true

theorem Onward.refl (w : World) : Onward w w := ⟨rfl, List.suffix_rfl, id⟩

theorem poll_rule (c : Cancellation) (journal : List Value) :
    (c.poll journal).2.rule = c.rule := by
  unfold Cancellation.poll
  split
  · rfl
  · split
    · rfl
    · rfl

theorem poll_requested (c : Cancellation) (journal : List Value) :
    (c.poll journal).2.requested = c.requested := by
  unfold Cancellation.poll
  split
  · rfl
  · split
    · rfl
    · rfl

theorem onward_perform (env : Environment) (w : World) (a : Action) :
    Onward w (w.perform env a).2 := by
  cases a with
  | poll => exact ⟨poll_rule .., List.suffix_rfl, fun h => (poll_requested ..).trans h⟩
  | requestStop => exact ⟨rfl, List.suffix_rfl, fun _ => rfl⟩
  | announce e =>
    simp only [perform]
    split
    · exact ⟨rfl, List.suffix_append .., fun _ => rfl⟩
    · exact ⟨rfl, List.suffix_append .., id⟩
  | note entry => exact ⟨rfl, List.suffix_cons .., id⟩
  | signal => exact .refl w
  | view h => exact .refl w
  | raise e => exact .refl w
  | bind h key value => exact ⟨rfl, List.suffix_rfl, id⟩
  | unbind h key => exact ⟨rfl, List.suffix_rfl, id⟩
  | create b => exact ⟨rfl, List.suffix_rfl, id⟩
  | consult service question => exact ⟨rfl, List.suffix_rfl, id⟩

theorem Onward.steady (h : Onward w v) (hw : w.cancellation.Steady) : v.cancellation.Steady := by
  intro rule hrule
  exact hw rule (h.rule ▸ hrule)

/-- A world is told to stop by a request or by its rule. -/
theorem toldToStop_iff : w.toldToStop = true ↔ w.cancellation.requested = true ∨
    ∃ rule, w.cancellation.rule = some rule ∧
      rule (w.cancellation.polls + 1) w.journal = true := by
  unfold toldToStop Cancellation.poll
  by_cases hrequested : w.cancellation.requested = true
  · simp [hrequested]
  · cases hrule : w.cancellation.rule with
    | none => simp [hrequested]
    | some rule => simp [hrequested]

theorem Onward.toldToStop (h : Onward w v) (hw : w.cancellation.Steady)
    (hstop : w.toldToStop = true) : v.toldToStop = true := by
  rw [toldToStop_iff] at hstop ⊢
  rcases hstop with hrequested | ⟨rule, hrule, hsays⟩
  · exact .inl (h.requested hrequested)
  · exact .inr ⟨rule, h.rule.trans hrule, hw rule hrule _ _ _ _ h.journal hsays⟩

theorem onward_replay (env : Environment) (hw : w.cancellation.Steady) (t : List Mark) :
    (w.replay env t).cancellation.Steady ∧
      (w.toldToStop = true → (w.replay env t).toldToStop = true) := by
  induction t generalizing w with
  | nil => exact ⟨hw, id⟩
  | cons m t ih =>
    cases m with
    | paused => exact ih hw
    | did a x =>
      have honward := onward_perform env w a
      have hrest := ih (honward.steady hw)
      exact ⟨hrest.1, fun hstop => hrest.2 (honward.toldToStop hw hstop)⟩

/-! ## Worlds that differ in the number of polls only -/

/-- The world without the number of polls. -/
def uncounted (w : World) : World := { w with cancellation := { w.cancellation with polls := 0 } }

@[simp] theorem uncounted_uncounted (w : World) : w.uncounted.uncounted = w.uncounted := rfl

@[simp] theorem uncounted_steady : w.uncounted.cancellation.Steady ↔ w.cancellation.Steady :=
  Iff.rfl

theorem uncounted_poll : (w.perform env .poll).2.uncounted = w.uncounted := by
  simp only [perform, Cancellation.poll, uncounted]
  split
  · rfl
  · split
    · rfl
    · rfl

/-- For a steady rule it does not matter how often it has been asked. -/
theorem toldToStop_uncounted (hw : w.cancellation.Steady) :
    w.uncounted.toldToStop = w.toldToStop := by
  rw [Bool.eq_iff_iff, toldToStop_iff, toldToStop_iff]
  refine or_congr Iff.rfl (exists_congr fun rule => and_congr_right fun hrule => ?_)
  exact ⟨hw rule hrule _ _ _ _ List.suffix_rfl, hw rule hrule _ _ _ _ List.suffix_rfl⟩

theorem toldToStop_poll (hw : w.cancellation.Steady) :
    (w.perform env .poll).2.toldToStop = w.toldToStop := by
  rw [← toldToStop_uncounted ((onward_perform env w .poll).steady hw), uncounted_poll,
    toldToStop_uncounted hw]

theorem perform_uncounted (env : Environment) (hw : w.cancellation.Steady) (a : Action) :
    (w.uncounted.perform env a).1 = (w.perform env a).1 ∧
      (w.uncounted.perform env a).2.uncounted = (w.perform env a).2.uncounted := by
  cases a with
  | poll => exact ⟨toldToStop_uncounted hw, by rw [uncounted_poll, uncounted_poll]; rfl⟩
  | announce e =>
    refine ⟨rfl, ?_⟩
    by_cases hstops : (env.listener e (w.contexts.view e.context)).stops = true
    · simp only [perform, uncounted, hstops, if_true, Cancellation.request]
    · simp only [perform, uncounted, hstops, if_false, Bool.false_eq_true]
  | requestStop => exact ⟨rfl, rfl⟩
  | note entry => exact ⟨rfl, rfl⟩
  | signal => exact ⟨rfl, rfl⟩
  | view h => exact ⟨rfl, rfl⟩
  | raise e => exact ⟨rfl, rfl⟩
  | bind h key value => exact ⟨rfl, rfl⟩
  | unbind h key => exact ⟨rfl, rfl⟩
  | create b => exact ⟨rfl, rfl⟩
  | consult service question => exact ⟨rfl, rfl⟩

/-- The worlds are the same but for the number of polls. -/
def Indistinct (w v : World) : Prop := w.uncounted = v.uncounted

theorem Indistinct.perform (env : Environment) (h : Indistinct w v) (hw : w.cancellation.Steady)
    (hv : v.cancellation.Steady) (a : Action) : (w.perform env a).1 = (v.perform env a).1 ∧
      Indistinct (w.perform env a).2 (v.perform env a).2 := by
  have hleft := perform_uncounted env hw a
  have hright := perform_uncounted env hv a
  rw [h] at hleft
  exact ⟨hleft.1.symm.trans hright.1, hleft.2.symm.trans hright.2⟩

theorem Indistinct.steady (h : Indistinct w v) (hw : w.cancellation.Steady) :
    v.cancellation.Steady := by
  rw [← uncounted_steady, ← h]
  exact hw

theorem Indistinct.toldToStop (h : Indistinct w v) (hw : w.cancellation.Steady) :
    v.toldToStop = w.toldToStop := by
  rw [← toldToStop_uncounted hw, h, toldToStop_uncounted (h.steady hw)]

end World

/-! ## Runs -/

namespace Flow

variable {α : Type} {env : Environment}

theorem run_snd (f : Flow α) (w : World) :
    (f.run env w).2 = w.replay env (f.trace env w) := by
  induction f generalizing w with
  | done r => rfl
  | starved => rfl
  | pause rest ih => exact ih () w
  | act a next ih => exact ih _ _

/-- In the trace of a run every action has the answer of its moment. -/
theorem answer_of_trace {f : Flow α} {w : World} {before after : List Mark} {a : Action}
    {x : a.Answer} (h : f.trace env w = before ++ .did a x :: after) :
    x = ((w.replay env before).perform env a).1 := by
  induction f generalizing w before with
  | done r => simp [trace] at h
  | starved => simp [trace] at h
  | pause rest ih =>
    cases before with
    | nil => simp [trace] at h
    | cons m before =>
      obtain ⟨rfl, hrest⟩ := List.cons.inj h
      have hanswer := ih () hrest
      exact hanswer
  | act b next ih =>
    cases before with
    | nil =>
      obtain ⟨hmark, -⟩ := List.cons.inj h
      cases hmark
      rfl
    | cons m before =>
      obtain ⟨rfl, hrest⟩ := List.cons.inj h
      have hanswer := ih _ hrest
      exact hanswer

/-- Where a poll is answered with no, there has been no stop before. -/
theorem not_told_of_poll {f : Flow α} {w : World} (hw : w.cancellation.Steady)
    {before between after : List Mark}
    (h : f.trace env w = before ++ between ++ .did .poll false :: after) :
    (w.replay env before).toldToStop = false := by
  have hanswer := answer_of_trace h
  have hsteady := (World.onward_replay env hw before).1
  have hstays := (World.onward_replay env hsteady between).2
  rw [World.replay_append, World.perform_poll_fst] at hanswer
  rw [← Bool.not_eq_true]
  intro hstop
  rw [hstays hstop] at hanswer
  cases hanswer

/-- In worlds that differ in the number of polls only, a flow does the same. -/
theorem run_indistinct (env : Environment) (f : Flow α) {w v : World} (h : World.Indistinct w v)
    (hw : w.cancellation.Steady) : f.trace env w = f.trace env v ∧
      (f.run env w).1 = (f.run env v).1 ∧
      World.Indistinct (f.run env w).2 (f.run env v).2 := by
  induction f generalizing w v with
  | done r => exact ⟨rfl, rfl, h⟩
  | starved => exact ⟨rfl, rfl, h⟩
  | pause rest ih =>
    obtain ⟨htrace, hrun⟩ := ih () h hw
    exact ⟨congrArg (Mark.paused :: ·) htrace, hrun⟩
  | act a next ih =>
    have hstep := h.perform env hw (h.steady hw) a
    have hnext := ih (w.perform env a).1 hstep.2 ((World.onward_perform env w a).steady hw)
    rw [hstep.1] at hnext
    refine ⟨?_, ?_⟩
    · rw [trace, trace, hstep.1, hnext.1]
    · rw [run, run, hstep.1]
      exact hnext.2

end Flow

end WorkflowEngine
