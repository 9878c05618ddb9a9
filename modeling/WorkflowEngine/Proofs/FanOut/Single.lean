import WorkflowEngine.Proofs.FanOut.Stop

/-!
# A single task, with and without workers

A fan-out with one task is run without workers. Workers would do the same, except that they ask once
more whether to stop before the task, and once more after its progress has been reported
(`FanOut.viaWorkers_single`).

**Theorem (`FanOut.obeys_steady_stop`).** A stop that stays ends a fan-out: no task is started and
no progress is reported any more, and the outcome is a fault, except when a single task has
already been reported. For a single task the way without workers leaves the same log and has the
same outcome as the way with them, with the same exception.
-/

namespace WorkflowEngine

namespace FanOut

variable {α : Type}

/-! ## Workers for any number of tasks -/

/-- Runs tasks with workers, however many tasks there are. -/
def viaWorkers (fuel : Nat) (tasks : List (Flow α)) (cap : Nat) (report : Report) :
    Flow (List α) := do
  Flow.check
  let (workers, board) := start tasks cap
  let slots ← rounds report fuel workers board
  match slots.mapM id with
  | some results => return results
  | none => Flow.fail (.other "fan-out finished with unfilled result slots")

theorem run_eq_viaWorkers (fuel : Nat) {tasks : List (Flow α)} (h : 2 ≤ tasks.length) (cap : Nat)
    (report : Report) : run fuel tasks cap report = viaWorkers fuel tasks cap report := by
  match tasks with
  | [] => cases h
  | [task] => exact absurd h (by simp)
  | _ :: _ :: _ => rfl

end FanOut

/-- However it is answered, the flow pauses at most so often. -/
inductive Flow.Within {α : Type} : Nat → Flow α → Prop
  | done {n : Nat} (r : Except Fault α) : Within n (.done r)
  | starved {n : Nat} : Within n .starved
  | pause {n : Nat} {rest : Unit → Flow α} : Within n (rest ()) → Within (n + 1) (.pause rest)
  | act {n : Nat} {a : Action} {next : a.Answer → Flow α} :
      (∀ x, Within n (next x)) → Within n (.act a next)

namespace FanOut

variable {α : Type}

/-- A worker that has claimed a task goes on like one that has taken it up again. -/
theorem claim_cons (report : Report) (tally : Tally α) (task : Flow α) (i : Nat)
    (waiting : List (Flow α × Nat)) : claim report tally ((task, i) :: waiting) =
      Flow.check.bind fun _ => turn report (.busy i task) ⟨waiting, tally⟩ := rfl

theorem rounds_single (report : Report) (fuel : Nat) (w : Worker α) (b : Board α) :
    rounds report (fuel + 1) [w] b = (turn report w b).bind fun p =>
      if p.1.isFinished then .done (.ok p.2.tally.slots)
      else .pause fun _ => rounds report fuel [p.1] p.2 := by
  show Flow.bind (Flow.bind (turn report w b) _) _ = _
  rw [Flow.bind_assoc]
  refine congrArg _ (funext fun p => ?_)
  show (if [p.1].all Worker.isFinished then _ else _) = _
  rw [List.all_cons, List.all_nil, Bool.and_true]
  rfl

/-- A worker that has no task any more asks whether to stop, and is finished. -/
theorem finishes_after_check (report : Report) (fuel : Nat) (tally : Tally α) :
    ((claim report tally []).bind fun p =>
      if p.1.isFinished then .done (.ok p.2.tally.slots)
      else .pause fun _ => rounds report fuel [p.1] p.2) =
    Flow.check.bind fun _ => .done (.ok tally.slots) := by
  show Flow.bind (Flow.bind Flow.check _) _ = _
  rw [Flow.bind_assoc]
  rfl

/-- One worker brings the last task to its end, with a pause wherever the task pauses. -/
theorem rounds_busy (report : Report) (i : Nat) (tally : Tally α) {f : Flow α} {n fuel : Nat}
    (hf : f.Within n) (hfuel : n < fuel) : rounds report fuel [.busy i f] ⟨[], tally⟩ =
      f.bind fun a => (tally.settle report i a).bind fun tally =>
        Flow.check.bind fun _ => .done (.ok tally.slots) := by
  induction hf generalizing fuel with
  | done r =>
    obtain ⟨fuel, rfl⟩ := Nat.exists_eq_succ_of_ne_zero (Nat.ne_zero_of_lt hfuel)
    cases r with
    | error e => rfl
    | ok a =>
      rw [rounds_single]
      show Flow.bind (Flow.bind (tally.settle report i a) fun t => claim report t []) _ = _
      rw [Flow.bind_assoc]
      exact congrArg _ (funext fun t => finishes_after_check report fuel t)
  | starved =>
    obtain ⟨fuel, rfl⟩ := Nat.exists_eq_succ_of_ne_zero (Nat.ne_zero_of_lt hfuel)
    rfl
  | pause _ ih =>
    obtain ⟨fuel, rfl⟩ := Nat.exists_eq_succ_of_ne_zero (Nat.ne_zero_of_lt hfuel)
    exact congrArg Flow.pause (funext fun _ => ih (Nat.lt_of_succ_lt_succ hfuel))
  | act _ ih =>
    obtain ⟨fuel, rfl⟩ := Nat.exists_eq_succ_of_ne_zero (Nat.ne_zero_of_lt hfuel)
    exact congrArg (Flow.act _) (funext fun x => ih x hfuel)

theorem settle_only (report : Report) (a : α) :
    (((⟨[none], 0⟩ : Tally α).settle report 0 a).bind fun tally =>
      Flow.check.bind fun _ => (.done (.ok tally.slots) : Flow (List (Option α)))).bind
        (fun slots => match slots.mapM id with
          | some results => Flow.done (.ok results)
          | none => Flow.fail (.other "fan-out finished with unfilled result slots")) =
    ((⟨[none], 0⟩ : Tally α).settle report 0 a).bind fun _ =>
      Flow.check.bind fun _ => .done (.ok [a]) := by
  show Flow.bind (Flow.bind (Flow.bind Flow.check _) _) _ = Flow.bind (Flow.bind Flow.check _) _
  rw [Flow.bind_assoc, Flow.bind_assoc, Flow.bind_assoc]
  refine congrArg (Flow.bind _) (funext fun _ => ?_)
  show Flow.bind (Flow.bind (report _) _) _ = Flow.bind (Flow.bind (report _) _) _
  rw [Flow.bind_assoc, Flow.bind_assoc]
  refine congrArg (Flow.bind _) (funext fun _ => ?_)
  show Flow.bind (Flow.bind Flow.check _) _ = _
  rw [Flow.bind_assoc]
  rfl

/-- **What workers do with a single task.** -/
theorem viaWorkers_single {task : Flow α} {n fuel : Nat} (htask : task.Within n) (hfuel : n < fuel)
    (cap : Nat) (report : Report) : viaWorkers fuel [task] cap report =
      Flow.check.bind fun _ => Flow.check.bind fun _ => task.bind fun a =>
        ((⟨[none], 0⟩ : Tally α).settle report 0 a).bind fun _ =>
          Flow.check.bind fun _ => .done (.ok [a]) := by
  have hone : workerCount cap [task].length = 1 := by
    unfold workerCount
    simp only [List.length_cons, List.length_nil]
    omega
  have hstart : start [task] cap = ([.idle], ⟨[(task, 0)], ⟨[none], 0⟩⟩) := by
    unfold start
    rw [hone]
    rfl
  obtain ⟨fuel, rfl⟩ := Nat.exists_eq_succ_of_ne_zero (Nat.ne_zero_of_lt hfuel)
  have hrounds : rounds report (fuel + 1) [.idle] ⟨[(task, 0)], ⟨[none], 0⟩⟩ =
      Flow.check.bind fun _ => task.bind fun a =>
        ((⟨[none], 0⟩ : Tally α).settle report 0 a).bind fun tally =>
          Flow.check.bind fun _ => .done (.ok tally.slots) := by
    rw [rounds_single]
    show Flow.bind (claim report ⟨[none], 0⟩ [(task, 0)]) _ = _
    rw [claim_cons, Flow.bind_assoc]
    refine congrArg _ (funext fun _ => ?_)
    rw [← rounds_single, rounds_busy report 0 _ htask hfuel]
  unfold viaWorkers
  rw [hstart]
  refine congrArg (Flow.bind Flow.check) (funext fun _ => ?_)
  show Flow.bind (rounds report (fuel + 1) [.idle] ⟨[(task, 0)], ⟨[none], 0⟩⟩) _ = _
  rw [hrounds, Flow.bind_assoc]
  refine congrArg _ (funext fun _ => ?_)
  rw [Flow.bind_assoc]
  refine congrArg _ (funext fun a => ?_)
  exact settle_only report a

theorem viaWorkers_eq_run {task : Flow α} {n fuel : Nat} (htask : task.Within n) (hfuel : n < fuel)
    (cap : Nat) (report : Report) : ∃ f : Flow (List α),
      run fuel [task] cap report = Flow.check.bind (fun _ => f) ∧
      viaWorkers fuel [task] cap report = Flow.check.bind fun _ => Flow.check.bind fun _ =>
        f.bind fun vs => Flow.check.bind fun _ => .done (.ok vs) := by
  refine ⟨_, run_single fuel task cap report, ?_⟩
  rw [viaWorkers_single htask hfuel]
  refine congrArg _ (funext fun _ => congrArg _ (funext fun _ => ?_))
  rw [Flow.bind_assoc]
  refine congrArg _ (funext fun a => ?_)
  rw [Flow.bind_assoc]
  rfl

end FanOut

/-! ## Questions whether to stop -/

namespace Flow

variable {α β : Type} {env : Environment} {w : World}

theorem check_of_told (env : Environment) (hstop : w.toldToStop = true) (k : Unit → Flow α) :
    (check.bind k).run env w = (.ended (.error .cancelled), (w.perform env .poll).2) ∧
      Log.of ((check.bind k).trace env w) = [] := by
  have hpoll : (w.perform env .poll).1 = true := hstop
  unfold check
  refine ⟨?_, ?_⟩
  · rw [Flow.bind, Flow.run, hpoll]
    rfl
  · rw [Flow.bind, Flow.trace, hpoll]
    rfl

theorem check_of_not_told (env : Environment) (hstop : w.toldToStop = false)
    (k : Unit → Flow α) : (check.bind k).run env w = (k ()).run env (w.perform env .poll).2 ∧
      Log.of ((check.bind k).trace env w) =
        Log.of ((k ()).trace env (w.perform env .poll).2) := by
  have hpoll : (w.perform env .poll).1 = false := hstop
  unfold check
  refine ⟨?_, ?_⟩
  · rw [Flow.bind, Flow.run, hpoll]
    rfl
  · rw [Flow.bind, Flow.trace, hpoll]
    rfl

/-- The run has a result, although a stop has been made by its end. -/
def EndsUnderStop (env : Environment) (w : World) (f : Flow α) : Prop :=
  (f.run env w).2.toldToStop = true ∧ ∃ a, (f.run env w).1 = .ended (.ok a)

/-- From these worlds, the second flow leaves the same log as the first. It has the same outcome,
except that it does not end with a result under a stop. -/
structure Agrees (env : Environment) (w v : World) (f g : Flow α) : Prop where
  log : Log.of (g.trace env v) = Log.of (f.trace env w)
  late : f.EndsUnderStop env w → (g.run env v).1 = .ended (.error .cancelled)
  same : ¬f.EndsUnderStop env w → (g.run env v).1 = (f.run env w).1

/-- One more question at the end changes the outcome only where there is a result under a stop. -/
theorem agrees_check (f : Flow α) (w : World) :
    Agrees env w w f (f.bind fun a => check.bind fun _ => .done (.ok a)) := by
  suffices h : ∀ p, f.run env w = p →
      Agrees env w w f (f.bind fun a => check.bind fun _ => .done (.ok a)) from h _ rfl
  intro p hrun
  obtain ⟨o, v⟩ := p
  match o with
  | .starved =>
    refine ⟨?_, fun hlate => ?_, fun _ => ?_⟩
    · rw [trace_bind, hrun, List.append_nil]
    · obtain ⟨-, a, ha⟩ := hlate
      rw [hrun] at ha
      cases ha
    · rw [run_bind, hrun]
      rfl
  | .ended (.error e) =>
    refine ⟨?_, fun hlate => ?_, fun _ => ?_⟩
    · rw [trace_bind, hrun, List.append_nil]
    · obtain ⟨-, a, ha⟩ := hlate
      rw [hrun] at ha
      cases ha
    · rw [run_bind, hrun]
      rfl
  | .ended (.ok a) =>
    by_cases hstop : v.toldToStop = true
    · have hcheck := check_of_told env hstop fun _ => .done (.ok a)
      refine ⟨?_, fun _ => ?_, fun hnot => absurd ?_ hnot⟩
      · rw [trace_bind, hrun, Log.of_append, hcheck.2, List.append_nil]
      · rw [run_bind, hrun]
        exact congrArg Prod.fst hcheck.1
      · rw [EndsUnderStop, hrun]
        exact ⟨hstop, a, rfl⟩
    · rw [Bool.not_eq_true] at hstop
      have hcheck := check_of_not_told env hstop fun _ => .done (.ok a)
      refine ⟨?_, fun hlate => ?_, fun _ => ?_⟩
      · rw [trace_bind, hrun, Log.of_append, hcheck.2]
        exact List.append_nil _
      · have htold := hlate.1
        rw [hrun, hstop] at htold
        cases htold
      · rw [run_bind, hrun]
        show ((check.bind _).run env v).1 = _
        rw [hcheck.1]
        rfl

theorem Agrees.of_indistinct {f g : Flow α} {v v' : World} (h : Agrees env v v' f g)
    (hwv : World.Indistinct w v) (hw : w.cancellation.Steady) : Agrees env w v' f g := by
  obtain ⟨htrace, houtcome, hworld⟩ := run_indistinct env f hwv hw
  have hsteady : (f.run env w).2.cancellation.Steady := by
    rw [run_snd]
    exact (World.onward_replay env hw _).1
  have hlate : f.EndsUnderStop env v ↔ f.EndsUnderStop env w := by
    unfold EndsUnderStop
    rw [houtcome, hworld.toldToStop hsteady]
  refine ⟨?_, fun h' => h.late (hlate.2 h'), fun h' => ?_⟩
  · rw [htrace]
    exact h.log
  · rw [houtcome]
    exact h.same fun hv => h' (hlate.1 hv)

end Flow

namespace Job

variable {α : Type}

theorem within_closing (job : Job α) (i : Nat) {n : Nat} {body : Flow Unit} (h : body.Tame n) :
    (job.closing i body).Within n := by
  induction h with
  | done _ =>
    refine .act fun _ => ?_
    show (Flow.ofExcept job.outcome).Within _
    cases job.outcome with
    | ok v => exact .done _
    | error e => exact .act fun _ => .done _
  | pause _ ih => exact .pause ih
  | act _ _ ih => exact .act ih

theorem within_flow (job : Job α) (i : Nat) : (job.flow i).Within job.pauses :=
  .act fun _ => job.within_closing i job.tame

end Job

namespace FanOut

variable {α : Type} {env : Environment} {w : World}

/-- **A single task needs no workers.** Workers leave the same log, and the outcome differs only
where the task had a value and then, after the last question whether to stop, a stop was made. -/
theorem viaWorkers_agrees {task : Flow α} {n fuel : Nat} (htask : task.Within n)
    (hfuel : n < fuel) (cap : Nat) (report : Report) (hw : w.cancellation.Steady) :
    Flow.Agrees env w w (run fuel [task] cap report) (viaWorkers fuel [task] cap report) := by
  obtain ⟨f, halone, hvia⟩ := viaWorkers_eq_run htask hfuel cap report
  rw [halone, hvia]
  by_cases hstop : w.toldToStop = true
  · have halone := Flow.check_of_told env hstop fun _ => f
    have hvia := Flow.check_of_told env hstop fun _ => Flow.check.bind fun _ =>
      f.bind fun vs => Flow.check.bind fun _ => .done (.ok vs)
    refine ⟨hvia.2.trans halone.2.symm, fun _ => ?_, fun _ => ?_⟩
    · rw [hvia.1]
    · rw [hvia.1, halone.1]
  · rw [Bool.not_eq_true] at hstop
    have hpolled : (w.perform env .poll).2.toldToStop = false := by
      rw [World.toldToStop_poll hw, hstop]
    have hagrees : Flow.Agrees env (w.perform env .poll).2
        ((w.perform env .poll).2.perform env .poll).2 f
        (f.bind fun vs => Flow.check.bind fun _ => .done (.ok vs)) :=
      (Flow.agrees_check f _).of_indistinct World.uncounted_poll.symm
        ((World.onward_perform env w .poll).steady hw)
    have halone := Flow.check_of_not_told env hstop fun _ => f
    have hfirst := Flow.check_of_not_told env hstop fun _ => Flow.check.bind fun _ =>
      f.bind fun vs => Flow.check.bind fun _ => .done (.ok vs)
    have hsecond := Flow.check_of_not_told env hpolled fun _ =>
      f.bind fun vs => Flow.check.bind fun _ => .done (.ok vs)
    refine ⟨?_, fun hlate => ?_, fun hnot => ?_⟩
    · rw [hfirst.2, hsecond.2, halone.2]
      exact hagrees.log
    · rw [Flow.EndsUnderStop, halone.1] at hlate
      rw [hfirst.1, hsecond.1]
      exact hagrees.late hlate
    · rw [Flow.EndsUnderStop, halone.1] at hnot
      rw [hfirst.1, hsecond.1, halone.1]
      exact hagrees.same hnot

/-- **Nothing begins after a stop.** Take any tasks, limit on workers and world, and a stop that
stays, made at any moment. After that moment no task is started and no progress is reported. The
fan-out ends with the fault of cancellation or with the fault of a task that was in flight at that
moment. The only exception is a single task whose progress has been reported by then: it ends with
its value. A single task leaves the same log without workers as with them, and has the same outcome,
with the same exception: workers would end it with the fault of cancellation. -/
theorem obeys_steady_stop {jobs : List (Job α)} (hsome : jobs ≠ []) (cap : Nat) (r : Reporter)
    {fuel : Nat} (hfuel : Job.allPauses jobs < fuel) (env : Environment) {w : World}
    (hw : w.cancellation.Steady) :
    let flow := run fuel (Job.flows jobs) cap r.report
    (∀ before after, flow.trace env w = before ++ after →
      (w.replay env before).toldToStop = true →
      (Log.of after).starts = [] ∧ (Log.of after).reports = [] ∧
      (¬Late jobs (Log.of before) → Stopped jobs (Log.of before) (flow.run env w).1) ∧
      (Late jobs (Log.of before) → ∃ vs, jobs.map Job.outcome = vs.map .ok ∧
        (flow.run env w).1 = .ended (.ok vs))) ∧
    (jobs.length = 1 →
      Flow.Agrees env w w flow (viaWorkers fuel (Job.flows jobs) cap r.report)) := by
  intro flow
  refine ⟨fun before after h hstop => ?_, fun hone => ?_⟩
  · have hlawful := ((run_follows fuel jobs cap r).goes .nil (flow.goes_trace env w)).1
    rw [List.nil_append] at hlawful
    have hsilent := silent_after_stop hlawful hw h hstop
    exact ⟨hsilent.1, hsilent.2, stopped_or_late hsome hfuel hw h hstop⟩
  · obtain ⟨job, rfl⟩ := List.length_eq_one_iff.1 hone
    have hpauses : job.pauses < fuel := by simpa [Job.allPauses] using hfuel
    exact viaWorkers_agrees (job.within_flow 0) hpauses cap r.report hw

/-- A rule that says to stop once the journal has so many entries stays. -/
theorem fromEntry_steady (n : Nat) :
    ({ rule := some (Cancellation.fromEntry n) } : Cancellation).Steady := by
  intro rule hrule _ _ journal longer hlonger hsays
  cases hrule
  have hlength := hlonger.length_le
  simp only [Cancellation.fromEntry, decide_eq_true_eq] at hsays ⊢
  omega

/-- The report of progress of a single task is the entry at which it is said to stop. -/
theorem single_task_stopped_late :
    [Job.waiting 1 (.ok 7)] ≠ [] ∧ Job.allPauses [Job.waiting 1 (.ok 7)] < 2 ∧
    ({ rule := some (Cancellation.fromEntry 3) } : Cancellation).Steady ∧
    ((viaWorkers 2 (Job.flows [Job.waiting 1 (.ok 7)]) 1 Reporter.plain.report).run {}
      { cancellation := { rule := some (Cancellation.fromEntry 3) } }).1 =
        .ended (.error .cancelled) ∧
    ∃ vs, [Job.waiting 1 (.ok 7)].map Job.outcome = vs.map .ok ∧
      ((run 2 (Job.flows [Job.waiting 1 (.ok 7)]) 1 Reporter.plain.report).run {}
        { cancellation := { rule := some (Cancellation.fromEntry 3) } }).1 = .ended (.ok vs) := by
  have hsome : [Job.waiting 1 (.ok 7)] ≠ [] := List.cons_ne_nil _ _
  have hfuel : Job.allPauses [Job.waiting 1 (.ok 7)] < 2 := by decide
  let w : World := { cancellation := { rule := some (Cancellation.fromEntry 3) } }
  have hw : w.cancellation.Steady := fromEntry_steady 3
  have hstop := obeys_steady_stop hsome 1 Reporter.plain hfuel {} hw
  have hlate : (run 2 (Job.flows [Job.waiting 1 (.ok 7)]) 1 Reporter.plain.report).EndsUnderStop
      {} w := ⟨rfl, [7], rfl⟩
  -- The moment of the stop is the report; here, the end of the run.
  obtain ⟨-, -, -, hvalue⟩ := hstop.1 _ [] (List.append_nil _).symm rfl
  exact ⟨hsome, hfuel, hw, (hstop.2 rfl).late hlate, hvalue ⟨rfl, by decide⟩⟩

end FanOut

end WorkflowEngine
