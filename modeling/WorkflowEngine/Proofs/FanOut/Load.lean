import WorkflowEngine.Proofs.FanOut.Results

/-!
# The load of a fan-out

**Theorem (`FanOut.keeps_workers_busy`).** A fan-out never has more tasks in flight than it has
workers, and whenever it waits, every worker has a task that waits, unless fewer tasks than
workers are left. So if all tasks wait before they end, all workers are in use at some moment.

Both halves are read off the rule: a task is started only while fewer are in flight, and all may
wait only with so many tasks in flight. The last sentence needs the first pause of a run, before
which no task can have ended.
-/

namespace WorkflowEngine

namespace FanOut

variable {α : Type} {jobs : List (Job α)} {workers : Nat} {t : List Mark} {r : Reporter}

theorem inFlight_le (h : (rule jobs workers).Lawful t) : (Log.of t).inFlight ≤ workers := by
  unfold Log.inFlight
  rcases log_cases h with hregular | ⟨l, i, hl, -, -, heq⟩
  · have hload := hregular.load
    omega
  · have hload := hl.load
    rw [heq]
    simp only [Log.settled, Log.starts_append, Log.starts_finish, Log.starts_nil,
      Log.reports_append, Log.reports_finish, Log.reports_nil, List.append_nil] at hload ⊢
    omega

/-- Progress is reported only of tasks that have ended. -/
theorem settled_le_finishes (h : (rule jobs workers).Lawful t) :
    (Log.of t).settled ≤ (Log.of t).finishes.length := by
  rcases log_cases h with hregular | ⟨l, i, hl, -, -, heq⟩
  · exact Nat.le_of_eq hregular.finished.symm
  · have hfinished := hl.finished
    rw [heq]
    simp [Log.settled] at hfinished ⊢
    omega

/-- Where all wait, the tasks that run are the tasks in flight. -/
theorem running_of_mayPause (h : MayPause jobs workers t) :
    (Log.of t).running = min workers (jobs.length - (Log.of t).settled) := by
  rw [← h.2]
  unfold Log.running Log.inFlight
  rw [h.1]

/-- If all tasks wait before they end, none ends before the first pause. -/
theorem finishes_eq_nil (hall : ∀ job ∈ jobs, job.body.Suspends)
    (h : (rule jobs workers).Lawful t) (hpaused : .paused ∉ t) : (Log.of t).finishes = [] := by
  induction h with
  | nil => rfl
  | @snoc t m _ hm ih =>
    have hbefore : Mark.paused ∉ t := fun hmem => hpaused (List.mem_append_left _ hmem)
    rw [Log.of_append, Log.finishes_append, ih hbefore, List.nil_append]
    cases m with
    | paused => rfl
    | did a x =>
      cases hentry : a.entry? with
      | none => rw [Log.of_did hentry, Log.finishes_nil]
      | some e =>
        have hpermits := hm e hentry
        cases e with
        | start i => simp [Log.of, Mark.entry?, hentry]
        | progress p => simp [Log.of, Mark.entry?, hentry]
        | finish i => exact absurd (hpermits.2.2.2 hall) hbefore

/-- If all tasks wait before they end, all workers are in use at the first pause. -/
theorem full_at_first_pause (hall : ∀ job ∈ jobs, job.body.Suspends)
    (hworkers : workers ≤ jobs.length) (h : (rule jobs workers).Lawful t)
    (hpaused : .paused ∈ t) : ∃ before after, t = before ++ after ∧
      (Log.of before).inFlight = workers := by
  obtain ⟨before, after, rfl, hfirst⟩ := List.eq_append_cons_of_mem hpaused
  have hpause : MayPause jobs workers before := h.allowed
  have hnone := finishes_eq_nil hall h.of_append hfirst
  have hsettled : (Log.of before).settled = 0 := by
    rw [← hpause.1, hnone]
    rfl
  refine ⟨before, _, rfl, ?_⟩
  rw [hpause.2, hsettled, Nat.sub_zero, Nat.min_eq_left hworkers]

theorem paused_mem (hall : ∀ job ∈ jobs, job.body.Suspends)
    (h : (rule jobs workers).Lawful t) {i : Nat} (hi : .finish i ∈ Log.of t) : .paused ∈ t := by
  by_cases hpaused : Mark.paused ∈ t
  · exact hpaused
  · have hnone := finishes_eq_nil hall h hpaused
    rw [← Log.mem_finishes, hnone] at hi
    cases hi

theorem finish_mem {fuel : Nat} {o : Outcome (List α)} (h : (rule jobs workers).Lawful t)
    (hends : Flow.Ending (Fails jobs) (fuel ≤ Job.allPauses jobs) (Results jobs) t o)
    (hfuel : Job.allPauses jobs < fuel) (hstop : t.any Mark.tellsToStop = false)
    (hsome : jobs.length ≠ 0) : ∃ i, .finish i ∈ Log.of t := by
  rcases ending_cases hends hfuel hstop with ⟨vs, -, hresults⟩ | ⟨e, i, job, s, -, -, -, rfl⟩
  · have hle := settled_le_finishes h
    rw [hresults.settled] at hle
    obtain ⟨i, hi⟩ := List.exists_mem_of_length_pos (Nat.lt_of_lt_of_le (by omega) hle)
    exact ⟨i, Log.mem_finishes.1 hi⟩
  · refine ⟨i, ?_⟩
    rw [List.append_cons, Log.of_append, Log.of_append, Log.of_entry]
    simp

/-- **Workers are kept busy, and they are never too many.** Whatever the tasks and the limit on
workers, and however the world answers: at no moment are more tasks in flight than there are
workers; and at every pause so many tasks wait that each worker has one, or all tasks that have not
settled do. So the most that are ever in flight are exactly as many as there are workers, if every
task waits before it ends and nothing is told to stop. -/
theorem keeps_workers_busy (fuel : Nat) (jobs : List (Job α)) (cap : Nat) (r : Reporter) :
    let workers := workerCount cap jobs.length
    let flow := run fuel (Job.flows jobs) cap r.report
    (∀ t g, flow.Goes t g → (Log.of t).inFlight ≤ workers) ∧
    (∀ t g, flow.Goes (t ++ [.paused]) g →
      (Log.of t).running = min workers (jobs.length - (Log.of t).settled)) ∧
    (Job.allPauses jobs < fuel → (∀ job ∈ jobs, job.body.Suspends) →
      ∀ env w, (flow.trace env w).any Mark.tellsToStop = false →
        ∃ before after, flow.trace env w = before ++ after ∧
          (Log.of before).inFlight = workers) := by
  intro workers flow
  have hfollows := run_follows fuel jobs cap r
  refine ⟨fun t g hgoes => inFlight_le (hfollows.goes .nil hgoes).1, ?_, ?_⟩
  · intro t g hgoes
    have hlawful := (hfollows.goes .nil hgoes).1
    exact running_of_mayPause hlawful.allowed
  · intro hfuel hall env w hstop
    have hgoes := flow.goes_trace env w
    have hlawful : (rule jobs workers).Lawful (flow.trace env w) := (hfollows.goes .nil hgoes).1
    have hworkers : workers ≤ jobs.length := Nat.min_le_right _ _
    by_cases hnone : jobs.length = 0
    · refine ⟨[], _, rfl, ?_⟩
      exact (Nat.le_zero.1 (hnone ▸ hworkers)).symm
    · refine full_at_first_pause hall hworkers hlawful ?_
      obtain ⟨i, hi⟩ := finish_mem hlawful (hfollows.ends hgoes) hfuel hstop hnone
      exact paused_mem hall hlawful hi

/-- Three tasks for two workers, of which every one waits. -/
def waitingTasks : List (Job Nat) := [.waiting 1 (.ok 7), .waiting 3 (.ok 8), .waiting 2 (.ok 9)]

/-- Two of three tasks are in flight at some moment, and never three. -/
theorem load_of_two_workers :
    Job.allPauses waitingTasks < 7 ∧ (∀ job ∈ waitingTasks, job.body.Suspends) ∧
    ((run 7 (Job.flows waitingTasks) 2 Reporter.plain.report).trace {} {}).any Mark.tellsToStop =
      false ∧
    (∃ before after,
      (run 7 (Job.flows waitingTasks) 2 Reporter.plain.report).trace {} {} = before ++ after ∧
        (Log.of before).inFlight = 2) ∧
    ∀ t g, (run 7 (Job.flows waitingTasks) 2 Reporter.plain.report).Goes t g →
      (Log.of t).inFlight ≤ 2 := by
  have hfuel : Job.allPauses waitingTasks < 7 := by decide
  have hall : ∀ job ∈ waitingTasks, job.body.Suspends := by
    intro job hjob
    simp only [waitingTasks, List.mem_cons, List.not_mem_nil, or_false] at hjob
    rcases hjob with rfl | rfl | rfl <;> exact .pause _
  have hstop : ((run 7 (Job.flows waitingTasks) 2 Reporter.plain.report).trace {} {}).any
      Mark.tellsToStop = false := rfl
  have hload := keeps_workers_busy 7 waitingTasks 2 Reporter.plain
  exact ⟨hfuel, hall, hstop, hload.2.2 hfuel hall {} {} hstop, hload.1⟩

end FanOut

end WorkflowEngine
