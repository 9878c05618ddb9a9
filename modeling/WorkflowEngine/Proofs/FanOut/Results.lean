import WorkflowEngine.Proofs.FanOut.Rounds

/-!
# Results of fan-outs

**Theorem (`FanOut.completes_or_first_failure`).** A fan-out that is not told to stop comes to its
end. It starts its tasks in their order. If all of them have values, it gives these values in their
order, after one report for each of them; otherwise it gives the fault of the task that failed
first, and that task's end is the last that is heard of it.

The rule of a fan-out says when an entry may be written, so a lawful trace leaves a log of a simple
form: it grows by a start, or by an end and a report together (`Log.Regular`); only the end of a
task that fails, or that ends when the whole is told to stop, stays without a report
(`FanOut.log_cases`). What a log of this form says is proved by induction on the form.
-/

namespace WorkflowEngine

variable {α : Type}

/-! ## The form of a log -/

/-- The log of a fan-out between two tasks: they are started in their order, while a worker is free;
when one ends, it has a value, and this is reported. -/
inductive Log.Regular (jobs : List (Job α)) (workers : Nat) : Log → Prop
  | nil : Regular jobs workers []
  | start {l : Log} : Regular jobs workers l → l.starts.length < jobs.length →
      l.starts.length < l.settled + workers → Regular jobs workers (l ++ [.start l.starts.length])
  | settle {l : Log} {i : Nat} {job : Job α} {v : α} : Regular jobs workers l →
      .start i ∈ l → .finish i ∉ l → jobs[i]? = some job → job.outcome = .ok v →
      Regular jobs workers (l ++ [.finish i] ++ [.progress ⟨l.settled + 1, jobs.length⟩])

namespace Log.Regular

variable {jobs : List (Job α)} {workers : Nat} {l : Log}

theorem starts (h : Regular jobs workers l) : l.starts = List.range l.starts.length := by
  induction h with
  | nil => rfl
  | @start l _ _ _ ih =>
    have hsucc : (l ++ [Entry.start l.starts.length]).starts.length = l.starts.length + 1 := by
      simp
    rw [hsucc, List.range_succ, ← ih]
    simp
  | @settle l i _ _ _ _ _ _ _ ih =>
    have hsame : (l ++ [Entry.finish i] ++
        [Entry.progress ⟨l.settled + 1, jobs.length⟩]).starts = l.starts := by simp
    rw [hsame]
    exact ih

theorem started (h : Regular jobs workers l) : l.starts.length ≤ jobs.length := by
  induction h with
  | nil => exact Nat.zero_le _
  | start _ hlt _ _ =>
    rw [starts_append, List.length_append]
    exact hlt
  | settle _ _ _ _ _ ih => simpa using ih

theorem lt_of_start_mem (h : Regular jobs workers l) {i : Nat} (hi : .start i ∈ l) :
    i < jobs.length := by
  rw [← mem_starts, h.starts, List.mem_range] at hi
  exact Nat.lt_of_lt_of_le hi h.started

/-- Never are more tasks in flight than there are workers. -/
theorem load (h : Regular jobs workers l) : l.starts.length ≤ l.settled + workers := by
  induction h with
  | nil => exact Nat.zero_le _
  | start _ _ hfree _ =>
    simp only [starts_append, settled, reports_append, List.length_append]
    exact hfree
  | settle _ _ _ _ _ ih =>
    simp only [settled, starts_append, reports_append, starts_finish, starts_progress, starts_nil,
      reports_finish, reports_progress, reports_nil, List.append_nil, List.length_append,
      List.length_cons, List.length_nil] at ih ⊢
    omega

/-- The reports count the tasks, one by one. -/
theorem reports (h : Regular jobs workers l) :
    l.reports = (List.range l.settled).map fun n => ⟨n + 1, jobs.length⟩ := by
  induction h with
  | nil => rfl
  | start _ _ _ ih => simpa [settled] using ih
  | @settle l i _ _ _ _ _ _ _ ih =>
    have hsucc : (l ++ [Entry.finish i] ++
        [Entry.progress ⟨l.settled + 1, jobs.length⟩]).settled = l.settled + 1 := by
      simp [settled]
    rw [hsucc, List.range_succ, List.map_append, ← ih]
    simp

theorem finished (h : Regular jobs workers l) : l.finishes.length = l.settled := by
  induction h with
  | nil => rfl
  | start _ _ _ ih => simpa [settled] using ih
  | settle _ _ _ _ _ ih => simpa [settled] using ih

theorem start_mem (h : Regular jobs workers l) {i : Nat} (hi : .finish i ∈ l) : .start i ∈ l := by
  induction h with
  | nil => cases hi
  | start _ _ _ ih => simpa using Or.inl (ih (by simpa using hi))
  | settle _ hstart _ _ _ ih =>
    rcases (by simpa using hi : _ ∨ _) with hi | rfl
    · simpa using ih hi
    · simpa using hstart

theorem nodup_finishes (h : Regular jobs workers l) : l.finishes.Nodup := by
  induction h with
  | nil => exact .nil
  | start _ _ _ ih => simpa using ih
  | settle _ _ hnew _ _ ih =>
    have happend := List.nodup_append.2 ⟨ih, List.pairwise_singleton _ _, by
      rintro a ha b hb rfl
      rw [List.mem_singleton.1 hb, mem_finishes] at ha
      exact hnew ha⟩
    simpa using happend

theorem value (h : Regular jobs workers l) {i : Nat} (hi : i ∈ l.finishes) :
    ∃ job v, jobs[i]? = some job ∧ job.outcome = .ok v := by
  induction h with
  | nil => cases hi
  | start _ _ _ ih => exact ih (by simpa using hi)
  | settle _ _ _ hjob hv ih =>
    rcases (by simpa using hi : _ ∨ _) with hi | rfl
    · exact ih hi
    · exact ⟨_, _, hjob, hv⟩

/-- The last entry is not the end of a task. -/
theorem getLast?_ne (h : Regular jobs workers l) (i : Nat) : l.getLast? ≠ some (.finish i) := by
  cases h <;> simp

end Log.Regular

/-! ## Logs of lawful traces -/

namespace FanOut

variable {jobs : List (Job α)} {workers : Nat} {t : List Mark} {r : Reporter}

/-- The log has the form, up to an end that has not been reported yet. -/
def OnePending (jobs : List (Job α)) (workers : Nat) (l : Log) : Prop :=
  ∃ m i, Log.Regular jobs workers m ∧ .start i ∈ m ∧ .finish i ∉ m ∧ l = m ++ [.finish i]

theorem OnePending.not_finished {l : Log} (h : OnePending jobs workers l) :
    l.finishes.length ≠ l.settled := by
  obtain ⟨m, i, hm, -, -, rfl⟩ := h
  have hfinished := hm.finished
  simp only [Log.settled] at hfinished
  simp [Log.settled, hfinished]

/-- **The log of a lawful trace.** -/
theorem log_cases (h : (rule jobs workers).Lawful t) :
    Log.Regular jobs workers (Log.of t) ∨ OnePending jobs workers (Log.of t) := by
  induction h with
  | nil => exact .inl .nil
  | @snoc t m _ hm ih =>
    rw [Log.of_append]
    cases hentry : m.entry? with
    | none =>
      have hnone : Log.of [m] = [] := by simp [Log.of, hentry]
      rw [hnone, List.append_nil]
      exact ih
    | some e =>
      have hone : Log.of [m] = [e] := by simp [Log.of, hentry]
      rw [hone]
      have hpermits : Permits jobs workers t e := by
        cases m with
        | paused => cases hentry
        | did a x => exact hm e hentry
      cases e with
      | start i =>
        obtain ⟨rfl, hlt, hfree, hfinished, -⟩ := hpermits
        exact .inl ((ih.resolve_right fun hp => hp.not_finished hfinished).start hlt hfree)
      | finish i =>
        obtain ⟨hstart, hnew, hfinished, -⟩ := hpermits
        have hregular := ih.resolve_right fun hp => hp.not_finished hfinished
        exact .inr ⟨_, i, hregular, hstart, hnew, rfl⟩
      | progress p =>
        obtain ⟨rfl, -, i, job, v, hlast, hjob, hv⟩ := hpermits
        rcases ih with hregular | ⟨l, k, hl, hstart, hnew, heq⟩
        · exact absurd hlast (hregular.getLast?_ne i)
        · have hki : k = i := by simpa [heq] using hlast
          subst hki
          have hsettled : (l ++ [Entry.finish k]).settled = l.settled := by simp [Log.settled]
          rw [heq, hsettled]
          exact .inl (hl.settle hstart hnew hjob hv)

/-! ## Results -/

/-- What is heard of a fan-out while it runs. -/
structure InOrder (jobs : List (Job α)) (l : Log) : Prop where
  starts : l.starts = List.range l.starts.length
  started : l.starts.length ≤ jobs.length
  /-- A task ends after its start, so the slot in which its value is kept is there. -/
  ended : ∀ i ∈ l.finishes, i ∈ l.starts ∧ i < jobs.length
  once : l.finishes.Nodup
  reports : l.reports = (List.range l.settled).map fun n => ⟨n + 1, jobs.length⟩

theorem inOrder_of_regular {l : Log} (h : Log.Regular jobs workers l) : InOrder jobs l where
  starts := h.starts
  started := h.started
  ended i hi := by
    have hstart := h.start_mem (Log.mem_finishes.1 hi)
    exact ⟨Log.mem_starts.2 hstart, h.lt_of_start_mem hstart⟩
  once := h.nodup_finishes
  reports := h.reports

theorem inOrder_of_lawful (h : (rule jobs workers).Lawful t) : InOrder jobs (Log.of t) := by
  rcases log_cases h with hregular | ⟨l, i, hl, hstart, hnew, heq⟩
  · exact inOrder_of_regular hregular
  · rw [heq]
    have hbefore := inOrder_of_regular hl
    refine ⟨?_, ?_, ?_, ?_, ?_⟩
    · simpa using hbefore.starts
    · simpa using hbefore.started
    · intro k hk
      rw [Log.starts_append, Log.starts_finish, Log.starts_nil, List.append_nil]
      rcases (by simpa using hk : k ∈ l.finishes ∨ k = i) with hk | rfl
      · exact hbefore.ended k hk
      · exact ⟨Log.mem_starts.2 hstart, hl.lt_of_start_mem hstart⟩
    · have happend := List.nodup_append.2 ⟨hbefore.once, List.pairwise_singleton _ i, by
        rintro a ha b hb rfl
        rw [List.mem_singleton.1 hb, Log.mem_finishes] at ha
        exact hnew ha⟩
      simpa using happend
    · simpa [Log.settled] using hbefore.reports

/-- All tasks have been started and have settled; these are their values, in their order. -/
structure Completed (jobs : List (Job α)) (l : Log) (vs : List α) : Prop where
  values : jobs.map Job.outcome = vs.map .ok
  length : vs.length = jobs.length
  starts : l.starts = List.range jobs.length
  reports : l.reports = (List.range jobs.length).map fun n => ⟨n + 1, jobs.length⟩

/-- A task has ended with this fault, before any other has failed, and nothing is heard of the tasks
after that. -/
def FirstFailure (jobs : List (Job α)) (l : Log) (e : Fault) : Prop :=
  ∃ (before : Log) (i : Nat) (job : Job α), l = before ++ [.finish i] ∧ jobs[i]? = some job ∧
    job.outcome = .error e ∧
    ∀ k ∈ before.finishes, ∃ job v, jobs[k]? = some job ∧ job.outcome = .ok v

theorem Results.completed {vs : List α} (h : Results jobs t vs)
    (ht : (rule jobs workers).Lawful t) : Completed jobs (Log.of t) vs := by
  have horder := inOrder_of_lawful ht
  have hstarts := horder.starts
  have hreports := horder.reports
  rw [h.starts] at hstarts
  rw [h.settled] at hreports
  have hlength := congrArg List.length h.values
  rw [List.length_map, List.length_map] at hlength
  exact ⟨h.values, hlength.symm, hstarts, hreports⟩

/-- The task that ended last is the first that has failed. -/
theorem firstFailure {i : Nat} {job : Job α} {e : Fault} {s : List Mark}
    (hjob : jobs[i]? = some job) (he : job.outcome = .error e)
    (ht : (rule jobs workers).Lawful
      (s ++ [.did (.note (Entry.finish i).toValue) (), .did (.raise e) ()])) :
    FirstFailure jobs
      (Log.of (s ++ [.did (.note (Entry.finish i).toValue) (), .did (.raise e) ()])) e := by
  have hpermits : Permits jobs workers s (.finish i) :=
    ht.allowed _ (by simp [Action.entry?])
  have hlog : Log.of (s ++ [.did (.note (Entry.finish i).toValue) (), .did (.raise e) ()]) =
      Log.of s ++ [.finish i] := by
    rw [List.append_cons, Log.of_append, Log.of_append, Log.of_entry, Log.of_raise,
      List.append_nil]
  refine ⟨Log.of s, i, job, hlog, hjob, he, fun k hk => ?_⟩
  have hregular := (log_cases ht.of_append).resolve_right fun hp =>
    hp.not_finished hpermits.2.2.1
  exact hregular.value hk

theorem not_all_ok {i : Nat} {job : Job α} {e : Fault} (hjob : jobs[i]? = some job)
    (he : job.outcome = .error e) : ¬∀ job ∈ jobs, ∃ v, job.outcome = .ok v := by
  intro hall
  obtain ⟨v, hv⟩ := hall job (List.mem_of_getElem? hjob)
  rw [he] at hv
  cases hv

theorem all_ok_of_values {vs : List α} (h : jobs.map Job.outcome = vs.map .ok) :
    ∀ job ∈ jobs, ∃ v, job.outcome = .ok v := by
  intro job hjob
  have hmem : job.outcome ∈ vs.map .ok := h ▸ List.mem_map_of_mem hjob
  obtain ⟨v, -, hv⟩ := List.mem_map.1 hmem
  exact ⟨v, hv.symm⟩

end FanOut

/-- The mark of an answer that tells a flow to stop. -/
def Mark.tellsToStop : Mark → Bool
  | .did .poll stop => stop
  | _ => false

namespace FanOut

variable {jobs : List (Job α)} {r : Reporter} {fuel : Nat} {t : List Mark}

/-- The ends of a fan-out that is not told to stop and has rounds enough. -/
theorem ending_cases {o : Outcome (List α)}
    (hends : Flow.Ending (Fails jobs) (fuel ≤ Job.allPauses jobs) (Results jobs) t o)
    (hfuel : Job.allPauses jobs < fuel) (hstop : t.any Mark.tellsToStop = false) :
    (∃ vs, o = .ended (.ok vs) ∧ Results jobs t vs) ∨
    ∃ e i job s, o = .ended (.error e) ∧ jobs[i]? = some job ∧ job.outcome = .error e ∧
      t = s ++ [.did (.note (Entry.finish i).toValue) (), .did (.raise e) ()] := by
  match o with
  | .starved => exact absurd hends (Nat.not_le_of_lt hfuel)
  | .ended (.ok vs) => exact .inl ⟨vs, rfl, hends⟩
  | .ended (.error e) =>
    rcases hends with ⟨-, s, rfl⟩ | ⟨i, job, s, hjob, he, ht⟩
    · simp [Mark.tellsToStop] at hstop
    · exact .inr ⟨e, i, job, s, rfl, hjob, he, ht⟩

/-- **Results do not depend on the order in which tasks end.** Whatever the tasks, however often
each of them pauses, whatever the limit on workers, and however the world answers: tasks are started
in their order. A fan-out that is never told to stop comes to its end. It gives the values of all
tasks exactly if none of them fails, in their order and after a report for each; otherwise it gives
the fault of the task that was the first to end with one, and after that end no task is started and
no progress is reported. -/
theorem completes_or_first_failure (jobs : List (Job α)) (cap : Nat) (r : Reporter) {fuel : Nat}
    (hfuel : Job.allPauses jobs < fuel) :
    (∀ t g, (run fuel (Job.flows jobs) cap r.report).Goes t g → InOrder jobs (Log.of t)) ∧
    ∀ env w, let flow := run fuel (Job.flows jobs) cap r.report
      (flow.trace env w).any Mark.tellsToStop = false →
      ∃ result, (flow.run env w).1 = .ended result ∧
        ((∃ vs, result = .ok vs) ↔ ∀ job ∈ jobs, ∃ v, job.outcome = .ok v) ∧
        (∀ vs, result = .ok vs → Completed jobs (Log.of (flow.trace env w)) vs) ∧
        (∀ e, result = .error e → FirstFailure jobs (Log.of (flow.trace env w)) e) := by
  have hfollows := run_follows fuel jobs cap r
  refine ⟨fun t g hgoes => inOrder_of_lawful (hfollows.goes .nil hgoes).1, ?_⟩
  intro env w flow hstop
  have hgoes := flow.goes_trace env w
  have hlawful := (hfollows.goes .nil hgoes).1
  rw [List.nil_append] at hlawful
  rcases ending_cases (hfollows.ends hgoes) hfuel hstop with
    ⟨vs, hrun, hresults⟩ | ⟨e, i, job, s, hrun, hjob, he, ht⟩
  · refine ⟨.ok vs, hrun, ?_, ?_, ?_⟩
    · exact ⟨fun _ => all_ok_of_values hresults.values, fun _ => ⟨vs, rfl⟩⟩
    · intro vs' hvs
      cases hvs
      exact hresults.completed hlawful
    · intro e he
      cases he
  · refine ⟨.error e, hrun, ?_, ?_, ?_⟩
    · refine ⟨fun ⟨vs, hvs⟩ => ?_, fun hall => absurd hall (not_all_ok hjob he)⟩
      cases hvs
    · intro vs hvs
      cases hvs
    · intro e' he'
      cases he'
      rw [ht] at hlawful ⊢
      exact firstFailure hjob he hlawful

/-- Three tasks for two workers: the last fails while the first is still waiting. -/
def failingLast : List (Job Nat) :=
  [.waiting 2 (.ok 7), .waiting 0 (.ok 8), .waiting 1 (.error (.other "late"))]

/-- The fault of the last task ends the whole, after the second task has settled. -/
theorem last_is_first_failure :
    Job.allPauses failingLast < 4 ∧
    ((run 4 (Job.flows failingLast) 2 Reporter.plain.report).trace {} {}).any Mark.tellsToStop =
      false ∧
    ((run 4 (Job.flows failingLast) 2 Reporter.plain.report).run {} {}).1 =
      .ended (.error (.other "late")) ∧
    FirstFailure failingLast
      (Log.of ((run 4 (Job.flows failingLast) 2 Reporter.plain.report).trace {} {}))
      (.other "late") := by
  have hfuel : Job.allPauses failingLast < 4 := by decide
  have hstop : ((run 4 (Job.flows failingLast) 2 Reporter.plain.report).trace {} {}).any
      Mark.tellsToStop = false := rfl
  have hrun : ((run 4 (Job.flows failingLast) 2 Reporter.plain.report).run {} {}).1 =
      .ended (.error (.other "late")) := rfl
  obtain ⟨result, hresult, -, -, hfailure⟩ :=
    (completes_or_first_failure failingLast 2 Reporter.plain hfuel).2 {} {} hstop
  rw [hrun] at hresult
  cases hresult
  exact ⟨hfuel, hstop, hrun, hfailure _ rfl⟩

end FanOut

end WorkflowEngine
