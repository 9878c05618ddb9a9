import WorkflowEngine.Proofs.FanOut.Results
import WorkflowEngine.Proofs.SteadyStop

/-!
# Stops of fan-outs

A stop may be made at any moment of a fan-out: before it, by one of its tasks or by what is told
of its progress, by a request or by an entry in the journal at which the stop rule takes offence.
If it stays, no task is started and no progress is reported after that moment
(`FanOut.silent_after_stop`), since right before each of these it is asked whether to stop.

What a fan-out comes to is said by `FanOut.stopped_or_late`: it fails, with the fault of
cancellation or with the fault of a task that was in flight at the moment of the stop. Only if
there is a single task may the stop come too late: nobody asks any more after the progress has
been reported.
-/

namespace WorkflowEngine

/-- The task has been started, and neither its value nor its fault has been passed on: if it has
ended, nothing is heard of the tasks since then. -/
def Log.Flying (l : Log) (i : Nat) : Prop :=
  .start i ∈ l ∧ (.finish i ∈ l → l.getLast? = some (.finish i))

namespace FanOut

variable {α β : Type} {jobs : List (Job α)} {workers : Nat} {t : List Mark} {r : Reporter}
  {env : Environment} {w : World}

/-! ## After the stop -/

/-- Where it has just been asked whether to stop, and the answer was no, there is no stop. -/
theorem not_told_of_asked {f : Flow β} (hw : w.cancellation.Steady)
    {before between after : List Mark} (h : f.trace env w = before ++ between ++ after)
    (hasked : Asked (before ++ between)) : (w.replay env before).toldToStop = false := by
  rcases List.eq_nil_or_concat between with rfl | ⟨between, m, rfl⟩
  · rw [List.append_nil] at h hasked
    obtain ⟨start, rfl⟩ := List.getLast?_eq_some_iff.1 hasked
    have hsteady := (World.onward_replay env hw start).1
    have htrace : f.trace env w = start ++ [] ++ .did .poll false :: after := by
      rw [h]
      simp
    rw [World.replay_append]
    exact (World.toldToStop_poll hsteady).trans (Flow.not_told_of_poll hw htrace)
  · have hlast : m = .did .poll false := by
      simpa [Asked, List.getLast?_append] using hasked
    subst hlast
    have htrace : f.trace env w = before ++ between ++ .did .poll false :: after := by
      rw [h]
      simp
    exact Flow.not_told_of_poll hw htrace

/-- **From the stop on, no task is started and no progress is reported.** -/
theorem silent_after_stop {f : Flow β} (hlawful : (rule jobs workers).Lawful (f.trace env w))
    (hw : w.cancellation.Steady) {before after : List Mark}
    (h : f.trace env w = before ++ after) (hstop : (w.replay env before).toldToStop = true) :
    (Log.of after).starts = [] ∧ (Log.of after).reports = [] := by
  -- Entries of both kinds need a poll that was answered with no.
  have hask : ∀ e ∈ Log.of after, (∀ t, Permits jobs workers t e → Asked t) → False := by
    intro e he hneeds
    obtain ⟨m, hm, hentry⟩ := List.mem_filterMap.1 he
    obtain ⟨between, rest, rfl⟩ := List.append_of_mem hm
    rw [h, ← List.append_assoc] at hlawful
    have hpermits : Permits jobs workers (before ++ between) e := by
      cases m with
      | paused => cases hentry
      | did a x => exact hlawful.allowed e hentry
    rw [← List.append_assoc] at h
    have hnot := not_told_of_asked hw h (hneeds _ hpermits)
    rw [hstop] at hnot
    cases hnot
  refine ⟨List.filterMap_eq_nil_iff.2 fun e he => ?_, List.filterMap_eq_nil_iff.2 fun e he => ?_⟩
  · cases e with
    | start i => exact (hask _ he fun t hp => hp.2.2.2.2).elim
    | finish i => rfl
    | progress p => rfl
  · cases e with
    | start i => rfl
    | finish i => rfl
    | progress p => exact (hask _ he fun t hp => hp.2.1).elim

/-- A task that ends after the stop, or at it, was in flight at the stop. -/
theorem flying_of_finish {before after : List Mark} {i : Nat} {e : Fault} {s : List Mark}
    (hlawful : (rule jobs workers).Lawful (before ++ after))
    (ht : before ++ after = s ++ [.did (.note (Entry.finish i).toValue) (), .did (.raise e) ()])
    (hstarts : (Log.of after).starts = []) : (Log.of before).Flying i := by
  have hpermits : Permits jobs workers s (.finish i) := by
    rw [ht] at hlawful
    exact hlawful.allowed _ (by simp [Action.entry?])
  have hlog : Log.of before ++ Log.of after = Log.of s ++ [.finish i] := by
    rw [← Log.of_append, ht, List.append_cons, Log.of_append, Log.of_append, Log.of_entry,
      Log.of_raise, List.append_nil]
  obtain ⟨hstart, hnew, -⟩ := hpermits
  refine ⟨?_, fun hfinish => ?_⟩
  · have hboth : .start i ∈ Log.of before ++ Log.of after := by
      rw [hlog]
      exact List.mem_append_left _ hstart
    refine (List.mem_append.1 hboth).resolve_right fun hafter => ?_
    rw [← Log.mem_starts, hstarts] at hafter
    cases hafter
  · -- The end is the last entry of all, so nothing can come after it.
    rcases List.eq_nil_or_concat (Log.of after) with hnil | ⟨l, m, hconcat⟩
    · rw [hnil, List.append_nil] at hlog
      rw [hlog]
      simp
    · rw [hconcat, List.concat_eq_append, ← List.append_assoc] at hlog
      have hs : Log.of before ++ l = Log.of s := (List.append_inj' hlog rfl).1
      refine absurd ?_ hnew
      rw [← hs]
      exact List.mem_append_left _ hfinish

/-! ## The outcome -/

/-- The fan-out has failed with the fault of cancellation or with that of a task in flight. -/
def Stopped (jobs : List (Job α)) (l : Log) (o : Outcome (List α)) : Prop :=
  o = .ended (.error .cancelled) ∨
  ∃ i job e, jobs[i]? = some job ∧ job.outcome = .error e ∧ o = .ended (.error e) ∧ l.Flying i

/-- The progress of a single task has been reported. -/
def Late (jobs : List (Job α)) (l : Log) : Prop := jobs.length = 1 ∧ l.reports ≠ []

theorem tame_silent {n : Nat} {fails : List Mark → Fault → Prop} {f : Flow Unit} (h : f.Tame n) :
    f.Follows (fun _ _ => True) (Flow.Ending fails False fun t' _ => Log.of t' = Log.of t) t := by
  induction h generalizing t with
  | done a => exact rfl
  | pause _ ih =>
    refine ⟨trivial, ih.weaken id fun t' _ ht' => ?_⟩
    rw [ht', Log.of_append, Log.of_paused, List.append_nil]
  | act ha _ ih =>
    intro x
    refine ⟨trivial, (ih x).weaken id fun t' _ ht' => ?_⟩
    rw [ht', Log.of_append, Log.of_did ha, List.append_nil]

/-- As long as no progress has been reported, the question whether to stop may end the whole. -/
theorem check_silent (h : (Log.of t).reports = []) : Flow.check.Follows (fun _ _ => True)
    (Flow.Ending (fun t' _ => (Log.of t').reports = []) False fun t' _ => (Log.of t').reports = [])
    t := by
  intro stop
  refine ⟨trivial, ?_⟩
  cases stop with
  | true =>
    intro x
    refine ⟨trivial, ?_⟩
    show (Log.of _).reports = []
    rw [Log.of_append, Log.of_append, Log.of_poll, Log.of_raise, List.append_nil, List.append_nil,
      h]
  | false =>
    show (Log.of _).reports = []
    rw [Log.of_append, Log.of_poll, List.append_nil, h]

/-- A fan-out with one task does not fail after its progress has been reported. -/
theorem single_silent (fuel : Nat) (job : Job α) (cap : Nat) (r : Reporter) :
    (run fuel (Job.flows [job]) cap r.report).Follows (fun _ _ => True)
      (Flow.Ending (fun t' _ => (Log.of t').reports = []) False fun _ _ => True) [] := by
  have hflows : Job.flows [job] = [job.flow 0] := rfl
  rw [hflows, run_single]
  refine (check_silent rfl).bind fun t₁ _ h₁ => ?_
  refine Flow.Follows.bind (Q := fun t' _ => (Log.of t').reports = []) ?_ fun t₂ v h₂ => ?_
  · intro x
    refine ⟨trivial, (tame_silent job.tame).bind fun t₂ _ h₂ => ?_⟩
    have hsilent : (Log.of t₂).reports = [] := by
      rw [h₂, Log.of_append, Log.reports_append, h₁, Log.of_entry]
      rfl
    intro y
    refine ⟨trivial, ?_⟩
    cases hout : job.outcome with
    | ok v =>
      show (Log.of _).reports = []
      rw [Log.of_append, Log.reports_append, hsilent, Log.of_entry]
      rfl
    | error e =>
      intro z
      refine ⟨trivial, ?_⟩
      show (Log.of _).reports = []
      rw [Log.of_append, Log.of_append, Log.of_raise, List.append_nil, Log.reports_append, hsilent,
        Log.of_entry]
      rfl
  · refine Flow.Follows.bind (Q := fun _ _ => True) ?_ fun _ _ _ => trivial
    refine (check_silent h₂).bind fun t₃ _ _ => ?_
    refine Flow.Follows.bind (Q := fun _ _ => True) ?_ fun _ _ _ => trivial
    intro y
    exact ⟨trivial, (tame_silent (r.tame _)).weaken id fun _ _ _ => trivial⟩

/-- **What a fan-out comes to after a stop.** -/
theorem stopped_or_late {fuel cap : Nat} (hsome : jobs ≠ []) (hfuel : Job.allPauses jobs < fuel)
    (hw : w.cancellation.Steady) {before after : List Mark}
    (h : (run fuel (Job.flows jobs) cap r.report).trace env w = before ++ after)
    (hstop : (w.replay env before).toldToStop = true) :
    (¬Late jobs (Log.of before) →
      Stopped jobs (Log.of before) ((run fuel (Job.flows jobs) cap r.report).run env w).1) ∧
    (Late jobs (Log.of before) → ∃ vs, jobs.map Job.outcome = vs.map .ok ∧
      ((run fuel (Job.flows jobs) cap r.report).run env w).1 = .ended (.ok vs)) := by
  have hfollows := run_follows fuel jobs cap r
  have hgoes := (run fuel (Job.flows jobs) cap r.report).goes_trace env w
  have hlawful := (hfollows.goes .nil hgoes).1
  have hends := hfollows.ends hgoes
  rw [List.nil_append] at hlawful
  have hsilent := silent_after_stop hlawful hw h hstop
  match hrun : ((run fuel (Job.flows jobs) cap r.report).run env w).1 with
  | .starved =>
    rw [hrun] at hends
    exact absurd hends (Nat.not_le_of_lt hfuel)
  | .ended (.ok vs) =>
    rw [hrun] at hends
    have hresults : Results jobs _ vs := hends
    refine ⟨fun hlate => absurd ?_ hlate, fun _ => ⟨vs, hresults.values, rfl⟩⟩
    have hone : jobs.length = 1 := by
      have hpos := List.length_pos_iff.2 hsome
      by_cases htwo : 2 ≤ jobs.length
      · have hasked := hresults.asked htwo
        rw [h] at hasked
        have hnot := not_told_of_asked hw (h.trans (List.append_nil _).symm) hasked
        rw [hstop] at hnot
        cases hnot
      · omega
    refine ⟨hone, fun hnone => ?_⟩
    have hsettled := hresults.settled
    rw [h, Log.of_append, Log.settled, Log.reports_append, hnone, hsilent.2, hone] at hsettled
    cases hsettled
  | .ended (.error e) =>
    rw [hrun] at hends
    refine ⟨fun _ => ?_, fun hlate => ?_⟩
    · rcases hends with ⟨rfl, -⟩ | ⟨i, job, s, hjob, he, ht⟩
      · exact .inl rfl
      · rw [h] at hlawful ht
        exact .inr ⟨i, job, e, hjob, he, rfl, flying_of_finish hlawful ht hsilent.1⟩
    · obtain ⟨job, rfl⟩ := List.length_eq_one_iff.1 hlate.1
      have hreports := (single_silent fuel job cap r).ends hgoes
      rw [hrun, h] at hreports
      have hnone : (Log.of (before ++ after)).reports = [] := hreports
      rw [Log.of_append, Log.reports_append] at hnone
      exact absurd (List.append_eq_nil_iff.1 hnone).1 hlate.2

end FanOut

end WorkflowEngine
