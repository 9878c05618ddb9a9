import WorkflowEngine.Proofs.Conduct
import WorkflowEngine.Proofs.FanOut.Log

/-!
# The rule of a fan-out

Workers claim tasks from a shared list, and they keep results in shared slots. What they may do next
can be read off what has been done so far (`FanOut.rule`): the next task to be started is the first
that has not been started, and it is started only while a worker is free and right after the
question whether to stop has been answered with no; progress is reported right after that question
too, of the task that ended last and has not failed; and when all wait, every worker has a task in
its hands unless no task is left.

**Theorem (`FanOut.run_follows`).** Every fan-out follows this rule, and what its end comes to is
said in `FanOut.Ends`.

The invariant that carries the proof is `FanOut.Books`: between two stretches of tasks, what the log
says of tasks that are unclaimed, in flight and settled is what the list, the workers and the slots
say. There is one lemma per function of a fan-out, and one per change of the books.
-/

namespace WorkflowEngine

namespace FanOut

variable {α : Type}

/-! ## The rule -/

/-- It has just been asked whether to stop, and the answer was no. -/
def Asked (t : List Mark) : Prop := t.getLast? = some (.did .poll false)

/-- Whether an entry may be written after a trace. -/
def Permits (jobs : List (Job α)) (workers : Nat) (t : List Mark) : Entry → Prop
  | .start i =>
    i = (Log.of t).starts.length ∧ i < jobs.length ∧ i < (Log.of t).settled + workers ∧
      (Log.of t).finishes.length = (Log.of t).settled ∧ Asked t
  | .finish i =>
    .start i ∈ Log.of t ∧ .finish i ∉ Log.of t ∧
      (Log.of t).finishes.length = (Log.of t).settled ∧
      ((∀ job ∈ jobs, job.body.Suspends) → .paused ∈ t)
  | .progress p =>
    p = ⟨(Log.of t).settled + 1, jobs.length⟩ ∧ Asked t ∧
      ∃ i job v, (Log.of t).getLast? = some (.finish i) ∧ jobs[i]? = some job ∧
        job.outcome = .ok v

/-- Whether all may wait after a trace. -/
def MayPause (jobs : List (Job α)) (workers : Nat) (t : List Mark) : Prop :=
  (Log.of t).finishes.length = (Log.of t).settled ∧
    (Log.of t).inFlight = min workers (jobs.length - (Log.of t).settled)

/-- What a fan-out may do next. It does not matter what its tasks do on the way to their ends. -/
def rule (jobs : List (Job α)) (workers : Nat) : Rule := fun t m =>
  match m with
  | .paused => MayPause jobs workers t
  | .did a _ => ∀ e, a.entry? = some e → Permits jobs workers t e

/-- The ways in which a fan-out fails: it finds that it is to stop, or the task that ended last has
failed. -/
def Fails (jobs : List (Job α)) (t : List Mark) (e : Fault) : Prop :=
  (e = .cancelled ∧ ∃ s, t = s ++ [.did .poll true, .did (.raise .cancelled) ()]) ∨
  ∃ i job s, jobs[i]? = some job ∧ job.outcome = .error e ∧
    t = s ++ [.did (.note (Entry.finish i).toValue) (), .did (.raise e) ()]

section

variable {jobs : List (Job α)} {workers : Nat} {t : List Mark} {starves : Prop}

theorem rule_did {a : Action} (h : a.entry? = none) (x : a.Answer) :
    rule jobs workers t (.did a x) := by
  intro e he
  rw [h] at he
  cases he

theorem rule_entry {e : Entry} (h : Permits jobs workers t e) (x : Unit) :
    rule jobs workers t (.did (.note e.toValue) x) := by
  intro e' he
  have hsame : e' = e := by simpa [Action.entry?] using he.symm
  rw [hsame]
  exact h

/-! ## Single actions -/

/-- The question whether to stop either ends the whole or has just been answered with no. -/
theorem check_follows : Flow.check.Follows (rule jobs workers)
    (Flow.Ending (Fails jobs) starves fun t' _ => t' = t ++ [.did .poll false]) t := by
  intro stop
  refine ⟨rule_did rfl stop, ?_⟩
  cases stop with
  | true =>
    intro x
    refine ⟨rule_did rfl x, .inl ⟨rfl, t, ?_⟩⟩
    rw [List.append_assoc]
    rfl
  | false => exact rfl

theorem note_follows {e : Entry} (h : Permits jobs workers t e) :
    (Flow.note e.toValue).Follows (rule jobs workers) (Flow.Ending (Fails jobs) starves
      fun t' _ => t' = t ++ [.did (.note e.toValue) ()]) t :=
  fun x => ⟨rule_entry h x, rfl⟩

/-- What a reporter does besides writing down what it is told. -/
theorem tame_follows {f : Flow Unit} (h : f.Tame 0) : f.Follows (rule jobs workers)
    (Flow.Ending (Fails jobs) starves fun t' _ => Log.of t' = Log.of t) t := by
  generalize hn : 0 = n at h
  induction h generalizing t with
  | done a => exact rfl
  | pause _ _ => cases hn
  | @act n a next ha _ ih =>
    intro x
    refine ⟨rule_did ha x, (ih x hn).weaken id fun t' _ ht' => ?_⟩
    rw [ht', Log.of_append, Log.of_did ha, List.append_nil]

end

/-! ## Books -/

/-- The tasks that a worker has in its hands. -/
def Worker.flying : Worker α → List Nat
  | .busy i _ => [i]
  | _ => []

/-- What the log says is what the board says, when these tasks are in flight. -/
structure Books (jobs : List (Job α)) (l : Log) (flying : List Nat) (b : Board α) : Prop where
  waiting : b.waiting = (Job.flows jobs).zipIdx.drop l.starts.length
  starts : l.starts = List.range l.starts.length
  started : l.starts.length ≤ jobs.length
  slots : b.tally.slots.length = jobs.length
  settled : b.tally.settled = l.settled
  finished : l.finishes.length = l.settled
  count : flying.length + l.settled = l.starts.length
  nodup : flying.Nodup
  aloft : ∀ i ∈ flying, i < l.starts.length ∧ .finish i ∉ l
  known : ∀ i, .finish i ∈ l → i < l.starts.length
  /-- A task that has been started and is not in flight has left its value. -/
  kept : ∀ i, i < l.starts.length → i ∉ flying →
    ∃ job v, jobs[i]? = some job ∧ job.outcome = .ok v ∧ b.tally.slots[i]? = some (some v)

namespace Books

variable {jobs : List (Job α)} {l : Log} {flying : List Nat} {b : Board α}

theorem perm {flying' : List Nat} (h : Books jobs l flying b) (hperm : flying.Perm flying') :
    Books jobs l flying' b :=
  { h with
    count := by rw [← hperm.length_eq]; exact h.count
    nodup := hperm.nodup_iff.1 h.nodup
    aloft := fun i hi => h.aloft i (hperm.mem_iff.2 hi)
    kept := fun i hi hn => h.kept i hi fun hm => hn (hperm.mem_iff.1 hm) }

theorem start_mem (h : Books jobs l flying b) {i : Nat} (hi : i ∈ flying) : .start i ∈ l := by
  rw [← Log.mem_starts, h.starts, List.mem_range]
  exact (h.aloft i hi).1

/-- The task that is claimed is the first that has not been started. -/
theorem claimed {task : Flow α} {i : Nat} {waiting : List (Flow α × Nat)} {tally : Tally α}
    (h : Books jobs l flying ⟨(task, i) :: waiting, tally⟩) :
    i = l.starts.length ∧ ∃ job, jobs[i]? = some job ∧ task = job.flow i := by
  have hhead : (Job.flows jobs).zipIdx[l.starts.length]? = some (task, i) := by
    have hdrop := congrArg (·[0]?) h.waiting
    simpa using hdrop.symm
  rw [List.getElem?_zipIdx, Job.getElem?_flows] at hhead
  cases hjob : jobs[l.starts.length]? with
  | none => simp [hjob] at hhead
  | some job =>
    simp only [hjob, Option.map_some, Option.some.injEq, Prod.mk.injEq, Nat.zero_add] at hhead
    obtain ⟨rfl, rfl⟩ := hhead
    exact ⟨rfl, job, hjob, rfl⟩

/-- A task is claimed and started. -/
theorem start {task : Flow α} {i : Nat} {waiting : List (Flow α × Nat)} {tally : Tally α}
    (h : Books jobs l flying ⟨(task, i) :: waiting, tally⟩) :
    Books jobs (l ++ [.start i]) (i :: flying) ⟨waiting, tally⟩ := by
  obtain ⟨hi, job, hjob, -⟩ := h.claimed
  have hlength : (l ++ [Entry.start i]).starts.length = l.starts.length + 1 := by
    simp
  have hlt : l.starts.length < jobs.length := by
    rw [← hi]
    exact (List.getElem?_eq_some_iff.1 hjob).1
  have hnew : i ∉ flying := fun hm => Nat.lt_irrefl _ (hi ▸ (h.aloft i hm).1)
  refine ⟨?_, ?_, ?_, h.slots, ?_, ?_, ?_, List.nodup_cons.2 ⟨hnew, h.nodup⟩, ?_, ?_, ?_⟩
  · have htail := congrArg List.tail h.waiting
    rw [List.tail_drop] at htail
    rw [hlength]
    exact htail
  · rw [hlength, Log.starts_append, Log.starts_start, Log.starts_nil, List.range_succ, ← h.starts,
      hi]
  · rw [hlength]
    exact hlt
  · simpa [Log.settled] using h.settled
  · simpa [Log.settled] using h.finished
  · have hcount := h.count
    rw [hlength]
    simp only [Log.settled, Log.reports_append, Log.reports_start, Log.reports_nil,
      List.append_nil, List.length_cons] at hcount ⊢
    omega
  · intro k hk
    rw [hlength]
    rcases List.mem_cons.1 hk with rfl | hk
    · refine ⟨by omega, fun hm => ?_⟩
      have hold : .finish k ∈ l := by simpa using hm
      exact Nat.lt_irrefl _ (hi ▸ h.known k hold)
    · obtain ⟨hlt, hfinish⟩ := h.aloft k hk
      exact ⟨by omega, by simpa using hfinish⟩
  · intro k hk
    have hold : .finish k ∈ l := by simpa using hk
    have hlt := h.known k hold
    rw [hlength]
    omega
  · intro k hk hn
    rw [hlength] at hk
    obtain ⟨hne, hold⟩ := not_or.1 (fun hor => hn (List.mem_cons.2 hor))
    exact h.kept k (by omega) hold

/-- A task in flight ends with a value, which is kept, and that is reported. -/
theorem settle {i : Nat} {job : Job α} {v : α} (h : Books jobs l (i :: flying) b)
    (hjob : jobs[i]? = some job) (hv : job.outcome = .ok v) (p : Progress) :
    Books jobs (l ++ [.finish i] ++ [.progress p]) flying
      ⟨b.waiting, ⟨b.tally.slots.set i (some v), b.tally.settled + 1⟩⟩ := by
  have hlength : (l ++ [Entry.finish i] ++ [Entry.progress p]).starts = l.starts := by simp
  obtain ⟨hi, hnodup⟩ := List.nodup_cons.1 h.nodup
  have hlt : i < jobs.length := (List.getElem?_eq_some_iff.1 hjob).1
  refine ⟨?_, ?_, ?_, ?_, ?_, ?_, ?_, hnodup, ?_, ?_, ?_⟩
  · rw [hlength]
    exact h.waiting
  · rw [hlength]
    exact h.starts
  · rw [hlength]
    exact h.started
  · rw [List.length_set]
    exact h.slots
  · simpa [Log.settled] using h.settled
  · simpa [Log.settled] using h.finished
  · have hcount := h.count
    rw [hlength]
    simp only [Log.settled, Log.reports_append, Log.reports_finish, Log.reports_progress,
      Log.reports_nil, List.append_nil, List.length_append, List.length_cons, List.length_nil]
      at hcount ⊢
    omega
  · intro k hk
    rw [hlength]
    obtain ⟨hkl, hfinish⟩ := h.aloft k (List.mem_cons_of_mem _ hk)
    refine ⟨hkl, fun hm => ?_⟩
    rcases (by simpa using hm : .finish k ∈ l ∨ k = i) with hm | rfl
    · exact hfinish hm
    · exact hi hk
  · intro k hk
    rw [hlength]
    rcases (by simpa using hk : .finish k ∈ l ∨ k = i) with hk | rfl
    · exact h.known k hk
    · exact (h.aloft k (List.mem_cons_self ..)).1
  · intro k hk hn
    rw [hlength] at hk
    by_cases hki : k = i
    · subst hki
      refine ⟨job, v, hjob, hv, ?_⟩
      rw [List.getElem?_set_self (by rw [h.slots]; exact hlt)]
    · have hold : k ∉ i :: flying := by simp [hki, hn]
      obtain ⟨job', v', h1, h2, h3⟩ := h.kept k hk hold
      refine ⟨job', v', h1, h2, ?_⟩
      rw [List.getElem?_set_ne (Ne.symm hki)]
      exact h3

theorem all_started (h : Books jobs l flying b) (hw : b.waiting = []) :
    l.starts.length = jobs.length := by
  have hempty : (Job.flows jobs).zipIdx.drop l.starts.length = [] := by rw [← h.waiting, hw]
  have hle := List.drop_eq_nil_iff.1 hempty
  rw [List.length_zipIdx, Job.length_flows] at hle
  exact Nat.le_antisymm h.started hle

/-- When no task is left and none is in flight, all have left their values. -/
theorem values (h : Books jobs l [] b) (hw : b.waiting = []) :
    l.starts.length = jobs.length ∧ l.settled = jobs.length ∧
      ∃ vs : List α, jobs.map Job.outcome = vs.map .ok ∧ b.tally.slots = vs.map some := by
  have hall := h.all_started hw
  have hsettled : l.settled = jobs.length := by
    have hcount := h.count
    rw [hall] at hcount
    simpa using hcount
  refine ⟨hall, hsettled, ?_⟩
  -- The values, read off the jobs one by one.
  have hkept : ∀ i : Fin jobs.length, ∃ v, jobs[i].outcome = .ok v ∧
      b.tally.slots[i.1]? = some (some v) := by
    intro i
    obtain ⟨job, v, h1, h2, h3⟩ := h.kept i (by rw [hall]; exact i.2) List.not_mem_nil
    rw [List.getElem?_eq_getElem i.2, Option.some.injEq] at h1
    exact ⟨v, by rw [← h2, ← h1]; rfl, h3⟩
  obtain ⟨f, hf⟩ := Classical.skolem.1 hkept
  have hlength := h.slots
  refine ⟨List.ofFn f, ?_, ?_⟩
  · refine List.ext_getElem (by simp) fun i h1 h2 => ?_
    have hi : i < jobs.length := by simpa using h1
    simpa using (hf ⟨i, hi⟩).1
  · refine List.ext_getElem (by simp [hlength]) fun i h1 h2 => ?_
    have hi : i < jobs.length := by rw [← hlength]; exact h1
    have hslot := (hf ⟨i, hi⟩).2
    rw [List.getElem?_eq_getElem h1, Option.some.injEq] at hslot
    simpa using hslot

end Books

/-! ## Pauses to come -/

/-- How often the tasks that have not been started pause at most. -/
def unclaimed (jobs : List (Job α)) (l : Log) : Nat := Job.allPauses (jobs.drop l.starts.length)

/-- What is left of the worker's task is the end of its job, and pauses so often at most. -/
def Worker.Owes (jobs : List (Job α)) : Worker α → Nat → Prop
  | .busy i rest, n => ∃ job body, jobs[i]? = some job ∧ body.Tame n ∧ rest = job.closing i body
  | _, _ => True

/-- Together, the tasks of the workers pause so often at most. -/
inductive Owe (jobs : List (Job α)) : List (Worker α) → Nat → Prop
  | nil : Owe jobs [] 0
  | cons {w : Worker α} {ws : List (Worker α)} {m n : Nat} :
      w.Owes jobs m → Owe jobs ws n → Owe jobs (w :: ws) (m + n)

/-! ## Stretches of a task -/

section

variable {jobs : List (Job α)} {workers : Nat} {t : List Mark} {flying : List Nat}
  {b : Board α} {r : Reporter}

/-- What comes of a stretch of a task: it pauses once more, or it has ended with its value. -/
def Stretched (jobs : List (Job α)) (l : Log) (i n : Nat) (t : List Mark) :
    Flow.Stretch α → Prop
  | .suspended rest => Log.of t = l ∧ ∃ m < n, (Worker.busy i rest).Owes jobs m
  | .settled v => Log.of t = l ++ [.finish i] ∧ ∃ job, jobs[i]? = some job ∧ job.outcome = .ok v

/-- The end of a job, up to its next pause. -/
theorem closing_follows {i n : Nat} {job : Job α} {body : Flow Unit}
    (hbooks : Books jobs (Log.of t) (i :: flying) b) (hjob : jobs[i]? = some job)
    (hbody : body.Tame n)
    (hpaused : (∀ job ∈ jobs, job.body.Suspends) → body.Suspends ∨ .paused ∈ t) :
    (job.closing i body).advance.Follows (rule jobs workers)
      (Flow.Ending (Fails jobs) False (Stretched jobs (Log.of t) i n)) t := by
  induction hbody generalizing t with
  | done _ =>
    have hpermits : Permits jobs workers t (.finish i) := by
      obtain ⟨-, hfinish⟩ := hbooks.aloft i (List.mem_cons_self ..)
      refine ⟨hbooks.start_mem (List.mem_cons_self ..), hfinish, hbooks.finished, fun hall => ?_⟩
      rcases hpaused hall with h | h
      · cases h
      · exact h
    intro x
    refine ⟨rule_entry hpermits x, ?_⟩
    cases hout : job.outcome with
    | ok v => exact ⟨by simp, job, hjob, hout⟩
    | error e =>
      intro y
      refine ⟨rule_did rfl y, .inr ⟨i, job, t, hjob, hout, ?_⟩⟩
      rw [List.append_assoc]
      rfl
  | @pause n rest hrest _ =>
    exact ⟨rfl, n, Nat.lt_succ_self n, job, rest (), hjob, hrest, rfl⟩
  | @act n a next ha _ ih =>
    intro x
    have hlog : Log.of (t ++ [.did a x]) = Log.of t := by
      rw [Log.of_append, Log.of_did ha, List.append_nil]
    have hnext := ih x (t := t ++ [.did a x]) (by rw [hlog]; exact hbooks) fun hall => by
      rcases hpaused hall with h | h
      · cases h with
        | act h => exact .inl (h x)
      · exact .inr (List.mem_append_left _ h)
    rw [hlog] at hnext
    exact ⟨rule_did ha x, hnext⟩

theorem settle_follows {l : Log} {i : Nat} {job : Job α} {v : α}
    (hbooks : Books jobs l (i :: flying) b) (hjob : jobs[i]? = some job)
    (hv : job.outcome = .ok v) (ht : Log.of t = l ++ [.finish i]) :
    (b.tally.settle r.report i v).Follows (rule jobs workers)
      (Flow.Ending (Fails jobs) False fun t' tally =>
        (Log.of t').starts = l.starts ∧ Books jobs (Log.of t') flying ⟨b.waiting, tally⟩) t := by
  refine check_follows.bind fun t' _ ht' => ?_
  subst ht'
  have hlog : Log.of (t ++ [.did .poll false]) = l ++ [.finish i] := by simpa using ht
  have hsettled : (l ++ [Entry.finish i]).settled = b.tally.settled := by
    simpa [Log.settled] using hbooks.settled.symm
  have hpermits : Permits jobs workers (t ++ [.did .poll false])
      (.progress ⟨b.tally.settled + 1, (b.tally.slots.set i (some v)).length⟩) := by
    refine ⟨?_, by simp [Asked], i, job, v, by simp [hlog], hjob, hv⟩
    rw [hlog, hsettled, List.length_set, hbooks.slots]
  refine Flow.Follows.bind (Q := fun t' _ => Log.of t' = l ++ [.finish i] ++
    [.progress ⟨b.tally.settled + 1, (b.tally.slots.set i (some v)).length⟩]) ?_ ?_
  · refine (note_follows hpermits).bind fun t' _ ht' => ?_
    subst ht'
    refine (tame_follows (r.tame _)).weaken id fun t' _ ht' => ?_
    rw [ht', Log.of_append, hlog, Log.of_entry]
  · intro t' _ ht'
    refine ⟨?_, ?_⟩
    · rw [ht']
      simp
    · rw [ht']
      exact hbooks.settle hjob hv _

end

end FanOut

end WorkflowEngine
