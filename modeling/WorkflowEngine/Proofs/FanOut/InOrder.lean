import WorkflowEngine.Proofs.FanOut.Single
import WorkflowEngine.Proofs.Unstopped

/-!
# Fan-outs that run their tasks in order

A single worker claims the tasks one after another, and it does not claim the next before the last
has ended. So it runs them in order, and pauses wherever they pause (`FanOut.rounds_idle`). Several
workers do so too if no task ever pauses: the first of them runs all the tasks in its first turn,
and the others find nothing to claim (`FanOut.rounds_unpaused`).

In both cases a fan-out that is not stopped runs its tasks in order (`FanOut.run_below`,
`FanOut.below_run`). The rounds are counted, so it is cut off where the tasks have paused too often.
-/

namespace WorkflowEngine

namespace FanOut

variable {α : Type}

/-- Reports nothing. -/
def silent : Report := fun _ => .done (.ok ())

/-- Keeps the result of a task. -/
def Tally.keep (t : Tally α) (index : Nat) (a : α) : Tally α :=
  ⟨t.slots.set index (some a), t.settled + 1⟩

/-- Runs the waiting tasks in order and keeps their results. -/
def serve (t : Tally α) : List (Flow α × Nat) → Flow (Tally α)
  | [] => .done (.ok t)
  | (task, index) :: waiting => task.bind fun a => serve (t.keep index a) waiting

/-- What a fan-out makes of the slots at its end. -/
def collect (slots : List (Option α)) : Flow (List α) :=
  match slots.mapM id with
  | some results => .done (.ok results)
  | none => .fail (.other "fan-out finished with unfilled result slots")

/-! ## A single worker -/

theorem rounds_busy_act (n index : Nat) {a : Action} (next : a.Answer → Flow α) (b : Board α) :
    rounds silent (n + 1) [.busy index (.act a next)] b =
      .act a fun x => rounds silent (n + 1) [.busy index (next x)] b := by
  rw [rounds_single]
  refine congrArg (Flow.act a) (funext fun x => ?_)
  rw [rounds_single]
  rfl

theorem rounds_busy_pause (n index : Nat) (rest : Unit → Flow α) (b : Board α) :
    rounds silent (n + 1) [.busy index (.pause rest)] b =
      .pause fun _ => rounds silent n [.busy index (rest ())] b := by
  rw [rounds_single]
  rfl

/-- A worker whose task has ended keeps its result and goes on like one that has none. -/
theorem rounds_busy_ok (n index : Nat) (a : α) (waiting : List (Flow α × Nat)) (t : Tally α) :
    rounds silent (n + 1) [.busy index (.done (.ok a))] ⟨waiting, t⟩ =
      Flow.check.bind fun _ => rounds silent (n + 1) [.idle] ⟨waiting, t.keep index a⟩ := by
  rw [rounds_single, rounds_single]
  show Flow.bind (Flow.bind (t.settle silent index a) fun t => claim silent t waiting) _ = _
  rw [Flow.bind_assoc]
  exact Flow.bind_assoc _ _ _

theorem rounds_idle_cons (n index : Nat) (task : Flow α) (waiting : List (Flow α × Nat))
    (t : Tally α) : rounds silent (n + 1) [.idle] ⟨(task, index) :: waiting, t⟩ =
      Flow.check.bind fun _ => rounds silent (n + 1) [.busy index task] ⟨waiting, t⟩ := by
  rw [rounds_single, rounds_single]
  exact Flow.bind_assoc _ _ _

theorem rounds_idle_nil (n : Nat) (t : Tally α) : rounds silent (n + 1) [.idle] ⟨[], t⟩ =
    Flow.check.bind fun _ => .done (.ok t.slots) := by
  rw [rounds_single]
  exact finishes_after_check silent n t

/-- A busy worker ends its task first, and then does the rest. -/
theorem rounds_busy_in_order {waiting : List (Flow α × Nat)}
    (ih : ∀ (t : Tally α) n, (rounds silent (n + 1) [.idle] ⟨waiting, t⟩).unstopped =
      ((serve t waiting).map Tally.slots).unstopped.cut n)
    (t : Tally α) (index : Nat) (task : Flow α) (n : Nat) :
    (rounds silent (n + 1) [.busy index task] ⟨waiting, t⟩).unstopped =
      (((task.bind fun a => serve (t.keep index a) waiting).map Tally.slots).unstopped).cut n := by
  induction task generalizing n with
  | done r =>
    cases r with
    | ok a =>
      rw [rounds_busy_ok, Flow.unstopped_check]
      exact ih (t.keep index a) n
    | error e => cases n <;> rfl
  | starved => cases n <;> rfl
  | pause rest ih =>
    rw [rounds_busy_pause]
    cases n with
    | zero => rfl
    | succ n => exact congrArg Flow.pause (funext fun _ => ih () n)
  | act a next ih =>
    rw [rounds_busy_act]
    by_cases ha : a = .poll
    · subst ha
      exact ih false n
    · rw [Flow.unstopped_act ha]
      show _ = ((Flow.act a _).unstopped).cut n
      rw [Flow.unstopped_act ha]
      cases n <;> exact congrArg (Flow.act a) (funext fun x => ih x _)

/-- **A single worker runs the tasks in order.** -/
theorem rounds_idle (waiting : List (Flow α × Nat)) (t : Tally α) (n : Nat) :
    (rounds silent (n + 1) [.idle] ⟨waiting, t⟩).unstopped =
      ((serve t waiting).map Tally.slots).unstopped.cut n := by
  induction waiting generalizing t n with
  | nil =>
    rw [rounds_idle_nil, Flow.unstopped_check]
    cases n <;> rfl
  | cons task waiting ih =>
    obtain ⟨task, index⟩ := task
    rw [rounds_idle_cons, Flow.unstopped_check]
    exact rounds_busy_in_order ih t index task n

/-! ## Tasks that never pause -/

theorem advance_of_within {f : Flow α} (h : f.Within 0) :
    f.advance = f.map Flow.Stretch.settled := by
  induction f with
  | done r => cases r <;> rfl
  | starved => rfl
  | pause rest ih => cases h
  | act a next ih =>
    cases h with
    | act h => exact congrArg (Flow.act a) (funext fun x => ih x (h x))

theorem within_unstopped {n : Nat} {f : Flow α} (h : f.Within n) : f.unstopped.Within n := by
  induction h with
  | done r => exact .done r
  | starved => exact .starved
  | pause _ ih => exact .pause ih
  | @act n a next _ ih =>
    by_cases ha : a = .poll
    · subst ha
      exact ih false
    · rw [Flow.unstopped_act ha]
      exact .act ih

theorem cut_of_within {f : Flow α} (h : f.Within 0) (n : Nat) : f.cut n = f := by
  induction f generalizing n with
  | done r => cases n <;> rfl
  | starved => cases n <;> rfl
  | pause rest ih => cases h
  | act a next ih =>
    cases h with
    | act h => cases n <;> exact congrArg (Flow.act a) (funext fun x => ih x (h x) _)

theorem within_bind {β : Type} {n : Nat} {f : Flow α} {k : α → Flow β} (h : f.Within 0)
    (hk : ∀ a, (k a).Within n) : (f.bind k).Within n := by
  induction f with
  | done r =>
    cases r with
    | ok a => exact hk a
    | error e => exact .done _
  | starved => exact .starved
  | pause rest ih => cases h
  | act a next ih =>
    cases h with
    | act h => exact .act fun x => ih x (h x)

theorem serve_within {waiting : List (Flow α × Nat)} (h : ∀ task ∈ waiting, task.1.Within 0)
    (t : Tally α) : (serve t waiting).Within 0 := by
  induction waiting generalizing t with
  | nil => exact .done _
  | cons task waiting ih =>
    exact within_bind (h task (List.mem_cons_self ..)) fun a =>
      ih (fun task' ht => h task' (List.mem_cons_of_mem _ ht)) _

/-- A worker without a task runs all that is waiting. -/
theorem claim_unpaused {waiting : List (Flow α × Nat)} (h : ∀ task ∈ waiting, task.1.Within 0)
    (t : Tally α) : (claim silent t waiting).unstopped =
      (serve t waiting).unstopped.map fun t => (.finished, ⟨[], t⟩) := by
  induction waiting generalizing t with
  | nil => rfl
  | cons task waiting ih =>
    obtain ⟨task, index⟩ := task
    have htask : task.Within 0 := h _ (List.mem_cons_self ..)
    rw [claim_cons, Flow.unstopped_check]
    show ((task.advance).bind _).unstopped = ((task.bind _).unstopped).map _
    rw [advance_of_within htask, Flow.map_bind, Flow.unstopped_bind, Flow.unstopped_bind,
      Flow.bind_map]
    refine congrArg (Flow.bind _) (funext fun a => ?_)
    exact ih (fun task' ht => h task' (List.mem_cons_of_mem _ ht)) (t.keep index a)

theorem round_idle_nil (k : Nat) (t : Tally α) :
    (round silent (List.replicate k .idle) ⟨[], t⟩).unstopped =
      .done (.ok (List.replicate k .finished, ⟨[], t⟩)) := by
  induction k with
  | zero => rfl
  | succ k ih =>
    show ((turn silent .idle ⟨[], t⟩).bind fun p => (round silent (List.replicate k .idle) p.2).bind
      fun q => .done (.ok (p.1 :: q.1, q.2))).unstopped = _
    rw [Flow.unstopped_bind]
    show ((round silent (List.replicate k .idle) ⟨[], t⟩).bind _).unstopped = _
    rw [Flow.unstopped_bind, ih]
    rfl

/-- **Workers whose tasks never pause run them in order.** -/
theorem rounds_unpaused {waiting : List (Flow α × Nat)} (h : ∀ task ∈ waiting, task.1.Within 0)
    (k : Nat) (t : Tally α) (n : Nat) :
    (rounds silent (n + 1) (List.replicate (k + 1) .idle) ⟨waiting, t⟩).unstopped =
      ((serve t waiting).map Tally.slots).unstopped.cut n := by
  have hserved : ((serve t waiting).map Tally.slots).Within 0 :=
    within_bind (serve_within h t) fun _ => .done _
  rw [cut_of_within (within_unstopped hserved)]
  show (((turn silent .idle ⟨waiting, t⟩).bind fun p =>
    (round silent (List.replicate k .idle) p.2).bind fun q =>
      .done (.ok (p.1 :: q.1, q.2))).bind fun p =>
        if p.1.all Worker.isFinished then .done (.ok p.2.tally.slots)
        else .pause fun _ => rounds silent n p.1 p.2).unstopped = _
  rw [Flow.bind_assoc, Flow.unstopped_bind, Flow.unstopped_map]
  show ((claim silent t waiting).unstopped.bind _) = _
  rw [claim_unpaused h, Flow.map_bind]
  refine congrArg (Flow.bind _) (funext fun t => ?_)
  rw [Flow.unstopped_bind, Flow.unstopped_bind, round_idle_nil]
  show (ite _ _ _ : Flow (List (Option α))).unstopped = _
  rw [if_pos]
  · rfl
  · simp [Worker.isFinished]

/-! ## All results -/

/-- Served in order, the slots are filled one after another. -/
theorem serve_collect (done : List α) (tasks : List (Flow α)) :
    ((serve ⟨done.map some ++ List.replicate tasks.length none, done.length⟩
      (tasks.zipIdx done.length)).map Tally.slots).bind collect =
        (tasks.mapM id).map (done ++ ·) := by
  induction tasks generalizing done with
  | nil =>
    show collect (done.map some ++ []) = .done (.ok (done ++ []))
    rw [List.append_nil, List.append_nil, collect, mapM_id_eq_some_iff.2 rfl]
  | cons task tasks ih =>
    have hkeep : ∀ a : α,
        (⟨done.map some ++ List.replicate (task :: tasks).length none, done.length⟩ :
          Tally α).keep done.length a =
        ⟨(done ++ [a]).map some ++ List.replicate tasks.length none, (done ++ [a]).length⟩ := by
      intro a
      have hset : (done.map some ++ List.replicate (task :: tasks).length none).set done.length
          (some a) = (done ++ [a]).map some ++ List.replicate tasks.length none := by
        rw [List.length_cons, List.replicate_succ, List.set_append_right _ _ (by simp)]
        simp
      rw [Tally.keep, hset, List.length_append, List.length_singleton]
    rw [Flow.mapM_cons, List.zipIdx_cons, serve, Flow.bind_map, Flow.bind_assoc, Flow.bind_map]
    refine congrArg (Flow.bind _) (funext fun a => ?_)
    have hrest := ih (done ++ [a])
    rw [List.length_append, List.length_singleton] at hrest
    rw [hkeep, List.length_append, List.length_singleton, hrest, Flow.map_map]
    refine congrArg (Flow.map _) (funext fun as => ?_)
    rw [List.append_assoc, List.singleton_append]

theorem run_viaWorkers (n : Nat) {tasks : List (Flow α)} (h : 2 ≤ tasks.length) (cap : Nat) :
    run n tasks cap silent = Flow.check.bind fun _ =>
      (rounds silent n (start tasks cap).1 (start tasks cap).2).bind collect := by
  rw [run_eq_viaWorkers n h]
  rfl

/-- With several tasks, the rounds run them in order. -/
theorem rounds_in_order (n : Nat) {tasks : List (Flow α)} {cap : Nat} (htwo : 2 ≤ tasks.length)
    (h : cap ≤ 1 ∨ ∀ task ∈ tasks, task.Within 0) :
    (rounds silent (n + 1) (start tasks cap).1 (start tasks cap).2).unstopped =
      ((serve ⟨List.replicate tasks.length none, 0⟩ tasks.zipIdx).map
        Tally.slots).unstopped.cut n := by
  unfold start
  rcases h with hcap | hpause
  · have hone : workerCount cap tasks.length = 1 := by
      unfold workerCount
      omega
    rw [hone]
    exact rounds_idle _ _ n
  · obtain ⟨k, hk⟩ : ∃ k, workerCount cap tasks.length = k + 1 := by
      refine ⟨workerCount cap tasks.length - 1, ?_⟩
      unfold workerCount
      omega
    rw [hk]
    refine rounds_unpaused (fun task ht => hpause _ ?_) k _ n
    exact (List.mem_zipIdx' ht).2 ▸ List.getElem_mem _

theorem run_of_short (n : Nat) {tasks : List (Flow α)} (h : ¬2 ≤ tasks.length) (cap : Nat) :
    (run n tasks cap silent).unstopped = (tasks.mapM id).unstopped := by
  match tasks with
  | [] => rfl
  | [task] =>
    rw [Flow.mapM_cons, Flow.unstopped_bind]
    show (task.bind _).unstopped = _
    rw [Flow.unstopped_bind]
    rfl
  | _ :: _ :: _ => exact absurd (by simp) h

theorem serve_all (tasks : List (Flow α)) :
    (((serve ⟨List.replicate tasks.length none, 0⟩ tasks.zipIdx).map
      Tally.slots).unstopped.bind fun slots => (collect slots).unstopped) =
        (tasks.mapM id).unstopped := by
  rw [← Flow.unstopped_bind]
  exact congrArg Flow.unstopped ((serve_collect [] tasks).trans (Flow.bind_pure _))

/-- **A fan-out runs its tasks in order**, if it has one worker, or if no task ever pauses, and if
it is not stopped. Unless it is cut off, it does what they do one after another. -/
theorem run_below (n : Nat) {tasks : List (Flow α)} {cap : Nat}
    (h : cap ≤ 1 ∨ ∀ task ∈ tasks, task.Within 0) :
    (run n tasks cap silent).unstopped.Below (tasks.mapM id).unstopped := by
  by_cases htwo : 2 ≤ tasks.length
  · rw [run_viaWorkers _ htwo, Flow.unstopped_check, Flow.unstopped_bind, ← serve_all]
    cases n with
    | zero => exact .starved _
    | succ n =>
      rw [rounds_in_order n htwo h]
      exact (Flow.cut_below n _).bind fun _ => .refl _
  · rw [run_of_short n htwo]
    exact .refl _

/-- A fan-out is cut off only where its tasks have paused as often as there are rounds. -/
theorem below_run (n : Nat) {tasks : List (Flow α)} {cap : Nat}
    (h : cap ≤ 1 ∨ ∀ task ∈ tasks, task.Within 0) :
    ((tasks.mapM id).unstopped.cut n).Below (run (n + 1) tasks cap silent).unstopped := by
  by_cases htwo : 2 ≤ tasks.length
  · rw [run_viaWorkers _ htwo, Flow.unstopped_check, Flow.unstopped_bind,
      rounds_in_order n htwo h, ← serve_all]
    exact Flow.bind_cut_below n _ _
  · rw [run_of_short (n + 1) htwo]
    exact Flow.cut_below n _

end FanOut

end WorkflowEngine
