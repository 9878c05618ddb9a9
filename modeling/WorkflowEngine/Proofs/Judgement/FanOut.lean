import WorkflowEngine.FanOut
import WorkflowEngine.Proofs.Judgement

/-!
# What may be said of fan-outs

In a fan-out one worker has its turn after the other, and in its turn a worker does one of few
things: it claims a task and runs it to its first pause, it goes on with the task in its hands, it
keeps the result of a task that has ended, it finds that no task is left.

**Invariants** (`FanOut.Situation`). What is so in the middle of a round is a statement on the state
of the judgement, the workers that have had their turn, those whose turn is to come, the first of
which is having it, and the board. It is kept if each thing that a worker may do keeps it
(`FanOut.Kept`).

**From steps to runs.** An invariant that is kept holds at the end of a turn, of a round, and, if it
also outlasts the pauses between two rounds (`FanOut.Outlasts`), of all rounds
(`FanOut.claim_judged`, `FanOut.turn_judged`, `FanOut.round_judged`, `FanOut.rounds_judged`). So it
holds of a whole fan-out, of which a single task is apart, since it needs no workers
(`FanOut.run_judged`).

**Live tasks** (`FanOut.liveTasks`). Many invariants are about the tasks that have not ended, be they
in the hands of a worker or on the board. What a worker does changes one of these.
-/

namespace WorkflowEngine

namespace FanOut

variable {α : Type} {J : Judgement} {report : Report}

/-- A statement on the middle of a round: the state of the judgement, the workers that have had
their turn, the other ones, and the board. -/
abbrev Situation (J : Judgement) (α : Type) :=
  J.State → List (Worker α) → List (Worker α) → Board α → Prop

/-- After a stretch of a task: the worker's turn is over, or the result is kept and the worker is
without a task. -/
def AfterStretch (J : Judgement) (report : Report) (I : Situation J α)
    (done ahead : List (Worker α)) (index : Nat) (b : Board α) : J.State → Flow.Stretch α → Prop
  | s, .suspended rest => I s (done ++ [.busy index rest]) ahead b
  | s, .settled a => J.judges (fun s tally => I s done (.idle :: ahead) { b with tally })
      (b.tally.settle report index a) s

/-- Whatever a worker may do in its turn keeps the invariant. -/
structure Kept (J : Judgement) (report : Report) (I : Situation J α) : Prop where
  claim {s : J.State} {done ahead : List (Worker α)} {task : Flow α} {index : Nat}
    {waiting : List (Flow α × Nat)} {tally : Tally α} :
    I s done (.idle :: ahead) ⟨(task, index) :: waiting, tally⟩ →
      J.judges (AfterStretch J report I done ahead index ⟨waiting, tally⟩)
        (Flow.check.bind fun _ => task.advance) s
  resume {s : J.State} {done ahead : List (Worker α)} {index : Nat} {rest : Flow α} {b : Board α} :
    I s done (.busy index rest :: ahead) b →
      J.judges (AfterStretch J report I done ahead index b) rest.advance s
  nothing {s : J.State} {done ahead : List (Worker α)} {tally : Tally α} :
    I s done (.idle :: ahead) ⟨[], tally⟩ →
      J.judges (fun s _ => I s (done ++ [.finished]) ahead ⟨[], tally⟩) Flow.check s
  finished {s : J.State} {done ahead : List (Worker α)} {b : Board α} :
    I s done (.finished :: ahead) b → I s (done ++ [.finished]) ahead b

variable {I : Situation J α} {s : J.State} {done ahead : List (Worker α)} {b : Board α}

theorem claim_judged (hI : Kept J report I) {waiting : List (Flow α × Nat)} {tally : Tally α}
    (hs : I s done (.idle :: ahead) ⟨waiting, tally⟩) :
    J.judges (fun s p => I s (done ++ [p.1]) ahead p.2) (claim report tally waiting) s := by
  induction waiting generalizing tally s with
  | nil => exact J.bind (hI.nothing hs) fun s _ hs => J.ok hs
  | cons task waiting ih =>
    obtain ⟨task, index⟩ := task
    show J.judges _ (Flow.check.bind fun _ => task.advance.bind _) s
    rw [← Flow.bind_assoc]
    refine J.bind (hI.claim hs) fun s x hx => ?_
    cases x with
    | suspended rest => exact J.ok hx
    | settled a => exact J.bind hx fun s tally hs => ih hs

theorem turn_judged (hI : Kept J report I) {w : Worker α} (hs : I s done (w :: ahead) b) :
    J.judges (fun s p => I s (done ++ [p.1]) ahead p.2) (turn report w b) s := by
  cases w with
  | finished => exact J.ok (hI.finished hs)
  | idle => exact claim_judged hI hs
  | busy index rest =>
    refine J.bind (hI.resume hs) fun s x hx => ?_
    cases x with
    | suspended rest => exact J.ok hx
    | settled a => exact J.bind hx fun s tally hs => claim_judged hI hs

theorem round_judged (hI : Kept J report I) {ws : List (Worker α)} (hs : I s done ws b) :
    J.judges (fun s p => p.1.length = ws.length ∧ I s (done ++ p.1) [] p.2) (round report ws b)
      s := by
  induction ws generalizing s done b with
  | nil =>
    rw [← List.append_nil done] at hs
    exact J.ok ⟨rfl, hs⟩
  | cons w ws ih =>
    refine J.bind (turn_judged hI hs) fun s p hp => ?_
    refine J.bind (ih hp) fun s q hq => J.ok ⟨congrArg (· + 1) hq.1, ?_⟩
    have hsplit := hq.2
    rwa [List.append_assoc] at hsplit

theorem forall_mem_replaced {p : Worker α → Prop} {w w' : Worker α}
    (h : ∀ v ∈ done ++ w :: ahead, p v) (hw : p w') : ∀ v ∈ done ++ w' :: ahead, p v := by
  obtain ⟨hdone, hrest⟩ := List.forall_mem_append.1 h
  exact List.forall_mem_append.2
    ⟨hdone, List.forall_mem_cons.2 ⟨hw, (List.forall_mem_cons.1 hrest).2⟩⟩

/-- What holds of all workers holds of them after a turn of one of them. -/
theorem forall_mem_turned {p : Worker α → Prop} {w w' : Worker α}
    (h : ∀ v ∈ done ++ w :: ahead, p v) (hw : p w') : ∀ v ∈ (done ++ [w']) ++ ahead, p v := by
  intro v hv
  rw [List.append_assoc, List.singleton_append] at hv
  exact forall_mem_replaced h hw v hv

/-- With `n` rounds to come after a round, the invariant holds on, if not all workers are finished;
and if they are, the results are as described. -/
structure Outlasts (J : Judgement) (I : Nat → Situation J α)
    (R : J.State → List (Option α) → Prop) : Prop where
  starved {s : J.State} {ws : List (Worker α)} {b : Board α} : I 0 s [] ws b → J.judges R .starved s
  ended {n : Nat} {s : J.State} {ws : List (Worker α)} {b : Board α} : I (n + 1) s ws [] b →
    ws.all Worker.isFinished = true → R s b.tally.slots
  pause {n : Nat} {s : J.State} {ws : List (Worker α)} {b : Board α}
    {rest : Unit → Flow (List (Option α))} : I (n + 1) s ws [] b →
    ws.all Worker.isFinished = false → (∀ s, I n s [] ws b → J.judges R (rest ()) s) →
      J.judges R (.pause rest) s

theorem rounds_judged {I : Nat → Situation J α} {R : J.State → List (Option α) → Prop}
    (hkept : ∀ n, Kept J report (I n)) (hI : Outlasts J I R) (n : Nat) {ws : List (Worker α)}
    (hs : I n s [] ws b) : J.judges R (rounds report n ws b) s := by
  induction n generalizing s ws b with
  | zero => exact hI.starved hs
  | succ n ih =>
    refine J.bind (round_judged (hkept (n + 1)) hs) fun s p hp => ?_
    obtain ⟨-, hp⟩ := hp
    rw [List.nil_append] at hp
    obtain ⟨ws, b⟩ := p
    dsimp only
    split
    · next hall => exact J.ok (hI.ended hp hall)
    · next hall => exact hI.pause hp (by simpa using hall) fun s hs => ih hs

/-! ## Live tasks -/

/-- The task that a worker has in its hands. -/
def load : Worker α → List (Flow α × Nat)
  | .busy index rest => [(rest, index)]
  | _ => []

/-- The tasks that workers have in their hands, and those that nobody has claimed. -/
def liveTasks (ws : List (Worker α)) (b : Board α) : List (Flow α × Nat) :=
  ws.flatMap load ++ b.waiting

theorem live_idle : liveTasks (done ++ .idle :: ahead) b = liveTasks (done ++ ahead) b := by
  simp [liveTasks, load]

theorem live_finished : liveTasks (done ++ .finished :: ahead) b = liveTasks (done ++ ahead) b := by
  simp [liveTasks, load]

theorem live_busy (index : Nat) (rest : Flow α) :
    (liveTasks (done ++ .busy index rest :: ahead) b).Perm
      ((rest, index) :: liveTasks (done ++ ahead) b) := by
  simp only [liveTasks, load, List.flatMap_append, List.flatMap_cons, List.append_assoc,
    List.singleton_append]
  exact List.perm_middle

theorem live_waiting {ws : List (Worker α)} (task : Flow α × Nat) (waiting : List (Flow α × Nat))
    (tally : Tally α) :
    (liveTasks ws ⟨task :: waiting, tally⟩).Perm (task :: liveTasks ws ⟨waiting, tally⟩) :=
  List.perm_middle

theorem live_start (tasks : List (Flow α)) (cap : Nat) :
    liveTasks (start tasks cap).1 (start tasks cap).2 = tasks.zipIdx := by
  simp [liveTasks, start, load]

theorem live_of_finished {ws : List (Worker α)} (h : ws.all Worker.isFinished = true) :
    liveTasks ws b = b.waiting := by
  have hnone : ws.flatMap load = [] := by
    refine List.flatMap_eq_nil_iff.2 fun w hw => ?_
    have hfinished := List.all_eq_true.1 h w hw
    cases w with
    | finished => rfl
    | idle => cases hfinished
    | busy index rest => cases hfinished
  rw [liveTasks, hnone, List.nil_append]

/-! ## The whole -/

/-- A single task is run without workers, and kept and reported like any other. -/
theorem run_single (fuel : Nat) (task : Flow α) (cap : Nat) (report : Report) :
    run fuel [task] cap report = Flow.check.bind fun _ => task.bind fun a =>
      ((⟨[none], 0⟩ : Tally α).settle report 0 a).bind fun _ => .done (.ok [a]) := by
  refine congrArg (Flow.bind _) (funext fun _ => congrArg (Flow.bind _) (funext fun a => ?_))
  show Flow.bind _ _ = Flow.bind (Flow.bind _ _) _
  rw [Flow.bind_assoc]
  refine congrArg (Flow.bind _) (funext fun _ => ?_)
  show Flow.bind _ _ = Flow.bind (Flow.bind _ _) _
  rw [Flow.bind_assoc]
  rfl

/-- **A fan-out.** A single task needs no workers; of several, the results are in their slots in
the end. -/
theorem run_judged {I : Nat → Situation J α} {R : J.State → List (Option α) → Prop}
    {P : J.State → List α → Prop} (hkept : ∀ n, Kept J report (I n)) (hI : Outlasts J I R)
    {tasks : List (Flow α)} (fuel cap : Nat) (hnone : tasks = [] → P s [])
    (hone : ∀ task, tasks = [task] → J.judges (fun s a => J.judges (fun s _ => P s [a])
      ((⟨[none], 0⟩ : Tally α).settle report 0 a) s) (Flow.check.bind fun _ => task) s)
    (hbegun : 2 ≤ tasks.length → J.judges (fun s _ =>
      I fuel s [] (start tasks cap).1 (start tasks cap).2) Flow.check s)
    (hresults : ∀ s results, R s (results.map some) → P s results)
    (hunfilled : ∀ s slots, R s slots → (∀ results : List α, slots ≠ results.map some) →
      J.judges P (Flow.fail (.other "fan-out finished with unfilled result slots")) s) :
    J.judges P (run fuel tasks cap report) s := by
  match tasks with
  | [] => exact J.ok (hnone rfl)
  | [task] =>
    rw [run_single, ← Flow.bind_assoc]
    refine J.bind (hone task rfl) fun s a ha => ?_
    exact J.bind ha fun s _ hs => J.ok hs
  | task :: other :: tasks =>
    refine J.bind (hbegun (by simp)) fun s _ hs => ?_
    refine J.bind (rounds_judged hkept hI fuel hs) fun s slots hslots => ?_
    split
    · next results hall =>
      rw [mapM_id_eq_some_iff] at hall
      exact J.ok (hresults s results (hall ▸ hslots))
    · next hnone =>
      refine hunfilled s slots hslots fun results hall => ?_
      rw [mapM_id_eq_some_iff.2 hall] at hnone
      cases hnone

end FanOut

end WorkflowEngine
