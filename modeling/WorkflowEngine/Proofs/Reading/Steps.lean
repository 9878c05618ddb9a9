import WorkflowEngine.Proofs.Reading.Runner

/-!
# All steps of a run, and what the plain reading takes

`Runner.follows_reading` is about calls of `Runner.next` to the end. `Runner.stepsFrom` makes these
calls too, but it gives up at the first fault. So what it comes to is that of all that is yielded:
the steps, or the fault if there is one (`Runner.outcome`), and therefore that of the plain reading:
each of the two is below the other, cut off later (`Runner.bounded_steps`, `Runner.bounded_taken`).
-/

namespace WorkflowEngine

namespace Flow

variable {α β γ : Type}

theorem map_map (f : Flow α) (g : α → β) (h : β → γ) : (f.map g).map h = f.map fun a => h (g a) :=
  bind_assoc _ _ _

theorem map_bind (f : Flow α) (g : α → β) (k : β → Flow γ) :
    (f.map g).bind k = f.bind fun a => k (g a) := bind_assoc _ _ _

theorem bind_map (f : Flow α) (k : α → Flow β) (g : β → γ) :
    (f.bind k).map g = f.bind fun a => (k a).map g := bind_assoc _ _ _

theorem Below.map {f g : Flow α} (h : f.Below g) (k : α → β) : (f.map k).Below (g.map k) :=
  h.bind fun _ => .refl _

theorem Bounded.trans {f g h : Nat → Flow α} (hfg : Bounded f g) (hgh : Bounded g h) :
    Bounded f h := by
  intro n
  obtain ⟨m, hm⟩ := hfg n
  obtain ⟨k, hk⟩ := hgh m
  exact ⟨k, hm.trans hk⟩

theorem Bounded.bind {f g : Nat → Flow α} (h : Bounded f g) (k : α → Flow β) :
    Bounded (fun n => (f n).bind k) fun n => (g n).bind k := by
  intro n
  obtain ⟨m, hm⟩ := h n
  exact ⟨m, hm.bind fun _ => .refl _⟩

end Flow

namespace Runner

variable {d : Dispatcher}

/-- What is yielded, as a whole: all steps, or the fault. -/
def outcome (items : List (Except Fault Step)) : Except Fault (List Step) := items.mapM id

theorem outcome_oks (steps : List Step) : outcome (steps.map .ok) = .ok steps := by
  induction steps with
  | nil => rfl
  | cons step steps ih =>
    unfold outcome at ih ⊢
    rw [List.map_cons, List.mapM_cons, ih]
    rfl

theorem outcome_error (steps : List Step) (e : Fault) :
    outcome (steps.map .ok ++ [.error e]) = .error e := by
  induction steps with
  | nil => rfl
  | cons step steps ih =>
    unfold outcome at ih ⊢
    rw [List.map_cons, List.cons_append, List.mapM_cons, ih]
    rfl

/-- All steps or the first fault, from calls of `next`. -/
def outcomeFrom (d : Dispatcher) (taken : List Step) (n : Nat) (r : Runner) : Flow (List Step) :=
  (streamFrom d (taken.map .ok) n r).bind fun items => .done (outcome items)

/-! ## From call to call -/

/-- What is made of the end of an advance: the next step, and with it the further ones. -/
def gather (d : Dispatcher) (taken : List Step) (n : Nat) (r : Runner)
    (x : Except Fault (Option Step × Runner)) : Flow (List Step) :=
  (r.deliver x).bind fun
    | (none, _) => .done (.ok taken.reverse)
    | (some (.ok step), r) => (stepsFrom d (step :: taken) n r).map Prod.fst
    | (some (.error e), _) => .done (.error e)

theorem stepsFrom_succ (taken : List Step) (n : Nat) {r : Runner} (h : r.phase = .running) :
    (stepsFrom d taken (n + 1) r).map Prod.fst =
      (advance d n r).attempt.bind (gather d taken n r) := by
  rw [stepsFrom, next_of_running h]
  refine (Flow.bind_map _ _ _).trans ((Flow.bind_assoc _ _ _).trans ?_)
  refine congrArg (Flow.bind _) (funext fun x => congrArg (Flow.bind _) (funext fun p => ?_))
  rcases p with ⟨_ | _ | step, r⟩ <;> rfl

theorem outcomeFrom_succ (taken : List Step) (n : Nat) {r : Runner} (h : r.phase = .running) :
    outcomeFrom d taken (n + 1) r = (advance d n r).attempt.bind fun x =>
      (collect d (taken.map .ok) n r x).bind fun items => .done (outcome items) := by
  rw [outcomeFrom, streamFrom_succ _ _ h, Flow.bind_assoc]

theorem stepsFrom_of_pending (taken : List Step) (n : Nat) {r : Runner} (h : r.phase = .pending) :
    (stepsFrom d taken (n + 1) r).map Prod.fst = (r.announce .workflowStart).bind fun _ =>
      (stepsFrom d taken (n + 1) { r with phase := .running }).map Prod.fst := by
  rw [stepsFrom, next_of_pending h]
  exact (congrArg (Flow.map · _) (Flow.bind_assoc _ _ _)).trans (Flow.bind_map _ _ _)

theorem outcomeFrom_of_pending (taken : List Step) (n : Nat) {r : Runner}
    (h : r.phase = .pending) : outcomeFrom d taken (n + 1) r =
      (r.announce .workflowStart).bind fun _ =>
        outcomeFrom d taken (n + 1) { r with phase := .running } := by
  rw [outcomeFrom, streamFrom, next_of_pending h]
  exact (congrArg (Flow.bind · _) (Flow.bind_assoc _ _ _)).trans (Flow.bind_assoc _ _ _)

theorem collect_nothing (taken : List Step) (m n : Nat) (r s : Runner) :
    (collect d (taken.map .ok) m r (.ok (none, s))).bind (fun items => .done (outcome items)) =
      gather d taken n r (.ok (none, s)) := by
  have hall : outcome (taken.map .ok).reverse = .ok taken.reverse := by
    rw [← List.map_reverse, outcome_oks]
  unfold collect gather
  rw [Flow.bind_assoc]
  refine (Flow.bind_assoc _ _ _).trans (Eq.trans ?_ (Flow.bind_assoc _ _ _).symm)
  exact congrArg (Flow.bind _) (funext fun _ => congrArg Flow.done hall)

/-- The outcome of all calls is below that of the calls up to the first fault. -/
theorem outcomeFrom_below (taken : List Step) (n : Nat) (r : Runner) :
    (outcomeFrom d taken n r).Below ((stepsFrom d taken n r).map Prod.fst) := by
  induction n generalizing taken r with
  | zero => exact .starved _
  | succ n ih =>
    have hrunning : ∀ r : Runner, r.phase = .running →
        (outcomeFrom d taken (n + 1) r).Below ((stepsFrom d taken (n + 1) r).map Prod.fst) := by
      intro r h
      rw [outcomeFrom_succ _ _ h, stepsFrom_succ _ _ h]
      refine .bind (.refl _) fun x => ?_
      match x with
      | .ok (some step, s) => exact ih (step :: taken) s
      | .ok (none, s) =>
        rw [collect_nothing taken n n]
        exact .refl _
      | .error e =>
        have herror : outcome ((taken.map .ok).reverse ++ [.error e]) = .error e := by
          rw [← List.map_reverse, outcome_error]
        refine ((collect_error_below _ n r e).bind fun _ => .refl _).trans ?_
        show (Flow.done (outcome _)).Below _
        rw [herror]
        exact .refl _
    match h : r.phase with
    | .finished =>
      rw [outcomeFrom, streamFrom, stepsFrom, next_of_finished h]
      show (Flow.done (outcome _)).Below _
      rw [← List.map_reverse, outcome_oks]
      exact .refl _
    | .running => exact hrunning r h
    | .pending =>
      rw [outcomeFrom_of_pending _ _ h, stepsFrom_of_pending _ _ h]
      exact .bind (.refl _) fun _ => hrunning _ rfl

/-- The calls up to the first fault are below all calls, cut off one call later. -/
theorem below_outcomeFrom (taken : List Step) (n : Nat) (r : Runner) :
    ((stepsFrom d taken n r).map Prod.fst).Below (outcomeFrom d taken (n + 1) r) := by
  induction n generalizing taken r with
  | zero => exact .starved _
  | succ n ih =>
    have hrunning : ∀ r : Runner, r.phase = .running →
        ((stepsFrom d taken (n + 1) r).map Prod.fst).Below (outcomeFrom d taken (n + 2) r) := by
      intro r h
      rw [outcomeFrom_succ _ _ h, stepsFrom_succ _ _ h]
      refine .bind (advance_below_succ n r).attempt fun x => ?_
      match x with
      | .ok (some step, s) => exact ih (step :: taken) s
      | .ok (none, s) =>
        rw [collect_nothing taken (n + 1) n]
        exact .refl _
      | .error e =>
        have herror : outcome ((taken.map .ok).reverse ++ [.error e]) = .error e := by
          rw [← List.map_reverse, outcome_error]
        rw [collect_error_succ]
        show Flow.Below _ (Flow.done (outcome _))
        rw [herror]
        exact .refl _
    match h : r.phase with
    | .finished =>
      rw [outcomeFrom, streamFrom, stepsFrom, next_of_finished h, next_of_finished h]
      show Flow.Below _ (Flow.done (outcome _))
      rw [← List.map_reverse, outcome_oks]
      exact .refl _
    | .running => exact hrunning r h
    | .pending =>
      rw [outcomeFrom_of_pending _ _ h, stepsFrom_of_pending _ _ h]
      exact .bind (.refl _) fun _ => hrunning _ rfl

theorem stepsFrom_below_succ (taken : List Step) (n : Nat) (r : Runner) :
    (stepsFrom d taken n r).Below (stepsFrom d taken (n + 1) r) := by
  induction n generalizing taken r with
  | zero => exact .starved _
  | succ n ih =>
    unfold stepsFrom
    refine .bind (next_below_succ n r) fun p => ?_
    rcases p with ⟨_ | _ | step, r⟩
    · exact .refl _
    · exact .refl _
    · exact ih _ _

theorem stepsFrom_mono {m n : Nat} (h : m ≤ n) (taken : List Step) (r : Runner) :
    (stepsFrom d taken m r).Below (stepsFrom d taken n r) :=
  Flow.below_of_le (fun n => stepsFrom_below_succ taken n r) h

end Runner

/-! ## Against the reading -/

namespace Reading

/-- The steps that a reading takes, or its fault. -/
def steps (f : Reading Unit) : Flow (List Step) := (f []).bind fun
  | (.ok (), taken) => .done (.ok taken)
  | (.error e, _) => .done (.error e)

theorem outcome_stream (f : Reading Unit) :
    (f.stream.bind fun items => .done (Runner.outcome items)) = f.steps := by
  refine (Flow.map_bind _ _ _).trans (congrArg (Flow.bind _) (funext fun p => ?_))
  obtain ⟨_ | _, taken⟩ := p
  · exact congrArg Flow.done (Runner.outcome_error taken _)
  · exact congrArg Flow.done (Runner.outcome_oks taken)

theorem Below.steps {f g : Reading Unit} (h : f.Below g) : f.steps.Below g.steps :=
  (h []).bind fun _ => .refl _

end Reading

namespace Runner

theorem bounded_steps (d : Dispatcher) (topLevel : Bool) (list : List Op) (context : Handle) :
    Flow.Bounded (fun n => (stepsFrom d [] n (start topLevel list context)).map Prod.fst)
      (fun n => (Reading.run d topLevel context n list).steps) := by
  intro n
  obtain ⟨m, hm⟩ := (Reading.bounded_reading d topLevel list context).bind
    (fun items => .done (outcome items)) (n + 1)
  refine ⟨m, (below_outcomeFrom [] n _).trans ?_⟩
  simp only [Reading.outcome_stream] at hm
  exact hm

/-- What the reading takes is below all steps of a run, cut off later, and how much later depends on
nothing else. -/
theorem taken_below_steps (n : Nat) :
    ∃ m, ∀ (d : Dispatcher) (topLevel : Bool) (list : List Op) (context : Handle),
      (Reading.run d topLevel context n list).steps.Below
        ((stepsFrom d [] m (start topLevel list context)).map Prod.fst) := by
  obtain ⟨m, hm⟩ := Reading.stream_below_calls n
  refine ⟨m, fun d topLevel list context => Flow.Below.trans ?_ (outcomeFrom_below [] m _)⟩
  rw [← Reading.outcome_stream]
  exact (hm d topLevel list context).bind fun _ => .refl _

theorem bounded_taken (d : Dispatcher) (topLevel : Bool) (list : List Op) (context : Handle) :
    Flow.Bounded (fun n => (Reading.run d topLevel context n list).steps)
      (fun n => (stepsFrom d [] n (start topLevel list context)).map Prod.fst) := by
  intro n
  obtain ⟨m, hm⟩ := taken_below_steps n
  exact ⟨m, hm d topLevel list context⟩

end Runner

end WorkflowEngine
