import WorkflowEngine.Proofs.Binding
import WorkflowEngine.Proofs.Reading.Parts

/-!
# The ways to run a workflow

A workflow can be run by calling `Runner.next` until it yields nothing, as a stream, to its end for
the context alone, or with all steps kept; and its ops can be run without the workflow. All these
ways go through the runner, but each of them stops, keeps and discards in its own way.

**Theorem (`Workflow.drivers_agree`).** They do the same and come to the same.

* *Calls and stream.* Calling `next` until it yields nothing (`Runner.drain`) and the stream agree
  at every moment. What they yield are steps, numbered from 0 on, and at most one fault, which comes
  last (`Runner.items_of_stream`).
* *Stream and execution.* An execution stops at the first fault. The stream ends there as well, so
  the two agree on the steps, or on the fault.
* *Top level and nested.* A top-level run is the nested run of the same ops between two
  announcements (`Runner.steps_announced`). It does not depend on what the runner keeps beside its
  frames (`Runner.advance_level`), and this is shown by induction on the rounds of an advance.

What a finished execution keeps is read off the trace of the nested run (`Runner.steps_serial`):
its steps are the whole executions that the trace is made of.
-/

namespace WorkflowEngine

/-! ## Calls to the end -/

namespace Runner

variable {d : Dispatcher}

/-- What `k` calls of `next` yield if the last of them yields nothing. Otherwise they are too few to
come to the end. -/
def drain (d : Dispatcher) (n k : Nat) (r : Runner) : Flow (List (Except Fault Step)) :=
  (calls d n k r).bind fun p => if p.1.length < k then .done (.ok p.1) else .starved

/-- What a call has yielded, and then what the others do. -/
def prepend (d : Dispatcher) (n k : Nat) :
    Option (Except Fault Step) × Runner → Flow (List (Except Fault Step))
  | (none, _) => .done (.ok [])
  | (some item, r) => (drain d n k r).map (item :: ·)

theorem drain_succ (n k : Nat) (r : Runner) :
    drain d n (k + 1) r = (next d n r).bind (prepend d n k) := by
  unfold drain calls
  refine (Flow.bind_assoc _ _ _).trans (congrArg (Flow.bind _) (funext fun p => ?_))
  obtain ⟨_ | item, s⟩ := p
  · rfl
  · show ((calls d n k s).bind _).bind _ = ((calls d n k s).bind _).bind _
    rw [Flow.bind_assoc, Flow.bind_assoc]
    refine congrArg (Flow.bind _) (funext fun q => ?_)
    obtain ⟨items, s⟩ := q
    show (if items.length + 1 < k + 1 then _ else _) = (if items.length < k then _ else _ : Flow _).bind _
    by_cases hlt : items.length < k
    · rw [if_pos hlt, if_pos (Nat.succ_lt_succ hlt)]
      rfl
    · rw [if_neg hlt, if_neg fun h => hlt (Nat.lt_of_succ_lt_succ h)]
      rfl

/-- A stream makes no more calls than it has steps to go. -/
theorem streamFrom_below_drain {n m k : Nat} (hm : n ≤ m) (hk : n ≤ k)
    (yielded : List (Except Fault Step)) (r : Runner) :
    (streamFrom d yielded n r).Below ((drain d m k r).map (yielded.reverse ++ ·)) := by
  induction n generalizing yielded r k with
  | zero => exact .starved _
  | succ n ih =>
    obtain ⟨k, rfl⟩ : ∃ j, k = j + 1 := ⟨k - 1, by omega⟩
    rw [streamFrom, drain_succ, Flow.bind_map]
    refine .bind (next_below (Nat.le_of_succ_le hm) r) fun p => ?_
    obtain ⟨_ | item, s⟩ := p
    · have hnil : yielded.reverse ++ [] = yielded.reverse := List.append_nil _
      show (Flow.done (.ok yielded.reverse)).Below (.done (.ok (yielded.reverse ++ [])))
      rw [hnil]
      exact .refl _
    · have hmore := ih (Nat.le_of_succ_le hm) (Nat.le_of_succ_le_succ hk) (item :: yielded) s
      simp only [List.reverse_cons, List.append_assoc, List.singleton_append] at hmore
      show (streamFrom d (item :: yielded) n s).Below (((drain d m k s).map _).map _)
      rw [Flow.map_map]
      exact hmore

/-- As many more steps as there are calls are enough for a stream. -/
theorem drain_below_streamFrom (n k : Nat) (yielded : List (Except Fault Step)) (r : Runner) :
    ((drain d n k r).map (yielded.reverse ++ ·)).Below (streamFrom d yielded (n + k) r) := by
  induction k generalizing yielded r with
  | zero => exact .starved _
  | succ k ih =>
    rw [← Nat.add_assoc, streamFrom, drain_succ, Flow.bind_map]
    refine .bind (next_below (Nat.le_add_right n k) r) fun p => ?_
    obtain ⟨_ | item, s⟩ := p
    · have hnil : yielded.reverse ++ [] = yielded.reverse := List.append_nil _
      show (Flow.done (.ok (yielded.reverse ++ []))).Below (.done (.ok yielded.reverse))
      rw [hnil]
      exact .refl _
    · have hmore := ih (item :: yielded) s
      simp only [List.reverse_cons, List.append_assoc, List.singleton_append] at hmore
      show (((drain d n k s).map _).map _).Below (streamFrom d (item :: yielded) (n + k) s)
      rw [Flow.map_map]
      exact hmore

/-- **Calling until nothing is yielded is the stream.** -/
theorem agree_drain (r : Runner) :
    Flow.Agree (fun n => streamFrom d [] n r) (fun n => drain d n n r) := by
  have hsame : ∀ n k, (drain d n k r).map (([] : List (Except Fault Step)).reverse ++ ·) =
      drain d n k r := fun n k => Flow.bind_pure _
  apply Flow.Agree.of_bounded
  · intro n
    refine ⟨n, ?_⟩
    have hbelow := streamFrom_below_drain (d := d) (Nat.le_refl n) (Nat.le_refl n) [] r
    rwa [hsame] at hbelow
  · intro n
    refine ⟨n + n, ?_⟩
    have hbelow := drain_below_streamFrom (d := d) n n [] r
    rwa [hsame] at hbelow

/-- The stream yields numbered steps, and then at most one fault. -/
theorem items_of_stream {topLevel : Bool} {list : List Op} {context : Handle} {n : Nat}
    {t : List Mark} {items : List (Except Fault Step)}
    (h : (streamFrom d [] n (start topLevel list context)).Goes t (.done (.ok items))) :
    ∃ steps, Reading.Indexed steps ∧
      (items = steps.map .ok ∨ ∃ fault, items = steps.map .ok ++ [.error fault]) := by
  obtain ⟨m, hm⟩ := (Reading.bounded_reading d topLevel list context).ends ⟨n, h⟩
  obtain ⟨before, after, p, rfl, hread, hend⟩ := hm.of_bind
  have hindexed : Reading.Indexed p.2 :=
    Reading.numbers_run d topLevel context m list _ _ _ _ Reading.indexed_nil hread
  cases hend
  obtain ⟨fault | _, steps⟩ := p
  · exact ⟨steps, hindexed, .inr ⟨fault, rfl⟩⟩
  · exact ⟨steps, hindexed, .inl rfl⟩

/-! ## Top-level runs and nested ones -/

/-- An advance does not depend on whether the run is a top-level one, and changes only what the
frames are and how many ops have been executed. -/
theorem advance_level (b c : Bool) (n : Nat) (p : Handle) (frames : List Frame) (k : Nat) :
    advance d n ⟨b, p, frames, .running, k⟩ = (advance d n ⟨c, p, frames, .running, k⟩).map fun x =>
      (x.1, ⟨b, p, x.2.frames, .running, x.2.dispatched⟩) := by
  induction n generalizing frames with
  | zero => rfl
  | succ n ih =>
    cases frames with
    | nil => rfl
    | cons f outer =>
      cases hrest : f.rest with
      | nil =>
        rw [advance_again rfl hrest, advance_again rfl hrest, Flow.bind_map]
        exact congrArg (Flow.bind _) (funext fun o => ih _)
      | cons op rest =>
        cases hmode : LoopMode.ofKind? op.kind with
        | some mode =>
          rw [advance_enter rfl hrest hmode, advance_enter rfl hrest hmode, Flow.bind_map]
          refine congrArg (Flow.bind _) (funext fun _ => ?_)
          rw [Flow.bind_map]
          exact congrArg (Flow.bind _) (funext fun o => ih _)
        | none =>
          rw [advance_step rfl hrest hmode, advance_step rfl hrest hmode, Flow.bind_map]
          refine congrArg (Flow.bind _) (funext fun _ => ?_)
          rw [Flow.bind_map]
          rfl

/-- The end of a top-level run that has come to the end of its ops. -/
def close (p : Handle) (x : List Step × Runner) : Flow (List Step × Runner) :=
  (Flow.announce .workflowDone .noop p).bind fun _ =>
    .done (.ok (x.1, ⟨true, p, x.2.frames, .finished, x.2.dispatched⟩))

theorem stepsFrom_announced (n : Nat) (taken : List Step) (p : Handle) (frames : List Frame)
    (k : Nat) : stepsFrom d taken n ⟨true, p, frames, .running, k⟩ =
      (stepsFrom d taken n (underway p frames k)).bind (close p) := by
  induction n generalizing taken frames k with
  | zero => rfl
  | succ n ih =>
    have hnested : advance d n (underway p frames k) =
        (advance d n (underway p frames k)).map fun x =>
          (x.1, ⟨false, p, x.2.frames, .running, x.2.dispatched⟩) :=
      advance_level false false n p frames k
    rw [stepsFrom_running rfl, stepsFrom_underway, following, following, hnested,
      advance_level true false n p frames k, Flow.map_bind, Flow.map_bind, Flow.bind_assoc]
    refine congrArg (Flow.bind _) (funext fun x => ?_)
    obtain ⟨_ | step, s⟩ := x
    · rfl
    · exact ih _ _ _

/-- **A top-level run is the nested run of its ops between two announcements.** -/
theorem steps_announced {n : Nat} (hfuel : d.fuel = n + 1) (list : List Op) (p : Handle) :
    (start true list p).steps d = (Flow.announce .workflowStart .noop p).bind fun _ =>
      ((start false list p).steps d).bind (close p) := by
  rw [steps, steps, hfuel, stepsFrom_start, ← stepsFrom_announced]
  show (next d n (start true list p)).bind _ = _
  rw [next_of_pending rfl]
  rfl

end Runner

/-! ## What an execution keeps -/

theorem LeavesBound.announced {t : List Mark} {p : Handle} {key : String} {v : Value}
    (h : LeavesBound t p key v) (e : Event) :
    LeavesBound (t ++ [.did (.announce e) ()]) p key v := by
  obtain ⟨before, after, rfl, hpaused, hbound⟩ := h
  refine ⟨before, after ++ [.did (.announce e) ()], by simp, by simp [hpaused], ?_⟩
  intro env w hp
  rw [World.replay_append]
  exact hbound env w hp

theorem Runner.numbered_indexed (legs : List Leg) : Reading.Indexed (Runner.numbered legs) := by
  intro i step hi
  simp only [Runner.numbered, List.getElem?_map, List.getElem?_zipIdx, Option.map_map,
    Option.map_eq_some_iff] at hi
  obtain ⟨leg, -, rfl⟩ := hi
  exact Nat.zero_add i

theorem Runner.numbered_getLast? (legs : List Leg) :
    (Runner.numbered legs).getLast?.map Step.result = legs.getLast?.map Leg.result := by
  rw [← List.getLast?_map, Runner.numbered_results, List.getLast?_map]

theorem Runner.length_numbered (legs : List Leg) : (Runner.numbered legs).length = legs.length := by
  simp [Runner.numbered]

/-- How long runs may go on makes no difference to single ops. -/
theorem Legs.of_upTo {own : Mark → Prop} {d : Dispatcher} {k : Nat} {good : Op → Handle → Prop}
    {t : List Mark} {legs : List Leg} (h : Legs own (d.upTo k) good t legs) :
    Legs own d good t legs := by
  induction h with
  | nil => exact .nil
  | own hm _ ih => exact .own hm ih
  | leg hop hu _ ih => exact .leg hop hu ih

/-- The start of a top-level run is announced. -/
abbrev Mark.started (p : Handle) : Mark := .did (.announce ⟨.workflowStart, .noop, p⟩) ()

/-- The end of a top-level run is announced. -/
abbrev Mark.finished (p : Handle) : Mark := .did (.announce ⟨.workflowDone, .noop, p⟩) ()

/-- What is kept of a run that has come to its end. The steps are the ops that were executed, whole
and in order, and nothing else was done between the two announcements but quiet marks; they are
numbered from 0 on. The context is the one the run was given, and the result is that of the last
step, which stays bound in the context under the reserved name. -/
structure Execution.Keeps (d : Dispatcher) (list : List Op) (p : Handle) (t : List Mark)
    (x : Execution) : Prop where
  dispatched : ∃ between legs,
    t = .started p :: (between ++ [.finished p]) ∧
    Legs Mark.IsQuiet d (Runner.Serves list p) between legs ∧
    x.steps = Runner.numbered legs ∧ x.steps.length = legs.length
  indexed : Reading.Indexed x.steps
  context : x.context = p
  result : x.result = (x.steps.getLast?.map Step.result).getD .null
  bound : x.steps ≠ [] → LeavesBound t p Bindings.outputKey x.result

namespace Workflow

variable {d : Dispatcher} {n : Nat}

/-- An execution runs the ops as a nested run does, between two announcements. -/
theorem execute_eq (hfuel : d.fuel = n + 1) (w : Workflow) (p : Handle) :
    w.execute d p = (Flow.announce .workflowStart .noop p).bind fun _ =>
      ((Runner.start false w.ops p).steps d).bind fun x =>
        (Flow.announce .workflowDone .noop p).bind fun _ =>
          .done (.ok ⟨(x.1.getLast?.map Step.result).getD .null, x.1, p⟩) := by
  show ((Runner.start true w.ops p).steps d).bind _ = _
  rw [Runner.steps_announced hfuel, Flow.bind_assoc]
  refine congrArg (Flow.bind _) (funext fun _ => ?_)
  exact Flow.bind_assoc _ _ _

/-- What an execution keeps when it has come to its end. -/
theorem keeps_of_execute {e : Engine} {m n : Nat} {w : Workflow} {p : Handle} {t : List Mark}
    {x : Execution} (h : (w.execute ((e.dispatcher m).upTo n) p).Goes t (.done (.ok x))) :
    x.Keeps ((e.dispatcher m).upTo n) w.ops p t := by
  cases n with
  | zero => cases h
  | succ n =>
    rw [execute_eq rfl] at h
    cases h with
    | @act _ _ u _ _ h =>
      obtain ⟨between, last, y, rfl, hrun, hend⟩ :=
        Flow.Goes.of_bind (f := (Runner.start false w.ops p).steps _) h
      have hserial := Runner.steps_serial (fun _ => id) (d := (e.dispatcher m).upTo (n + 1)) w.ops p
      obtain ⟨legs, hlegs, hsteps⟩ := hserial.goes_ok hrun
      rw [List.nil_append] at hsteps
      cases hend with
      | act _ hend =>
        cases hend
        refine ⟨⟨between, legs, rfl, hlegs, hsteps, ?_⟩, ?_, rfl, rfl, fun hne => ?_⟩
        · rw [hsteps, Runner.length_numbered]
        · rw [hsteps]
          exact Runner.numbered_indexed legs
        · have hlegs' : legs ≠ [] := by
            rintro rfl
            exact hne hsteps
          have hlast := List.getLast?_eq_some_getLast hlegs'
          obtain ⟨-, -, hcontext⟩ := hlegs.good_of_mem _ (List.getLast_mem hlegs')
          have hbound := (hlegs.of_upTo.leavesBound hlast (.inl rfl)).announced
            ⟨.workflowDone, .noop, p⟩
          rw [hcontext] at hbound
          have hresult : (y.1.getLast?.map Step.result).getD .null = (legs.getLast hlegs').result := by
            rw [hsteps, Runner.numbered_getLast?, hlast]
            rfl
          rw [hresult]
          exact hbound.prepend [.started p]

/-- The results of all steps are those of the ops, run without the workflow. -/
theorem execute_results (hfuel : d.fuel = n + 1) (w : Workflow) (p : Handle) :
    (w.execute d p).map (fun x => x.steps.map Step.result) =
      (Flow.announce .workflowStart .noop p).bind fun _ => (d.runOps w.ops p).bind fun results =>
        (Flow.announce .workflowDone .noop p).bind fun _ => .done (.ok results) := by
  rw [execute_eq hfuel, Flow.bind_map]
  refine congrArg (Flow.bind _) (funext fun _ => ?_)
  show _ = (((Runner.start false w.ops p).steps d).bind _).bind _
  rw [Flow.bind_map, Flow.bind_assoc]
  rfl

theorem ops_foldl_add (w : Workflow) (ops : List Op) :
    (ops.foldl add w).ops = w.ops ++ ops := by
  induction ops generalizing w with
  | nil => exact (List.append_nil _).symm
  | cons op ops ih => rw [List.foldl_cons, ih, add, List.append_assoc, List.singleton_append]

theorem run_congr {v w : Workflow} (h : v.ops = w.ops) (d : Dispatcher) (p : Handle) :
    v.run d p = w.run d p := by
  unfold run runner
  rw [h]

end Workflow

namespace Dispatcher

theorem next_upTo (d : Dispatcher) (k n : Nat) (r : Runner) :
    Runner.next (d.upTo k) n r = Runner.next d n r := by
  unfold Runner.next
  rw [advance_upTo]

theorem streamFrom_upTo (d : Dispatcher) (k : Nat) (yielded : List (Except Fault Step)) (n : Nat)
    (r : Runner) : Runner.streamFrom (d.upTo k) yielded n r = Runner.streamFrom d yielded n r := by
  induction n generalizing yielded r with
  | zero => rfl
  | succ n ih =>
    unfold Runner.streamFrom
    simp only [ih, next_upTo]

theorem calls_upTo (d : Dispatcher) (k n j : Nat) (r : Runner) :
    Runner.calls (d.upTo k) n j r = Runner.calls d n j r := by
  induction j generalizing r with
  | zero => rfl
  | succ j ih =>
    unfold Runner.calls
    simp only [ih, next_upTo]

end Dispatcher

/-! ## The theorem -/

/-- **All ways to run a workflow do the same and come to the same.** Whatever the workflow, the
engine, the context and the answers, and at every moment of a run:

* what a builder has put together runs as the workflow does;
* a run to the end is an execution of which only the context is kept;
* an execution comes to the steps that the stream yields, or to the fault that the stream ends with;
* the stream is what calling `next` until it yields nothing comes to;
* a stream yields numbered steps, and at most one fault, after which nothing comes;
* of a finished execution, `Execution.Keeps` says what its steps, its context and its result are;
* running the ops without the workflow does the same between the two announcements, with the same
  results or the same fault. -/
theorem Workflow.drivers_agree (e : Engine) (m : Nat) (w : Workflow) (p : Handle) :
    let d : Nat → Dispatcher := fun n => (e.dispatcher m).upTo n
    (∀ n name text, (w.ops.foldl add (empty name)).run (d n) p = w.run (d n) p ∧
      ((w.ops.foldl add (empty name)).describe text).run (d n) p = w.run (d n) p) ∧
    (∀ n, w.run (d n) p = (w.runner p).finish (d n) ∧
      (w.runner p).finish (d n) = (w.execute (d n) p).map Execution.context) ∧
    Flow.Agree (fun n => (w.execute (d n) p).map Execution.steps)
      (fun n => ((w.runner p).stream (d n)).bind fun items => .done (Runner.outcome items)) ∧
    Flow.Agree (fun n => (w.runner p).stream (d n))
      (fun n => Runner.drain (d n) n n (w.runner p)) ∧
    (∀ n t items, ((w.runner p).stream (d n)).Goes t (.done (.ok items)) →
      ∃ steps, Reading.Indexed steps ∧
        (items = steps.map .ok ∨ ∃ fault, items = steps.map .ok ++ [.error fault])) ∧
    (∀ n t x, (w.execute (d n) p).Goes t (.done (.ok x)) → x.Keeps (d n) w.ops p t) ∧
    ∀ n, (w.execute (d (n + 1)) p).map (fun x => x.steps.map Step.result) =
      (Flow.announce .workflowStart .noop p).bind fun _ =>
        ((d (n + 1)).runOps w.ops p).bind fun results =>
          (Flow.announce .workflowDone .noop p).bind fun _ => .done (.ok results) := by
  intro d
  have hsteps : ∀ n, (w.execute (d n) p).map Execution.steps =
      (Runner.stepsFrom (e.dispatcher m) [] n (w.runner p)).map Prod.fst := by
    intro n
    rw [← Dispatcher.stepsFrom_upTo _ n]
    exact Flow.bind_map _ _ _
  have hstream : ∀ n, (w.runner p).stream (d n) =
      Runner.streamFrom (e.dispatcher m) [] n (w.runner p) :=
    fun n => Dispatcher.streamFrom_upTo _ n _ _ _
  have hdrain : ∀ n, Runner.drain (d n) n n (w.runner p) =
      Runner.drain (e.dispatcher m) n n (w.runner p) := by
    intro n
    unfold Runner.drain
    rw [Dispatcher.calls_upTo]
  refine ⟨?builder, ?finish, ?outcome, ?calls, ?items, ?keeps, ?nested⟩
  case builder =>
    intro n name text
    have hops : (w.ops.foldl add (empty name)).ops = w.ops := ops_foldl_add _ _
    exact ⟨run_congr hops _ _, run_congr hops _ _⟩
  case finish =>
    intro n
    refine ⟨rfl, ?_⟩
    show _ = Flow.map (Flow.bind _ _) _
    rw [Flow.bind_map]
    rfl
  case outcome =>
    simp only [hsteps, hstream]
    apply Flow.Agree.of_bounded
    · intro n
      exact ⟨n + 1, Runner.below_outcomeFrom [] n _⟩
    · intro n
      exact ⟨n, Runner.outcomeFrom_below [] n _⟩
  case calls =>
    simp only [hstream, hdrain]
    exact Runner.agree_drain _
  case items =>
    intro n t items h
    rw [hstream] at h
    exact Runner.items_of_stream h
  case keeps =>
    intro n t x h
    exact keeps_of_execute h
  case nested =>
    intro n
    exact execute_results rfl w p

/-- A workflow of two ops. -/
def Workflow.ofTwo : Workflow :=
  (Workflow.empty "two").add ((Op.set (.bool false)).output "x") |>.add (Op.set (.string "end"))

/-- Both ops are executed, the stream yields two steps, and the second result stays bound. -/
theorem Workflow.drivers_agree_of_two : ∃ t x u items,
    (Workflow.ofTwo.execute ((plainEngine.dispatcher 9).upTo 9) ⟨0⟩).Goes t (.done (.ok x)) ∧
    x.steps.length = 2 ∧ x.Keeps ((plainEngine.dispatcher 9).upTo 9) Workflow.ofTwo.ops ⟨0⟩ t ∧
    ((Workflow.ofTwo.runner ⟨0⟩).stream ((plainEngine.dispatcher 9).upTo 9)).Goes u
      (.done (.ok items)) ∧ items.length = 2 ∧
    ∃ steps, Reading.Indexed steps ∧
      (items = steps.map .ok ∨ ∃ fault, items = steps.map .ok ++ [.error fault]) := by
  let run := Workflow.ofTwo.execute ((plainEngine.dispatcher 9).upTo 9) ⟨0⟩
  let stream := (Workflow.ofTwo.runner ⟨0⟩).stream ((plainEngine.dispatcher 9).upTo 9)
  have hrun : (run.run {} goingWorld).1.result?.map (fun x => x.steps.length) = some 2 := by
    decide +kernel
  have hstream : (stream.run {} goingWorld).1.result?.map List.length = some 2 := by
    decide +kernel
  obtain ⟨x, hx, hsteps⟩ := Option.map_eq_some_iff.1 hrun
  obtain ⟨items, hitems, hlength⟩ := Option.map_eq_some_iff.1 hstream
  obtain ⟨-, -, -, -, hshape, hkeeps, -⟩ := drivers_agree plainEngine 9 ofTwo ⟨0⟩
  have hruns := Flow.goes_of_result? hx
  have hstreams := Flow.goes_of_result? hitems
  exact ⟨_, x, _, items, hruns, hsteps, hkeeps 9 _ x hruns, hstreams, hlength,
    hshape 9 _ items hstreams⟩

end WorkflowEngine
