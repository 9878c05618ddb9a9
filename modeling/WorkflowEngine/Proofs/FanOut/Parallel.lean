import WorkflowEngine.Executor.Group
import WorkflowEngine.Proofs.FanOut.InOrder
import WorkflowEngine.Proofs.Interleaving.Frames
import WorkflowEngine.Proofs.Reading.Parts

/-!
# Parallel ops that come to the same as a list

`parallel` hands its ops to workers, and each op is dispatched by itself, a loop in a run of its
own. `Dispatcher.runOps` goes through the same ops with one runner and a stack of frames.

**Theorem (`Executor.parallel_as_list`).** As long as nothing is cancelled, `parallel` with one
worker, and `parallel` with any number of workers if no execution of an op pauses, does exactly what
a run of the list does. Its results are the last ones that each op contributes to the results of the
run, or null where an op contributes none.

In both cases the fan-out runs its tasks in order (`FanOut.run_below`, `FanOut.below_run`), a task
is the run of a list of one op (`Dispatcher.dispatch_eq_last`), and the runs of the ops are a run of
the list (`Dispatcher.runOps_bounded`, `Dispatcher.contributions_bounded`).
-/

namespace WorkflowEngine

/-! ## Runs that never pause -/

namespace Flow

variable {α β : Type}

theorem within_check : check.Within 0 := by
  refine .act fun stop => ?_
  cases stop with
  | true => exact .act fun _ => .done _
  | false => exact .done _

theorem run_of_result? {env : Environment} {f : Flow α} {w : World} {a : α}
    (h : (f.run env w).1.result? = some a) : ∃ v, f.run env w = (.ended (.ok a), v) :=
  ⟨_, Prod.ext (Outcome.eq_of_result? h) rfl⟩

theorem within_ofExcept (r : Except Fault α) : (ofExcept r).Within 0 := by
  cases r with
  | ok a => exact .done _
  | error e => exact .act fun _ => .done _

end Flow

open FanOut (within_bind)

theorem Loop.begin?_within_zero (l : Loop) (context : Handle) : (l.begin? context).Within 0 := by
  refine .act fun b => ?_
  show Flow.Within 0 (ite _ _ _)
  split
  · cases l.limit with
    | none => exact .done _
    | some limit =>
      show Flow.Within 0 (ite _ _ _)
      split
      · exact .act fun _ => .done _
      · exact .done _
  · exact .done _

namespace Runner

variable {d : Dispatcher} {context : Handle}

theorem again?_within_zero (f : Frame) : (again? f context).Within 0 := by
  unfold again?
  cases f.loop with
  | none => exact .done _
  | some l => exact within_bind (l.begin?_within_zero context) fun o => by cases o <;> exact .done _

theorem enter?_within_zero (mode : LoopMode) (op : Op) : (enter? d mode op context).Within 0 := by
  unfold enter?
  refine within_bind (Flow.within_ofExcept _) fun p => ?_
  dsimp only
  split
  · exact .done _
  · exact within_bind (p.1.begin?_within_zero context) fun o => by cases o <;> exact .done _

theorem following_within_zero {n : Nat} (hexec : ∀ op, (d.exec op context).Within 0)
    (ih : ∀ taken fs k, (stepsFrom d taken n (underway context fs k)).Within 0) (taken : List Step)
    (i : Nat) (fs : List Frame) (k : Nat) :
    (following d taken n i (underway context fs k)).Within 0 := by
  induction i generalizing fs with
  | zero => exact .starved
  | succ i ihi =>
    cases fs with
    | nil =>
      rw [following_nil]
      exact .done _
    | cons f outer =>
      cases hrest : f.rest with
      | nil =>
        rw [following_again hrest]
        exact within_bind (again?_within_zero f) fun _ => ihi _
      | cons op rest =>
        cases hmode : LoopMode.ofKind? op.kind with
        | some mode =>
          rw [following_enter hrest hmode]
          exact within_bind Flow.within_check fun _ =>
            within_bind (enter?_within_zero mode op) fun _ => ihi _
        | none =>
          rw [following_step hrest hmode]
          exact within_bind Flow.within_check fun _ => within_bind (hexec op) fun _ => ih _ _ _

theorem stepsFrom_within_zero (hexec : ∀ op, (d.exec op context).Within 0) (n : Nat)
    (taken : List Step) (fs : List Frame) (k : Nat) :
    (stepsFrom d taken n (underway context fs k)).Within 0 := by
  induction n generalizing taken fs k with
  | zero => exact .starved
  | succ n ih =>
    rw [stepsFrom_underway]
    exact following_within_zero hexec ih taken n fs k

end Runner

namespace Dispatcher

variable {d : Dispatcher} {context : Handle}

theorem runOps_within_zero (hexec : ∀ op, (d.exec op context).Within 0) (ops : List Op) :
    (d.runOps ops context).Within 0 := by
  refine within_bind ?_ fun _ => .done _
  rw [Runner.steps, Runner.stepsFrom_start]
  exact Runner.stepsFrom_within_zero hexec _ _ _ _

theorem dispatch_within_zero (hexec : ∀ op, (d.exec op context).Within 0) (op : Op) :
    (d.dispatch op context).Within 0 := by
  unfold dispatch
  split
  · exact within_bind (runOps_within_zero hexec [op]) fun _ => .done _
  · exact hexec op

/-! ## An op by itself -/

/-- The last of some results, or null if there are none. -/
def lastResult (results : List Value) : Value := results.getLast?.getD .null

theorem runOps_single {op : Op} (hmode : LoopMode.ofKind? op.kind = none) (d : Dispatcher) (n : Nat)
    (context : Handle) : (d.upTo (n + 4)).runOps [op] context =
      Flow.check.bind fun _ => (d.exec op context).map fun v => [v] := by
  have hsteps : (Runner.start false [op] context).steps (d.upTo (n + 4)) =
      Flow.check.bind fun _ => (d.exec op context).bind fun v =>
        .done (.ok ([⟨0, op, v, context⟩],
          { Runner.underway context [] 1 with phase := .finished })) := by
    rw [Runner.steps_start (n := n + 3) _ rfl, Runner.following_step rfl hmode]
    refine congrArg (Flow.bind _) (funext fun _ => congrArg (Flow.bind _) (funext fun v => ?_))
    rw [Runner.stepsFrom_underway, Runner.following_again rfl]
    exact Runner.following_nil (d := d.upTo (n + 4)) (n := n + 2) (i := n)
  show ((Runner.start false [op] context).steps (d.upTo (n + 4))).bind _ = _
  rw [hsteps, Flow.bind_assoc]
  exact congrArg (Flow.bind _) (funext fun _ => Flow.bind_assoc _ _ _)

/-- **An op is dispatched like a list of one op.** -/
theorem dispatch_eq_last (d : Dispatcher) (n : Nat) (op : Op) (context : Handle) :
    ((d.upTo (n + 4)).dispatch op context).unstopped =
      (((d.upTo (n + 4)).runOps [op] context).map lastResult).unstopped := by
  unfold dispatch
  cases hmode : LoopMode.ofKind? op.kind with
  | some mode => rfl
  | none =>
    rw [runOps_single hmode, Flow.bind_map, Flow.unstopped_check, Flow.map_map]
    exact congrArg Flow.unstopped (Flow.bind_pure _).symm

theorem dispatch_below_last (d : Dispatcher) (n : Nat) (op : Op) (context : Handle) :
    ((d.upTo n).dispatch op context).unstopped.Below
      (((d.upTo (n + 4)).runOps [op] context).map lastResult).unstopped := by
  rw [← dispatch_eq_last]
  refine Flow.Below.unstopped ?_
  unfold dispatch
  split
  · exact (runOps_mono d (Nat.le_add_right n 4) [op] context).map _
  · exact .refl _

theorem last_below_dispatch (d : Dispatcher) {m n : Nat} (h : m ≤ n) (op : Op)
    (context : Handle) : (((d.upTo m).runOps [op] context).map lastResult).unstopped.Below
      ((d.upTo (n + 4)).dispatch op context).unstopped := by
  rw [dispatch_eq_last]
  exact ((runOps_mono d (Nat.le_add_right_of_le h) [op] context).map _).unstopped

end Dispatcher

/-! ## The theorem -/

namespace Executor

open Dispatcher (lastResult)

/-- The results of a group of ops, as one value. -/
def lastResults (groups : List (List Value)) : Value := .array (groups.map lastResult)

variable {d : Dispatcher} {op : Op} {ops : List Op} {cap : Nat} {context : Handle}

/-- A parallel op runs its ops as tasks. -/
theorem parallel_eq (hops : op.innerOps = .ok ops)
    (hcap : concurrency d.config op ops.length = .ok cap) (n : Nat) :
    parallel (d.upTo n) op context =
      (FanOut.run n (ops.map ((d.upTo n).dispatch · context)) cap FanOut.silent).map .array := by
  have hcap' : concurrency (d.upTo n).config op ops.length = .ok cap := hcap
  unfold parallel
  rw [hops]
  show (Flow.ofExcept (concurrency (d.upTo n).config op ops.length)).bind _ = _
  rw [hcap']
  rfl

theorem tasks_in_order (n : Nat) : ((ops.map ((d.upTo n).dispatch · context)).mapM id).unstopped =
    ops.mapM fun op => ((d.upTo n).dispatch op context).unstopped := by
  rw [Flow.unstopped_mapM, List.mapM_map]
  rfl

theorem contributions_last (n : Nat) :
    ((d.upTo n).contributions ops context).unstopped.map lastResults =
      (ops.mapM fun op => (((d.upTo n).runOps [op] context).map lastResult).unstopped).map
        .array := by
  have hlast := Flow.mapM_map (fun op => ((d.upTo n).runOps [op] context).unstopped) lastResult ops
  simp only [← Flow.unstopped_map] at hlast
  rw [hlast, Dispatcher.contributions, Flow.unstopped_mapM, Flow.map_map]
  rfl

section

variable (hops : op.innerOps = .ok ops) (hcap : concurrency d.config op ops.length = .ok cap)
  (h : cap ≤ 1 ∨ ∀ op, (d.exec op context).Within 0)

include h in
theorem tasks_unpaused (n : Nat) :
    cap ≤ 1 ∨ ∀ task ∈ ops.map ((d.upTo n).dispatch · context), task.Within 0 := by
  refine h.imp_right fun hexec task htask => ?_
  obtain ⟨inner, -, rfl⟩ := List.mem_map.1 htask
  exact Dispatcher.dispatch_within_zero (d := d.upTo n) hexec inner

include hops hcap h

/-- A parallel op is below the runs of its ops, cut off later. -/
theorem parallel_bounded : Flow.Bounded (fun n => (parallel (d.upTo n) op context).unstopped)
    (fun n => ((d.upTo n).contributions ops context).unstopped.map lastResults) := by
  intro n
  refine ⟨n + 4, ?_⟩
  dsimp only
  rw [contributions_last, parallel_eq hops hcap, Flow.unstopped_map]
  refine ((FanOut.run_below n (tasks_unpaused h n)).trans ?_).map _
  rw [tasks_in_order]
  exact .mapM fun inner _ => Dispatcher.dispatch_below_last d n inner context

/-- The runs of the ops reach a parallel op. -/
theorem reaches_parallel :
    Flow.Reaches (fun n => ((d.upTo n).contributions ops context).unstopped.map lastResults)
      (fun n => (parallel (d.upTo n) op context).unstopped) := by
  intro n k
  refine ⟨max n k + 4, ?_⟩
  dsimp only
  rw [contributions_last, parallel_eq hops hcap, Flow.unstopped_map, Flow.cut_map]
  refine Flow.Below.map ?_ _
  refine Flow.Below.trans ?_ (FanOut.below_run (max n k + 3) (tasks_unpaused h (max n k + 4)))
  rw [tasks_in_order]
  refine (Flow.Below.cut ?_ k).trans (Flow.cut_below_cut (by omega) _)
  exact .mapM fun inner _ => Dispatcher.last_below_dispatch d (Nat.le_max_left n k) inner context

end

/-- **A parallel op that does not run its ops at the same time does what a run of the list does.**
Take any ops, loops included, any context and any way of executing ops, and a parallel op with at
most one worker, or one with any number of workers when executions of ops never pause. As long as
nothing is cancelled, it does the same as a run of the list at every moment, pauses included, and
ends with the same fault or without one. The results of the run are the contributions of the ops,
one after another; the results of the parallel op are the last one of each, or null where an op
contributes none. -/
theorem parallel_as_list (hops : op.innerOps = .ok ops)
    (hcap : concurrency d.config op ops.length = .ok cap)
    (h : cap ≤ 1 ∨ ∀ op, (d.exec op context).Within 0) :
    Flow.Agree (fun n => (parallel (d.upTo n) op context).unstopped.map fun _ => ())
      (fun n => ((d.upTo n).runOps ops context).unstopped.map fun _ => ()) ∧
    Flow.Agree (fun n => ((d.upTo n).runOps ops context).unstopped)
      (fun n => ((d.upTo n).contributions ops context).unstopped.map List.flatten) ∧
    Flow.Agree (fun n => (parallel (d.upTo n) op context).unstopped)
      (fun n => ((d.upTo n).contributions ops context).unstopped.map lastResults) ∧
    ∀ n t groups, ((d.upTo n).contributions ops context).unstopped.Goes t (.done (.ok groups)) →
      groups.length = ops.length := by
  have hparallel := (parallel_bounded hops hcap h).reaches
  have hgroups := reaches_parallel hops hcap h
  have hlist : Flow.Reaches (fun n => ((d.upTo n).runOps ops context).unstopped)
      (fun n => ((d.upTo n).contributions ops context).unstopped.map List.flatten) := by
    refine Flow.Bounded.reaches fun n => ?_
    obtain ⟨m, hm⟩ := Dispatcher.runOps_bounded d ops context n
    refine ⟨m, ?_⟩
    rw [← Flow.unstopped_map]
    exact hm.unstopped
  have hflat : Flow.Reaches
      (fun n => ((d.upTo n).contributions ops context).unstopped.map List.flatten)
      (fun n => ((d.upTo n).runOps ops context).unstopped) := by
    refine Flow.Bounded.reaches fun n => ?_
    obtain ⟨m, hm⟩ := Dispatcher.contributions_bounded d ops context n
    refine ⟨m, ?_⟩
    rw [← Flow.unstopped_map]
    exact hm.unstopped
  refine ⟨.of_reaches ?_ ?_, .of_reaches hlist hflat, .of_reaches hparallel hgroups, ?_⟩
  · have hthere := hparallel.map fun _ => ()
    have hback := hflat.map fun _ => ()
    simp only [Flow.map_map] at hthere hback
    exact hthere.trans hback
  · have hthere := hlist.map fun _ => ()
    have hback := hgroups.map fun _ => ()
    simp only [Flow.map_map] at hthere hback
    exact hthere.trans hback
  · intro n t groups hgoes
    rw [Dispatcher.contributions, Flow.unstopped_mapM] at hgoes
    exact Flow.length_of_mapM hgoes

/-- A dispatcher whose ops pause, turn off the condition `go` and answer their kind. -/
def pausing : Dispatcher := ⟨{}, 0, fun op context => do
  Flow.wait 1
  Flow.store context "go" .null
  return .string op.kind⟩

/-- A loop of two ops, an op, and a loop that is never begun. -/
def threeParts : List Op :=
  [.repeatWhile "go" [.new "a", .new "b"], .new "c", .repeatWhile "go" [.new "d"]]

/-- With one worker, the results are the last one of the first loop, that of the op, and null. -/
theorem parallel_as_list_of_three :
    ((Op.parallel threeParts).withParam "concurrency" (.nat 1)).innerOps = .ok threeParts ∧
    concurrency pausing.config ((Op.parallel threeParts).withParam "concurrency" (.nat 1))
      threeParts.length = .ok 1 ∧
    ∃ n v, (parallel (pausing.upTo n) ((Op.parallel threeParts).withParam "concurrency" (.nat 1))
      ⟨0⟩).unstopped.run {} { contexts := (Store.empty.create (.ofList [("go", .bool true)])).2 } =
        (.ended (.ok (.array [.string "b", .string "c", .null])), v) := by
  have hops : ((Op.parallel threeParts).withParam "concurrency" (.nat 1)).innerOps =
      .ok threeParts := rfl
  have hcap : concurrency pausing.config
      ((Op.parallel threeParts).withParam "concurrency" (.nat 1)) threeParts.length = .ok 1 := rfl
  refine ⟨hops, hcap, ?_⟩
  have hagree : Flow.Agree (fun n => (parallel (pausing.upTo n) _ ⟨0⟩).unstopped) _ :=
    (parallel_as_list hops hcap (.inl (Nat.le_refl 1))).2.2.1
  let w : World := { contexts := (Store.empty.create (.ofList [("go", .bool true)])).2 }
  let groups := ((pausing.upTo 9).contributions threeParts ⟨0⟩).unstopped.map lastResults
  have hresult : (groups.run {} w).1.result? =
      some (.array [.string "b", .string "c", .null]) := by decide +kernel
  obtain ⟨v, hgroups⟩ := Flow.run_of_result? hresult
  obtain ⟨n, hn⟩ := (hagree.run_iff {} w _ v).2 ⟨9, hgroups⟩
  exact ⟨n, v, hn⟩

end Executor

end WorkflowEngine
