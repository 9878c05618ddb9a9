import WorkflowEngine.Proofs.Reading.Alike
import WorkflowEngine.Proofs.Unstopped

/-!
# What each op contributes to the results of a list

`Dispatcher.runOps` answers one result for every op that is executed, loops included, so the results
of a list do not show which op of the list they come from. They can be grouped: running the ops of
the list one by one, each in a run of its own, does the same and has the same results, in one group
for each op (`Dispatcher.runOps_bounded`, `Dispatcher.contributions_bounded`).

The plain reading of a list goes from op to op, and what it makes of an op does not depend on the
steps taken before (`Reading.values_ops_cons`).
-/

namespace WorkflowEngine

namespace Reading

variable {d : Dispatcher} {context : Handle}

/-- The results of the ops that are executed, or the fault. -/
def values (f : Reading Unit) : Flow (List Value) := f.steps.map (List.map Step.result)

theorem Below.values {f g : Reading Unit} (h : f.Below g) : f.values.Below g.values :=
  h.steps.map _

/-- What a reading makes of a list does not depend on the steps taken before. -/
theorem alike_ops (vs : List Value) (n : Nat) (list : List Op) :
    Alike (fun taken taken' => taken.map Step.result = vs ++ taken'.map Step.result)
      (ops d context n list) (ops d context n list) := by
  rw [(eq_by d context n).1]
  refine (alike_by (fun op => (alike_of _).bind fun result => ?_) d.config context n).1 list
  intro taken taken' hR
  refine .ok ⟨rfl, ?_⟩
  show (taken ++ [_]).map Step.result = vs ++ (taken' ++ [_]).map Step.result
  rw [List.map_append, List.map_append, hR, List.append_assoc]
  rfl

theorem values_ops_cons (n : Nat) (o : Op) (rest : List Op) :
    (ops d context (n + 1) (o :: rest)).values = (op d context n o).values.bind fun vs =>
      (ops d context n rest).values.map (vs ++ ·) := by
  rw [ops, values, steps, bind_apply, values, steps]
  rw [Flow.bind_map, Flow.bind_assoc, Flow.bind_map, Flow.bind_assoc]
  refine congrArg (Flow.bind _) (funext fun p => ?_)
  obtain ⟨_ | _, taken⟩ := p
  · rfl
  · have halike : Alike _ (ops d context n rest) (ops d context n rest) :=
      alike_ops (taken.map Step.result) n rest
    have hsame := halike taken [] (List.append_nil _).symm
    show (ops d context n rest taken).bind _ = ((((ops d context n rest []).bind _).map _).map _)
    rw [Flow.bind_map, Flow.bind_map]
    refine hsame.bind_eq fun p q hpq => ?_
    obtain ⟨_ | _, taken'⟩ := p <;> obtain ⟨r, taken''⟩ := q <;> obtain ⟨rfl, hR⟩ := hpq
    · rfl
    · exact congrArg (fun vs => Flow.done (.ok vs)) hR

theorem values_ops_single (n : Nat) (o : Op) :
    (ops d context (n + 2) [o]).values = (op d context (n + 1) o).values := by
  rw [values_ops_cons]
  have hnil : (ops d context (n + 1) []).values = .done (.ok []) := by
    rw [ops]
    rfl
  rw [hnil]
  refine Eq.trans (congrArg (Flow.bind _) (funext fun vs => ?_)) (Flow.bind_pure _)
  show Flow.done (.ok (vs ++ [])) = _
  rw [List.append_nil]

theorem values_ops_mono {m n : Nat} (h : m ≤ n) (list : List Op) :
    (ops d context m list).values.Below (ops d context n list).values :=
  (below_of_le (fun n => (below_succ d context n).1 list) h).values

theorem values_op_mono {m n : Nat} (h : m ≤ n) (o : Op) :
    (op d context m o).values.Below (op d context n o).values :=
  (below_of_le (fun n => (below_succ d context n).2.1 o) h).values

/-! ## Lists and their ops -/

/-- The results of each op of a list, read by itself. -/
def parts (d : Dispatcher) (context : Handle) (n : Nat) (list : List Op) :
    Flow (List (List Value)) := list.mapM fun o => (ops d context n [o]).values

theorem parts_cons (n : Nat) (o : Op) (rest : List Op) :
    (parts d context n (o :: rest)).map List.flatten = (ops d context n [o]).values.bind fun vs =>
      ((parts d context n rest).map List.flatten).map (vs ++ ·) := by
  rw [parts, Flow.mapM_cons, Flow.bind_map]
  refine congrArg (Flow.bind _) (funext fun vs => ?_)
  rw [Flow.map_map, Flow.map_map]
  rfl

/-- The results of a list are those of its ops, cut off later. -/
theorem values_below_parts {n k : Nat} (hn : n ≤ k) (list : List Op) :
    (ops d context n list).values.Below ((parts d context (k + 1) list).map List.flatten) := by
  induction list generalizing n with
  | nil =>
    cases n with
    | zero =>
      rw [ops]
      exact .starved _
    | succ n =>
      rw [ops]
      exact .refl _
  | cons o rest ih =>
    cases n with
    | zero =>
      rw [ops]
      exact .starved _
    | succ n =>
      obtain ⟨k, rfl⟩ : ∃ j, k = j + 1 := ⟨k - 1, by omega⟩
      rw [values_ops_cons, parts_cons, values_ops_single]
      exact (values_op_mono (by omega) o).bind fun vs => (ih (by omega)).map _

/-- The results of the ops of a list are those of the list, cut off later. -/
theorem parts_below_values (n : Nat) (list : List Op) :
    ((parts d context n list).map List.flatten).Below
      (ops d context (n + list.length + 1) list).values := by
  induction list with
  | nil =>
    rw [ops]
    exact .refl _
  | cons o rest ih =>
    rw [parts_cons, values_ops_cons]
    refine .bind ?_ fun vs => Flow.Below.map ih _
    refine (values_ops_mono (show n ≤ n + rest.length + 1 + 1 by omega) [o]).trans ?_
    rw [values_ops_single]
    exact values_op_mono (by rw [List.length_cons]; omega) o

end Reading

/-! ## Runs and their ops -/

namespace Dispatcher

/-- The dispatcher with another number of steps after which its runs are cut off. -/
def upTo (d : Dispatcher) (n : Nat) : Dispatcher := { d with fuel := n }

theorem advance_upTo (d : Dispatcher) (k n : Nat) (r : Runner) :
    Runner.advance (d.upTo k) n r = Runner.advance d n r := by
  induction n generalizing r with
  | zero => rfl
  | succ n ih =>
    rw [Runner.advance_succ, Runner.advance_succ]
    refine congrArg (Flow.bind _) (funext fun m => ?_)
    cases m with
    | onward r => exact ih r
    | _ => rfl

theorem stepsFrom_upTo (d : Dispatcher) (k : Nat) (taken : List Step) (n : Nat) (r : Runner) :
    Runner.stepsFrom (d.upTo k) taken n r = Runner.stepsFrom d taken n r := by
  induction n generalizing taken r with
  | zero => rfl
  | succ n ih =>
    unfold Runner.stepsFrom Runner.next
    simp only [ih, advance_upTo]

theorem runOps_upTo (d : Dispatcher) (n : Nat) (ops : List Op) (context : Handle) :
    (d.upTo n).runOps ops context =
      ((Runner.stepsFrom d [] n (.start false ops context)).map Prod.fst).map
        (List.map Step.result) := by
  rw [← stepsFrom_upTo d n, Flow.map_map]
  rfl

theorem runOps_mono (d : Dispatcher) {m n : Nat} (h : m ≤ n) (ops : List Op) (context : Handle) :
    ((d.upTo m).runOps ops context).Below ((d.upTo n).runOps ops context) := by
  rw [runOps_upTo, runOps_upTo]
  exact ((Runner.stepsFrom_mono h [] _).map Prod.fst).map _

theorem values_run (d : Dispatcher) (context : Handle) (n : Nat) (list : List Op) :
    (Reading.run d false context n list).values = (Reading.ops d context n list).values := by
  have hrun : Reading.run d false context n list = Reading.ops d context n list := bind_pure _
  rw [hrun]

theorem bounded_runOps (d : Dispatcher) (list : List Op) (context : Handle) :
    Flow.Bounded (fun n => (d.upTo n).runOps list context)
      (fun n => (Reading.ops d context n list).values) := by
  have h := (Runner.bounded_steps d false list context).bind
    fun steps => .done (.ok (steps.map Step.result))
  intro n
  obtain ⟨m, hm⟩ := h n
  refine ⟨m, ?_⟩
  dsimp only
  rw [runOps_upTo, ← values_run]
  exact hm

theorem bounded_values (d : Dispatcher) (list : List Op) (context : Handle) :
    Flow.Bounded (fun n => (Reading.ops d context n list).values)
      (fun n => (d.upTo n).runOps list context) := by
  have h := (Runner.bounded_taken d false list context).bind
    fun steps => .done (.ok (steps.map Step.result))
  intro n
  obtain ⟨m, hm⟩ := h n
  refine ⟨m, ?_⟩
  dsimp only
  rw [runOps_upTo, ← values_run]
  exact hm

/-- What each op of a list contributes: the results of a run of this op alone. -/
def contributions (d : Dispatcher) (ops : List Op) (context : Handle) :
    Flow (List (List Value)) := ops.mapM fun op => d.runOps [op] context

/-- A run of a list is below the runs of its ops, cut off later. -/
theorem runOps_bounded (d : Dispatcher) (ops : List Op) (context : Handle) :
    Flow.Bounded (fun n => (d.upTo n).runOps ops context)
      (fun n => ((d.upTo n).contributions ops context).map List.flatten) := by
  refine (bounded_runOps d ops context).trans (.trans ?_ (Flow.Bounded.bind
    (Flow.bounded_mapM (fun op _ => bounded_values d [op] context) fun op n =>
      runOps_mono d (Nat.le_succ n) [op] context) _))
  exact fun n => ⟨n + 1, Reading.values_below_parts (Nat.le_refl n) ops⟩

theorem contributions_bounded (d : Dispatcher) (ops : List Op) (context : Handle) :
    Flow.Bounded (fun n => ((d.upTo n).contributions ops context).map List.flatten)
      (fun n => (d.upTo n).runOps ops context) := by
  refine .trans (Flow.Bounded.bind (Flow.bounded_mapM
    (fun op _ => bounded_runOps d [op] context) fun op n =>
      Reading.values_ops_mono (Nat.le_succ n) [op]) _) (.trans ?_ (bounded_values d ops context))
  exact fun n => ⟨_, Reading.parts_below_values n ops⟩

end Dispatcher

end WorkflowEngine
