import WorkflowEngine.Proofs.Gauge.FanOut
import WorkflowEngine.Proofs.Judgement.Group

/-!
# What the parts of a run cost

A runner takes one op after another, so a run costs as much as the dearest op of its list, loop
bodies included (`Dispatcher.runOps_needs`). A `sequential` or a `map` op costs what a run of its
inner ops costs; a `parallel` op costs what its dearest branches cost together, as many of them as
may run at a time (`Executor.parallel_needs`). An op adds to this what its own beginning counts
(`Engine.exec_needs`).

To keep the count within a bound is a judgement on flows (`Gauge.judgement`), and between two ops
the count is zero (`Gauge.Suits.runs`).
-/

namespace WorkflowEngine

variable {δ : Gauge} {w : Nat}

/-! ## The judgement -/

namespace Gauge

/-- At a count of zero. -/
abbrev AtZero : Int → Prop := fun c => c = 0

/-- The fault does not count. -/
abbrev Free (δ : Gauge) : Int → Fault → Prop := fun _ e => δ (.raise e) = 0

theorem returns_iff {α : Type} {f : Flow α} :
    (δ.judgement w).Returns AtZero f ↔ f.Needs δ w := by
  constructor
  · exact fun h => (h 0 rfl).mono (Int.le_refl _) fun _ _ hc => ⟨hc, trivial⟩
  · rintro h _ rfl
    exact Flow.Stays.mono h (Int.le_refl _) fun _ _ hc => hc.1

theorem raises {e : Fault} (he : δ (.raise e) = 0) : (δ.judgement w).Raises AtZero e := by
  rintro _ P _ rfl
  exact Flow.Stays.mono (Flow.costs_fail (R := fun _ => False) he) (Int.le_refl _)
    fun _ _ h => h.2.elim

theorem Suits.runs (hδ : δ.Suits) :
    (δ.judgement w).Runs AtZero (fun _ => True) δ.Free where
  starved _ := trivial
  check hs := by
    subst hs
    exact Flow.check_costs hδ
  view h := returns_iff.2 (Flow.view_costs hδ h)
  raises he := Gauge.raises (hδ.raise _ he)
  error he := he
  attempt h := h.attempt.mono (Int.le_refl _) fun r c hr => by
    cases r with
    | ok a => exact hr
    | error e => exact hr
  announce op h hstage := by
    refine returns_iff.2 (Flow.costs_perform ?_)
    rcases hstage with rfl | rfl
    · exact hδ.workflowStart op h
    · exact hδ.workflowDone op h

theorem Suits.creates (hδ : δ.Suits) : (δ.judgement w).Creates AtZero fun _ _ => True := by
  rintro b _ rfl
  exact Flow.create_costs hδ b

end Gauge

/-! ## Runs -/

/-- A class of ops that is executed in a context at a given cost: the bodies of its loops can be
decoded, as far as that counts, and are in the class, and its other ops are executed at that
cost. -/
structure Dispatcher.Affords (d : Dispatcher) (δ : Gauge) (w : Nat) (good : Op → Prop)
    (context : Handle) : Prop where
  body : ∀ op ops, good op → (LoopMode.ofKind? op.kind).isSome → op.innerOps = .ok ops →
    ∀ inner ∈ ops, good inner
  decodes : ∀ op e, good op → (LoopMode.ofKind? op.kind).isSome → op.innerOps = .error e →
    δ (.raise e) = 0
  exec : ∀ op, good op → LoopMode.ofKind? op.kind = none → (d.exec op context).Needs δ w

/-- No fault that counts is among the items. -/
def Runner.Quiet (δ : Gauge) (items : List (Except Fault Step)) : Prop :=
  ∀ e, .error e ∈ items → δ (.raise e) = 0

section Runs

variable {d : Dispatcher} {good : Op → Prop} {context : Handle}

theorem Dispatcher.Affords.executes (hd : d.Affords δ w good context) :
    d.Executes (δ.judgement w) Gauge.AtZero (fun _ => True) (Runner.Back Gauge.AtZero) good
      context where
  body := hd.body
  decodes op e hop hkind he := Gauge.raises (hd.decodes op e hop hkind he)
  exec op s hop hkind hs _ := Gauge.returns_iff.2 (hd.exec op hop hkind) s hs

variable (hδ : δ.Suits) (hd : d.Affords δ w good context)

include hδ hd

theorem Dispatcher.runOps_needs {ops : List Op} (h : ∀ op ∈ ops, good op) :
    (d.runOps ops context).Needs δ w :=
  Gauge.returns_iff.1 (runOps_returns hδ.runs hd.executes h)

theorem Dispatcher.dispatch_needs {op : Op} (h : good op) : (d.dispatch op context).Needs δ w :=
  Gauge.returns_iff.1 fun _ hs => dispatch_judged hδ.runs hd.executes h hs trivial

variable {flow : Workflow} (h : ∀ op ∈ flow.ops, good op)

include h

theorem Workflow.execute_needs : (flow.execute d context).Needs δ w :=
  Gauge.returns_iff.1 (execute_returns hδ.runs hd.executes h)

theorem Workflow.run_needs : (flow.run d context).Needs δ w :=
  Gauge.returns_iff.1 (run_returns hδ.runs hd.executes h)

/-- **A stream** costs as much as an op of the class, and yields no fault that counts. -/
theorem Workflow.stream_stays :
    ((flow.runner context).stream d).Stays δ w (fun items _ => Runner.Quiet δ items) 0 := by
  refine Flow.Stays.mono (stream_judged hδ.runs hd.executes h rfl) (Int.le_refl _)
    fun items c hitems e he => ?_
  rcases hitems with ⟨-, steps, rfl⟩ | ⟨steps, e', rfl, hfree⟩
  · simp at he
  · obtain rfl : e = e' := by simpa using he
    exact hfree

end Runs

/-! ## Groups -/

namespace Executor

variable {d : Dispatcher} {op : Op} {context : Handle}
  (hinner : ∀ e, op.innerOps = .error e → δ (.raise e) = 0) (hδ : δ.Suits)

include hinner hδ

/-- `parallel` costs what the dearest of its branches cost together, as many of them as may run at a
time. -/
theorem parallel_needs (cost : Op → Nat)
    (h : ∀ ops cap, op.innerOps = .ok ops → concurrency d.config op ops.length = .ok cap →
      (∀ inner ∈ ops, (d.dispatch inner context).Needs δ (cost inner)) ∧
        sumOfLargest (max cap 1) (ops.map cost) ≤ w) : (parallel d op context).Needs δ w := by
  refine Gauge.returns_iff.1
    (parallel_returns hδ.runs.toWalks (fun e he => Gauge.raises (hinner e he)) ?_)
  intro ops cap hops hcap
  obtain ⟨hbranches, hw⟩ := h ops cap hops hcap
  have hrun : (FanOut.run d.fuel (ops.map (d.dispatch · context)) cap fun _ => return).Needs δ
      (sumOfLargest (max cap 1) (ops.map cost)) := by
    refine FanOut.run_costs hδ (fun _ => Flow.costs_ok trivial) (by simp) (fun i task ht => ?_) _ _
    rw [List.getElem?_map] at ht
    obtain ⟨inner, hi, rfl⟩ := Option.map_eq_some_iff.1 ht
    have hcost : (ops.map cost).getD i 0 = cost inner := by
      rw [List.getD_eq_getElem?_getD, List.getElem?_map, hi]
      rfl
    rw [hcost]
    exact hbranches inner (List.mem_of_getElem? hi)
  exact Gauge.returns_iff.2 (hrun.mono hw fun _ _ => trivial)

variable (h : ∀ ops inner, op.innerOps = .ok ops → (d.runOps ops inner).Needs δ w)

include h

/-- `sequential` costs what a run of its inner ops in a new context costs. -/
theorem sequential_needs : (sequential d op context).Needs δ w :=
  Gauge.returns_iff.1 (sequential_returns hδ.runs.toWalks
    (fun e he => Gauge.raises (hinner e he)) hδ.creates
    fun ops _ inner hops _ => Gauge.returns_iff.2 (h ops inner hops))

theorem map_needs : (map d op context).Needs δ w :=
  Gauge.returns_iff.1 (map_returns hδ.runs.toWalks
    (fun e he => Gauge.raises (hinner e he)) hδ.creates
    fun ops _ inner hops _ => Gauge.returns_iff.2 (h ops inner hops))

end Executor

/-! ## Engines -/

/-- **The execution of an op costs what its executor costs**, on top of what its beginning counts. -/
theorem Engine.exec_needs (hδ : δ.Suits) {e : Engine} {n v : Nat} {op : Op} {context : Handle}
    (hpre : δ (.announce ⟨.opPre, op, context⟩) = v)
    (hx : ∀ x, e.registry.get? op.kind = some x → (x (e.dispatcher n) op context).Needs δ w) :
    (e.exec (n + 1) op context).Needs δ (v + w) := by
  have hpost := hδ.opPost op context
  refine ⟨by omega, fun _ => ?_⟩
  rw [hpre, Int.zero_add]
  show Flow.Stays δ _ _ _ _
  split
  · exact (Flow.costs_fail (hδ.raise _ id) :
      (Flow.fail _ : Flow Value).Needs δ w).lift (by omega)
  · next x hx' =>
    refine ((hx x hx').lift (c := v) (by omega)).bind fun result c hc => ?_
    obtain ⟨rfl, -⟩ := hc
    have hbound : (bindResult op context result).Needs δ w := by
      unfold bindResult
      split
      · exact (Flow.costs_perform (hδ.bind ..)).bind fun _ _ => Flow.costs_perform (hδ.bind ..)
      · exact Flow.costs_perform (hδ.bind ..)
    refine (hbound.lift (by omega)).bind fun _ c hc => ?_
    obtain ⟨rfl, -⟩ := hc
    refine ⟨by omega, fun _ => ⟨by omega, trivial⟩⟩

end WorkflowEngine
