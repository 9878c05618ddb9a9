import WorkflowEngine.Proofs.Monitor.Builtin
import WorkflowEngine.Proofs.Trace
import WorkflowEngine.Rehearsal.Executors

/-!
# The first fault ends a run

A fault can arise at any depth of a run: in an executor, for want of one, in a parameter that is not
what it should be, at the limit of a loop, or where a run finds that it is to stop. Groups, loops,
copies and workers that take turns may lie between that place and the run as a whole.

**Theorem (`Engine.ends_at_first_fault`).** Whatever happens in a run of an engine made of groups
and leaves, with the first fault it is over: nothing is done after it, in no branch, and the run
ends with this very fault. And a run that ends with a fault ends at the moment that fault arises.

A fault that arises is raised by an action of its own, so a trace shows when that is. The monitor
`Monitor.firstFault` allows nothing after it. That the engine keeps within this monitor is derived
from its leaves (`Engine.exec_keeps_of_composed`), and the statement about traces from the monitor.
-/

namespace WorkflowEngine

namespace Flow

variable {α : Type}

/-- The flow fails only by raising the fault it ends with. -/
inductive Outspoken : Flow α → Prop
  | ok (a : α) : Outspoken (.done (.ok a))
  | fail (e : Fault) : Outspoken (Flow.fail e)
  | starved : Outspoken .starved
  | pause {rest : Unit → Flow α} : (∀ u, Outspoken (rest u)) → Outspoken (.pause rest)
  | act {a : Action} {next : a.Answer → Flow α} :
      (∀ e, a ≠ .raise e) → (∀ x, Outspoken (next x)) → Outspoken (.act a next)

/-- Once a fault is raised the flow is over and ends with it, and it ends with no other fault. -/
structure EndsAtFirstFault (f : Flow α) : Prop where
  last : ∀ before e x after g, f.Goes (before ++ .did (.raise e) x :: after) g →
    after = [] ∧ g = .done (.error e)
  raised : ∀ t e, f.Goes t (.done (.error e)) → ∃ before, t = before ++ [.did (.raise e) ()]

end Flow

/-! ## The monitor -/

/-- Remembers the fault that was raised, and allows nothing after it. -/
def Monitor.firstFault : Monitor where
  State := Option Fault
  live := none
  allows s _ := s = none
  expects _ _ := True
  after s a _ := match a with
    | .raise e => some e
    | _ => s
  fails s e := s = some e

namespace Monitor.firstFault

theorem neutral {a : Action} (h : ∀ e, a ≠ .raise e) : Neutral firstFault a := by
  refine ⟨rfl, fun x => ?_⟩
  cases a with
  | raise e => exact absurd rfl (h e)
  | _ => rfl

theorem suits : Suits firstFault where
  raise _ := ⟨rfl, rfl⟩
  check := by
    refine Flow.obeys_act (neutral (by simp)) fun stop _ => ?_
    cases stop with
    | true => exact ⟨rfl, fun _ _ => rfl⟩
    | false => exact Flow.obeys_ok trivial
  signal := neutral (by simp)
  view _ := neutral (by simp)
  create _ := neutral (by simp)
  announce _ := neutral (by simp)

variable {α : Type}

/-- After a raised fault there is only the end. -/
theorem done_of_passes {f : Flow α} {e : Fault}
    (h : f.Passes firstFault (firstFault.Ends fun _ => True) (some e)) : f = .done (.error e) := by
  cases f with
  | done r =>
    cases r with
    | ok a => exact absurd h.1 (by simp [firstFault])
    | error e' => rw [Option.some.inj h]
  | starved => exact absurd h (by simp [Flow.Passes, firstFault])
  | pause rest => exact absurd h.1 (by simp [firstFault])
  | act a next => exact absurd h.1 (by simp [firstFault])

/-- An outspoken flow is one that keeps within the monitor. -/
theorem outspoken_iff_keeps {f : Flow α} : f.Outspoken ↔ f.Keeps firstFault := by
  constructor
  · intro h
    induction h with
    | ok a => exact Flow.obeys_ok trivial
    | fail e => exact Flow.obeys_fail suits.toSuitsLeaves _ e
    | starved => exact Flow.obeys_starved
    | pause _ ih => exact Flow.obeys_pause (ih ())
    | act ha _ ih => exact Flow.obeys_act (neutral ha) fun x _ => ih x
  · intro h
    induction f with
    | done r =>
      cases r with
      | ok a => exact .ok a
      | error e => exact absurd h (by simp [Flow.Obeys, Flow.Passes, Monitor.Ends, firstFault])
    | starved => exact .starved
    | pause rest ih => exact .pause fun u => ih u h.2
    | act a next ih =>
      by_cases ha : ∃ e, a = .raise e
      · obtain ⟨e, rfl⟩ := ha
        have hnext : next = fun _ => .done (.error e) := by
          funext x
          exact done_of_passes (h.2 x trivial)
        rw [hnext]
        exact .fail e
      · have hneutral := neutral fun e he => ha ⟨e, he⟩
        refine .act (fun e he => ha ⟨e, he⟩) fun x => ih x ?_
        have hlive := h.2 x trivial
        rwa [hneutral.2 x] at hlive

/-- As long as no fault has been raised, what a flow comes to keeps within the monitor. -/
theorem keeps_or_done {f g : Flow α} {t : List Mark} (hf : f.Keeps firstFault) (h : f.Goes t g) :
    g.Keeps firstFault ∨ ∃ before e, t = before ++ [.did (.raise e) ()] ∧ g = .done (.error e) := by
  induction h with
  | here f => exact .inl hf
  | pause _ ih =>
    rcases ih hf.2 with hg | ⟨before, e, rfl, rfl⟩
    · exact .inl hg
    · exact .inr ⟨.paused :: before, e, rfl, rfl⟩
  | @act a next t g x hgo ih =>
    have hnext := hf.2 x trivial
    by_cases ha : ∃ e, a = .raise e
    · obtain ⟨e, rfl⟩ := ha
      have hdone : next x = .done (.error e) := done_of_passes hnext
      rw [hdone] at hgo
      obtain ⟨rfl, rfl⟩ := hgo.of_done
      exact .inr ⟨[], e, rfl, rfl⟩
    · have hneutral := neutral fun e he => ha ⟨e, he⟩
      rw [hneutral.2 x] at hnext
      rcases ih hnext with hg | ⟨before, e, rfl, rfl⟩
      · exact .inl hg
      · exact .inr ⟨.did a x :: before, e, rfl, rfl⟩

/-- **What the monitor says of traces.** -/
theorem endsAtFirstFault {f : Flow α} (hf : f.Keeps firstFault) : f.EndsAtFirstFault where
  last before e x after g h := by
    obtain ⟨between, h1, h2⟩ := h.split
    rcases keeps_or_done hf h1 with hk | ⟨_, _, _, rfl⟩
    · cases h2 with
      | act _ h2 =>
        rw [done_of_passes (hk.2 x trivial)] at h2
        exact h2.of_done
    · cases h2
  raised t e h := by
    rcases keeps_or_done hf h with hk | ⟨before, e', rfl, he⟩
    · exact absurd hk (by simp [Flow.Obeys, Flow.Passes, Monitor.Ends, firstFault])
    · cases he
      exact ⟨before, rfl⟩

end Monitor.firstFault

/-! ## Runs -/

/-- **The first fault ends a run.** In an engine made of groups and of leaves that make their faults
known, every run of a workflow, of an op list and of an op is over with the first fault that arises
anywhere in it, and ends with that fault; whatever the ops and the context, however the leaves
pause, whatever the limits, and however the world answers. -/
theorem Engine.ends_at_first_fault {e : Engine} (he : e.Composed Flow.Outspoken) (n : Nat)
    (w : Workflow) (ops : List Op) (op : Op) (context : Handle) :
    (w.run (e.dispatcher n) context).EndsAtFirstFault ∧
    (w.execute (e.dispatcher n) context).EndsAtFirstFault ∧
    ((e.dispatcher n).runOps ops context).EndsAtFirstFault ∧
    ((e.dispatcher n).dispatch op context).EndsAtFirstFault := by
  have hM := Monitor.firstFault.suits
  have hkeeps : e.Composed (Flow.Keeps Monitor.firstFault) :=
    he.mono fun _ => Monitor.firstFault.outspoken_iff_keeps.1
  have hd := Engine.covers_of_composed hM
    (fun _ _ _ => Monitor.firstFault.neutral (by simp)) hkeeps n context
  refine ⟨?_, ?_, ?_, ?_⟩
  · exact Monitor.firstFault.endsAtFirstFault (Workflow.run_keeps hM hd fun _ _ => trivial)
  · exact Monitor.firstFault.endsAtFirstFault (Workflow.execute_keeps hM hd fun _ _ => trivial)
  · exact Monitor.firstFault.endsAtFirstFault (Dispatcher.runOps_keeps hM hd fun _ _ => trivial)
  · exact Monitor.firstFault.endsAtFirstFault (Dispatcher.dispatch_keeps hM hd trivial)

/-- An engine whose host brings executors that wait and that fail. -/
def Rehearsal.failing : Engine :=
  EngineBuilder.build { executors := .ofList [("wait", Rehearsal.wait), ("fail", Rehearsal.fail)] }

/-- A branch that waits, one that fails in a group of its own after a while, and one that does
not. -/
def Rehearsal.failingBranch : Op := .parallel [
  (Op.new "wait").withParam "ticks" (.nat 2),
  .sequential [(Op.new "wait").withParam "ticks" (.nat 1), Op.new "fail"],
  .set .null]

theorem Rehearsal.failing_composed : Rehearsal.failing.Composed Flow.Outspoken := by
  have hM := Monitor.firstFault.suits.toSuitsLeaves
  have hclient : Http.outside.Keeps Monitor.firstFault :=
    Http.outside_keeps hM fun _ _ => Monitor.firstFault.neutral (by simp)
  refine Engine.Composed.mono (EngineBuilder.composed_build hM hclient (by simp) ?_) fun _ =>
    Monitor.firstFault.outspoken_iff_keeps.2
  intro host hhost
  have hm := Record.mem_of_mem_ofList hhost
  simp only [List.mem_cons, List.not_mem_nil, or_false] at hm
  rcases hm with rfl | rfl
  · exact ⟨fun _ => Rehearsal.wait ⟨{}, 0, fun _ _ => .starved⟩, rfl, fun _ _ context =>
      (Flow.wait_keeps _).bind fun _ _ => (Flow.keeps_view hM context).bind fun _ _ =>
        Flow.obeys_ok trivial⟩
  · exact ⟨fun _ => Rehearsal.fail ⟨{}, 0, fun _ _ => .starved⟩, rfl, fun _ _ _ =>
      (Flow.wait_keeps _).bind fun _ _ => Flow.obeys_fail hM _ _⟩

/-- The fault of the second branch ends the whole while the first is waiting. -/
theorem Engine.ends_at_first_fault_in_branch :
    Rehearsal.failing.Composed Flow.Outspoken ∧
    ∃ before, ((Rehearsal.failing.dispatcher 9).dispatch Rehearsal.failingBranch ⟨0⟩).Goes
      (before ++ [.did (.raise (.other "")) ()]) (.done (.error (.other ""))) := by
  refine ⟨Rehearsal.failing_composed, ?_⟩
  have hends := (Engine.ends_at_first_fault Rehearsal.failing_composed 9 (Workflow.empty "") []
    Rehearsal.failingBranch ⟨0⟩).2.2.2
  have hgoes := Flow.goes_trace {} ((Rehearsal.failing.dispatcher 9).dispatch
    Rehearsal.failingBranch ⟨0⟩) { contexts := (Store.empty.create .empty).2 }
  have hrun : (((Rehearsal.failing.dispatcher 9).dispatch Rehearsal.failingBranch ⟨0⟩).run {}
      { contexts := (Store.empty.create .empty).2 }).1 = .ended (.error (.other "")) := rfl
  rw [hrun] at hgoes
  obtain ⟨before, hbefore⟩ := hends.raised _ _ hgoes
  exact ⟨before, hbefore ▸ hgoes⟩

end WorkflowEngine
