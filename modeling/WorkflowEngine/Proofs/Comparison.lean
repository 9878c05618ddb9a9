import Mathlib.Data.List.Forall2
import WorkflowEngine.FanOut
import WorkflowEngine.Proofs.Moves

/-!
# Two runs side by side

Often two runs are looked at together: with a larger limit on loops, with another op in the place
of one, in another context. It is said of two flows that they keep in step, with results that belong
together, and what belongs together may depend on a state that both have come to. Whatever exactly
is meant by keeping in step, if it is so of the parts of two flows, then it is so of the flows.

A *comparison* (`Comparison`) is any such relation that has the rule of sequencing.

**Runners** (`Runner.advance_alike`). Two advances keep in step if their moves do.

**Fan-outs** (`FanOut.run_alike`). The workers of two fan-outs keep in step if their tasks do: in
each turn the same workers are busy with the same places, and the same results are in. Here it must
be possible to look at tasks stretch by stretch (`Comparison.Suspends`).
-/

namespace WorkflowEngine

/-- A way to say of two flows, from a state on, that they keep in step, and that in the end a
condition holds of the state and of the two results. -/
structure Comparison where
  State : Type
  /-- What may become of a state. -/
  Le : State → State → Prop
  compares {α β : Type} (Q : State → α → β → Prop) (s : State) (f : Flow α) (g : Flow β) : Prop
  ok {α β : Type} {Q : State → α → β → Prop} {s : State} {a : α} {b : β} :
    Q s a b → compares Q s (.done (.ok a)) (.done (.ok b))
  starved {α β : Type} {Q : State → α → β → Prop} {s : State} : compares Q s .starved .starved
  bind {α β γ δ : Type} {P : State → α → β → Prop} {Q : State → γ → δ → Prop} {f : Flow α}
    {g : Flow β} {k : α → Flow γ} {l : β → Flow δ} {s : State} : compares P s f g →
      (∀ s' a b, Le s s' → P s' a b → compares Q s' (k a) (l b)) →
      compares Q s (f.bind k) (g.bind l)

/-- The flows keep in step and have the same result. -/
abbrev Comparison.Alike (C : Comparison) {α : Type} (s : C.State) (f g : Flow α) : Prop :=
  C.compares (fun _ => Eq) s f g

variable {C : Comparison} {s : C.State}

/-! ## Runners -/

namespace Runner

variable {d d' : Dispatcher} {S : Step → Step → Prop} {R : C.State → Runner → Runner → Prop}

theorem advance_alike (hR : ∀ {s s' r r'}, C.Le s s' → R s r r' → R s' r r')
    (hmove : ∀ {s r r'}, R s r r' →
      C.compares (fun s => Moved.Rel S (R s)) s (move d r) (move d' r'))
    (n : Nat) {r r' : Runner} (hr : R s r r') :
    C.compares (fun s p q => Option.Rel S p.1 q.1 ∧ R s p.2 q.2) s (advance d n r)
      (advance d' n r') := by
  induction n generalizing s r r' with
  | zero => exact C.starved
  | succ n ih =>
    rw [advance_succ, advance_succ]
    refine C.bind (hmove hr) fun s' m m' hle hm => ?_
    cases hm with
    | atEnd => exact C.ok ⟨.none, hR hle hr⟩
    | onward hr => exact ih hr
    | handed hstep hr => exact C.ok ⟨.some hstep, hr⟩

end Runner

/-! ## Fan-outs -/

section

variable {α : Type} {R : Flow α → Flow α → Prop}

/-- Both flows have come to one result, or related flows are left after a pause. -/
inductive Flow.Stretch.Rel (R : Flow α → Flow α → Prop) : Stretch α → Stretch α → Prop
  | settled (a : α) : Rel R (.settled a) (.settled a)
  | suspended {rest rest' : Flow α} : R rest rest' → Rel R (.suspended rest) (.suspended rest')

/-- Flows that keep in step do so up to their next pauses, and after them; and what has been begun
in a state may be continued later. -/
structure Comparison.Suspends (C : Comparison) : Prop where
  check {s : C.State} : C.Alike s Flow.check Flow.check
  fail {α : Type} {s : C.State} (e : Fault) : C.Alike (α := α) s (Flow.fail e) (Flow.fail e)
  pause {α : Type} {s : C.State} {rest rest' : Unit → Flow α} :
    C.Alike s (rest ()) (rest' ()) → C.Alike s (.pause rest) (.pause rest')
  later {α : Type} {s s' : C.State} {f g : Flow α} : C.Le s s' → C.Alike s f g → C.Alike s' f g
  advance {α : Type} {s : C.State} {f g : Flow α} : C.Alike s f g →
    C.compares (fun s => Flow.Stretch.Rel (C.Alike s)) s f.advance g.advance

namespace FanOut

/-- The workers are doing the same, on related tasks. -/
inductive Worker.Rel (R : Flow α → Flow α → Prop) : Worker α → Worker α → Prop
  | idle : Rel R .idle .idle
  | busy {rest rest' : Flow α} (index : Nat) :
      R rest rest' → Rel R (.busy index rest) (.busy index rest')
  | finished : Rel R .finished .finished

/-- Related tasks at the same places. -/
def TasksRel (R : Flow α → Flow α → Prop) : List (Flow α × Nat) → List (Flow α × Nat) → Prop :=
  List.Forall₂ fun p q => R p.1 q.1 ∧ p.2 = q.2

/-- The same results, and related tasks that wait. -/
structure Board.Rel (R : Flow α → Flow α → Prop) (b b' : Board α) : Prop where
  waiting : TasksRel R b.waiting b'.waiting
  tally : b.tally = b'.tally

theorem all_isFinished_of_rel {ws ws' : List (Worker α)} (h : List.Forall₂ (Worker.Rel R) ws ws') :
    ws.all Worker.isFinished = ws'.all Worker.isFinished := by
  induction h with
  | nil => rfl
  | cons hw _ ih =>
    rw [List.all_cons, List.all_cons, ih]
    cases hw <;> rfl

theorem start_rel {tasks tasks' : List (Flow α)} (h : List.Forall₂ R tasks tasks') (cap : Nat) :
    List.Forall₂ (Worker.Rel R) (start tasks cap).1 (start tasks' cap).1 ∧
      (start tasks cap).2.Rel R (start tasks' cap).2 := by
  have hlength : tasks.length = tasks'.length := h.length_eq
  have hindexed : ∀ n, TasksRel R (tasks.zipIdx n) (tasks'.zipIdx n) := by
    clear hlength
    induction h with
    | nil => exact fun _ => .nil
    | cons htask _ ih => exact fun n => .cons ⟨htask, rfl⟩ (ih (n + 1))
  refine ⟨?_, hindexed 0, by simp [start, hlength]⟩
  rw [start, start, hlength]
  exact List.forall₂_same.2 fun w hw => (List.eq_of_mem_replicate hw) ▸ .idle

variable {report : Report} {s' : C.State}

theorem Worker.Rel.later (hC : C.Suspends) (hle : C.Le s s') {w w' : Worker α}
    (h : w.Rel (C.Alike s) w') : w.Rel (C.Alike s') w' := by
  cases h with
  | idle => exact .idle
  | busy index h => exact .busy index (hC.later hle h)
  | finished => exact .finished

theorem TasksRel.later (hC : C.Suspends) (hle : C.Le s s') {ts ts' : List (Flow α × Nat)}
    (h : TasksRel (C.Alike s) ts ts') : TasksRel (C.Alike s') ts ts' :=
  List.Forall₂.imp (fun _ _ ht => ⟨hC.later hle ht.1, ht.2⟩) h

variable (hC : C.Suspends) (hr : ∀ p s, C.Alike s (report p) (report p))

include hC hr

theorem settle_alike (t : Tally α) (index : Nat) (a : α) :
    C.Alike s (t.settle report index a) (t.settle report index a) :=
  C.bind hC.check fun _ _ _ _ _ => C.bind (hr _ _) fun _ _ _ _ _ => C.ok rfl

/-- What two turns come to. -/
def TurnsRel (C : Comparison) (s : C.State) (p q : Worker α × Board α) : Prop :=
  p.1.Rel (C.Alike s) q.1 ∧ p.2.Rel (C.Alike s) q.2

theorem claim_alike {ts ts' : List (Flow α × Nat)} (h : TasksRel (C.Alike s) ts ts')
    (t : Tally α) : C.compares (TurnsRel C) s (claim report t ts) (claim report t ts') := by
  induction ts generalizing s t ts' with
  | nil =>
    cases h
    exact C.bind hC.check fun _ _ _ _ _ => C.ok ⟨.finished, .nil, rfl⟩
  | cons task waiting ih =>
    cases h with
    | @cons _ task' _ waiting' hhead hwaiting =>
    obtain ⟨task, index⟩ := task
    obtain ⟨task', index'⟩ := task'
    obtain ⟨htask, rfl⟩ := hhead
    refine C.bind hC.check fun s₁ _ _ hle₁ _ => ?_
    have hwaiting₁ := TasksRel.later hC hle₁ hwaiting
    refine C.bind (hC.advance (hC.later hle₁ htask)) fun s₂ x y hle₂ hxy => ?_
    have hwaiting₂ := TasksRel.later hC hle₂ hwaiting₁
    cases hxy with
    | suspended hrest => exact C.ok ⟨.busy _ hrest, hwaiting₂, rfl⟩
    | settled a =>
      refine C.bind (settle_alike hC hr t _ a) fun s₃ t₁ t₂ hle₃ ht => ?_
      cases ht
      exact ih (TasksRel.later hC hle₃ hwaiting₂) t₁

theorem turn_alike {w w' : Worker α} {b b' : Board α} (hw : w.Rel (C.Alike s) w')
    (hb : b.Rel (C.Alike s) b') :
    C.compares (TurnsRel C) s (turn report w b) (turn report w' b') := by
  obtain ⟨waiting, tally⟩ := b
  obtain ⟨waiting', tally'⟩ := b'
  obtain ⟨hwaiting, htally⟩ := hb
  cases htally
  cases hw with
  | finished => exact C.ok ⟨.finished, hwaiting, rfl⟩
  | idle => exact claim_alike hC hr hwaiting _
  | busy index hrest =>
    refine C.bind (hC.advance hrest) fun s₁ x y hle₁ hxy => ?_
    have hwaiting₁ := TasksRel.later hC hle₁ hwaiting
    cases hxy with
    | suspended hrest => exact C.ok ⟨.busy index hrest, hwaiting₁, rfl⟩
    | settled a =>
      refine C.bind (settle_alike hC hr tally index a) fun s₂ t₁ t₂ hle₂ ht => ?_
      cases ht
      exact claim_alike hC hr (TasksRel.later hC hle₂ hwaiting₁) t₁

theorem round_alike {ws ws' : List (Worker α)} {b b' : Board α}
    (hws : List.Forall₂ (Worker.Rel (C.Alike s)) ws ws') (hb : b.Rel (C.Alike s) b') :
    C.compares (fun s p q => List.Forall₂ (Worker.Rel (C.Alike s)) p.1 q.1 ∧
      p.2.Rel (C.Alike s) q.2) s (round report ws b) (round report ws' b') := by
  induction ws generalizing s ws' b b' with
  | nil =>
    cases hws
    exact C.ok ⟨.nil, hb⟩
  | cons w ws ih =>
    cases hws with
    | cons hw hws =>
    refine C.bind (turn_alike hC hr hw hb) fun s₁ p q hle₁ hpq => ?_
    have hws₁ := hws.imp fun _ _ => Worker.Rel.later hC hle₁
    refine C.bind (ih hws₁ hpq.2) fun s₂ p' q' hle₂ hpq' => ?_
    exact C.ok ⟨.cons (hpq.1.later hC hle₂) hpq'.1, hpq'.2⟩

theorem rounds_alike (n : Nat) {ws ws' : List (Worker α)} {b b' : Board α}
    (hws : List.Forall₂ (Worker.Rel (C.Alike s)) ws ws') (hb : b.Rel (C.Alike s) b') :
    C.Alike s (rounds report n ws b) (rounds report n ws' b') := by
  induction n generalizing s ws ws' b b' with
  | zero => exact C.starved
  | succ n ih =>
    refine C.bind (round_alike hC hr hws hb) fun s₁ p q _ hpq => ?_
    obtain ⟨hworkers, hboard⟩ := hpq
    dsimp only
    rw [all_isFinished_of_rel hworkers, hboard.tally]
    split
    · exact C.ok rfl
    · exact hC.pause (ih hworkers hboard)

/-- **Fan-outs keep in step if their tasks do.** -/
theorem run_alike {tasks tasks' : List (Flow α)} (h : List.Forall₂ (C.Alike s) tasks tasks')
    (fuel cap : Nat) : C.Alike s (run fuel tasks cap report) (run fuel tasks' cap report) := by
  match tasks, tasks', h with
  | [], [], _ => exact C.ok rfl
  | [task], [task'], h =>
    have htask : C.Alike s task task' := (List.forall₂_cons.1 h).1
    refine C.bind hC.check fun s₁ _ _ hle _ => ?_
    refine C.bind (hC.later hle htask) fun s₂ a a' _ ha => ?_
    cases ha
    exact C.bind hC.check fun _ _ _ _ _ => C.bind (hr _ _) fun _ _ _ _ _ => C.ok rfl
  | task :: task₁ :: rest, task' :: task₁' :: rest', h =>
    refine C.bind hC.check fun s₁ _ _ hle _ => ?_
    obtain ⟨hworkers, hboard⟩ := start_rel (h.imp fun _ _ => hC.later hle) cap
    refine C.bind (rounds_alike hC hr fuel hworkers hboard) fun s₂ slots slots' _ hslots => ?_
    cases hslots
    cases slots.mapM id with
    | some results => exact C.ok rfl
    | none => exact hC.fail _

end FanOut

end

end WorkflowEngine
