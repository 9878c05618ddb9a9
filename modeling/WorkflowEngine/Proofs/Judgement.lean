import WorkflowEngine.Flow

/-!
# Judgements on flows

A run is put together from flows, and much of what is said of runs is derived from what can be said
of these. Time and again it is said of a flow that, from a state on, it does only what it should,
however its actions are answered, and that in the end a condition holds of the state and the result.
What a state is differs: the state of a monitor, a count, a trace, what is known of a request to
stop. The way in which flows are put together does not.

A *judgement* (`Judgement`) is any such way to speak of flows that has the rule of sequencing. What
the engine makes of flows is looked at once for all judgements: the turns of workers in
`Proofs/Judgement/FanOut`, runners and groups of ops in `Proofs/Judgement/Runner` and
`Proofs/Judgement/Group`.
-/

namespace WorkflowEngine

/-- A way to say of flows, from a state on, that they do as they should, and that in the end a
condition holds of the state and the result. -/
structure Judgement where
  State : Type
  judges {α : Type} (P : State → α → Prop) (f : Flow α) (s : State) : Prop
  ok {α : Type} {P : State → α → Prop} {a : α} {s : State} : P s a → judges P (.done (.ok a)) s
  /-- A result is passed on together with the state. -/
  bind {α β : Type} {P : State → α → Prop} {Q : State → β → Prop} {f : Flow α} {k : α → Flow β}
    {s : State} : judges P f s → (∀ s a, P s a → judges Q (k a) s) → judges Q (f.bind k) s

namespace Judgement

variable {J : Judgement} {α : Type} {s : J.State}

theorem mono {P Q : J.State → α → Prop} {f : Flow α} (h : J.judges P f s)
    (hP : ∀ s a, P s a → Q s a) : J.judges Q f s := by
  rw [← f.bind_pure]
  exact J.bind h fun s a ha => J.ok (hP s a ha)

end Judgement

end WorkflowEngine
