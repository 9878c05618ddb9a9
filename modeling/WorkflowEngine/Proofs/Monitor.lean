import WorkflowEngine.Flow

/-!
# Monitors: what the actions of a flow obey

A monitor watches a flow from action to action. In each of its states it says which actions are
allowed and which answers are to be expected, and an answer moves it to another state. A flow goes
on while the monitor is *live*; in every other state it may still act as far as that is allowed, but
it neither pauses nor starves, and it can only end with a fault that the state asks for.

**The judgement** (`Flow.Passes`). A flow passes a monitor from a state when no way of answering its
actions as expected lets it do what is not allowed, and a given condition holds of the state and the
result at its end. `Flow.Obeys` is the usual case: the flow starts live, ends live if it has a
result, and its result satisfies a condition.

**The rules** (`Passes.bind`, `Passes.attempt`, `Obeys.advance`, ...) follow the ways in which flows
are put together, so that what a flow obeys is derived from what its parts obey. Running a flow only
up to its next pause (`Flow.advance`) leaves a rest that obeys the same monitor; that is what makes
the rules apply to flows that take turns.
-/

namespace WorkflowEngine

structure Monitor where
  State : Type
  /-- The state in which a flow goes on. -/
  live : State
  allows : State → Action → Prop
  /-- The answers to be expected. -/
  expects : (a : Action) → a.Answer → Prop
  /-- The state after an action and its answer. -/
  after : State → (a : Action) → a.Answer → State
  /-- The faults that a flow may end with in a state. -/
  fails : State → Fault → Prop

namespace Monitor

/-- An action that is allowed while live and changes nothing. -/
def Neutral (M : Monitor) (a : Action) : Prop :=
  M.allows M.live a ∧ ∀ x, M.after M.live a x = M.live

/-- The end of a flow: live and with a result as described, or with a fault that may be. -/
def Ends {α : Type} (M : Monitor) (P : α → Prop) (s : M.State) : Except Fault α → Prop
  | .ok a => s = M.live ∧ P a
  | .error e => M.fails s e

end Monitor

namespace Flow

variable {α β : Type} {M : Monitor}

/-- From state `s` on, the flow does only what the monitor allows, and at its end `Q` holds. -/
def Passes (M : Monitor) (Q : M.State → Except Fault α → Prop) : Flow α → M.State → Prop
  | .done r, s => Q s r
  | .starved, s => s = M.live
  | .pause rest, s => s = M.live ∧ (rest ()).Passes M Q s
  | .act a next, s => M.allows s a ∧ ∀ x, M.expects a x → (next x).Passes M Q (M.after s a x)

/-- The flow obeys the monitor from the live state on, and its result satisfies `P`. -/
def Obeys (M : Monitor) (P : α → Prop) (f : Flow α) : Prop := f.Passes M (M.Ends P) M.live

/-- The flow obeys the monitor, whatever its result. -/
abbrev Keeps (M : Monitor) (f : Flow α) : Prop := f.Obeys M fun _ => True

/-! ## Rules for any condition at the end -/

theorem Passes.mono {Q R : M.State → Except Fault α → Prop} {f : Flow α} {s : M.State}
    (h : f.Passes M Q s) (hQ : ∀ s r, Q s r → R s r) : f.Passes M R s := by
  induction f generalizing s with
  | done r => exact hQ s r h
  | starved => exact h
  | pause rest ih => exact ⟨h.1, ih () h.2⟩
  | act a next ih => exact ⟨h.1, fun x hx => ih x (h.2 x hx)⟩

/-- **Sequencing.** A result is passed on together with the state; a fault ends the whole. -/
theorem Passes.bind {Q : M.State → Except Fault α → Prop} {R : M.State → Except Fault β → Prop}
    {f : Flow α} {k : α → Flow β} {s : M.State} (h : f.Passes M Q s)
    (hok : ∀ s a, Q s (.ok a) → (k a).Passes M R s)
    (herror : ∀ s e, Q s (.error e) → R s (.error e)) : (f.bind k).Passes M R s := by
  induction f generalizing s with
  | done r =>
    cases r with
    | ok a => exact hok s a h
    | error e => exact herror s e h
  | starved => exact h
  | pause rest ih => exact ⟨h.1, ih () h.2⟩
  | act a next ih => exact ⟨h.1, fun x hx => ih x (h.2 x hx)⟩

/-- A fault that is kept as a result comes with the state it arose in. -/
theorem Passes.attempt {Q : M.State → Except Fault α → Prop} {f : Flow α} {s : M.State}
    (h : f.Passes M Q s) : f.attempt.Passes M (fun s r => ∃ q, r = .ok q ∧ Q s q) s := by
  induction f generalizing s with
  | done r => exact ⟨r, rfl, h⟩
  | starved => exact h
  | pause rest ih => exact ⟨h.1, ih () h.2⟩
  | act a next ih => exact ⟨h.1, fun x hx => ih x (h.2 x hx)⟩

/-! ## Rules for flows that obey -/

theorem Obeys.mono {P Q : α → Prop} {f : Flow α} (h : f.Obeys M P) (hP : ∀ a, P a → Q a) :
    f.Obeys M Q := by
  refine Passes.mono h fun s r hr => ?_
  cases r with
  | ok a => exact ⟨hr.1, hP a hr.2⟩
  | error e => exact hr

theorem Obeys.keeps {P : α → Prop} {f : Flow α} (h : f.Obeys M P) : f.Keeps M :=
  h.mono fun _ _ => trivial

theorem obeys_ok {P : α → Prop} {a : α} (h : P a) : (Flow.done (.ok a)).Obeys M P := ⟨rfl, h⟩

theorem obeys_starved {P : α → Prop} : (Flow.starved : Flow α).Obeys M P := rfl

theorem obeys_pause {P : α → Prop} {rest : Unit → Flow α} (h : (rest ()).Obeys M P) :
    (Flow.pause rest).Obeys M P := ⟨rfl, h⟩

theorem wait_keeps (n : Nat) : (wait n).Keeps M := by
  induction n with
  | zero => exact obeys_ok trivial
  | succ n ih => exact obeys_pause ih

theorem Obeys.bind {P : α → Prop} {Q : β → Prop} {f : Flow α} {k : α → Flow β}
    (h : f.Obeys M P) (hk : ∀ a, P a → (k a).Obeys M Q) : (f.bind k).Obeys M Q := by
  refine Passes.bind h (fun s a ha => ?_) fun s e he => he
  obtain ⟨rfl, ha⟩ := ha
  exact hk a ha

theorem obeys_act {P : α → Prop} {a : Action} {next : a.Answer → Flow α} (ha : M.Neutral a)
    (h : ∀ x, M.expects a x → (next x).Obeys M P) : (Flow.act a next).Obeys M P := by
  refine ⟨ha.1, fun x hx => ?_⟩
  rw [ha.2 x]
  exact h x hx

theorem obeys_perform {a : Action} (ha : M.Neutral a) : (perform a).Obeys M (M.expects a) :=
  obeys_act ha fun _ hx => obeys_ok hx

/-- **Stretches.** Where a flow gives up control, its rest still obeys. -/
theorem Obeys.advance {P : α → Prop} {f : Flow α} (h : f.Obeys M P) :
    f.advance.Obeys M fun
      | .settled a => P a
      | .suspended rest => rest.Obeys M P := by
  suffices hs : ∀ s, f.Passes M (M.Ends P) s → f.advance.Passes M (M.Ends fun
      | .settled a => P a
      | .suspended rest => rest.Obeys M P) s from hs _ h
  clear h
  induction f with
  | done r =>
    intro s h
    cases r with
    | ok a => exact h
    | error e => exact h
  | starved => exact fun s h => h
  | pause rest _ =>
    intro s h
    obtain ⟨rfl, h⟩ := h
    exact ⟨rfl, h⟩
  | act a next ih => exact fun s h => ⟨h.1, fun x hx => ih x _ (h.2 x hx)⟩

end Flow

/-! ## Monitors that suit the engine -/

/-- The monitor allows what executors do by themselves: reading contexts, asking for a request to
stop, and raising faults. -/
structure Monitor.SuitsLeaves (M : Monitor) : Prop where
  raise : ∀ e, M.allows M.live (.raise e) ∧ M.fails (M.after M.live (.raise e) ()) e
  signal : M.Neutral .signal
  view : ∀ h, M.Neutral (.view h)

/-- The monitor also allows what the engine does by itself: asking whether to stop, making new
contexts, and announcing events. -/
structure Monitor.Suits (M : Monitor) : Prop extends M.SuitsLeaves where
  check : Flow.check.Keeps M
  create : ∀ b, M.Neutral (.create b)
  announce : ∀ e, M.Neutral (.announce e)

namespace Flow

variable {α : Type} {M : Monitor}

theorem obeys_fail (hM : M.SuitsLeaves) (P : α → Prop) (e : Fault) : (fail e : Flow α).Obeys M P :=
  ⟨(hM.raise e).1, fun _ _ => (hM.raise e).2⟩

theorem obeys_ofExcept (hM : M.SuitsLeaves) {P : α → Prop} {r : Except Fault α}
    (h : ∀ a, r = .ok a → P a) : (ofExcept r).Obeys M P := by
  cases r with
  | ok a => exact obeys_ok (h a rfl)
  | error e => exact obeys_fail hM P e

theorem keeps_view (hM : M.SuitsLeaves) (h : Handle) : (view h).Keeps M :=
  (obeys_perform (hM.view h)).keeps

theorem keeps_announce (hM : M.Suits) (stage : Stage) (op : Op) (h : Handle) :
    (announce stage op h).Keeps M := (obeys_perform (hM.announce _)).keeps

/-- Giving up after a pause keeps a flow within what it obeys. -/
theorem Keeps.guardPauses (hM : M.SuitsLeaves) {f : Flow α} (h : f.Keeps M) :
    f.guardPauses.Keeps M := by
  suffices hs : ∀ s, f.Passes M (M.Ends fun _ => True) s →
      f.guardPauses.Passes M (M.Ends fun _ => True) s from hs _ h
  clear h
  induction f with
  | done r => exact fun s h => h
  | starved => exact fun s h => h
  | pause rest ih =>
    intro s h
    obtain ⟨rfl, h⟩ := h
    refine obeys_pause (obeys_act hM.signal fun stop _ => ?_)
    cases stop with
    | true => exact obeys_fail hM _ _
    | false => exact ih () _ h
  | act a next ih => exact fun s h => ⟨h.1, fun x hx => ih x _ (h.2 x hx)⟩

theorem Keeps.abortable (hM : M.SuitsLeaves) {f : Flow α} (h : f.Keeps M) :
    f.abortable.Keeps M := by
  refine obeys_act hM.signal fun stop _ => ?_
  cases stop with
  | true => exact obeys_fail hM _ _
  | false => exact h.guardPauses hM

/-! ## Flows that avoid some actions -/

/-- Whatever the answers, the flow does nothing bad. -/
inductive Avoids (bad : Action → Prop) : Flow α → Prop
  | done (r : Except Fault α) : Avoids bad (.done r)
  | starved : Avoids bad .starved
  | pause {rest : Unit → Flow α} : (∀ u, Avoids bad (rest u)) → Avoids bad (.pause rest)
  | act {a : Action} {next : a.Answer → Flow α} :
      ¬bad a → (∀ x, Avoids bad (next x)) → Avoids bad (.act a next)

theorem Avoids.mono {bad other : Action → Prop} {f : Flow α} (h : f.Avoids bad)
    (hother : ∀ a, other a → bad a) : f.Avoids other := by
  induction h with
  | done r => exact .done r
  | starved => exact .starved
  | pause _ ih => exact .pause ih
  | act ha _ ih => exact .act (fun h => ha (hother _ h)) ih

/-- Doing nothing bad keeps a flow within a monitor to which the rest makes no difference. -/
theorem Avoids.keeps {bad : Action → Prop} {f : Flow α} (h : f.Avoids bad)
    (hneutral : ∀ a, ¬bad a → M.Neutral a) (hfails : ∀ e, M.fails M.live e) : f.Keeps M := by
  induction h with
  | done r =>
    cases r with
    | ok a => exact obeys_ok trivial
    | error e => exact hfails e
  | starved => exact obeys_starved
  | pause _ ih => exact obeys_pause (ih ())
  | act ha _ ih => exact obeys_act (hneutral _ ha) fun x _ => ih x

end Flow

/-- Allows everything but bad actions. -/
def Monitor.avoiding (bad : Action → Prop) : Monitor where
  State := Unit
  live := ()
  allows _ a := ¬bad a
  expects _ _ := True
  after _ _ _ := ()
  fails _ _ := True

theorem Monitor.avoiding_neutral {bad : Action → Prop} {a : Action} (h : ¬bad a) :
    (avoiding bad).Neutral a := ⟨h, fun _ => rfl⟩

theorem Monitor.avoiding_suitsLeaves {bad : Action → Prop} (hraise : ∀ e, ¬bad (.raise e))
    (hsignal : ¬bad .signal) (hview : ∀ h, ¬bad (.view h)) : (avoiding bad).SuitsLeaves where
  raise e := ⟨hraise e, trivial⟩
  signal := avoiding_neutral hsignal
  view h := avoiding_neutral (hview h)

theorem Flow.avoids_iff_keeps {α : Type} {bad : Action → Prop} {f : Flow α} :
    f.Avoids bad ↔ f.Keeps (Monitor.avoiding bad) := by
  constructor
  · exact fun h => h.keeps (fun _ => Monitor.avoiding_neutral) fun _ => trivial
  · intro h
    induction f with
    | done r => exact .done r
    | starved => exact .starved
    | pause rest ih => exact .pause fun u => ih u h.2
    | act a next ih => exact .act h.1 fun x => ih x (h.2 x trivial)

end WorkflowEngine
