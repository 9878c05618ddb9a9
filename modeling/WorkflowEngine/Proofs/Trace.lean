import WorkflowEngine.World

/-!
# Traces: what a flow has done so far

A trace lists, in order, the actions that a flow has performed, each with its answer, and its
pauses. `Flow.Goes f t g` says that `f`, answered as in `t`, has come to `g`. The answers are
arbitrary, so what is shown for all traces holds whatever the listener, the services outside and
other flows do, and at every moment of a run, also of one that does not end.

`Flow.trace` is the trace of a run in a world, and `Flow.goes_trace` ties it to `Flow.run`.
-/

namespace WorkflowEngine

inductive Mark where
  | did (action : Action) (answer : action.Answer)
  | paused

/-- What is left of a flow that ends so. -/
def Outcome.flow {α : Type} : Outcome α → Flow α
  | .ended r => .done r
  | .starved => .starved

/-- The result of a flow that ends with one. -/
def Outcome.result? {α : Type} : Outcome α → Option α
  | .ended (.ok a) => some a
  | _ => none

theorem Outcome.eq_of_result? {α : Type} {o : Outcome α} {a : α} (h : o.result? = some a) :
    o = .ended (.ok a) := by
  unfold result? at h
  split at h
  · cases h
    rfl
  · cases h

namespace Flow

variable {α : Type}

/-- Answered as in the trace, the first flow comes to the second. -/
inductive Goes : Flow α → List Mark → Flow α → Prop
  | here (f : Flow α) : Goes f [] f
  | pause {rest : Unit → Flow α} {t : List Mark} {g : Flow α} :
      Goes (rest ()) t g → Goes (.pause rest) (.paused :: t) g
  | act {a : Action} {next : a.Answer → Flow α} {t : List Mark} {g : Flow α} (x : a.Answer) :
      Goes (next x) t g → Goes (.act a next) (.did a x :: t) g

/-- The trace of a run. -/
def trace (env : Environment) : Flow α → World → List Mark
  | .done _, _ => []
  | .starved, _ => []
  | .pause rest, w => .paused :: (rest ()).trace env w
  | .act a next, w =>
    let p := w.perform env a
    .did a p.1 :: (next p.1).trace env p.2

theorem goes_trace (env : Environment) (f : Flow α) (w : World) :
    f.Goes (f.trace env w) (f.run env w).1.flow := by
  induction f generalizing w with
  | done r => exact .here _
  | starved => exact .here _
  | pause rest ih => exact .pause (ih () w)
  | act a next ih => exact .act _ (ih _ _)

theorem goes_of_result? {env : Environment} {f : Flow α} {w : World} {a : α}
    (h : (f.run env w).1.result? = some a) : f.Goes (f.trace env w) (.done (.ok a)) := by
  have hgoes := goes_trace env f w
  rwa [Outcome.eq_of_result? h] at hgoes

/-- Every trace passes through what its beginning comes to. -/
theorem Goes.split {f g : Flow α} {t u : List Mark} (h : f.Goes (t ++ u) g) :
    ∃ between, f.Goes t between ∧ between.Goes u g := by
  induction t generalizing f with
  | nil => exact ⟨f, .here f, h⟩
  | cons m t ih =>
    cases h with
    | pause h =>
      obtain ⟨between, h1, h2⟩ := ih h
      exact ⟨between, .pause h1, h2⟩
    | act x h =>
      obtain ⟨between, h1, h2⟩ := ih h
      exact ⟨between, .act x h1, h2⟩

theorem Goes.trans {f g h : Flow α} {t u : List Mark} (hf : f.Goes t g) (hg : g.Goes u h) :
    f.Goes (t ++ u) h := by
  induction hf with
  | here f => exact hg
  | pause _ ih => exact .pause (ih hg)
  | act x _ ih => exact .act x (ih hg)

theorem goes_perform (a : Action) (x : a.Answer) : (perform a).Goes [.did a x] (done (.ok x)) :=
  .act x (.here _)

theorem Goes.of_done {r : Except Fault α} {t : List Mark} {g : Flow α} (h : (done r).Goes t g) :
    t = [] ∧ g = done r := by
  cases h
  exact ⟨rfl, rfl⟩

theorem Goes.of_starved {r : Except Fault α} {t : List Mark} :
    ¬(starved : Flow α).Goes t (done r) := fun h => nomatch h

/-! ## Traces of sequences -/

variable {β : Type} {f : Flow α} {k : α → Flow β}

theorem trace_bind (env : Environment) (f : Flow α) (k : α → Flow β) (w : World) :
    (f.bind k).trace env w = f.trace env w ++
      match (f.run env w).1 with
      | .ended (.ok a) => (k a).trace env (f.run env w).2
      | _ => [] := by
  induction f generalizing w with
  | done r => cases r <;> rfl
  | starved => rfl
  | pause rest ih => exact congrArg (Mark.paused :: ·) (ih () w)
  | act a next ih => exact congrArg (_ :: ·) (ih _ _)

theorem Goes.of_bind {t : List Mark} {b : β} (h : (f.bind k).Goes t (.done (.ok b))) :
    ∃ before after a, t = before ++ after ∧ f.Goes before (.done (.ok a)) ∧
      (k a).Goes after (.done (.ok b)) := by
  induction f generalizing t with
  | done r =>
    cases r with
    | ok a => exact ⟨[], t, a, rfl, .here _, h⟩
    | error e => cases h.of_done.2
  | starved => cases h
  | pause rest ih =>
    cases h with
    | pause h =>
      obtain ⟨before, after, a, rfl, h1, h2⟩ := ih () h
      exact ⟨.paused :: before, after, a, rfl, .pause h1, h2⟩
  | act action next ih =>
    cases h with
    | act x h =>
      obtain ⟨before, after, a, rfl, h1, h2⟩ := ih x h
      exact ⟨.did action x :: before, after, a, rfl, .act x h1, h2⟩

theorem Goes.bind_left {t : List Mark} {g : Flow α} (h : f.Goes t g) :
    (f.bind k).Goes t (g.bind k) := by
  induction h with
  | here f => exact .here _
  | pause _ ih => exact .pause ih
  | act x _ ih => exact .act x ih

/-- A sequence goes as both parts do, one after the other. -/
theorem Goes.bind {t u : List Mark} {a : α} {g : Flow β} (hf : f.Goes t (.done (.ok a)))
    (hk : (k a).Goes u g) : (f.bind k).Goes (t ++ u) g :=
  hf.bind_left.trans hk

/-- After its first part a sequence goes on with the second. -/
theorem Goes.rest_of_bind {before after : List Mark} {a : α} {g : Flow β}
    (hf : f.Goes before (.done (.ok a))) (h : (f.bind k).Goes (before ++ after) g) :
    (k a).Goes after g := by
  induction before generalizing f with
  | nil =>
    cases hf
    exact h
  | cons mark before ih =>
    cases hf with
    | pause hf =>
      cases h with
      | pause h => exact ih hf h
    | act x hf =>
      cases h with
      | act x h => exact ih hf h

end Flow

theorem Mark.eq_of_singleton {before after : List Mark} {m m' : Mark}
    (h : [m] = before ++ m' :: after) : before = [] ∧ m = m' := by
  rcases List.cons_eq_append_iff.1 h with ⟨rfl, hcons⟩ | ⟨rest, -, hnil⟩
  · cases hcons
    exact ⟨rfl, rfl⟩
  · simp at hnil

/-- A mark in two traces, one after the other, is in the first or in the second. -/
theorem Mark.append_eq_cons {t w before after : List Mark} {m : Mark}
    (h : t ++ w = before ++ m :: after) :
    (∃ rest, t = before ++ m :: rest) ∨ ∃ front, before = t ++ front ∧ w = front ++ m :: after := by
  rcases List.append_eq_append_iff.1 h with ⟨front, hbefore, hw⟩ | ⟨c, ht, hc⟩
  · exact .inr ⟨front, hbefore, hw⟩
  · rcases List.cons_eq_append_iff.1 hc with ⟨rfl, hw⟩ | ⟨rest, rfl, -⟩
    · exact .inr ⟨[], by simpa using ht.symm, hw⟩
    · exact .inl ⟨rest, ht⟩

end WorkflowEngine
