import WorkflowEngine.Proofs.Trace

/-!
# Conduct: what a flow may do next, given all it has done

A monitor remembers little: wherever a flow gives up control it is in one state. For flows that take
turns that is not enough, since what the next one may do depends on how far the others have come. A
*rule* says of a whole trace which mark may come next.

**The judgement** (`Flow.Follows`). Going on from a trace, a flow follows a rule when no way of
answering lets it leave a mark that the rule does not allow, and at its end, or where it is cut off,
a given condition holds of the trace and the outcome. `Flow.Follows.goes` says what this means for
traces: every trace of the flow is `Lawful`, at every moment of it.
-/

namespace WorkflowEngine

/-- Which mark may come after a trace. -/
abbrev Rule := List Mark → Mark → Prop

/-- Every mark of the trace is allowed after those before it. -/
inductive Rule.Lawful (R : Rule) : List Mark → Prop
  | nil : Lawful R []
  | snoc {t : List Mark} {m : Mark} : Lawful R t → R t m → Lawful R (t ++ [m])

namespace Rule.Lawful

variable {R : Rule}

/-- What holds of a trace held at every moment before. -/
theorem of_append {t u : List Mark} (h : R.Lawful (t ++ u)) : R.Lawful t := by
  generalize htrace : t ++ u = trace at h
  induction h generalizing u with
  | nil =>
    have hnil : t = [] := (List.append_eq_nil_iff.1 htrace).1
    rw [hnil]
    exact .nil
  | @snoc s m hs hm ih =>
    rcases List.eq_nil_or_concat u with rfl | ⟨v, n, rfl⟩
    · rw [List.append_nil] at htrace
      rw [htrace]
      exact .snoc hs hm
    · rw [List.concat_eq_append, ← List.append_assoc] at htrace
      exact ih (List.append_inj_left' htrace rfl)

/-- A mark in the middle of a trace is allowed after those before it. -/
theorem allowed {t u : List Mark} {m : Mark} (h : R.Lawful (t ++ m :: u)) : R t m := by
  rw [List.append_cons] at h
  have hbegun : R.Lawful (t ++ [m]) := h.of_append
  generalize htrace : t ++ [m] = trace at hbegun
  cases hbegun with
  | nil => simp at htrace
  | @snoc s n _ hn =>
    obtain ⟨rfl, hsingle⟩ := List.append_inj' htrace rfl
    cases hsingle
    exact hn

end Rule.Lawful

namespace Flow

variable {α β : Type} {R : Rule}

/-- After the trace `t`, the flow does only what the rule allows, and in the end `Q` holds. -/
def Follows (R : Rule) (Q : List Mark → Outcome α → Prop) : Flow α → List Mark → Prop
  | .done r, t => Q t (.ended r)
  | .starved, t => Q t .starved
  | .pause rest, t => R t .paused ∧ (rest ()).Follows R Q (t ++ [.paused])
  | .act a next, t => ∀ x, R t (.did a x) ∧ (next x).Follows R Q (t ++ [.did a x])

/-- What is known of the result of a flow, where a fault or a cut ends the whole of which it is a
part. -/
def Ending (fails : List Mark → Fault → Prop) (starves : Prop)
    (Q : List Mark → α → Prop) : List Mark → Outcome α → Prop
  | t, .ended (.ok a) => Q t a
  | t, .ended (.error e) => fails t e
  | _, .starved => starves

theorem Follows.mono {Q Q' : List Mark → Outcome α → Prop} {f : Flow α} {t : List Mark}
    (h : f.Follows R Q t) (hQ : ∀ t o, Q t o → Q' t o) : f.Follows R Q' t := by
  induction f generalizing t with
  | done r => exact hQ t _ h
  | starved => exact hQ t _ h
  | pause rest ih => exact ⟨h.1, ih () h.2⟩
  | act a next ih => exact fun x => ⟨(h x).1, ih x (h x).2⟩

theorem Follows.weaken {fails : List Mark → Fault → Prop} {starves starves' : Prop}
    {Q Q' : List Mark → α → Prop} {f : Flow α} {t : List Mark}
    (h : f.Follows R (Ending fails starves Q) t) (hstarves : starves → starves')
    (hQ : ∀ t a, Q t a → Q' t a) : f.Follows R (Ending fails starves' Q') t := by
  refine h.mono fun t o ho => ?_
  match o with
  | .ended (.ok a) => exact hQ t a ho
  | .ended (.error e) => exact ho
  | .starved => exact hstarves ho

theorem Follows.extending {fails : List Mark → Fault → Prop} {starves : Prop}
    {Q : List Mark → α → Prop} {f : Flow α} {t : List Mark}
    (h : f.Follows R (Ending fails starves Q) t) :
    f.Follows R (Ending fails starves fun t' a => t <+: t' ∧ Q t' a) t := by
  induction f generalizing t with
  | done r =>
    cases r with
    | ok a => exact ⟨List.prefix_rfl, h⟩
    | error e => exact h
  | starved => exact h
  | pause rest ih =>
    refine ⟨h.1, (ih () h.2).weaken id fun t' a hQ => ⟨?_, hQ.2⟩⟩
    exact (List.prefix_append t _).trans hQ.1
  | act a next ih =>
    intro x
    refine ⟨(h x).1, (ih x (h x).2).weaken id fun t' a hQ => ⟨?_, hQ.2⟩⟩
    exact (List.prefix_append t _).trans hQ.1

/-- **Sequencing.** A result is passed on together with the trace; a fault or a cut ends the
whole. -/
theorem Follows.bind {fails : List Mark → Fault → Prop} {starves : Prop}
    {Q : List Mark → α → Prop} {Q' : List Mark → β → Prop} {f : Flow α} {k : α → Flow β}
    {t : List Mark} (h : f.Follows R (Ending fails starves Q) t)
    (hk : ∀ t a, Q t a → (k a).Follows R (Ending fails starves Q') t) :
    (f.bind k).Follows R (Ending fails starves Q') t := by
  induction f generalizing t with
  | done r =>
    cases r with
    | ok a => exact hk t a h
    | error e => exact h
  | starved => exact h
  | pause rest ih => exact ⟨h.1, ih () h.2⟩
  | act a next ih => exact fun x => ⟨(h x).1, ih x (h x).2⟩

/-- **What the judgement says of traces.** Every trace is lawful, and what the flow has come to
goes on following the rule. -/
theorem Follows.goes {Q : List Mark → Outcome α → Prop} {f g : Flow α} {t u : List Mark}
    (h : f.Follows R Q t) (ht : R.Lawful t) (hgoes : f.Goes u g) :
    R.Lawful (t ++ u) ∧ g.Follows R Q (t ++ u) := by
  induction hgoes generalizing t with
  | here f =>
    rw [List.append_nil]
    exact ⟨ht, h⟩
  | pause _ ih =>
    rw [List.append_cons]
    exact ih h.2 (ht.snoc h.1)
  | act x _ ih =>
    rw [List.append_cons]
    exact ih (h x).2 (ht.snoc (h x).1)

/-- Goes on where a stretch has ended: the flow is over, or it pauses. -/
def Stretch.resume : Stretch α → Flow α
  | .settled a => .done (.ok a)
  | .suspended rest => .pause fun _ => rest

/-- A flow is its first stretch, and then the rest. -/
theorem advance_resume (f : Flow α) : f.advance.bind Stretch.resume = f := by
  induction f with
  | done r => cases r <;> rfl
  | starved => rfl
  | pause rest _ => rfl
  | act a next ih => exact congrArg (Flow.act a) (funext ih)

theorem Follows.ends {Q : List Mark → Outcome α → Prop} {f : Flow α} {t : List Mark}
    {o : Outcome α} (h : f.Follows R Q []) (hgoes : f.Goes t o.flow) : Q t o := by
  have hend : o.flow.Follows R Q t := (h.goes .nil hgoes).2
  cases o with
  | ended r => exact hend
  | starved => exact hend

end Flow

end WorkflowEngine
