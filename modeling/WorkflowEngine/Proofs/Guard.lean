import WorkflowEngine.Proofs.Comparison
import WorkflowEngine.Proofs.Trace

/-!
# Flows that differ in the limits of their loops

Take two flows that do the same, except that the loops of the second have larger limits. Then the
first does what the second does until one of its loops has used up its limit: there the first raises
the fault of that loop, and the second goes on.

**The relation** (`Flow.UpToLimit`). It follows both flows step by step, under the same answers. The
first may leave the second only by raising the fault of a limit. What it still comes to then is
described by `ending`: it ends with the fault, if the fault is passed on (`Flow.FailsWith`).

**What it means for runs** (`Flow.GuardsOnly`). As long as the first run raises no fault of a limit,
the second does the same, action by action. If faults of limits are passed on, such a run is one
that does not end with one, and a run that does end with one has done nothing after raising it.
-/

namespace WorkflowEngine

/-- The fault of a loop that has used up its limit. -/
def Fault.IsLimit : Fault → Prop
  | .loopLimit _ _ _ => True
  | _ => False

namespace Flow

variable {α β γ δ : Type}

/-- The second flow does what the first does, with results that belong together; but where the first
raises the fault of a limit and is over as described, the second may do anything. -/
inductive UpToLimit (ending : Fault → Flow α → Prop) (Q : α → β → Prop) : Flow α → Flow β → Prop
  | ok {a : α} {b : β} : Q a b → UpToLimit ending Q (.done (.ok a)) (.done (.ok b))
  | error (e : Fault) : UpToLimit ending Q (.done (.error e)) (.done (.error e))
  | starved : UpToLimit ending Q .starved .starved
  | pause {rest : Unit → Flow α} {rest' : Unit → Flow β} :
      UpToLimit ending Q (rest ()) (rest' ()) → UpToLimit ending Q (.pause rest) (.pause rest')
  | act {a : Action} {next : a.Answer → Flow α} {next' : a.Answer → Flow β} :
      (∀ x, UpToLimit ending Q (next x) (next' x)) → UpToLimit ending Q (.act a next) (.act a next')
  | limit {e : Fault} {next : Unit → Flow α} (g : Flow β) :
      e.IsLimit → ending e (next ()) → UpToLimit ending Q (.act (.raise e) next) g

/-- Over with the fault, if faults are passed on. -/
def FailsWith (passedOn : Prop) (e : Fault) (f : Flow α) : Prop := passedOn → f = .done (.error e)

/-- The second flow does what the first does, unless that raises the fault of a limit, with which it
is over if such faults are passed on. -/
abbrev SameUpToLimit (passedOn : Prop) (f g : Flow α) : Prop :=
  UpToLimit (FailsWith passedOn) Eq f g

/-! ## Rules -/

variable {ending : Fault → Flow α → Prop} {ending' : Fault → Flow γ → Prop} {P : α → β → Prop}
  {Q : γ → δ → Prop} {f : Flow α} {g : Flow β} {k : α → Flow γ} {l : β → Flow δ} {passedOn : Prop}

theorem UpToLimit.refl (f : Flow α) : UpToLimit ending Eq f f := by
  induction f with
  | done r =>
    cases r with
    | ok a => exact .ok rfl
    | error e => exact .error e
  | starved => exact .starved
  | pause rest ih => exact .pause (ih ())
  | act a next ih => exact .act ih

/-- **Sequencing.** If the first part is over for a limit, so is the whole. -/
theorem UpToLimit.bind (h : UpToLimit ending P f g)
    (hk : ∀ a b, P a b → UpToLimit ending' Q (k a) (l b))
    (hending : ∀ e f, ending e f → ending' e (f.bind k)) :
    UpToLimit ending' Q (f.bind k) (g.bind l) := by
  induction h with
  | ok h => exact hk _ _ h
  | error e => exact .error e
  | starved => exact .starved
  | pause _ ih => exact .pause ih
  | act _ ih => exact .act ih
  | limit g he h => exact .limit _ he (hending _ _ h)

theorem FailsWith.bind {e : Fault} {f : Flow α} (h : FailsWith passedOn e f) (k : α → Flow γ) :
    FailsWith passedOn e (f.bind k) := by
  intro hpassed
  rw [h hpassed]
  rfl

/-- Sequencing of flows that pass on what they raise. -/
theorem UpToLimit.andThen (h : UpToLimit (FailsWith passedOn) P f g)
    (hk : ∀ a b, P a b → UpToLimit (FailsWith passedOn) Q (k a) (l b)) :
    UpToLimit (FailsWith passedOn) Q (f.bind k) (g.bind l) :=
  h.bind hk fun _ _ h => h.bind k

theorem UpToLimit.after (f : Flow α) {l : α → Flow δ}
    (hk : ∀ a, UpToLimit (FailsWith passedOn) Q (k a) (l a)) :
    UpToLimit (FailsWith passedOn) Q (f.bind k) (f.bind l) :=
  (UpToLimit.refl f).andThen fun a _ hab => hab ▸ hk a

/-- What is made of an outcome. A limit that is used up is such an outcome as well. -/
theorem UpToLimit.attempt {k : Except Fault α → Flow γ} {l : Except Fault β → Flow δ}
    (h : UpToLimit (FailsWith passedOn) P f g)
    (hok : ∀ a b, P a b → UpToLimit ending' Q (k (.ok a)) (l (.ok b)))
    (herror : ∀ e, UpToLimit ending' Q (k (.error e)) (l (.error e)))
    (hending : ∀ e f, (passedOn → f = k (.error e)) → ending' e f) :
    UpToLimit ending' Q (f.attempt.bind k) (g.attempt.bind l) := by
  induction h with
  | ok h => exact hok _ _ h
  | error e => exact herror e
  | starved => exact .starved
  | pause _ ih => exact .pause ih
  | act _ ih => exact .act ih
  | @limit e next g he h =>
    refine .limit _ he (hending e _ fun hpassed => ?_)
    change (next ()).attempt.bind k = k (.error e)
    rw [h hpassed]
    rfl

theorem UpToLimit.advance {f g : Flow α} (h : SameUpToLimit passedOn f g) :
    UpToLimit (FailsWith passedOn) (Stretch.Rel (SameUpToLimit passedOn)) f.advance g.advance := by
  induction h with
  | ok hab =>
    subst hab
    exact .ok (.settled _)
  | error e => exact .error e
  | starved => exact .starved
  | pause h => exact .ok (.suspended h)
  | act _ ih => exact .act ih
  | @limit e next g he h =>
    refine .limit _ he fun hpassed => ?_
    rw [h hpassed]
    rfl

/-- Being the same up to a limit, as a comparison. -/
abbrev upToLimit (passedOn : Prop) : Comparison where
  State := Unit
  Le _ _ := True
  compares Q _ f g := UpToLimit (FailsWith passedOn) (Q ()) f g
  ok := .ok
  starved := .starved
  bind h hk := h.andThen fun a b hab => hk () a b trivial hab

theorem upToLimit_suspends : (upToLimit passedOn).Suspends where
  check := .refl _
  fail _ := .refl _
  pause := .pause
  later _ h := h
  advance h := UpToLimit.advance h

/-! ## Runs -/

/-- The flow has raised no fault of a limit. -/
def WithinLimits (t : List Mark) : Prop := ∀ e, e.IsLimit → Mark.did (.raise e) () ∉ t

/-- What a smaller limit changes in a run: nothing, unless a fault of a limit is raised, and then
nothing that is done before. If such faults are passed on, then the run ends with it, and all that
the run has done was done before. The same holds at every moment, whatever the answers. -/
structure GuardsOnly (passedOn : Prop) (limited : Except Fault α → Prop) (f g : Flow α) : Prop where
  within : ∀ (env : Environment) (w : World), WithinLimits (f.trace env w) →
    g.trace env w = f.trace env w ∧ g.run env w = f.run env w
  unlimited : passedOn → ∀ (env : Environment) (w : World),
    (∀ r, (f.run env w).1 = .ended r → ¬limited r) →
    g.trace env w = f.trace env w ∧ g.run env w = f.run env w
  prior : ∀ (env : Environment) (w : World),
    (g.trace env w = f.trace env w ∧ g.run env w = f.run env w) ∨
    ∃ before e after, e.IsLimit ∧ f.trace env w = before ++ .did (.raise e) () :: after ∧
      before <+: g.trace env w ∧ (passedOn → after = [])
  moment : ∀ t f', f.Goes t f' → (∃ g', g.Goes t g') ∨
    ∃ before e after g', e.IsLimit ∧ t = before ++ .did (.raise e) () :: after ∧
      g.Goes before g' ∧ (passedOn → after = [])

variable {limited : Except Fault α → Prop}

/-- Either the two runs are the same, or the first raises the fault of a limit. -/
theorem UpToLimit.run_cases {f g : Flow α} (h : UpToLimit ending Eq f g)
    (hending : ∀ e f, e.IsLimit → ending e f → passedOn → ∃ r, f = .done r ∧ limited r)
    (env : Environment) (w : World) :
    (g.trace env w = f.trace env w ∧ g.run env w = f.run env w) ∨
    (passedOn → ∃ r, (f.run env w).1 = .ended r ∧ limited r) ∧
    ∃ before e after, e.IsLimit ∧ f.trace env w = before ++ .did (.raise e) () :: after ∧
      before <+: g.trace env w ∧ (passedOn → after = []) := by
  induction h generalizing w with
  | ok hab =>
    subst hab
    exact .inl ⟨rfl, rfl⟩
  | error e => exact .inl ⟨rfl, rfl⟩
  | starved => exact .inl ⟨rfl, rfl⟩
  | pause _ ih =>
    rcases ih w with ⟨htrace, hrun⟩ | ⟨hends, before, e, after, he, htrace, hprefix, hafter⟩
    · exact .inl ⟨congrArg (List.cons _) htrace, hrun⟩
    · refine .inr ⟨hends, .paused :: before, e, after, he, congrArg (List.cons _) htrace, ?_,
        hafter⟩
      exact List.cons_prefix_cons.2 ⟨rfl, hprefix⟩
  | @act a next next' _ ih =>
    rcases ih (w.perform env a).1 (w.perform env a).2 with
      ⟨htrace, hrun⟩ | ⟨hends, before, e, after, he, htrace, hprefix, hafter⟩
    · exact .inl ⟨congrArg (List.cons _) htrace, hrun⟩
    · refine .inr ⟨hends, .did a (w.perform env a).1 :: before, e, after, he,
        congrArg (List.cons _) htrace, ?_, hafter⟩
      exact List.cons_prefix_cons.2 ⟨rfl, hprefix⟩
  | @limit e next g he h =>
    refine .inr ⟨fun hpassed => ?_, [], e, (next ()).trace env w, he, rfl, List.nil_prefix,
      fun hpassed => ?_⟩
    · obtain ⟨r, hr, hlimited⟩ := hending _ _ he h hpassed
      refine ⟨r, ?_, hlimited⟩
      change ((next ()).run env w).1 = _
      rw [hr]
      rfl
    · obtain ⟨r, hr, -⟩ := hending _ _ he h hpassed
      rw [hr]
      rfl

theorem UpToLimit.goes {f g f' : Flow α} {t : List Mark} (h : UpToLimit ending Eq f g)
    (hending : ∀ e f, e.IsLimit → ending e f → passedOn → ∃ r, f = .done r) (hf : f.Goes t f') :
    (∃ g', g.Goes t g') ∨
    ∃ before e after g', e.IsLimit ∧ t = before ++ .did (.raise e) () :: after ∧
      g.Goes before g' ∧ (passedOn → after = []) := by
  induction hf generalizing g with
  | here f => exact .inl ⟨g, .here g⟩
  | pause _ ih =>
    cases h with
    | pause h =>
      rcases ih h with ⟨g', hg⟩ | ⟨before, e, after, g', he, rfl, hg, hafter⟩
      · exact .inl ⟨g', .pause hg⟩
      · exact .inr ⟨.paused :: before, e, after, g', he, rfl, .pause hg, hafter⟩
  | @act a next t f' x hgoes ih =>
    cases h with
    | act h =>
      rcases ih (h x) with ⟨g', hg⟩ | ⟨before, e, after, g', he, rfl, hg, hafter⟩
      · exact .inl ⟨g', .act x hg⟩
      · exact .inr ⟨_ :: before, e, after, g', he, rfl, .act x hg, hafter⟩
    | limit g he h =>
      refine .inr ⟨[], _, t, g, he, rfl, .here g, fun hpassed => ?_⟩
      obtain ⟨r, hr⟩ := hending _ _ he h hpassed
      rw [show x = () from rfl, hr] at hgoes
      exact hgoes.of_done.1

/-- **What the relation says of two runs.** -/
theorem UpToLimit.guardsOnly {f g : Flow α} (h : UpToLimit ending Eq f g)
    (hending : ∀ e f, e.IsLimit → ending e f → passedOn → ∃ r, f = .done r ∧ limited r) :
    GuardsOnly passedOn limited f g where
  within env w hwithin := by
    rcases h.run_cases hending env w with hsame | ⟨-, before, e, after, he, htrace, -⟩
    · exact hsame
    · exact absurd (htrace ▸ List.mem_append_right _ (List.mem_cons_self ..)) (hwithin e he)
  unlimited hpassed env w hends := by
    rcases h.run_cases hending env w with hsame | ⟨hlimited, -⟩
    · exact hsame
    · obtain ⟨r, hr, hlimited⟩ := hlimited hpassed
      exact absurd hlimited (hends r hr)
  prior env w := (h.run_cases hending env w).imp_right And.right
  moment _ _ := h.goes fun e f he hf hpassed => (hending e f he hf hpassed).imp fun _ => And.left

/-- A flow that passes on what it raises is limited if it fails with the fault of a limit. -/
theorem SameUpToLimit.guardsOnly {f g : Flow α} (h : SameUpToLimit passedOn f g) :
    GuardsOnly passedOn (fun r => ∃ e, e.IsLimit ∧ r = .error e) f g :=
  UpToLimit.guardsOnly h fun e _ he hf hpassed => ⟨.error e, hf hpassed, e, he, rfl⟩

end Flow

end WorkflowEngine
