import WorkflowEngine.Proofs.Trace

/-!
# Flows among others that see only what a context held at the start

A branch of a group works among its siblings: whenever it pauses, they may do what they like to the
contexts before it goes on, and make new ones, as long as they leave alone those that it has made
for itself (`Branch.Meddled`). A run of a flow among others (`Flow.Among`) is its own steps, and at
each pause some such change.

What is seen of a branch are its *deeds*: its pauses, what it announces and with which bindings,
what it asks and is answered, the faults that it makes known. So the ops that it dispatches are
seen, and all that they do. What comes to a branch from outside, other than through the contexts,
is given by an `Outside`: whether it is to stop, and what the services answer. This may depend on
all that the branch has done so far.

**Main definition (`Flow.Isolated`).** A flow is isolated if its run among others is, deed for deed,
the run that it makes alone (`Flow.alone`) in a context with the bindings that its context held when
it started.
-/

namespace WorkflowEngine

/-! ## Branches -/

/-- What a branch does that can be seen. An announcement is seen with the bindings of its
context. -/
inductive Deed where
  | paused
  | polled (stop : Bool)
  | signalled (stop : Bool)
  | requestedStop
  | announced (stage : Stage) (op : Op) (bindings : Bindings)
  | consulted (service : String) (question answer : Value)
  | noted (entry : Value)
  | raised (fault : Fault)
deriving DecidableEq

/-- What comes to a branch from outside, given what it has done so far, newest first. -/
structure Outside where
  poll : List Deed → Bool
  signal : List Deed → Bool
  answer : List Deed → String → Value → Value

/-- The outside as it is after some deeds. -/
def Outside.after (out : Outside) (past : List Deed) : Outside where
  poll deeds := out.poll (deeds ++ past)
  signal deeds := out.signal (deeds ++ past)
  answer deeds := out.answer (deeds ++ past)

/-- Where a branch stands: the contexts, those among them that it has made, and what it has done so
far, newest first. -/
structure Branch where
  store : Store
  own : List Handle := []
  deeds : List Deed := []

namespace Branch

/-- A branch that has done nothing yet, with one context that it shares. -/
def fresh (b : Bindings) : Branch := { store := (Store.empty.create b).2 }

def doing (σ : Branch) (deed : Deed) : Branch := { σ with deeds := deed :: σ.deeds }

/-- How many ops the branch has dispatched. -/
def dispatched (σ : Branch) : Nat :=
  σ.deeds.countP fun
    | .announced .opPre _ _ => true
    | _ => false

/-- Performs an action. -/
def perform (out : Outside) (σ : Branch) : (a : Action) → a.Answer × Branch
  | .poll => (out.poll σ.deeds, σ.doing (.polled (out.poll σ.deeds)))
  | .signal => (out.signal σ.deeds, σ.doing (.signalled (out.signal σ.deeds)))
  | .requestStop => ((), σ.doing .requestedStop)
  | .announce e => ((), σ.doing (.announced e.stage e.op (σ.store.view e.context)))
  | .view h => (σ.store.view h, σ)
  | .bind h key value => ((), { σ with store := σ.store.bind h key value })
  | .unbind h key => ((), { σ with store := σ.store.unbind h key })
  | .create b =>
    let (h, store) := σ.store.create b
    (h, { σ with store, own := h :: σ.own })
  | .consult service question =>
    let answer := out.answer σ.deeds service question
    (answer, σ.doing (.consulted service question answer))
  | .note entry => ((), σ.doing (.noted entry))
  | .raise fault => ((), σ.doing (.raised fault))

/-- What others may make of the contexts: they give up none, and leave those of the branch as they
are. -/
def Meddled (σ : Branch) (store : Store) : Prop :=
  σ.store.cells.size ≤ store.cells.size ∧ ∀ h ∈ σ.own, store.view h = σ.store.view h

/-- The branch goes on after a pause in which others have been at work. -/
def resumed (σ : Branch) (store : Store) : Branch := { σ.doing .paused with store }

instance (σ : Branch) (store : Store) : Decidable (σ.Meddled store) :=
  inferInstanceAs (Decidable (_ ∧ ∀ h ∈ σ.own, store.view h = σ.store.view h))

theorem deeds_suffix_perform (out : Outside) (σ : Branch) (a : Action) :
    σ.deeds <:+ (σ.perform out a).2.deeds := by
  cases a with
  | view _ | bind _ _ _ | unbind _ _ | create _ => exact List.suffix_rfl
  | _ => exact List.suffix_cons _ _

end Branch

namespace Flow

variable {α : Type}

/-! ## Runs among others and alone -/

/-- The first flow comes to the second among others, and the branch stands where it does then. -/
inductive Among (out : Outside) : Flow α → Branch → Flow α → Branch → Prop
  | here (f : Flow α) (σ : Branch) : Among out f σ f σ
  | pause {rest : Unit → Flow α} {σ : Branch} {g : Flow α} {σ' : Branch} (store : Store) :
      σ.Meddled store → Among out (rest ()) (σ.resumed store) g σ' →
      Among out (.pause rest) σ g σ'
  | act {a : Action} {next : a.Answer → Flow α} {σ : Branch} {g : Flow α} {σ' : Branch} :
      Among out (next (σ.perform out a).1) (σ.perform out a).2 g σ' →
      Among out (.act a next) σ g σ'

/-- Runs a flow to its end with nobody else at work. -/
def alone (out : Outside) : Flow α → Branch → Outcome α × Branch
  | .done r, σ => (.ended r, σ)
  | .starved, σ => (.starved, σ)
  | .pause rest, σ => (rest ()).alone out (σ.doing .paused)
  | .act a next, σ => (next (σ.perform out a).1).alone out (σ.perform out a).2

theorem deeds_suffix_alone (out : Outside) (f : Flow α) (σ : Branch) :
    σ.deeds <:+ (f.alone out σ).2.deeds := by
  induction f generalizing σ with
  | done r => exact List.suffix_rfl
  | starved => exact List.suffix_rfl
  | pause rest ih =>
    have hpaused : σ.deeds <:+ (σ.doing .paused).deeds := List.suffix_cons _ _
    exact hpaused.trans (ih () _)
  | act a next ih => exact (σ.deeds_suffix_perform out a).trans (ih _ _)

/-- Runs a flow among others that turn the contexts into the given ones, pause by pause: to its end,
or to a pause at which they cannot do that or are not said to. -/
def amid (out : Outside) : Flow α → List Store → Branch → Flow α × Branch
  | .done r, _, σ => (.done r, σ)
  | .starved, _, σ => (.starved, σ)
  | .pause rest, [], σ => (.pause rest, σ)
  | .pause rest, store :: stores, σ =>
    if σ.Meddled store then (rest ()).amid out stores (σ.resumed store) else (.pause rest, σ)
  | .act a next, stores, σ => (next (σ.perform out a).1).amid out stores (σ.perform out a).2

theorem among_amid (out : Outside) {f g : Flow α} (stores : List Store) {σ : Branch}
    (h : (f.amid out stores σ).1 = g) : f.Among out σ g (f.amid out stores σ).2 := by
  subst h
  induction f generalizing stores σ with
  | done r => exact .here _ _
  | starved => exact .here _ _
  | pause rest ih =>
    cases stores with
    | nil => exact .here _ _
    | cons store stores =>
      unfold amid
      split
      · next hstore => exact .pause store hstore (ih () stores)
      · exact .here _ _
  | act a next ih => exact .act (ih _ stores)

/-- Alone is among others that do nothing. -/
theorem among_alone (out : Outside) {f : Flow α} {σ : Branch} {o : Outcome α}
    (h : (f.alone out σ).1 = o) : f.Among out σ o.flow (f.alone out σ).2 := by
  subst h
  induction f generalizing σ with
  | done r => exact .here _ _
  | starved => exact .here _ _
  | pause rest ih => exact .pause σ.store ⟨Nat.le_refl _, fun _ _ => rfl⟩ (ih ())
  | act a next ih => exact .act (ih _)

theorem Among.trans {out : Outside} {f g k : Flow α} {σ τ υ : Branch} (h : f.Among out σ g τ)
    (h' : g.Among out τ k υ) : f.Among out σ k υ := by
  induction h with
  | here => exact h'
  | pause store hstore _ ih => exact .pause store hstore (ih h')
  | act _ ih => exact .act (ih h')

theorem Among.deeds_suffix {out : Outside} {f g : Flow α} {σ σ' : Branch}
    (h : f.Among out σ g σ') : σ.deeds <:+ σ'.deeds := by
  induction h with
  | here => exact List.suffix_rfl
  | @pause rest σ g σ' store _ _ ih =>
    have hpaused : σ.deeds <:+ (σ.resumed store).deeds := List.suffix_cons _ _
    exact hpaused.trans ih
  | act _ ih => exact (Branch.deeds_suffix_perform _ _ _).trans ih

/-! ## Sequences among others -/

variable {β : Type} {f : Flow α} {k : α → Flow β} {out : Outside} {σ σ' : Branch}

/-- What comes second has not begun yet. -/
theorem Among.bind {f' : Flow α} (h : f.Among out σ f' σ') :
    (f.bind k).Among out σ (f'.bind k) σ' := by
  induction h with
  | here => exact .here _ _
  | pause store hstore _ ih => exact .pause store hstore ih
  | act _ ih => exact .act ih

/-- A sequence that is over has ended with a fault of its first part, or has gone through that part
and then through the second. -/
theorem Among.of_bind {r : Except Fault β} (h : (f.bind k).Among out σ (.done r) σ') :
    (∃ e, r = .error e ∧ f.Among out σ (.done (.error e)) σ') ∨
      ∃ a τ, f.Among out σ (.done (.ok a)) τ ∧ (k a).Among out τ (.done r) σ' := by
  induction f generalizing σ with
  | done r =>
    cases r with
    | ok a => exact .inr ⟨a, σ, .here _ _, h⟩
    | error e =>
      cases h
      exact .inl ⟨e, rfl, .here _ _⟩
  | starved => cases h
  | pause rest ih =>
    cases h with
    | pause store hstore h =>
      rcases ih () h with ⟨e, he, hfault⟩ | ⟨a, τ, hfirst, hsecond⟩
      · exact .inl ⟨e, he, .pause store hstore hfault⟩
      · exact .inr ⟨a, τ, .pause store hstore hfirst, hsecond⟩
  | act a next ih =>
    cases h with
    | act h =>
      rcases ih _ h with ⟨e, he, hfault⟩ | ⟨a, τ, hfirst, hsecond⟩
      · exact .inl ⟨e, he, .act hfault⟩
      · exact .inr ⟨a, τ, .act hfirst, hsecond⟩

/-! ## Parts of a run alone -/

/-- What a branch has come to among others is a part of a run that it makes alone after some past:
at every moment it has done no more, and when it is over it has done all, with the same outcome. -/
def IsPartOf (past : List Deed) (f : Flow α) (σ : Branch) (whole : Outcome α × Branch) : Prop :=
  σ.deeds <:+ whole.2.deeds ++ past ∧
    ∀ o : Outcome α, f = o.flow → whole.1 = o ∧ σ.deeds = whole.2.deeds ++ past

/-- Among others, the first flow does what the second does alone after some past. -/
def AsAlone (out : Outside) (past : List Deed) (f : Flow α) (σ : Branch) (g : Flow α) (τ : Branch) :
    Prop :=
  ∀ f' σ', f.Among out σ f' σ' → f'.IsPartOf past σ' (g.alone (out.after past) τ)

/-- **What a flow does in a context depends on the bindings that the context held at the start**,
and not on what others do afterwards. -/
def Isolated (f : Handle → Flow α) : Prop :=
  ∀ (out : Outside) (h : Handle) (σ : Branch),
    (f h).AsAlone out σ.deeds σ (f ⟨0⟩) (.fresh (σ.store.view h))

/-! ## One step of both runs -/

variable {past : List Deed} {τ : Branch}

/-- A flow that is not over yet has done a part of what it will have done. -/
theorem isPartOf_begun {f g : Flow α} (hdeeds : σ.deeds = τ.deeds ++ past)
    (hf : ∀ o : Outcome α, f ≠ o.flow) : f.IsPartOf past σ (g.alone (out.after past) τ) := by
  refine ⟨?_, fun o ho => absurd ho (hf o)⟩
  rw [hdeeds]
  exact List.suffix_append_self_iff.2 (deeds_suffix_alone _ g τ)

theorem asAlone_flow (hdeeds : σ.deeds = τ.deeds ++ past) (o : Outcome α) :
    o.flow.AsAlone out past σ o.flow τ := by
  intro f' σ' hrun
  have hends : f' = o.flow ∧ σ' = σ := by
    cases o <;> cases hrun <;> exact ⟨rfl, rfl⟩
  obtain ⟨rfl, rfl⟩ := hends
  have halone : o.flow.alone (out.after past) τ = (o, τ) := by cases o <;> rfl
  rw [halone]
  refine ⟨hdeeds ▸ List.suffix_rfl, fun o' ho => ⟨?_, hdeeds⟩⟩
  cases o <;> cases o' <;> cases ho <;> rfl

theorem asAlone_pause {rest rest' : Unit → Flow α} (hdeeds : σ.deeds = τ.deeds ++ past)
    (h : ∀ store, σ.Meddled store →
      (rest ()).AsAlone out past (σ.resumed store) (rest' ()) (τ.doing .paused)) :
    (Flow.pause rest).AsAlone out past σ (.pause rest') τ := by
  intro f' σ' hrun
  cases hrun with
  | here => exact isPartOf_begun hdeeds fun o ho => by cases o <;> cases ho
  | pause store hstore hrun => exact h store hstore f' σ' hrun

theorem asAlone_act {a b : Action} {next : a.Answer → Flow α} {next' : b.Answer → Flow α}
    (hdeeds : σ.deeds = τ.deeds ++ past)
    (h : (next (σ.perform out a).1).AsAlone out past (σ.perform out a).2
      (next' (τ.perform (out.after past) b).1) (τ.perform (out.after past) b).2) :
    (Flow.act a next).AsAlone out past σ (.act b next') τ := by
  intro f' σ' hrun
  cases hrun with
  | here => exact isPartOf_begun hdeeds fun o ho => by cases o <;> cases ho
  | act hrun => exact h f' σ' hrun

theorem asAlone_view {h k : Handle} {next next' : Bindings → Flow α}
    (hdeeds : σ.deeds = τ.deeds ++ past) (hview : σ.store.view h = τ.store.view k)
    (hnext : (next (σ.store.view h)).AsAlone out past σ (next' (σ.store.view h)) τ) :
    (Flow.act (.view h) next).AsAlone out past σ (.act (.view k) next') τ := by
  apply asAlone_act hdeeds
  change (next (σ.store.view h)).AsAlone out past σ (next' (τ.store.view k)) τ
  rw [← hview]
  exact hnext

end Flow

end WorkflowEngine
