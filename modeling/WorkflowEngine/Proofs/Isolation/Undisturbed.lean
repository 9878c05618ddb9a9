import WorkflowEngine.Proofs.Binding
import WorkflowEngine.Proofs.Isolation.Branches

/-!
# Undisturbed runs

A run is undisturbed if it is not told to stop and every question to a service has the answer that
is settled for it beforehand. Then nothing comes to it but through the contexts.

**Alone.** What an undisturbed run does alone, it does with an outside that never says to stop and
has just these answers (`Flow.alone_undisturbed`). A run in a world is a run alone: its outcome is
the same, and its marks are the deeds of that run (`World.deeds`, `Flow.alone_of_run`).

**Among others.** A flow that mirrors another leaves alone the contexts that are not paired. So a
context that the branch has made stays as it is in such a run (`Flow.Mirrors.spares`).
-/

namespace WorkflowEngine

/-! ## Outcomes -/

namespace Outcome

variable {α β γ : Type} {o : Outcome α}

/-- What a run comes to when its result is used so. -/
def map (f : α → β) : Outcome α → Outcome β
  | .ended r => .ended (r.map f)
  | .starved => .starved

/-- The outcome is a result. -/
def IsOk (o : Outcome α) : Prop := ∃ a, o = .ended (.ok a)

theorem map_map (f : α → β) (g : β → γ) (o : Outcome α) :
    (o.map f).map g = o.map fun a => g (f a) := by
  match o with
  | .ended (.ok a) => rfl
  | .ended (.error e) => rfl
  | .starved => rfl

theorem map_eq_ok_iff {f : α → β} {b : β} :
    o.map f = .ended (.ok b) ↔ ∃ a, o = .ended (.ok a) ∧ b = f a := by
  match o with
  | .ended (.ok a) => simp [map, Except.map, eq_comm]
  | .ended (.error e) => simp [map, Except.map]
  | .starved => simp [map]

theorem map_congr_of_lost (h : ¬o.IsOk) (f g : α → β) : o.map f = o.map g := by
  match o with
  | .ended (.ok a) => exact absurd ⟨a, rfl⟩ h
  | .ended (.error e) => rfl
  | .starved => rfl

theorem map_eq_self (h : ¬o.IsOk) (f : α → α) : o.map f = o := by
  match o with
  | .ended (.ok a) => exact absurd ⟨a, rfl⟩ h
  | .ended (.error e) => rfl
  | .starved => rfl

theorem isOk_of_map {f : α → β} (h : o.IsOk) : (o.map f).IsOk := by
  obtain ⟨a, rfl⟩ := h
  exact ⟨f a, rfl⟩

end Outcome

/-! ## Undisturbed deeds -/

/-- Neither that the run is told to stop, nor an answer other than the settled one. -/
def Deed.Undisturbed (ans : Query → Value) : Deed → Prop
  | .polled stop | .signalled stop => stop = false
  | .consulted service question answer => answer = ans ⟨service, question⟩
  | _ => True

instance (ans : Query → Value) : DecidablePred (Deed.Undisturbed ans)
  | .polled stop | .signalled stop => inferInstanceAs (Decidable (stop = false))
  | .consulted service question answer =>
    inferInstanceAs (Decidable (answer = ans ⟨service, question⟩))
  | .paused | .requestedStop | .announced _ _ _ | .noted _ | .raised _ =>
    inferInstanceAs (Decidable True)

/-- An outside that never says to stop, with settled answers. -/
def Outside.undisturbed (ans : Query → Value) : Outside :=
  ⟨fun _ => false, fun _ => false, fun _ service question => ans ⟨service, question⟩⟩

/-! ## The deeds of a trace -/

/-- What is seen of an action that is answered so. -/
def Action.deed? (s : Store) : (a : Action) → a.Answer → Option Deed
  | .poll, stop => some (.polled stop)
  | .signal, stop => some (.signalled stop)
  | .requestStop, _ => some .requestedStop
  | .announce e, _ => some (.announced e.stage e.op (s.view e.context))
  | .consult service question, answer => some (.consulted service question answer)
  | .note entry, _ => some (.noted entry)
  | .raise fault, _ => some (.raised fault)
  | .view _, _ | .bind _ _ _, _ | .unbind _ _, _ | .create _, _ => none

/-- The action changes the bindings of the context. -/
def Action.WritesTo (k : Handle) : Action → Prop
  | .bind h _ _ | .unbind h _ => h = k
  | _ => False

/-- What is seen of a trace in a world. -/
def World.deeds (env : Environment) (w : World) : List Mark → List Deed
  | [] => []
  | .paused :: t => .paused :: w.deeds env t
  | .did a x :: t => (a.deed? w.contexts x).toList ++ (w.perform env a).2.deeds env t

namespace Branch

variable {ans : Query → Value} {out : Outside} {σ : Branch}

theorem deeds_perform (out : Outside) (σ : Branch) (a : Action) :
    (σ.perform out a).2.deeds =
      (a.deed? σ.store (σ.perform out a).1).toList ++ σ.deeds := by
  cases a <;> rfl

/-- With the settled answers the same is done, if what is done is undisturbed. -/
theorem perform_undisturbed (a : Action)
    (h : ∀ deed ∈ (σ.perform out a).2.deeds, deed.Undisturbed ans) :
    σ.perform (.undisturbed ans) a = σ.perform out a := by
  cases a with
  | poll =>
    have hpoll : out.poll σ.deeds = false := h (.polled _) (List.mem_cons_self ..)
    simp only [perform, hpoll]
    rfl
  | signal =>
    have hsignal : out.signal σ.deeds = false := h (.signalled _) (List.mem_cons_self ..)
    simp only [perform, hsignal]
    rfl
  | consult service question =>
    have hanswer : out.answer σ.deeds service question = ans ⟨service, question⟩ :=
      h (.consulted service question _) (List.mem_cons_self ..)
    simp only [perform, hanswer]
    rfl
  | _ => rfl

theorem perform_of_world {env : Environment} {w : World} (a : Action)
    (hstore : σ.store = w.contexts)
    (h : ∀ deed ∈ a.deed? w.contexts (w.perform env a).1, deed.Undisturbed ans) :
    (σ.perform (.undisturbed ans) a).1 = (w.perform env a).1 ∧
      (σ.perform (.undisturbed ans) a).2.store = (w.perform env a).2.contexts := by
  cases a with
  | poll => exact ⟨(h _ rfl).symm, hstore⟩
  | signal => exact ⟨(h _ rfl).symm, hstore⟩
  | consult service question => exact ⟨(h _ rfl).symm, hstore⟩
  | view k => exact ⟨congrArg (·.view k) hstore, hstore⟩
  | bind k key value => exact ⟨rfl, congrArg (·.bind k key value) hstore⟩
  | unbind k key => exact ⟨rfl, congrArg (·.unbind k key) hstore⟩
  | create b =>
    exact ⟨congrArg (fun s : Store => (s.create b).1) hstore,
      congrArg (fun s : Store => (s.create b).2) hstore⟩
  | requestStop | announce _ | note _ | raise _ => exact ⟨rfl, hstore⟩

/-- What is done to the contexts does not depend on what comes from outside. -/
theorem store_perform (out : Outside) (env : Environment) {w : World} (a : Action)
    (hstore : w.contexts = σ.store) :
    (w.perform env a).2.contexts = (σ.perform out a).2.store := by
  cases a with
  | bind k key value => exact congrArg (·.bind k key value) hstore
  | unbind k key => exact congrArg (·.unbind k key) hstore
  | create b => exact congrArg (fun s : Store => (s.create b).2) hstore
  | _ => exact hstore

/-- A context that the first branch has made is a context of the second, with the same bindings. -/
def Keeps (k : Handle) (σ σ' : Branch) : Prop :=
  k ∈ σ.own → σ.store.Valid k → k ∈ σ'.own ∧ σ'.store.Valid k ∧ σ'.store.view k = σ.store.view k

theorem Keeps.refl (k : Handle) (σ : Branch) : σ.Keeps k σ := fun hown hvalid => ⟨hown, hvalid, rfl⟩

theorem Keeps.trans {k : Handle} {σ' υ : Branch} (h : σ.Keeps k σ') (h' : σ'.Keeps k υ) :
    σ.Keeps k υ := by
  intro hown hvalid
  obtain ⟨hown', hvalid', hview⟩ := h hown hvalid
  obtain ⟨hown'', hvalid'', hview'⟩ := h' hown' hvalid'
  exact ⟨hown'', hvalid'', hview'.trans hview⟩

theorem keeps_resumed {k : Handle} {store : Store} (h : σ.Meddled store) :
    σ.Keeps k (σ.resumed store) :=
  fun hown hvalid => ⟨hown, Nat.lt_of_lt_of_le hvalid h.1, h.2 k hown⟩

theorem keeps_perform {k : Handle} {a : Action} (h : ¬a.WritesTo k) :
    σ.Keeps k (σ.perform out a).2 := by
  intro hown hvalid
  cases a with
  | bind k' _ _ | unbind k' _ =>
    exact ⟨hown, Store.valid_update.2 hvalid, Store.view_update_of_ne (Ne.symm h) _⟩
  | create b =>
    exact ⟨List.mem_cons_of_mem _ hown, Store.valid_create.2 (.inl hvalid),
      Store.view_create_of_valid hvalid b⟩
  | _ => exact ⟨hown, hvalid, rfl⟩

/-- What is new since a deed, and the deed. -/
theorem new_eq {past later new : List Deed} {deed : Deed}
    (h : new ++ past = later ++ deed :: past) : new = later ++ [deed] :=
  List.append_cancel_right (h.trans (List.append_cons later deed past))

end Branch

namespace Flow

variable {α β : Type} {ans : Query → Value} {out : Outside} {σ σ' : Branch} {f : Flow α}

/-! ## Runs alone -/

/-- **An undisturbed run** goes as it does with the settled answers. -/
theorem alone_undisturbed (h : ∀ deed ∈ (f.alone out σ).2.deeds, deed.Undisturbed ans) :
    f.alone (.undisturbed ans) σ = f.alone out σ := by
  induction f generalizing σ with
  | done r => rfl
  | starved => rfl
  | pause rest ih => exact ih () h
  | act a next ih =>
    have hfirst : σ.perform (.undisturbed ans) a = σ.perform out a := by
      refine Branch.perform_undisturbed a fun deed hdeed => h deed ?_
      exact (deeds_suffix_alone out (next (σ.perform out a).1) (σ.perform out a).2).subset hdeed
    rw [alone, alone, hfirst]
    exact ih _ h

/-- **An undisturbed run in a world** goes as it does alone with the settled answers. -/
theorem alone_of_run {env : Environment} {w : World} (hstore : σ.store = w.contexts)
    (h : ∀ deed ∈ w.deeds env (f.trace env w), deed.Undisturbed ans) :
    (f.alone (.undisturbed ans) σ).1 = (f.run env w).1 ∧
      (f.alone (.undisturbed ans) σ).2.deeds =
        (w.deeds env (f.trace env w)).reverse ++ σ.deeds := by
  induction f generalizing σ w with
  | done r => exact ⟨rfl, rfl⟩
  | starved => exact ⟨rfl, rfl⟩
  | pause rest ih =>
    obtain ⟨-, hrest⟩ := List.forall_mem_cons.1 h
    obtain ⟨hend, hdeeds⟩ := ih () (σ := σ.doing .paused) hstore hrest
    refine ⟨hend, hdeeds.trans ?_⟩
    simp [Branch.doing, World.deeds, trace]
  | act a next ih =>
    obtain ⟨hfirst, hrest⟩ := List.forall_mem_append.1 h
    obtain ⟨hanswer, hstore'⟩ := Branch.perform_of_world a hstore (by simpa using hfirst)
    rw [alone, run, hanswer]
    obtain ⟨hend, hdeeds⟩ := ih _ hstore' hrest
    refine ⟨hend, hdeeds.trans ?_⟩
    rw [Branch.deeds_perform, hanswer, hstore]
    have hone (o : Option Deed) : o.toList.reverse = o.toList := by cases o <;> rfl
    simp [World.deeds, trace, hone]

theorem alone_bind (f : Flow α) (k : α → Flow β) (σ : Branch) :
    (f.bind k).alone out σ =
      match f.alone out σ with
      | (.ended (.ok a), τ) => (k a).alone out τ
      | (.ended (.error e), τ) => (.ended (.error e), τ)
      | (.starved, τ) => (.starved, τ) := by
  induction f generalizing σ with
  | done r => cases r <;> rfl
  | starved => rfl
  | pause rest ih => exact ih () _
  | act a next ih => exact ih _ _

/-- A run alone leaves marks, and what these make of the contexts is what the run makes of them. -/
theorem goes_alone (out : Outside) (f : Flow α) (env : Environment) {w : World}
    (hstore : w.contexts = σ.store) : ∃ t, f.Goes t (f.alone out σ).1.flow ∧
      (w.replay env t).contexts = (f.alone out σ).2.store := by
  induction f generalizing σ w with
  | done r => exact ⟨[], .here _, hstore⟩
  | starved => exact ⟨[], .here _, hstore⟩
  | pause rest ih =>
    obtain ⟨t, hgoes, hreplay⟩ := ih () (σ := σ.doing .paused) hstore
    exact ⟨.paused :: t, .pause hgoes, hreplay⟩
  | act a next ih =>
    have hnext := Branch.store_perform out env a hstore
    obtain ⟨t, hgoes, hreplay⟩ := ih (σ.perform out a).1 hnext
    exact ⟨.did a (σ.perform out a).1 :: t, .act _ hgoes, hreplay⟩

/-! ## Runs among others -/

theorem Among.exists_new {g : Flow α} (h : f.Among out σ g σ') :
    ∃ new, σ'.deeds = new ++ σ.deeds := by
  obtain ⟨new, hnew⟩ := h.deeds_suffix
  exact ⟨new, hnew.symm⟩

theorem Among.of_flow {o o' : Outcome α} (h : o.flow.Among out σ o'.flow σ') : o' = o ∧ σ' = σ := by
  generalize hend : o'.flow = g at h
  cases o <;> cases h <;> cases o' <;> cases hend <;> exact ⟨rfl, rfl⟩

/-- An action comes before what is over. -/
theorem Among.of_act {a : Action} {next : a.Answer → Flow α} {o : Outcome α}
    (h : (Flow.act a next).Among out σ o.flow σ') :
    (next (σ.perform out a).1).Among out (σ.perform out a).2 o.flow σ' := by
  generalize hend : o.flow = g at h
  cases h with
  | here => cases o <;> cases hend
  | act h => exact h

/-- A sequence that has ended or starved: its first part has come to the outcome without a result,
or it has gone through that part and then through the second. -/
theorem Among.of_bind_flow {k : α → Flow β} {o : Outcome β}
    (h : (f.bind k).Among out σ o.flow σ') :
    (∃ o' : Outcome α, f.Among out σ o'.flow σ' ∧ ¬o'.IsOk ∧ ∀ use, o = o'.map use) ∨
      ∃ a τ, f.Among out σ (.done (.ok a)) τ ∧ (k a).Among out τ o.flow σ' := by
  have hlost : ∀ o' : Outcome α, (∀ a, o' ≠ .ended (.ok a)) → ¬o'.IsOk :=
    fun o' hne ⟨a, ha⟩ => hne a ha
  cases o with
  | ended r =>
    rcases h.of_bind with ⟨e, rfl, hfault⟩ | hboth
    · exact .inl ⟨.ended (.error e), hfault, hlost _ (by simp), fun _ => rfl⟩
    · exact .inr hboth
  | starved =>
    induction f generalizing σ with
    | done r =>
      cases r with
      | ok a => exact .inr ⟨a, σ, .here _ _, h⟩
      | error e => cases h
    | starved =>
      cases h
      exact .inl ⟨.starved, .here _ _, hlost _ (by simp), fun _ => rfl⟩
    | pause rest ih =>
      cases h with
      | pause store hstore h =>
        rcases ih () h with ⟨o', hfirst, ho⟩ | ⟨a, τ, hfirst, hsecond⟩
        · exact .inl ⟨o', .pause store hstore hfirst, ho⟩
        · exact .inr ⟨a, τ, .pause store hstore hfirst, hsecond⟩
    | act a next ih =>
      cases h with
      | act h =>
        rcases ih _ h with ⟨o', hfirst, ho⟩ | ⟨a, τ, hfirst, hsecond⟩
        · exact .inl ⟨o', .act hfirst, ho⟩
        · exact .inr ⟨a, τ, .act hfirst, hsecond⟩

theorem Among.of_map_flow {use : α → β} {o : Outcome β} (h : (f.map use).Among out σ o.flow σ') :
    ∃ o' : Outcome α, f.Among out σ o'.flow σ' ∧ o = o'.map use := by
  rcases Among.of_bind_flow h with ⟨o', hlost, -, huse⟩ | ⟨a, τ, hresult, hdone⟩
  · exact ⟨o', hlost, huse use⟩
  · obtain ⟨rfl, rfl⟩ := Among.of_flow (o := .ended (.ok (use a))) hdone
    exact ⟨.ended (.ok a), hresult, rfl⟩

theorem Among.of_check {k : Unit → Flow α} {o : Outcome α} {new : List Deed}
    (h : (check.bind k).Among out σ o.flow σ') (hnew : σ'.deeds = new ++ σ.deeds)
    (hsteady : ∀ deed ∈ new, deed.Undisturbed ans) :
    check.Among out σ (.done (.ok ())) (σ.doing (.polled false)) ∧
      (k ()).Among out (σ.doing (.polled false)) o.flow σ' := by
  have hrest : ((if out.poll σ.deeds then fail .cancelled else .done (.ok ())).bind k).Among out
      (σ.doing (.polled (out.poll σ.deeds))) o.flow σ' := Among.of_act (a := .poll) h
  -- what has been answered stands among the new deeds
  have hpolled : out.poll σ.deeds = false := by
    obtain ⟨later, hlater⟩ := hrest.exists_new
    have hsplit := Branch.new_eq (hnew.symm.trans hlater)
    exact hsteady (.polled _) (by simp [hsplit])
  rw [hpolled] at hrest
  refine ⟨.act ?_, hrest⟩
  simp only [Branch.perform, hpolled]
  exact .here _ _

/-- **Contexts that are not paired are left alone**, by the flow and, if the branch has made them,
by the others. -/
theorem Mirrors.spares {Q : Pairing → α → β → Prop} {ρ : Pairing} {g : Flow β}
    (h : f.Mirrors Q ρ g) {f' : Flow α} (hrun : f.Among out σ f' σ') {k : Handle}
    (hk : ∀ x y, ρ x y → x ≠ k) : σ.Keeps k σ' := by
  induction h generalizing σ with
  | ok _ | error _ | starved =>
    cases hrun
    exact .refl k _
  | pause _ ih =>
    cases hrun with
    | here => exact .refl k _
    | pause store hstore hrun => exact (Branch.keeps_resumed hstore).trans (ih hrun hk)
  | @bare ρ a next next' ha _ ih =>
    have hwrites : ¬a.WritesTo k := by
      cases a with
      | bind _ _ _ | unbind _ _ => exact ha.elim
      | _ => exact id
    cases hrun with
    | here => exact .refl k _
    | act hrun => exact (Branch.keeps_perform hwrites).trans (ih _ hrun hk)
  | announce _ _ ih =>
    cases hrun with
    | here => exact .refl k _
    | act hrun => exact (Branch.keeps_perform id).trans (ih hrun hk)
  | view _ _ ih =>
    cases hrun with
    | here => exact .refl k _
    | act hrun => exact (Branch.keeps_perform id).trans (ih _ hrun hk)
  | write hpair _ ih | erase hpair _ ih =>
    cases hrun with
    | here => exact .refl k _
    | act hrun =>
      refine (Branch.keeps_perform ?_).trans (ih hrun hk)
      exact hk _ _ hpair
  | @create ρ b next next' _ ih =>
    cases hrun with
    | here => exact .refl k _
    | act hrun =>
      intro hown hvalid
      have hk' : ∀ x y, ρ.adding (σ.store.create b).1 ⟨0⟩ x y → x ≠ k := by
        rintro x y (⟨rfl, rfl⟩ | hxy)
        · -- what is created was not there before
          exact fun heq => Store.not_valid_create (heq ▸ hvalid)
        · exact hk x y hxy
      exact (Branch.keeps_perform id).trans (ih _ _ hrun hk') hown hvalid

end Flow

end WorkflowEngine
