import WorkflowEngine.Proofs.Comparison
import WorkflowEngine.Proofs.Isolation

/-!
# Flows that do the same on paired contexts

Two flows mirror each other if they perform the same actions, each on its own contexts: a pairing
says which context of the one stands for which of the other, and the contexts that they make on the
way are paired as they are made (`Flow.Mirrors`). A flow that mirrors another touches no context
that is not paired, and does not depend on which handle a context has.

**Main statements.** `Flow.Mirrors.asAlone`: whatever others do to contexts that the first flow has
not made, it does what the second does alone. `Flow.Opens.asAlone`: the same if up to its first
pause the flow also reads a context that it shares. `Flow.isolated_of_opens` draws the conclusion
for one flow in two contexts.
-/

namespace WorkflowEngine

/-! ## Pairings -/

/-- Which context of one flow stands for which of the other. -/
abbrev Pairing := Handle → Handle → Prop

namespace Pairing

variable {ρ ρ' : Pairing}

/-- No contexts are paired. -/
def none : Pairing := fun _ _ => False

/-- A further pair. -/
def adding (ρ : Pairing) (x y : Handle) : Pairing := fun h k => (h = x ∧ k = y) ∨ ρ h k

def Le (ρ ρ' : Pairing) : Prop := ∀ h k, ρ h k → ρ' h k

theorem Le.refl (ρ : Pairing) : ρ.Le ρ := fun _ _ h => h

theorem Le.trans {ρ'' : Pairing} (h : ρ.Le ρ') (h' : ρ'.Le ρ'') : ρ.Le ρ'' :=
  fun x y hxy => h' x y (h x y hxy)

theorem le_adding (ρ : Pairing) (x y : Handle) : ρ.Le (ρ.adding x y) := fun _ _ => .inr

theorem adding_self (ρ : Pairing) (x y : Handle) : ρ.adding x y x y := .inl ⟨rfl, rfl⟩

theorem Le.adding (h : ρ.Le ρ') (x y : Handle) : (ρ.adding x y).Le (ρ'.adding x y) :=
  fun h' k hk => hk.imp_right (h h' k)

end Pairing

/-- Whether an action has nothing to do with any context. -/
def Action.IsBare : Action → Prop
  | .poll | .signal | .requestStop | .consult _ _ | .note _ | .raise _ => True
  | .announce _ | .view _ | .bind _ _ _ | .unbind _ _ | .create _ => False

/-! ## The judgement -/

/-- The flows perform the same actions on paired contexts and come to the same fault, or to results
that stand to each other as is required of the contexts that are paired then. -/
inductive Flow.Mirrors {α β : Type} (Q : Pairing → α → β → Prop) :
    Pairing → Flow α → Flow β → Prop
  | ok {ρ : Pairing} {a : α} {b : β} : Q ρ a b → Mirrors Q ρ (.done (.ok a)) (.done (.ok b))
  | error {ρ : Pairing} (e : Fault) : Mirrors Q ρ (.done (.error e)) (.done (.error e))
  | starved {ρ : Pairing} : Mirrors Q ρ .starved .starved
  | pause {ρ : Pairing} {rest : Unit → Flow α} {rest' : Unit → Flow β} :
      Mirrors Q ρ (rest ()) (rest' ()) → Mirrors Q ρ (.pause rest) (.pause rest')
  | bare {ρ : Pairing} {a : Action} {next : a.Answer → Flow α} {next' : a.Answer → Flow β} :
      a.IsBare → (∀ x, Mirrors Q ρ (next x) (next' x)) → Mirrors Q ρ (.act a next) (.act a next')
  | announce {ρ : Pairing} {h k : Handle} {stage : Stage} {op : Op} {next : Unit → Flow α}
      {next' : Unit → Flow β} : ρ h k → Mirrors Q ρ (next ()) (next' ()) →
      Mirrors Q ρ (.act (.announce ⟨stage, op, h⟩) next) (.act (.announce ⟨stage, op, k⟩) next')
  | view {ρ : Pairing} {h k : Handle} {next : Bindings → Flow α} {next' : Bindings → Flow β} :
      ρ h k → (∀ b, Mirrors Q ρ (next b) (next' b)) →
      Mirrors Q ρ (.act (.view h) next) (.act (.view k) next')
  | write {ρ : Pairing} {h k : Handle} {key : String} {value : Value} {next : Unit → Flow α}
      {next' : Unit → Flow β} : ρ h k → Mirrors Q ρ (next ()) (next' ()) →
      Mirrors Q ρ (.act (.bind h key value) next) (.act (.bind k key value) next')
  | erase {ρ : Pairing} {h k : Handle} {key : String} {next : Unit → Flow α}
      {next' : Unit → Flow β} : ρ h k → Mirrors Q ρ (next ()) (next' ()) →
      Mirrors Q ρ (.act (.unbind h key) next) (.act (.unbind k key) next')
  | create {ρ : Pairing} {b : Bindings} {next : Handle → Flow α} {next' : Handle → Flow β} :
      (∀ x y, Mirrors Q (ρ.adding x y) (next x) (next' y)) →
      Mirrors Q ρ (.act (.create b) next) (.act (.create b) next')

/-- The flows mirror each other, and a result of one is a result of the other. -/
abbrev Flow.Echoes {α : Type} (ρ : Pairing) (f g : Flow α) : Prop :=
  Flow.Mirrors (fun _ => Eq) ρ f g

namespace Flow

variable {α β γ δ : Type} {ρ ρ' : Pairing}

/-- More contexts may be paired, and less required of the results. -/
theorem Mirrors.mono {Q Q' : Pairing → α → β → Prop} {f : Flow α} {g : Flow β}
    (h : f.Mirrors Q ρ g) (hle : ρ.Le ρ')
    (hQ : ∀ ρ₁ ρ₂ a b, ρ₁.Le ρ₂ → Q ρ₁ a b → Q' ρ₂ a b) : f.Mirrors Q' ρ' g := by
  induction h generalizing ρ' with
  | ok h => exact .ok (hQ _ _ _ _ hle h)
  | error e => exact .error e
  | starved => exact .starved
  | pause _ ih => exact .pause (ih hle)
  | bare ha _ ih => exact .bare ha fun x => ih x hle
  | announce hk _ ih => exact .announce (hle _ _ hk) (ih hle)
  | view hk _ ih => exact .view (hle _ _ hk) fun b => ih b hle
  | write hk _ ih => exact .write (hle _ _ hk) (ih hle)
  | erase hk _ ih => exact .erase (hle _ _ hk) (ih hle)
  | create _ ih => exact .create fun x y => ih x y (hle.adding x y)

theorem Echoes.mono {f g : Flow α} (h : f.Echoes ρ g) (hle : ρ.Le ρ') : f.Echoes ρ' g :=
  Mirrors.mono h hle fun _ _ _ _ _ => id

/-- **Sequencing.** What comes second may use the contexts that came to be paired in the first. -/
theorem Mirrors.bind {P : Pairing → α → β → Prop} {Q : Pairing → γ → δ → Prop} {f : Flow α}
    {g : Flow β} {k : α → Flow γ} {l : β → Flow δ} (h : f.Mirrors P ρ g)
    (hk : ∀ ρ' a b, ρ.Le ρ' → P ρ' a b → (k a).Mirrors Q ρ' (l b)) :
    (f.bind k).Mirrors Q ρ (g.bind l) := by
  induction h with
  | ok h => exact hk _ _ _ (.refl _) h
  | error e => exact .error e
  | starved => exact .starved
  | pause _ ih => exact .pause (ih hk)
  | bare ha _ ih => exact .bare ha fun x => ih x hk
  | announce hh _ ih => exact .announce hh (ih hk)
  | view hh _ ih => exact .view hh fun b => ih b hk
  | write hh _ ih => exact .write hh (ih hk)
  | erase hh _ ih => exact .erase hh (ih hk)
  | create _ ih =>
    refine .create fun x y => ih x y fun ρ' a b hle => hk ρ' a b ?_
    exact (Pairing.le_adding _ x y).trans hle

theorem Echoes.bind {Q : Pairing → γ → δ → Prop} {f g : Flow α} {k : α → Flow γ} {l : α → Flow δ}
    (h : f.Echoes ρ g) (hk : ∀ ρ' a, ρ.Le ρ' → (k a).Mirrors Q ρ' (l a)) :
    (f.bind k).Mirrors Q ρ (g.bind l) :=
  Mirrors.bind h fun ρ' a _ hle hab => hab ▸ hk ρ' a hle

/-- The outcomes of two flows as results. -/
def OutcomesMirror (Q : Pairing → α → β → Prop) (ρ : Pairing) :
    Except Fault α → Except Fault β → Prop
  | .ok a, .ok b => Q ρ a b
  | .error e, .error e' => e = e'
  | _, _ => False

theorem Mirrors.attempt {Q : Pairing → α → β → Prop} {f : Flow α} {g : Flow β}
    (h : f.Mirrors Q ρ g) : f.attempt.Mirrors (OutcomesMirror Q) ρ g.attempt := by
  induction h with
  | ok h => exact .ok h
  | error e => exact .ok rfl
  | starved => exact .starved
  | pause _ ih => exact .pause ih
  | bare ha _ ih => exact .bare ha ih
  | announce hh _ ih => exact .announce hh ih
  | view hh _ ih => exact .view hh ih
  | write hh _ ih => exact .write hh ih
  | erase hh _ ih => exact .erase hh ih
  | create _ ih => exact .create ih

theorem Echoes.advance {f g : Flow α} (h : f.Echoes ρ g) :
    f.advance.Mirrors (fun ρ => Stretch.Rel (Echoes ρ)) ρ g.advance := by
  induction h with
  | ok h =>
    subst h
    exact .ok (.settled _)
  | error e => exact .error e
  | starved => exact .starved
  | pause h => exact .ok (.suspended h)
  | bare ha _ ih => exact .bare ha ih
  | announce hh _ ih => exact .announce hh ih
  | view hh _ ih => exact .view hh ih
  | write hh _ ih => exact .write hh ih
  | erase hh _ ih => exact .erase hh ih
  | create _ ih => exact .create ih

/-! ## Simple flows -/

theorem echoes_ok (a : α) : (Flow.done (.ok a)).Echoes ρ (.done (.ok a)) := .ok rfl

theorem echoes_fail (e : Fault) : (fail e : Flow α).Echoes ρ (fail e) :=
  .bare trivial fun _ => .error e

theorem echoes_ofExcept (r : Except Fault α) : (ofExcept r).Echoes ρ (ofExcept r) := by
  cases r with
  | ok a => exact echoes_ok a
  | error e => exact echoes_fail e

theorem echoes_bare {a : Action} (ha : a.IsBare) : (perform a).Echoes ρ (perform a) :=
  .bare ha fun _ => .ok rfl

theorem echoes_check : check.Echoes ρ check := by
  refine .bare trivial fun stop => ?_
  cases stop with
  | true => exact echoes_fail _
  | false => exact echoes_ok ()

theorem echoes_wait (n : Nat) : (wait n).Echoes ρ (wait n) := by
  induction n with
  | zero => exact echoes_ok ()
  | succ n ih => exact .pause ih

section Paired

variable {h k : Handle}

theorem echoes_announce (hk : ρ h k) (stage : Stage) (op : Op) :
    (announce stage op h).Echoes ρ (announce stage op k) := .announce hk (.ok rfl)

theorem echoes_view (hk : ρ h k) : (view h).Echoes ρ (view k) := .view hk fun _ => .ok rfl

theorem echoes_store (hk : ρ h k) (key : String) (value : Value) :
    (store h key value).Echoes ρ (store k key value) := .write hk (.ok rfl)

theorem echoes_unbind (hk : ρ h k) (key : String) : (unbind h key).Echoes ρ (unbind k key) :=
  .erase hk (.ok rfl)

end Paired

/-- Contexts that are made at the same time are paired. -/
theorem create_mirrors (b : Bindings) :
    (create b).Mirrors (fun ρ x y => ρ x y) ρ (create b) :=
  .create fun x y => .ok (ρ.adding_self x y)

theorem Echoes.guardPauses {f g : Flow α} (h : f.Echoes ρ g) :
    f.guardPauses.Echoes ρ g.guardPauses := by
  induction h with
  | ok h => exact .ok h
  | error e => exact .error e
  | starved => exact .starved
  | pause _ ih =>
    refine .pause (.bare trivial fun stop => ?_)
    cases stop with
    | true => exact echoes_fail _
    | false => exact ih
  | bare ha _ ih => exact .bare ha ih
  | announce hh _ ih => exact .announce hh ih
  | view hh _ ih => exact .view hh ih
  | write hh _ ih => exact .write hh ih
  | erase hh _ ih => exact .erase hh ih
  | create _ ih => exact .create ih

theorem Echoes.abortable {f g : Flow α} (h : f.Echoes ρ g) : f.abortable.Echoes ρ g.abortable := by
  refine .bare trivial fun stop => ?_
  cases stop with
  | true => exact echoes_fail _
  | false => exact h.guardPauses

end Flow

/-! ## Runs -/

theorem Branch.store_perform_bare {out : Outside} {σ : Branch} {a : Action} (ha : a.IsBare) :
    (σ.perform out a).2.store = σ.store := by
  cases a with
  | announce _ | view _ | bind _ _ _ | unbind _ _ | create _ => exact ha.elim
  | _ => rfl

/-- The branch and its run alone have done the same, and their paired contexts, which the branch has
made itself, hold the same. -/
structure Branch.Matches (ρ : Pairing) (past : List Deed) (σ τ : Branch) : Prop where
  deeds : σ.deeds = τ.deeds ++ past
  own : ∀ h k, ρ h k → h ∈ σ.own
  valid : ∀ h k, ρ h k → σ.store.Valid h ∧ τ.store.Valid k
  view : ∀ h k, ρ h k → σ.store.view h = τ.store.view k
  apart : ∀ h k h' k', ρ h k → ρ h' k' → (h = h' ↔ k = k')

namespace Branch.Matches

variable {ρ : Pairing} {past : List Deed} {σ τ : Branch}

theorem none (hdeeds : σ.deeds = τ.deeds ++ past) : Matches .none past σ τ :=
  ⟨hdeeds, fun _ _ h => h.elim, fun _ _ h => h.elim, fun _ _ h => h.elim, fun _ _ _ _ h => h.elim⟩

/-- Both do the same, and it has nothing to do with the contexts. -/
theorem doing (h : Matches ρ past σ τ) (deed : Deed) :
    Matches ρ past (σ.doing deed) (τ.doing deed) :=
  ⟨congrArg (deed :: ·) h.deeds, h.own, h.valid, h.view, h.apart⟩

theorem perform_bare (h : Matches ρ past σ τ) (out : Outside) {a : Action} (ha : a.IsBare) :
    (σ.perform out a).1 = (τ.perform (out.after past) a).1 ∧
      Matches ρ past (σ.perform out a).2 (τ.perform (out.after past) a).2 := by
  cases a with
  | poll | signal | consult _ _ =>
    simp only [perform, Outside.after, h.deeds, true_and]
    exact h.doing _
  | requestStop | note _ | raise _ => exact ⟨rfl, h.doing _⟩
  | announce _ | view _ | bind _ _ _ | unbind _ _ | create _ => exact ha.elim

theorem announce (h : Matches ρ past σ τ) {x y : Handle} (hxy : ρ x y) (stage : Stage) (op : Op) :
    Matches ρ past (σ.doing (.announced stage op (σ.store.view x)))
      (τ.doing (.announced stage op (τ.store.view y))) :=
  h.view x y hxy ▸ h.doing _

/-- Others do not change what the branch has made. -/
theorem resumed (h : Matches ρ past σ τ) {store : Store} (hstore : σ.Meddled store) :
    Matches ρ past (σ.resumed store) (τ.doing .paused) where
  deeds := congrArg (Deed.paused :: ·) h.deeds
  own := h.own
  valid x y hxy := (h.valid x y hxy).imp_left fun hx => Nat.lt_of_lt_of_le hx hstore.1
  view x y hxy := (hstore.2 x (h.own x y hxy)).trans (h.view x y hxy)
  apart := h.apart

theorem update (h : Matches ρ past σ τ) {x y : Handle} (hxy : ρ x y) (f : Bindings → Bindings) :
    Matches ρ past { σ with store := σ.store.update x f }
      { τ with store := τ.store.update y f } where
  deeds := h.deeds
  own := h.own
  valid x' y' hxy' := by simpa using h.valid x' y' hxy'
  view x' y' hxy' := by
    by_cases heq : x' = x
    · have heq' : y' = y := (h.apart _ _ _ _ hxy' hxy).1 heq
      subst heq heq'
      obtain ⟨hx, hy⟩ := h.valid _ _ hxy
      simp [hx, hy, h.view _ _ hxy]
    · have heq' : y' ≠ y := fun hy => heq ((h.apart _ _ _ _ hxy' hxy).2 hy)
      simpa [Store.view_update_of_ne heq, Store.view_update_of_ne heq'] using h.view _ _ hxy'
  apart := h.apart

theorem create (h : Matches ρ past σ τ) (b : Bindings) :
    Matches (ρ.adding (σ.store.create b).1 (τ.store.create b).1) past
      { σ with store := (σ.store.create b).2, own := (σ.store.create b).1 :: σ.own }
      { τ with store := (τ.store.create b).2, own := (τ.store.create b).1 :: τ.own } where
  deeds := h.deeds
  own x y hxy := by
    rcases hxy with ⟨rfl, rfl⟩ | hxy
    · exact List.mem_cons_self
    · exact List.mem_cons_of_mem _ (h.own x y hxy)
  valid x y hxy := by
    simp only [Store.valid_create]
    rcases hxy with ⟨rfl, rfl⟩ | hxy
    · exact ⟨.inr rfl, .inr rfl⟩
    · exact (h.valid x y hxy).imp .inl .inl
  view x y hxy := by
    rcases hxy with ⟨rfl, rfl⟩ | hxy
    · simp
    · obtain ⟨hx, hy⟩ := h.valid x y hxy
      simpa [Store.view_create_of_valid hx, Store.view_create_of_valid hy] using h.view x y hxy
  apart x y x' y' hxy hxy' := by
    -- A new context is none of those that there were.
    have hold : ∀ x y, ρ x y → x ≠ (σ.store.create b).1 ∧ y ≠ (τ.store.create b).1 := by
      intro x y hxy
      obtain ⟨hx, hy⟩ := h.valid x y hxy
      exact ⟨fun heq => Store.not_valid_create (heq ▸ hx),
        fun heq => Store.not_valid_create (heq ▸ hy)⟩
    rcases hxy with ⟨rfl, rfl⟩ | hxy <;> rcases hxy' with ⟨rfl, rfl⟩ | hxy'
    · simp
    · exact iff_of_false (hold x' y' hxy').1.symm (hold x' y' hxy').2.symm
    · exact iff_of_false (hold x y hxy).1 (hold x y hxy).2
    · exact h.apart x y x' y' hxy hxy'

end Branch.Matches

namespace Flow

variable {α : Type} {ρ : Pairing} {out : Outside} {past : List Deed} {σ τ : Branch}

/-- **A flow that mirrors another does what that one does alone**, whatever others do to the
contexts that it has not made. -/
theorem Mirrors.asAlone {f g : Flow α} (h : f.Echoes ρ g) (hm : Branch.Matches ρ past σ τ) :
    f.AsAlone out past σ g τ := by
  -- One step of both at a time; what is paired keeps to hold the same.
  induction h generalizing σ τ with
  | ok heq => exact heq ▸ asAlone_flow hm.deeds (.ended (.ok _))
  | error e => exact asAlone_flow hm.deeds (.ended (.error e))
  | starved => exact asAlone_flow hm.deeds .starved
  | pause _ ih => exact asAlone_pause hm.deeds fun store hstore => ih (hm.resumed hstore)
  | bare ha _ ih =>
    obtain ⟨hanswer, hbare⟩ := hm.perform_bare out ha
    exact asAlone_act hm.deeds (hanswer ▸ ih _ hbare)
  | announce hh _ ih => exact asAlone_act hm.deeds (ih (hm.announce hh _ _))
  | view hh _ ih => exact asAlone_view hm.deeds (hm.view _ _ hh) (ih _ hm)
  | write hh _ ih => exact asAlone_act hm.deeds (ih (hm.update hh _))
  | erase hh _ ih => exact asAlone_act hm.deeds (ih (hm.update hh _))
  | create _ ih => exact asAlone_act hm.deeds (ih _ _ (hm.create _))

/-! ## Reading a shared context before the first pause -/

/-- Up to their first pause the flows read contexts of which nothing is known but that they hold the
same; from then on they mirror each other without them. -/
inductive Opens (h k : Handle) : Flow α → Flow α → Prop
  | echoes {f g : Flow α} : f.Echoes .none g → Opens h k f g
  | bare {a : Action} {next next' : a.Answer → Flow α} :
      a.IsBare → (∀ x, Opens h k (next x) (next' x)) → Opens h k (.act a next) (.act a next')
  | view {next next' : Bindings → Flow α} : (∀ b, Opens h k (next b) (next' b)) →
      Opens h k (.act (.view h) next) (.act (.view k) next')

theorem Opens.asAlone {h k : Handle} {f g : Flow α} (hfg : Opens h k f g)
    (hdeeds : σ.deeds = τ.deeds ++ past) (hview : σ.store.view h = τ.store.view k) :
    f.AsAlone out past σ g τ := by
  induction hfg generalizing σ τ with
  | echoes hfg => exact Mirrors.asAlone hfg (.none hdeeds)
  | bare ha _ ih =>
    obtain ⟨hanswer, hbare⟩ := (Branch.Matches.none hdeeds).perform_bare out ha
    refine asAlone_act hdeeds (hanswer ▸ ih _ hbare.deeds ?_)
    rw [Branch.store_perform_bare ha, Branch.store_perform_bare ha]
    exact hview
  | view _ ih => exact asAlone_view hdeeds hview (ih _ hdeeds hview)

/-- A flow that mirrors itself once it has read the context that it was handed is isolated. -/
theorem isolated_of_opens {f : Handle → Flow α} (h : ∀ x y, Opens x y (f x) (f y)) : Isolated f :=
  fun _ x σ => (h x ⟨0⟩).asAlone rfl (by simp [Branch.fresh, Store.view, Store.create, Store.empty])

end Flow

end WorkflowEngine
