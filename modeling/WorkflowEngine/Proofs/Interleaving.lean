import WorkflowEngine.Proofs.Trace

/-!
# Flows among others

Wherever a flow pauses, others may work in the same contexts before it goes on. What such a flow
comes to can be said if its part is set apart from theirs: in its `Turf` there are the bindings on
which it relies, since nobody else writes them, and those that it may write itself. A context that
it makes belongs to it.

**The judgement** (`Flow.Settles`). Whatever the others do at its pauses, as long as they leave what
the flow relies on, the flow writes only what it may write, and its result and the contexts at its
end are as required. The budget says more: with a number as its budget, the flow gives a result
after at most so many pauses; without one, it may also fail, or be cut off, and pause as often as it
likes.

The judgement is about contexts alone. It is assumed that nothing says to stop and that the outside
answers each question by itself; runs of which this is true are as judged (`Flow.Settles.run`).
-/

namespace WorkflowEngine

/-! ## Contexts when nothing says to stop -/

/-- What an action is answered with, and what becomes of the contexts, if nothing says to stop and
the outside answers each question by itself. -/
def Store.perform (ans : Query → Value) (s : Store) : (a : Action) → a.Answer × Store
  | .poll | .signal => (false, s)
  | .view h => (s.view h, s)
  | .bind h key value => ((), s.bind h key value)
  | .unbind h key => ((), s.unbind h key)
  | .create b => s.create b
  | .consult service question => (ans ⟨service, question⟩, s)
  | .requestStop | .announce _ | .note _ | .raise _ => ((), s)

/-- The outside answers each question by itself. -/
def Environment.Answers (env : Environment) (ans : Query → Value) : Prop :=
  ∀ q asked, env.answer (q :: asked) = ans q

/-- The mark of an answer that says to stop. -/
def Mark.saysStop : Mark → Bool
  | .did .poll stop => stop
  | .did .signal stop => stop
  | _ => false

/-- In a world in which nothing says to stop, an action does what it does to the contexts. -/
theorem World.perform_eq {env : Environment} {ans : Query → Value} (henv : env.Answers ans)
    (w : World) (a : Action) (h : (Mark.did a (w.perform env a).1).saysStop = false) :
    (w.perform env a).1 = (w.contexts.perform ans a).1 ∧
      (w.perform env a).2.contexts = (w.contexts.perform ans a).2 := by
  cases a with
  | poll => exact ⟨h, rfl⟩
  | signal => exact ⟨h, rfl⟩
  | consult service question => exact ⟨henv _ _, rfl⟩
  | _ => exact ⟨rfl, rfl⟩

/-! ## Turfs -/

/-- A flow relies on some bindings, which only it may change, and it may write some. -/
structure Turf where
  dep : Handle → String → Prop
  own : Handle → String → Prop

namespace Turf

/-- A turf with everything of a further context. -/
def adding (t : Turf) (h : Handle) : Turf :=
  ⟨fun h' key => h' = h ∨ t.dep h' key, fun h' key => h' = h ∨ t.own h' key⟩

/-- A context that a flow makes becomes part of its turf. -/
def after (t : Turf) : (a : Action) → a.Answer → Turf
  | .create _, h => t.adding h
  | _, _ => t

/-- Whether a flow with this turf may perform an action. -/
def Allows (t : Turf) : Action → Prop
  | .bind h key _ | .unbind h key => t.own h key
  | _ => True

/-- What others may do: they leave the contexts in place, and the bindings that are relied on. -/
structure Rely (t : Turf) (s s' : Store) : Prop where
  valid : ∀ h, s.Valid h → s'.Valid h
  same : ∀ h key, s.Valid h → t.dep h key → (s'.view h).get? key = (s.view h).get? key

structure Inside (t t' : Turf) : Prop where
  dep : ∀ h key, t.dep h key → t'.dep h key
  own : ∀ h key, t.own h key → t'.own h key

variable {t t' : Turf} {s s' : Store}

theorem Rely.refl (t : Turf) (s : Store) : t.Rely s s := ⟨fun _ => id, fun _ _ _ _ => rfl⟩

theorem Rely.trans {s'' : Store} (h : t.Rely s s') (h' : t.Rely s' s'') : t.Rely s s'' where
  valid k hk := h'.valid k (h.valid k hk)
  same k key hk hdep := (h'.same k key (h.valid k hk) hdep).trans (h.same k key hk hdep)

theorem Inside.refl (t : Turf) : t.Inside t := ⟨fun _ _ => id, fun _ _ => id⟩

theorem Inside.trans {t'' : Turf} (h : t.Inside t') (h' : t'.Inside t'') : t.Inside t'' where
  dep k key hdep := h'.dep k key (h.dep k key hdep)
  own k key hown := h'.own k key (h.own k key hown)

/-- Who relies on more is disturbed less. -/
theorem Inside.rely (h : t.Inside t') (hrely : t'.Rely s s') : t.Rely s s' where
  valid := hrely.valid
  same k key hk hdep := hrely.same k key hk (h.dep k key hdep)

theorem inside_adding (t : Turf) (h : Handle) : t.Inside (t.adding h) :=
  ⟨fun _ _ => .inr, fun _ _ => .inr⟩

theorem Inside.adding (h : t.Inside t') (k : Handle) : (t.adding k).Inside (t'.adding k) where
  dep h' key hdep := hdep.imp_right (h.dep h' key)
  own h' key hown := hown.imp_right (h.own h' key)

theorem inside_after (t : Turf) (a : Action) (x : a.Answer) : t.Inside (t.after a x) := by
  cases a with
  | create b => exact t.inside_adding x
  | _ => exact .refl t

theorem Inside.after (h : t.Inside t') (a : Action) (x : a.Answer) :
    (t.after a x).Inside (t'.after a x) := by
  cases a with
  | create b => exact h.adding x
  | _ => exact h

theorem Inside.allows (h : t.Inside t') {a : Action} (ha : t.Allows a) : t'.Allows a := by
  cases a with
  | bind k key value => exact h.own k key ha
  | unbind k key => exact h.own k key ha
  | _ => exact trivial

end Turf

/-! ## Budgets -/

/-- How many pauses there may be. Without a number, any, and a fault or a cut besides. -/
abbrev Budget := Option Nat

namespace Budget

/-- What is left after a pause. -/
inductive Spends : Budget → Budget → Prop
  | unlimited : Spends none none
  | one (n : Nat) : Spends (some (n + 1)) (some n)

inductive Le : Budget → Budget → Prop
  | unlimited (m : Budget) : Le m none
  | some {m n : Nat} : m ≤ n → Le (some m) (some n)

def add : Budget → Budget → Budget
  | some m, some n => some (m + n)
  | _, _ => none

variable {m n : Budget}

theorem Le.refl (m : Budget) : m.Le m := by
  cases m with
  | none => exact .unlimited _
  | some m => exact .some (Nat.le_refl m)

theorem Le.eq_none (h : m.Le n) (hm : m = none) : n = none := by
  cases h with
  | unlimited => rfl
  | some h => cases hm

theorem Le.spends {m' : Budget} (h : m.Le n) (hm : m.Spends m') :
    ∃ n', n.Spends n' ∧ m'.Le n' := by
  cases h with
  | unlimited => exact ⟨none, .unlimited, .unlimited _⟩
  | @some a b hab =>
    cases hm with
    | one a =>
      obtain ⟨b, rfl⟩ := Nat.exists_eq_succ_of_ne_zero (Nat.ne_zero_of_lt hab)
      exact ⟨_, .one b, .some (Nat.le_of_succ_le_succ hab)⟩

@[simp] theorem none_add (n : Budget) : add none n = none := by cases n <;> rfl

@[simp] theorem add_none (m : Budget) : add m none = none := by cases m <;> rfl

theorem spends_add {m' : Budget} (h : m.Spends m') (n : Budget) : (m.add n).Spends (m'.add n) := by
  cases h with
  | unlimited =>
    rw [none_add]
    exact .unlimited
  | one a =>
    cases n with
    | none => exact .unlimited
    | some b =>
      show Spends (some (a + 1 + b)) (some (a + b))
      rw [Nat.add_right_comm]
      exact .one _

theorem le_add_left (m n : Budget) : n.Le (m.add n) := by
  cases m with
  | none =>
    rw [none_add]
    exact .unlimited n
  | some a =>
    cases n with
    | none => exact .unlimited _
    | some b => exact .some (Nat.le_add_left b a)

end Budget

/-! ## The judgement -/

namespace Flow

variable {α β : Type} {ans : Query → Value}

/-- Whatever others do at its pauses, from these contexts on the flow writes what it may write, and
`Q` holds of its result and of the contexts at its end. -/
def Settles (ans : Query → Value) (Q : Turf → α → Store → Prop) :
    Flow α → Budget → Turf → Store → Prop
  | .done (.ok a), _, t, s => Q t a s
  | .done (.error _), m, _, _ => m = none
  | .starved, m, _, _ => m = none
  | .pause rest, m, t, s =>
    ∃ m', m.Spends m' ∧ ∀ s', t.Rely s s' → (rest ()).Settles ans Q m' t s'
  | .act a next, m, t, s =>
    t.Allows a ∧ (next (s.perform ans a).1).Settles ans Q m (t.after a (s.perform ans a).1)
      (s.perform ans a).2

namespace Settles

variable {Q Q' : Turf → α → Store → Prop} {f : Flow α} {m n : Budget} {t t' : Turf} {s : Store}

theorem mono (h : f.Settles ans Q m t s) (hQ : ∀ t a s, Q t a s → Q' t a s) :
    f.Settles ans Q' m t s := by
  induction f generalizing m t s with
  | done r =>
    cases r with
    | ok a => exact hQ t a s h
    | error e => exact h
  | starved => exact h
  | pause rest ih =>
    obtain ⟨m', hm, hrest⟩ := h
    exact ⟨m', hm, fun s' hs' => ih () (hrest s' hs')⟩
  | act a next ih => exact ⟨h.1, ih _ h.2⟩

theorem budget (h : f.Settles ans Q m t s) (hle : m.Le n) : f.Settles ans Q n t s := by
  induction f generalizing m n t s with
  | done r =>
    cases r with
    | ok a => exact h
    | error e => exact hle.eq_none h
  | starved => exact hle.eq_none h
  | pause rest ih =>
    obtain ⟨m', hm, hrest⟩ := h
    obtain ⟨n', hn, hle'⟩ := hle.spends hm
    exact ⟨n', hn, fun s' hs' => ih () (hrest s' hs') hle'⟩
  | act a next ih => exact ⟨h.1, ih _ h.2 hle⟩

theorem inside (h : f.Settles ans Q m t s) (hle : t.Inside t') :
    f.Settles ans (fun u a s => ∃ v, v.Inside u ∧ Q v a s) m t' s := by
  induction f generalizing m t t' s with
  | done r =>
    cases r with
    | ok a => exact ⟨t, hle, h⟩
    | error e => exact h
  | starved => exact h
  | pause rest ih =>
    obtain ⟨m', hm, hrest⟩ := h
    exact ⟨m', hm, fun s' hs' => ih () (hrest s' (hle.rely hs')) hle⟩
  | act a next ih => exact ⟨hle.allows h.1, ih _ h.2 (hle.after a _)⟩

/-- **Sequencing.** The second part may rely on what the first part has made. -/
theorem bind {R : Turf → β → Store → Prop} {k : α → Flow β} (h : f.Settles ans Q m t s)
    (hk : ∀ u a s', t.Inside u → Q u a s' → (k a).Settles ans R n u s') :
    (f.bind k).Settles ans R (m.add n) t s := by
  suffices hall : ∀ u, t.Inside u → f.Settles ans Q m u s →
      (f.bind k).Settles ans R (m.add n) u s from hall t (.refl t) h
  clear h
  intro u hu h
  induction f generalizing m u s with
  | done r =>
    cases r with
    | ok a => exact (hk u a s hu h).budget (Budget.le_add_left m n)
    | error e =>
      have hm : m = none := h
      rw [hm, Budget.none_add]
      exact rfl
  | starved =>
    have hm : m = none := h
    rw [hm, Budget.none_add]
    exact rfl
  | pause rest ih =>
    obtain ⟨m', hm, hrest⟩ := h
    exact ⟨m'.add n, Budget.spends_add hm n, fun s' hs' => ih () u hu (hrest s' hs')⟩
  | act a next ih => exact ⟨h.1, ih _ _ (hu.trans (u.inside_after a _)) h.2⟩

/-! ## Runs -/

/-- **What the judgement says of runs.** A run in which nothing says to stop has a result, for which
`Q` holds; only a flow without a budget may have none. -/
theorem run {env : Environment} (henv : env.Answers ans) {w : World}
    (h : f.Settles ans Q m t w.contexts) (hstop : (f.trace env w).any Mark.saysStop = false) :
    (∃ a u, (f.run env w).1 = .ended (.ok a) ∧ Q u a (f.run env w).2.contexts) ∨
      (m = none ∧ ∀ a, (f.run env w).1 ≠ .ended (.ok a)) := by
  induction f generalizing m t w with
  | done r =>
    cases r with
    | ok a => exact .inl ⟨a, t, rfl, h⟩
    | error e => exact .inr ⟨h, fun a ha => nomatch ha⟩
  | starved => exact .inr ⟨h, fun a ha => nomatch ha⟩
  | pause rest ih =>
    obtain ⟨m', hm, hrest⟩ := h
    rcases ih () (hrest w.contexts (.refl t _)) hstop with hresult | ⟨hnone, hall⟩
    · exact .inl hresult
    · refine .inr ⟨?_, hall⟩
      cases hm with
      | unlimited => rfl
      | one k => cases hnone
  | act a next ih =>
    rw [trace, List.any_cons, Bool.or_eq_false_iff] at hstop
    obtain ⟨hanswer, hcontexts⟩ := World.perform_eq henv w a hstop.1
    have hnext := h.2
    rw [← hanswer, ← hcontexts] at hnext
    exact ih _ hnext hstop.2

end Settles

end Flow

end WorkflowEngine
