import WorkflowEngine.Proofs.Judgement
import WorkflowEngine.Proofs.SteadyStop

/-!
# Cautious flows: what must be asked before it is done

A stop can be requested in three ways: by an action of the run itself, by its listener, and from
outside while the run has given up control. Where none of these has happened since a question
whether to stop was answered with no, no stop has been requested. `Assurance` keeps this knowledge.

**The judgement** (`Flow.Heeds`). A `Caution` says which actions may be done only right after the
question whether to stop, by request or by rule, and which only right after the question whether a
stop has been requested: nothing that could have changed the answer may come in between. A flow
heeds a caution when no way of answering lets it do such an action without that assurance. After a
pause nothing is known, so what is left of a flow heeds the caution whatever others did meanwhile.

**Traces** (`Flow.Heeds.silent`). `Token.Held` says how the answers of a trace hang together with a
stop that has been requested or not. From the moment on at which a stop has been requested, a flow
that heeds a caution does nothing of which the caution speaks. Others may request a stop at every
pause; the traces of runs, in which nobody does, are among these (`Flow.AfterRequest.trace`).
-/

namespace WorkflowEngine

/-! ## The token -/

namespace Token

/-- A stop has been requested before these marks, or it has not, and has been requested after them,
or not. Whoever asks is told; and a stop is requested by an action of the run, by a listener, or
from outside at a pause. -/
inductive Held : Bool → List Mark → Bool → Prop
  | nil (c : Bool) : Held c [] c
  | paused {c c' d : Bool} {t : List Mark} :
      (c = true → c' = true) → Held c' t d → Held c (.paused :: t) d
  | poll {c d stop : Bool} {t : List Mark} :
      (c = true → stop = true) → Held c t d → Held c (.did .poll stop :: t) d
  | signal {c d : Bool} {t : List Mark} : Held c t d → Held c (.did .signal c :: t) d
  | requestStop {c d : Bool} {t : List Mark} :
      Held true t d → Held c (.did .requestStop () :: t) d
  | announce {c c' d : Bool} {t : List Mark} (e : Event) :
      (c = true → c' = true) → Held c' t d → Held c (.did (.announce e) () :: t) d
  | other {c d : Bool} {t : List Mark} {a : Action} (x : a.Answer) :
      a ≠ .poll → a ≠ .signal → a ≠ .requestStop → (∀ e, a ≠ .announce e) →
      Held c t d → Held c (.did a x :: t) d

end Token

namespace World

variable {env : Environment} {w : World}

/-- A stop has been requested. -/
def requested (w : World) : Bool := w.cancellation.requested

theorem held_perform (env : Environment) (w : World) (a : Action) {t : List Mark} {d : Bool}
    (h : Token.Held (w.perform env a).2.requested t d) :
    Token.Held w.requested (.did a (w.perform env a).1 :: t) d := by
  have hkeeps : w.requested = true → (w.perform env a).2.requested = true :=
    (onward_perform env w a).requested
  cases a with
  | poll =>
    have hsame : (w.perform env .poll).2.requested = w.requested := poll_requested ..
    rw [hsame] at h
    refine .poll (fun hw => ?_) h
    exact toldToStop_iff.2 (.inl hw)
  | signal => exact .signal h
  | requestStop => exact .requestStop h
  | announce e => exact .announce e hkeeps h
  | view _ | bind _ _ _ | unbind _ _ | create _ | consult _ _ | note _ | raise _ =>
    refine .other _ ?_ ?_ ?_ ?_ h <;> simp

/-- **The token in a run.** -/
theorem held_trace {α : Type} {f : Flow α} {before after : List Mark}
    (h : f.trace env w = before ++ after) :
    Token.Held w.requested before (w.replay env before).requested ∧
      ∃ d, Token.Held (w.replay env before).requested after d := by
  have hwhole : ∀ (f : Flow α) (w : World), ∃ d, Token.Held w.requested (f.trace env w) d := by
    intro f
    induction f with
    | done r => exact fun w => ⟨_, .nil _⟩
    | starved => exact fun w => ⟨_, .nil _⟩
    | pause rest ih =>
      intro w
      obtain ⟨d, hd⟩ := ih () w
      exact ⟨d, .paused id hd⟩
    | act a next ih =>
      intro w
      obtain ⟨d, hd⟩ := ih (w.perform env a).1 (w.perform env a).2
      exact ⟨d, held_perform env w a hd⟩
  induction before generalizing f w with
  | nil =>
    refine ⟨.nil _, ?_⟩
    rw [List.nil_append] at h
    exact h ▸ hwhole f w
  | cons m before ih =>
    cases f with
    | done r => cases h
    | starved => cases h
    | pause rest =>
      obtain ⟨rfl, hrest⟩ := List.cons.inj h
      obtain ⟨hbefore, hafter⟩ := ih hrest
      exact ⟨.paused id hbefore, hafter⟩
    | act a next =>
      obtain ⟨rfl, hrest⟩ := List.cons.inj h
      obtain ⟨hbefore, hafter⟩ := ih hrest
      exact ⟨held_perform env w a hbefore, hafter⟩

end World

/-! ## The judgement -/

/-- What has been asked and answered with no, where no stop can have been requested since. -/
structure Assurance where
  /-- Whether to stop, by request or by rule. -/
  poll : Bool
  /-- Whether a stop has been requested. -/
  signal : Bool

namespace Assurance

/-- Nothing is known. -/
def none : Assurance := ⟨false, false⟩

/-- What is known after an action. -/
def after (s : Assurance) : (a : Action) → a.Answer → Assurance
  | .poll, stop => if stop then s else { s with poll := true }
  | .signal, stop => if stop then s else { s with signal := true }
  | .requestStop, _ | .announce _, _ => none
  | _, _ => s

/-- Where there is an assurance, no stop has been requested. -/
def Sound (s : Assurance) (c : Bool) : Prop := c = true → s = .none

theorem sound_none (c : Bool) : Sound .none c := fun _ => rfl

end Assurance

theorem Token.Held.did {a : Action} {x : a.Answer} {t : List Mark} {c d : Bool}
    (h : Token.Held c (.did a x :: t) d) : ∃ c', Token.Held c' t d ∧ (c = true → c' = true) ∧
      ∀ s : Assurance, s.Sound c → (s.after a x).Sound c' := by
  cases h with
  | @poll _ _ stop _ htold ht =>
    refine ⟨c, ht, id, fun s hs hc => ?_⟩
    obtain rfl := htold hc
    exact hs hc
  | signal ht =>
    refine ⟨c, ht, id, fun s hs hc => ?_⟩
    subst hc
    exact hs rfl
  | requestStop ht => exact ⟨true, ht, fun _ => rfl, fun _ _ => Assurance.sound_none _⟩
  | announce e hstays ht => exact ⟨_, ht, hstays, fun _ _ => Assurance.sound_none _⟩
  | other x hpoll hsignal hrequest hannounce ht =>
    refine ⟨c, ht, id, fun s hs => ?_⟩
    cases a with
    | poll => exact absurd rfl hpoll
    | signal => exact absurd rfl hsignal
    | requestStop => exact absurd rfl hrequest
    | announce e => exact absurd rfl (hannounce e)
    | _ => exact hs

/-- What may be done only where it has been asked whether to stop, and only where it has been asked
whether a stop has been requested. -/
structure Caution where
  needsPoll : Action → Prop
  needsSignal : Action → Prop

namespace Caution

/-- The action may be done with this assurance. -/
def Allows (C : Caution) (s : Assurance) (a : Action) : Prop :=
  (C.needsPoll a → s.poll = true) ∧ (C.needsSignal a → s.signal = true)

/-- The caution speaks of the action. -/
def Concerns (C : Caution) (a : Action) : Prop := C.needsPoll a ∨ C.needsSignal a

theorem allows_of_not_concerns {C : Caution} {a : Action} (h : ¬C.Concerns a) (s : Assurance) :
    C.Allows s a := ⟨fun hp => absurd (.inl hp) h, fun hs => absurd (.inr hs) h⟩

theorem not_concerns {C : Caution} {a : Action} (h : C.Allows .none a) : ¬C.Concerns a := by
  rintro (hpoll | hsignal)
  · cases h.1 hpoll
  · cases h.2 hsignal

end Caution

namespace Flow

variable {α β : Type} {C : Caution}

/-- From this assurance on, the flow does only what the caution allows, and its result satisfies
`P`, with the assurance at the end. -/
def Heeds (C : Caution) (P : Assurance → α → Prop) : Flow α → Assurance → Prop
  | .done (.ok a), s => P s a
  | .done (.error _), _ => True
  | .starved, _ => True
  | .pause rest, _ => ∀ s, (rest ()).Heeds C P s
  | .act a next, s => C.Allows s a ∧ ∀ x, (next x).Heeds C P (s.after a x)

/-- Whatever is known, the flow does only what the caution allows, and its result satisfies `P`. -/
def Cautious (C : Caution) (P : α → Prop) (f : Flow α) : Prop := ∀ s, f.Heeds C (fun _ => P) s

/-- Right after the question whether to stop, the flow does only what the caution allows. -/
def CautiousOnceAsked (C : Caution) (f : Flow α) : Prop :=
  ∀ s, s.poll = true → f.Heeds C (fun _ _ => True) s

variable {P Q : Assurance → α → Prop} {f : Flow α} {s : Assurance}

theorem Heeds.mono (h : f.Heeds C P s) (hP : ∀ s a, P s a → Q s a) : f.Heeds C Q s := by
  induction f generalizing s with
  | done r =>
    cases r with
    | ok a => exact hP s a h
    | error e => trivial
  | starved => trivial
  | pause rest ih => exact fun s => ih () (h s)
  | act a next ih => exact ⟨h.1, fun x => ih x (h.2 x)⟩

/-- **Sequencing.** -/
theorem Heeds.bind {R : Assurance → β → Prop} {k : α → Flow β} (h : f.Heeds C P s)
    (hk : ∀ s a, P s a → (k a).Heeds C R s) : (f.bind k).Heeds C R s := by
  induction f generalizing s with
  | done r =>
    cases r with
    | ok a => exact hk s a h
    | error e => trivial
  | starved => trivial
  | pause rest ih => exact fun s => ih () (h s)
  | act a next ih => exact ⟨h.1, fun x => ih x (h.2 x)⟩

theorem Heeds.attempt (h : f.Heeds C P s) :
    f.attempt.Heeds C (fun s r => ∀ a, r = .ok a → P s a) s := by
  induction f generalizing s with
  | done r =>
    cases r with
    | ok a =>
      intro b hb
      cases hb
      exact h
    | error e => exact fun _ hb => nomatch hb
  | starved => trivial
  | pause rest ih => exact fun s => ih () (h s)
  | act a next ih => exact ⟨h.1, fun x => ih x (h.2 x)⟩

/-- **Stretches.** Where a flow gives up control, its rest is cautious whatever others do. -/
theorem Heeds.advance {P : α → Prop} (h : f.Heeds C (fun _ => P) s) :
    f.advance.Heeds C (fun _ stretch => match stretch with
      | .settled a => P a
      | .suspended rest => rest.Cautious C P) s := by
  induction f generalizing s with
  | done r =>
    cases r with
    | ok a => exact h
    | error e => trivial
  | starved => trivial
  | pause rest _ => exact h
  | act a next ih => exact ⟨h.1, fun x => ih x (h.2 x)⟩

theorem Cautious.bind {P : α → Prop} {Q : β → Prop} {k : α → Flow β} (h : f.Cautious C P)
    (hk : ∀ a, P a → (k a).Cautious C Q) : (f.bind k).Cautious C Q :=
  fun s => (h s).bind fun s a ha => hk a ha s

theorem cautious_ok {P : α → Prop} {a : α} (h : P a) : (Flow.done (.ok a)).Cautious C P :=
  fun _ => h

end Flow

/-- Flows heed the caution. -/
abbrev Caution.judgement (C : Caution) : Judgement where
  State := Assurance
  judges P f s := f.Heeds C P s
  ok h := h
  bind h hk := h.bind hk

namespace Flow

variable {α : Type} {C : Caution} {P : Assurance → α → Prop} {f : Flow α} {s : Assurance}

/-! ## What a caution says of traces -/

/-- What is known before marks is known after them, and after a request nothing is. -/
theorem Heeds.goes {g : Flow α} {t : List Mark} {c d : Bool} (h : f.Heeds C P s) (hs : s.Sound c)
    (ht : Token.Held c t d) (hgo : f.Goes t g) : ∃ s', g.Heeds C P s' ∧ s'.Sound d := by
  induction hgo generalizing s c with
  | here f =>
    cases ht
    exact ⟨s, h, hs⟩
  | pause _ ih =>
    cases ht with
    | paused _ ht => exact ih (h .none) (Assurance.sound_none _) ht
  | act x _ ih =>
    obtain ⟨c', ht, -, hsound⟩ := ht.did
    exact ih (h.2 x) (hsound s hs) ht

theorem Heeds.silent_of_requested {g : Flow α} {t : List Mark} {d : Bool}
    (h : f.Heeds C P s) (hs : s.Sound true) (ht : Token.Held true t d) (hgo : f.Goes t g) :
    ∀ a x, .did a x ∈ t → ¬C.Concerns a := by
  induction hgo generalizing s with
  | here f => exact fun a x hm => nomatch hm
  | pause _ ih =>
    cases ht with
    | paused hstays ht =>
      intro a x hm
      rcases List.mem_cons.1 hm with hm | hm
      · cases hm
      · exact ih (h .none) (Assurance.sound_none _) (hstays rfl ▸ ht) a x hm
  | act y _ ih =>
    obtain ⟨c', ht, hstays, hsound⟩ := ht.did
    obtain rfl := hstays rfl
    intro a x hm
    rcases List.mem_cons.1 hm with hm | hm
    · cases hm
      have hallows := h.1
      rw [hs rfl] at hallows
      exact Caution.not_concerns hallows
    · exact ih (h.2 y) (hsound s hs) ht a x hm

/-- Wherever a trace of the flow is cut at a moment at which a stop has been requested, `p` holds of
the marks after that moment and of what is left of the flow at their end. -/
def AfterRequest (p : List Mark → Flow α → Prop) (f : Flow α) : Prop :=
  ∀ before after c d g, f.Goes (before ++ after) g → Token.Held c before true →
    Token.Held true after d → p after g

/-- **From the moment on at which a stop has been requested, nothing is done of which the caution
speaks.** -/
theorem Heeds.silent (h : f.Heeds C P .none) :
    f.AfterRequest fun after _ => ∀ a x, .did a x ∈ after → ¬C.Concerns a := by
  intro before after c d g hgo hbefore hafter
  obtain ⟨between, hgo1, hgo2⟩ := hgo.split
  obtain ⟨s, hs, hsound⟩ := h.goes (Assurance.sound_none c) hbefore hgo1
  exact hs.silent_of_requested hsound hafter hgo2

theorem AfterRequest.trace {p : List Mark → Flow α → Prop} (h : f.AfterRequest p)
    {env : Environment} {w : World} {before after : List Mark}
    (htrace : f.trace env w = before ++ after) (hstop : (w.replay env before).requested = true) :
    p after (f.run env w).1.flow := by
  obtain ⟨hbefore, d, hafter⟩ := World.held_trace htrace
  rw [hstop] at hbefore hafter
  have hgoes := f.goes_trace env w
  rw [htrace] at hgoes
  exact h before after _ d _ hgoes hbefore hafter

end Flow

end WorkflowEngine
