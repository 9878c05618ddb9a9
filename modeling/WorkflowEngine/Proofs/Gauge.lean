import Mathlib
import WorkflowEngine.Proofs.Judgement
import WorkflowEngine.Proofs.Parameters
import WorkflowEngine.Proofs.Trace

/-!
# Gauges: how high a count rises

A gauge says how much each action adds to a count or takes from it, and so what the count is at
every moment of a trace (`Gauge.level`).

**The judgement** (`Flow.Stays`). From a count on, a flow stays within a bound when no way of
answering its actions takes the count over the bound, and a given condition holds of the result and
the count at its end. What a flow needs does not depend on where the count stands before
(`Stays.shift`), so flows that take turns can be looked at one by one, each from a count of zero.

**Cost** (`Flow.Costs`). The usual case is a flow that starts at zero, ends at zero, and in between
needs no more than its cost. One flow after another needs as much as the dearer of them; that of
flows that take turns is the subject of the next modules.

A flow ends only with faults that the gauge does not count when they arise. For a gauge that counts
some faults, and for a bound of zero, the judgement says that these never arise.
-/

namespace WorkflowEngine

/-- How much an action adds to a count. -/
abbrev Gauge := Action → Int

/-- How much what is done adds to a count. A pause adds nothing. -/
def Mark.change (δ : Gauge) : Mark → Int
  | .did a _ => δ a
  | .paused => 0

/-- The count after a trace. -/
def Gauge.level (δ : Gauge) (t : List Mark) : Int := (t.map (Mark.change δ)).sum

namespace Flow

variable {α β : Type} {δ : Gauge} {k w : Int} {c : Int} {P : α → Int → Prop}

/-- From the count `c` on, the flow keeps the count within `k`, and in the end `P` holds. -/
def Stays (δ : Gauge) (k : Int) (P : α → Int → Prop) : Flow α → Int → Prop
  | .done (.ok a), c => P a c
  | .done (.error e), _ => δ (.raise e) = 0
  | .starved, _ => True
  | .pause rest, c => (rest ()).Stays δ k P c
  | .act a next, c => c + δ a ≤ k ∧ ∀ x, (next x).Stays δ k P (c + δ a)

/-! ## Rules -/

theorem Stays.mono {k' : Int} {Q : α → Int → Prop} {f : Flow α} (h : f.Stays δ k P c)
    (hk : k ≤ k') (hP : ∀ a c, P a c → Q a c) : f.Stays δ k' Q c := by
  induction f generalizing c with
  | done r =>
    cases r with
    | ok a => exact hP a c h
    | error e => exact h
  | starved => exact h
  | pause rest ih => exact ih () h
  | act a next ih => exact ⟨Int.le_trans h.1 hk, fun x => ih x (h.2 x)⟩

/-- **Sequencing.** A result is passed on together with the count. -/
theorem Stays.bind {Q : β → Int → Prop} {f : Flow α} {g : α → Flow β} (h : f.Stays δ k P c)
    (hg : ∀ a c, P a c → (g a).Stays δ k Q c) : (f.bind g).Stays δ k Q c := by
  induction f generalizing c with
  | done r =>
    cases r with
    | ok a => exact hg a c h
    | error e => exact h
  | starved => trivial
  | pause rest ih => exact ih () h
  | act a next ih => exact ⟨h.1, fun x => ih x (h.2 x)⟩

/-- **Shifting.** A flow needs the same room wherever the count stands. -/
theorem Stays.shift {f : Flow α} (h : f.Stays δ k P c) (d : Int) :
    f.Stays δ (k + d) (fun a c => P a (c - d)) (c + d) := by
  induction f generalizing c with
  | done r =>
    cases r with
    | ok a =>
      show P a (c + d - d)
      rwa [Int.add_sub_cancel]
    | error e => exact h
  | starved => trivial
  | pause rest ih => exact ih () h
  | act a next ih =>
    have hcomm : c + d + δ a = c + δ a + d := by omega
    refine ⟨?_, fun x => ?_⟩
    · have hle := h.1
      omega
    · rw [hcomm]
      exact ih x (h.2 x)

/-- A fault that is kept as a result is none that counts. -/
theorem Stays.attempt {f : Flow α} (h : f.Stays δ k P c) :
    f.attempt.Stays δ k (fun
      | .ok a, c => P a c
      | .error e, _ => δ (.raise e) = 0) c := by
  induction f generalizing c with
  | done r => cases r <;> exact h
  | starved => trivial
  | pause rest ih => exact ih () h
  | act a next ih => exact ⟨h.1, fun x => ih x (h.2 x)⟩

/-- **Stretches.** Where a flow gives up control, the count is within the bound, and from there the
rest stays within it. -/
theorem Stays.advance {f : Flow α} (h : f.Stays δ k P c) (hc : c ≤ k) :
    f.advance.Stays δ k (fun
      | .settled a, c => P a c
      | .suspended rest, c => c ≤ k ∧ rest.Stays δ k P c) c := by
  induction f generalizing c with
  | done r => cases r <;> exact h
  | starved => trivial
  | pause rest _ => exact ⟨hc, h⟩
  | act a next ih => exact ⟨h.1, fun x => ih x (h.2 x) h.1⟩

/-- **What the judgement says of traces.** At every moment the count is within the bound. -/
theorem Stays.goes {f g : Flow α} {t : List Mark} (h : f.Stays δ k P c) (hc : c ≤ k)
    (hgoes : f.Goes t g) : c + δ.level t ≤ k ∧ g.Stays δ k P (c + δ.level t) := by
  have hcons : ∀ (m : Mark) (t : List Mark) (c : Int),
      c + δ.level (m :: t) = c + m.change δ + δ.level t := by
    intro m t c
    simp only [Gauge.level, List.map_cons, List.sum_cons]
    omega
  induction hgoes generalizing c with
  | here f =>
    simp only [Gauge.level, List.map_nil, List.sum_nil, Int.add_zero]
    exact ⟨hc, h⟩
  | pause _ ih =>
    rw [hcons, Mark.change, Int.add_zero]
    exact ih h hc
  | act x _ ih =>
    rw [hcons]
    exact ih (h.2 x) h.1

/-! ## Costs -/

/-- The count stands at `c`, and the result satisfies `R`. -/
def Level (R : α → Prop) (c : Int) : α → Int → Prop := fun a c' => c' = c ∧ R a

/-- From a count of zero the flow comes back to zero, needs no more than `w` in between, and its
result satisfies `R`. -/
def Costs (δ : Gauge) (w : Nat) (R : α → Prop) (f : Flow α) : Prop := f.Stays δ w (Level R 0) 0

/-- The flow costs no more than `w`, whatever its result. -/
abbrev Needs (δ : Gauge) (w : Nat) (f : Flow α) : Prop := f.Costs δ w fun _ => True

variable {R : α → Prop} {v w : Nat}

theorem Costs.mono {R' : α → Prop} {f : Flow α} (h : f.Costs δ v R) (hvw : v ≤ w)
    (hR : ∀ a, R a → R' a) : f.Costs δ w R' :=
  Stays.mono h (by omega) fun a _ ha => ⟨ha.1, hR a ha.2⟩

/-- Wherever the count stands, the flow needs its cost. -/
theorem Costs.lift {f : Flow α} (h : f.Costs δ w R) (hk : c + w ≤ k) :
    f.Stays δ k (Level R c) c := by
  have hshift := Stays.shift h c
  rw [Int.zero_add] at hshift
  refine hshift.mono (by omega) fun a c' ha => ⟨?_, ha.2⟩
  have hzero : c' - c = 0 := ha.1
  omega

theorem costs_ok {a : α} (h : R a) : (Flow.done (.ok a)).Costs δ w R := ⟨rfl, h⟩

theorem costs_starved : (Flow.starved : Flow α).Costs δ w R := trivial

/-- One flow after another costs as much as the dearer of them. -/
theorem Costs.bind {S : β → Prop} {f : Flow α} {g : α → Flow β} (h : f.Costs δ w R)
    (hg : ∀ a, R a → (g a).Costs δ w S) : (f.bind g).Costs δ w S := by
  refine Stays.bind h fun a c ha => ?_
  obtain ⟨rfl, ha⟩ := ha
  exact hg a ha

theorem costs_perform {a : Action} (h : δ a = 0) : (perform a).Needs δ w := by
  refine ⟨?_, fun x => ⟨?_, trivial⟩⟩
  · omega
  · omega

theorem costs_fail {e : Fault} (h : δ (.raise e) = 0) : (fail e : Flow α).Costs δ w R :=
  ⟨by omega, fun _ => h⟩

theorem costs_ofExcept {r : Except Fault α} (hok : ∀ a, r = .ok a → R a)
    (herror : ∀ e, r = .error e → δ (.raise e) = 0) : (ofExcept r).Costs δ w R := by
  cases r with
  | ok a => exact costs_ok (hok a rfl)
  | error e => exact costs_fail (herror e rfl)

end Flow

/-- Flows keep the count within a bound. -/
abbrev Gauge.judgement (δ : Gauge) (k : Int) : Judgement where
  State := Int
  judges P f c := f.Stays δ k (fun a c => P c a) c
  ok h := h
  bind h hk := h.bind fun a c ha => hk c a ha

/-! ## Gauges that suit the engine -/

/-- Of what the engine does by itself the gauge counts only the faults of inner ops that cannot be
decoded and the beginnings and ends of ops, and an end takes away what the beginning has added. -/
structure Gauge.Suits (δ : Gauge) : Prop where
  poll : δ .poll = 0
  view : ∀ h, δ (.view h) = 0
  create : ∀ b, δ (.create b) = 0
  bind : ∀ h key value, δ (.bind h key value) = 0
  raise : ∀ e : Fault, ¬e.IsInnerOps → δ (.raise e) = 0
  workflowStart : ∀ op h, δ (.announce ⟨.workflowStart, op, h⟩) = 0
  workflowDone : ∀ op h, δ (.announce ⟨.workflowDone, op, h⟩) = 0
  opPost : ∀ op h, δ (.announce ⟨.opPost, op, h⟩) = -δ (.announce ⟨.opPre, op, h⟩)

namespace Flow

variable {α : Type} {δ : Gauge} {w : Nat}

theorem check_costs (hδ : δ.Suits) : check.Needs δ w := by
  refine ⟨?_, fun stop => ?_⟩
  · rw [hδ.poll]
    omega
  · rw [hδ.poll, Int.add_zero]
    cases stop with
    | true => exact costs_fail (hδ.raise _ id)
    | false => exact costs_ok trivial

theorem view_costs (hδ : δ.Suits) (h : Handle) : (view h).Needs δ w :=
  costs_perform (hδ.view h)

theorem create_costs (hδ : δ.Suits) (b : Bindings) : (create b).Needs δ w :=
  costs_perform (hδ.create b)

end Flow

end WorkflowEngine
