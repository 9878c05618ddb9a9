import Mathlib
import WorkflowEngine.Engine
import WorkflowEngine.Proofs.Isolation.Mirrors

/-!
# Engines whose executors keep to the context that they are handed

An executor is contained if it touches no context but the one that it is handed and those that it
makes, and if it does not matter to it which handles these have. An executor may execute other ops
through its dispatcher; what it does is then as contained as the dispatcher.

Fan-outs mirror each other if their tasks do, and runners if their contexts are paired. So the
groups are contained, and with them every engine of contained executors.

Main statement: `Engine.exec_contained`.
-/

namespace WorkflowEngine

variable {ρ ρ' : Pairing}

/-- Mirroring, as a comparison. -/
abbrev Flow.mirroring : Comparison where
  State := Pairing
  Le := Pairing.Le
  compares Q ρ f g := f.Mirrors Q ρ g
  ok := .ok
  starved := .starved
  bind h hk := h.bind hk

theorem Flow.mirroring_suspends : mirroring.Suspends where
  check := echoes_check
  fail e := echoes_fail e
  pause h := .pause h
  later hle h := Echoes.mono h hle
  advance h := Echoes.advance h

/-! ## Runners -/

/-- The dispatcher executes ops alike in contexts that are paired. -/
def Dispatcher.Contained (d : Dispatcher) : Prop :=
  ∀ ρ h k op, ρ h k → (d.exec op h).Echoes ρ (d.exec op k)

section Runs

variable {d : Dispatcher} {h k : Handle}

theorem Loop.begin?_echoes (hk : ρ h k) (l : Loop) : (l.begin? h).Echoes ρ (l.begin? k) := by
  refine (Flow.echoes_view hk).bind fun ρ₁ b _ => ?_
  split
  · split
    · exact Flow.echoes_ok _
    · split
      · exact Flow.echoes_fail _
      · exact Flow.echoes_ok _
  · exact Flow.echoes_ok _

namespace Runner

/-- The same runner in another context. -/
def movedTo (r : Runner) (k : Handle) : Runner := { r with context := k }

theorem enter?_echoes (hk : ρ h k) (mode : LoopMode) (op : Op) :
    (enter? d mode op h).Echoes ρ (enter? d mode op k) := by
  refine (Flow.echoes_ofExcept _).bind fun ρ₁ parts hle => ?_
  obtain ⟨loop, body⟩ := parts
  dsimp only
  split
  · exact Flow.echoes_ok _
  · refine (Loop.begin?_echoes (hle h k hk) loop).bind fun ρ₂ o _ => ?_
    cases o <;> exact Flow.echoes_ok _

theorem again?_echoes (hk : ρ h k) (f : Frame) : (again? f h).Echoes ρ (again? f k) := by
  unfold again?
  split
  · exact Flow.echoes_ok _
  · next loop _ =>
    refine (Loop.begin?_echoes hk loop).bind fun ρ₁ o _ => ?_
    cases o <;> exact Flow.echoes_ok _

/-- The second runner is the first, in a context that is paired with that of the first. -/
def MovedTo (k : Handle) (ρ : Pairing) (r r' : Runner) : Prop := r' = r.movedTo k ∧ ρ r.context k

/-- **One move.** -/
theorem move_mirrors (hd : d.Contained) {r r' : Runner} (hr : MovedTo k ρ r r') :
    (move d r).Mirrors (fun ρ => Moved.Rel (fun s s' => s.result = s'.result) (MovedTo k ρ)) ρ
      (move d r') := by
  obtain ⟨topLevel, h, frames, phase, dispatched⟩ := r
  obtain ⟨rfl, hk⟩ := hr
  unfold move movedTo
  match frames with
  | [] => exact .ok .atEnd
  | ⟨body, [], loop⟩ :: outer =>
    refine (again?_echoes hk _).bind fun ρ₁ f hle => ?_
    exact .ok (.onward ⟨rfl, hle _ _ hk⟩)
  | ⟨body, op :: rest, loop⟩ :: outer =>
    refine Flow.echoes_check.bind fun ρ₁ _ hle₁ => ?_
    dsimp only
    split
    · next mode _ =>
      refine (enter?_echoes (hle₁ _ _ hk) mode op).bind fun ρ₂ f hle₂ => ?_
      exact .ok (.onward ⟨rfl, hle₂ _ _ (hle₁ _ _ hk)⟩)
    · refine Flow.Echoes.bind (hd ρ₁ h k op (hle₁ _ _ hk)) fun ρ₂ result hle₂ => ?_
      exact .ok (.handed rfl ⟨rfl, hle₂ _ _ (hle₁ _ _ hk)⟩)

theorem advance_mirrors (hd : d.Contained) (n : Nat) {r : Runner} (hk : ρ r.context k) :
    (advance d n r).Mirrors (fun ρ p q =>
        Option.Rel (fun s s' : Step => s.result = s'.result) p.1 q.1 ∧ MovedTo k ρ p.2 q.2) ρ
      (advance d n (r.movedTo k)) :=
  advance_alike (C := Flow.mirroring) (s := ρ) (R := MovedTo k)
    (fun hle hr => ⟨hr.1, hle _ _ hr.2⟩) (fun hr => move_mirrors hd hr) n ⟨rfl, hk⟩

theorem announce_echoes (r : Runner) (hk : ρ r.context k) (stage : Stage) :
    (r.announce stage).Echoes ρ ((r.movedTo k).announce stage) := by
  unfold announce movedTo
  split
  · exact Flow.echoes_announce hk _ _
  · exact Flow.echoes_ok _

/-- The same for what a call of `next` yields: a step, a fault or nothing. -/
def YieldsAlike (k : Handle) (ρ : Pairing) (p q : Option (Except Fault Step) × Runner) : Prop :=
  p.1.map (Except.map Step.result) = q.1.map (Except.map Step.result) ∧ q.2 = p.2.movedTo k ∧
    ρ p.2.context k

theorem next_mirrors_of_running (hd : d.Contained) (n : Nat) {r : Runner} (hk : ρ r.context k)
    (hphase : r.phase = .running) :
    (next d n r).Mirrors (YieldsAlike k) ρ (next d n (r.movedTo k)) := by
  rw [next_of_running hphase, next_of_running (r := r.movedTo k) hphase]
  refine Flow.Mirrors.bind (advance_mirrors hd n hk).attempt fun ρ₁ x y hle₁ hxy => ?_
  match x, y, hxy with
  | .error e, .error e', hfault =>
    cases hfault
    exact .ok ⟨rfl, rfl, hle₁ _ _ hk⟩
  | .ok (step, r₁), .ok (step', r₁'), ⟨hstep, hmoved, hk₁⟩ =>
    cases hmoved
    dsimp only at hstep
    cases hstep with
    | none =>
      refine (announce_echoes r₁ hk₁ .workflowDone).bind fun ρ₂ _ hle => ?_
      exact .ok ⟨rfl, rfl, hle _ _ hk₁⟩
    | some hs => exact .ok ⟨by simp [Except.map, hs], rfl, hk₁⟩

theorem next_mirrors (hd : d.Contained) (n : Nat) {r : Runner} (hk : ρ r.context k) :
    (next d n r).Mirrors (YieldsAlike k) ρ (next d n (r.movedTo k)) := by
  match hphase : r.phase with
  | .finished =>
    rw [next_of_finished hphase, next_of_finished (r := r.movedTo k) hphase]
    exact .ok ⟨rfl, rfl, hk⟩
  | .running => exact next_mirrors_of_running hd n hk hphase
  | .pending =>
    rw [next_of_pending hphase, next_of_pending (r := r.movedTo k) hphase]
    refine (announce_echoes r hk _).bind fun ρ₁ _ hle => ?_
    exact next_mirrors_of_running hd n (r := { r with phase := .running }) (hle _ _ hk) rfl

/-- **A run to the end in a paired context** has the same results. -/
theorem stepsFrom_mirrors (hd : d.Contained) (n : Nat) {taken taken' : List Step} {r : Runner}
    (htaken : taken.map Step.result = taken'.map Step.result) (hk : ρ r.context k) :
    (stepsFrom d taken n r).Mirrors (fun _ p q => p.1.map Step.result = q.1.map Step.result) ρ
      (stepsFrom d taken' n (r.movedTo k)) := by
  induction n generalizing ρ taken taken' r with
  | zero => exact .starved
  | succ n ih =>
    refine Flow.Mirrors.bind (next_mirrors hd n hk) fun ρ₁ p q hle hpq => ?_
    obtain ⟨item, r₁⟩ := p
    obtain ⟨item', r₁'⟩ := q
    obtain ⟨hitem, rfl, hk₁⟩ := hpq
    match item, item', hitem with
    | none, none, _ => exact .ok (by simp [htaken])
    | some (.ok step), some (.ok step'), hitem =>
      refine ih ?_ hk₁
      simp only [Option.map_some, Except.map, Option.some.injEq, Except.ok.injEq] at hitem
      simp [htaken, hitem]
    | some (.error e), some (.error e'), hitem =>
      cases hitem
      exact .error e

end Runner

theorem Dispatcher.Contained.runOps (hd : d.Contained) (hk : ρ h k) (ops : List Op) :
    (d.runOps ops h).Echoes ρ (d.runOps ops k) :=
  Flow.Mirrors.bind
    (Runner.stepsFrom_mirrors hd d.fuel (r := Runner.start false ops h) rfl hk)
    fun _ _ _ _ hsteps => .ok hsteps

theorem Dispatcher.Contained.dispatch (hd : d.Contained) (hk : ρ h k) (op : Op) :
    (d.dispatch op h).Echoes ρ (d.dispatch op k) := by
  unfold Dispatcher.dispatch
  split
  · exact (hd.runOps hk [op]).bind fun _ _ _ => Flow.echoes_ok _
  · exact hd ρ h k op hk

end Runs

/-! ## Groups -/

namespace Executor

/-- The executor touches no context but the one it is handed and those that it makes, and it does
not matter to it which handles these have. -/
def Contained (x : Executor) : Prop :=
  ∀ d : Dispatcher, d.Contained → ∀ ρ h k op, ρ h k → (x d op h).Echoes ρ (x d op k)

variable {d : Dispatcher} {h k : Handle}

theorem copy_mirrors (hk : ρ h k) :
    (Flow.copy h).Mirrors (fun ρ x y => ρ x y) ρ (Flow.copy k) :=
  (Flow.echoes_view hk).bind fun _ b _ => Flow.create_mirrors b

theorem sequential_contained : Contained sequential := by
  intro d hd ρ h k op hk
  refine (Flow.echoes_ofExcept op.innerOps).bind fun ρ₁ ops hle => ?_
  refine Flow.Mirrors.bind (copy_mirrors (hle h k hk)) fun ρ₂ x y _ hxy => ?_
  exact (hd.runOps hxy ops).bind fun _ _ _ => Flow.echoes_ok _

theorem parallel_contained : Contained parallel := by
  intro d hd ρ h k op hk
  refine (Flow.echoes_ofExcept op.innerOps).bind fun ρ₁ ops hle₁ => ?_
  refine (Flow.echoes_ofExcept (concurrency d.config op ops.length)).bind fun ρ₂ cap hle₂ => ?_
  have hk₂ : ρ₂ h k := hle₂ h k (hle₁ h k hk)
  have htasks :
      List.Forall₂ (Flow.Echoes ρ₂) (ops.map (d.dispatch · h)) (ops.map (d.dispatch · k)) := by
    simp only [List.forall₂_map_left_iff, List.forall₂_map_right_iff, List.forall₂_same]
    exact fun inner _ => hd.dispatch hk₂ inner
  have hrun := FanOut.run_alike (C := Flow.mirroring) (s := ρ₂) Flow.mirroring_suspends
    (fun _ _ => Flow.echoes_ok ()) htasks d.fuel cap
  exact Flow.Echoes.bind hrun fun _ _ _ => Flow.echoes_ok _

theorem mapItems_echoes (hd : d.Contained) (hk : ρ h k) (ops : List Op) (name : String)
    (results items : List Value) :
    (mapItems d ops name h results items).Echoes ρ (mapItems d ops name k results items) := by
  induction items generalizing ρ results with
  | nil => exact Flow.echoes_ok _
  | cons item items ih =>
    refine Flow.echoes_check.bind fun ρ₁ _ hle₁ => ?_
    refine (Flow.echoes_view (hle₁ h k hk)).bind fun ρ₂ b hle₂ => ?_
    refine Flow.Mirrors.bind (Flow.create_mirrors _) fun ρ₃ x y hle₃ hxy => ?_
    refine (hd.runOps hxy ops).bind fun ρ₄ _ hle₄ => ?_
    refine (Flow.echoes_view (hle₄ x y hxy)).bind fun ρ₅ b hle₅ => ?_
    exact ih (hle₅ h k (hle₄ h k (hle₃ h k (hle₂ h k (hle₁ h k hk))))) _

theorem map_contained : Contained map := by
  intro d hd ρ h k op hk
  refine (Flow.echoes_view hk).bind fun ρ₁ b hle₁ => ?_
  refine (Flow.echoes_ofExcept (inputArray op b)).bind fun ρ₂ items hle₂ => ?_
  refine (Flow.echoes_ofExcept (op.textParam "itemVariable")).bind fun ρ₃ name hle₃ => ?_
  refine (Flow.echoes_ofExcept op.innerOps).bind fun ρ₄ ops hle₄ => ?_
  have hk₄ : ρ₄ h k := hle₄ h k (hle₃ h k (hle₂ h k (hle₁ h k hk)))
  exact (mapItems_echoes hd hk₄ ops _ [] items).bind fun _ _ _ => Flow.echoes_ok _

end Executor

/-! ## Engines -/

/-- Every executor of the engine keeps to the context that it is handed. -/
def Engine.Contained (e : Engine) : Prop :=
  ∀ kind x, e.registry.get? kind = some x → x.Contained

namespace Engine

variable {e : Engine} {h k : Handle}

theorem bindResult_echoes (hk : ρ h k) (op : Op) (result : Value) :
    (bindResult op h result).Echoes ρ (bindResult op k result) := by
  unfold bindResult
  split
  · next name _ =>
    refine (Flow.echoes_store hk name result).bind fun ρ₁ _ hle => ?_
    exact Flow.echoes_store (hle h k hk) _ _
  · exact Flow.echoes_store hk _ _

/-- **An engine of contained executors executes ops alike in contexts that are paired.** -/
theorem exec_contained (he : e.Contained) (n : Nat) : (e.dispatcher n).Contained := by
  induction n with
  | zero => exact fun _ _ _ _ _ => .starved
  | succ n ih =>
    intro ρ h k op hk
    refine (Flow.echoes_announce hk .opPre op).bind fun ρ₁ _ hle₁ => ?_
    split
    · exact Flow.echoes_fail _
    · next x hx =>
      have hk₁ := hle₁ h k hk
      refine (he op.kind x hx _ ih ρ₁ h k op hk₁).bind fun ρ₂ result hle₂ => ?_
      have hk₂ := hle₂ h k hk₁
      refine (bindResult_echoes hk₂ op result).bind fun ρ₃ _ hle₃ => ?_
      exact (Flow.echoes_announce (hle₃ h k hk₂) _ _).bind fun _ _ _ => Flow.echoes_ok result

end Engine

end WorkflowEngine
