import Mathlib
import WorkflowEngine.Op.Depth
import WorkflowEngine.Proofs.Monitor.Engine
import WorkflowEngine.Proofs.Moves

/-!
# Loops that hand out nothing

Between two ops a runner only reads its context, so all its tests read the same bindings, and where
its moves lead can be told beforehand. A loop op is *passed over* (`Op.PassedOver`) if it has no
body or its condition calls for no pass. A loop op *spins* (`Op.Spins`) if its condition calls for a
pass, and then either it has no limit and all ops of its body are passed over, or the first op of
its body that is not passed over spins itself.

`Runner.onward?` says to which stack of frames a move leads that hands out nothing. From a stack
that spins there is always such a move, and it leads to a stack that spins
(`Runner.FramesSpin.onward`). From one that does not spin there are finitely many
(`Runner.halts_of_not_spins`): for a loop op this is an induction on its depth, and for the idle
passes of a loop with a limit one on the passes that are left.
-/

namespace WorkflowEngine

/-! ## Loops that hand out nothing -/

namespace Op

variable (config : Config) (b : Bindings)

/-- A loop op that is passed over: it has no body, or its condition calls for no pass. -/
def PassedOver (op : Op) : Prop :=
  ∃ mode l body, LoopMode.ofKind? op.kind = some mode ∧ Loop.ofOp config mode op = .ok (l, body) ∧
    (body = [] ∨ l.calls b = false)

/-- A loop op that hands out nothing, pass after pass, or has another one do so in its first
pass. -/
inductive Spins : Op → Prop
  | idle {op : Op} {mode : LoopMode} {l : Loop} {body : List Op} :
      LoopMode.ofKind? op.kind = some mode → Loop.ofOp config mode op = .ok (l, body) → body ≠ [] →
      l.calls b = true → l.limit = none → (∀ o ∈ body, PassedOver config b o) → Spins op
  | inner {op : Op} {mode : LoopMode} {l : Loop} {before : List Op} {o : Op} {after : List Op} :
      LoopMode.ofKind? op.kind = some mode →
      Loop.ofOp config mode op = .ok (l, before ++ o :: after) → l.calls b = true →
      l.limit ≠ some 0 → (∀ o' ∈ before, PassedOver config b o') → Spins o → Spins op

/-- All ops of a list are passed over, or there is a first one that is not. -/
theorem passedOver_cases (ops : List Op) : (∀ o ∈ ops, PassedOver config b o) ∨
    ∃ before o after, ops = before ++ o :: after ∧ (∀ o' ∈ before, PassedOver config b o') ∧
      ¬PassedOver config b o := by
  induction ops with
  | nil => exact .inl (by simp)
  | cons op ops ih =>
    by_cases hop : PassedOver config b op
    · rcases ih with hall | ⟨before, o, after, rfl, hbefore, ho⟩
      · exact .inl (List.forall_mem_cons.2 ⟨hop, hall⟩)
      · exact .inr ⟨op :: before, o, after, rfl, List.forall_mem_cons.2 ⟨hop, hbefore⟩, ho⟩
    · exact .inr ⟨[], op, ops, rfl, by simp, hop⟩

end Op

namespace Runner

/-! ## Moves that hand out nothing -/

/-- Where a move leads that reads these bindings, is not told to stop, does not fail and hands out
nothing. -/
def onward? (config : Config) (b : Bindings) : List Frame → Option (List Frame)
  | [] => none
  | ⟨_, [], none⟩ :: outer => some outer
  | ⟨body, [], some l⟩ :: outer => (l.begun body b).toOption.map (· ++ outer)
  | ⟨body, op :: rest, loop⟩ :: outer =>
    match LoopMode.ofKind? op.kind with
    | none => none
    | some mode =>
      match Loop.ofOp config mode op with
      | .error _ => none
      | .ok (_, []) => some (⟨body, rest, loop⟩ :: outer)
      | .ok (l, o :: inner) =>
        (l.begun (o :: inner) b).toOption.map (· ++ ⟨body, rest, loop⟩ :: outer)

section

variable {config : Config} {b : Bindings} {body rest before inner : List Op} {loop : Option Loop}
  {outer fs : List Frame} {op : Op} {l : Loop} {mode : LoopMode}

theorem onward?_enter (hkind : LoopMode.ofKind? op.kind = some mode)
    (hop : Loop.ofOp config mode op = .ok (l, inner)) (hinner : inner ≠ []) :
    onward? config b (⟨body, op :: rest, loop⟩ :: outer) =
      (l.begun inner b).toOption.map (· ++ ⟨body, rest, loop⟩ :: outer) := by
  obtain ⟨o, inner, rfl⟩ := List.exists_cons_of_ne_nil hinner
  simp only [onward?, hkind, hop]

theorem onward?_passed (h : op.PassedOver config b) :
    onward? config b (⟨body, op :: rest, loop⟩ :: outer) = some (⟨body, rest, loop⟩ :: outer) := by
  obtain ⟨mode, l, inner, hkind, hop, hbody | hcalls⟩ := h
  · subst hbody
    simp only [onward?, hkind, hop]
  · cases inner with
    | nil => simp only [onward?, hkind, hop]
    | cons o inner =>
      rw [onward?_enter hkind hop (by simp), Loop.begun_of_calls_not hcalls]
      rfl

/-- What such a move can be. -/
inductive Onward (config : Config) (b : Bindings) : List Frame → List Frame → Prop
  | up (body : List Op) (outer : List Frame) : Onward config b (⟨body, [], none⟩ :: outer) outer
  | again {body : List Op} {l : Loop} (outer : List Frame) {begun : List Frame} :
      l.begun body b = .ok begun → Onward config b (⟨body, [], some l⟩ :: outer) (begun ++ outer)
  | pass {op : Op} {mode : LoopMode} {l : Loop} (body rest : List Op) (loop : Option Loop)
      (outer : List Frame) : LoopMode.ofKind? op.kind = some mode →
      Loop.ofOp config mode op = .ok (l, []) →
      Onward config b (⟨body, op :: rest, loop⟩ :: outer) (⟨body, rest, loop⟩ :: outer)
  | enter {op : Op} {mode : LoopMode} {l : Loop} {inner : List Op} (body rest : List Op)
      (loop : Option Loop) (outer : List Frame) {begun : List Frame} :
      LoopMode.ofKind? op.kind = some mode → Loop.ofOp config mode op = .ok (l, inner) →
      inner ≠ [] → l.begun inner b = .ok begun →
      Onward config b (⟨body, op :: rest, loop⟩ :: outer) (begun ++ ⟨body, rest, loop⟩ :: outer)

theorem Onward.of_eq {fs' : List Frame} (h : onward? config b fs = some fs') :
    Onward config b fs fs' := by
  match fs with
  | [] => cases h
  | ⟨body, [], none⟩ :: outer =>
    exact Option.some.inj h ▸ .up body outer
  | ⟨body, [], some l⟩ :: outer =>
    rw [onward?] at h
    cases hbegun : l.begun body b with
    | error e =>
      rw [hbegun] at h
      cases h
    | ok begun =>
      rw [hbegun] at h
      exact Option.some.inj h ▸ .again outer hbegun
  | ⟨body, op :: rest, loop⟩ :: outer =>
    rw [onward?] at h
    cases hkind : LoopMode.ofKind? op.kind with
    | none => simp only [hkind, reduceCtorEq] at h
    | some mode =>
      cases hop : Loop.ofOp config mode op with
      | error e => simp only [hkind, hop, reduceCtorEq] at h
      | ok p =>
        obtain ⟨l, inner⟩ := p
        cases inner with
        | nil =>
          simp only [hkind, hop, Option.some.injEq] at h
          exact h ▸ .pass body rest loop outer hkind hop
        | cons o inner =>
          simp only [hkind, hop] at h
          cases hbegun : l.begun (o :: inner) b with
          | error e =>
            rw [hbegun] at h
            cases h
          | ok begun =>
            rw [hbegun] at h
            exact Option.some.inj h ▸ .enter body rest loop outer hkind hop (by simp) hbegun

/-! ## Stacks that spin -/

/-- The runner will meet a loop that spins, before it hands out anything: among the ops that are
left of the innermost list, in the next pass of the innermost loop, or in what comes after. -/
inductive FramesSpin (config : Config) (b : Bindings) : List Frame → Prop
  | rest {body before after : List Op} {op : Op} {loop : Option Loop} {outer : List Frame} :
      (∀ o ∈ before, o.PassedOver config b) → op.Spins config b →
      FramesSpin config b (⟨body, before ++ op :: after, loop⟩ :: outer)
  | idle {body rest : List Op} {l : Loop} {outer : List Frame} :
      (∀ o ∈ rest, o.PassedOver config b) → l.calls b = true → l.limit = none →
      (∀ o ∈ body, o.PassedOver config b) → FramesSpin config b (⟨body, rest, some l⟩ :: outer)
  | again {before after rest : List Op} {op : Op} {l : Loop} {outer : List Frame} :
      (∀ o ∈ rest, o.PassedOver config b) → l.calls b = true →
      (∀ limit ∈ l.limit, l.passes < limit) → (∀ o ∈ before, o.PassedOver config b) →
      op.Spins config b → FramesSpin config b (⟨before ++ op :: after, rest, some l⟩ :: outer)
  | up {body rest : List Op} {loop : Option Loop} {outer : List Frame} :
      (∀ o ∈ rest, o.PassedOver config b) → (∀ l ∈ loop, l.calls b = false) →
      FramesSpin config b outer → FramesSpin config b (⟨body, rest, loop⟩ :: outer)

/-- A loop op that spins is entered, and what is left to be done spins. -/
theorem onward_of_spins (h : op.Spins config b) :
    ∃ fs, onward? config b (⟨body, op :: rest, loop⟩ :: outer) = some fs ∧
      FramesSpin config b fs := by
  cases h with
  | @idle _ mode l inner hkind hop hinner hcalls hlimit hpassed =>
    refine ⟨⟨inner, inner, some l.started⟩ :: ⟨body, rest, loop⟩ :: outer, ?_,
      .idle hpassed hcalls hlimit hpassed⟩
    rw [onward?_enter hkind hop hinner, Loop.begun_of_calls hcalls (by simp [hlimit])]
    rfl
  | @inner _ mode l before o after hkind hop hcalls hlimit hbefore ho =>
    refine ⟨⟨before ++ o :: after, before ++ o :: after, some l.started⟩ ::
      ⟨body, rest, loop⟩ :: outer, ?_, .rest hbefore ho⟩
    have hpasses : ∀ limit ∈ l.limit, l.passes < limit := by
      intro limit hmem
      rw [Loop.passes_of_ofOp hop]
      exact Nat.pos_of_ne_zero fun hzero => hlimit (hzero ▸ hmem)
    rw [onward?_enter hkind hop (by simp), Loop.begun_of_calls hcalls hpasses]
    rfl

/-- **A stack that spins goes on spinning**, without handing out anything. -/
theorem FramesSpin.onward (h : FramesSpin config b fs) :
    ∃ fs', onward? config b fs = some fs' ∧ FramesSpin config b fs' := by
  cases h with
  | @rest body before after op loop outer hbefore hop =>
    cases before with
    | nil => exact onward_of_spins hop
    | cons o before =>
      obtain ⟨ho, hbefore⟩ := List.forall_mem_cons.1 hbefore
      exact ⟨_, onward?_passed ho, .rest hbefore hop⟩
  | @idle body rest l outer hrest hcalls hlimit hbody =>
    cases rest with
    | nil =>
      refine ⟨⟨body, body, some l.started⟩ :: outer, ?_, .idle hbody hcalls hlimit hbody⟩
      rw [onward?, Loop.begun_of_calls hcalls (by simp [hlimit])]
      rfl
    | cons o rest =>
      obtain ⟨ho, hrest⟩ := List.forall_mem_cons.1 hrest
      exact ⟨_, onward?_passed ho, .idle hrest hcalls hlimit hbody⟩
  | @again before after rest op l outer hrest hcalls hlimit hbefore hop =>
    cases rest with
    | nil =>
      refine ⟨⟨before ++ op :: after, before ++ op :: after, some l.started⟩ :: outer, ?_,
        .rest hbefore hop⟩
      rw [onward?, Loop.begun_of_calls hcalls hlimit]
      rfl
    | cons o rest =>
      obtain ⟨ho, hrest⟩ := List.forall_mem_cons.1 hrest
      exact ⟨_, onward?_passed ho, .again hrest hcalls hlimit hbefore hop⟩
  | @up body rest loop outer hrest hloop houter =>
    cases rest with
    | nil =>
      refine ⟨outer, ?_, houter⟩
      cases loop with
      | none => rfl
      | some l =>
        rw [onward?, Loop.begun_of_calls_not (hloop l rfl)]
        rfl
    | cons o rest =>
      obtain ⟨ho, hrest⟩ := List.forall_mem_cons.1 hrest
      exact ⟨_, onward?_passed ho, .up hrest hloop houter⟩

/-! ## Stacks that do not spin -/

/-- There are finitely many moves until something is handed out, fails, or the run is over. -/
inductive Halts (config : Config) (b : Bindings) : List Frame → Prop
  | intro {fs : List Frame} : (∀ fs', onward? config b fs = some fs' → Halts config b fs') →
      Halts config b fs

theorem Halts.of_none (h : onward? config b fs = none) : Halts config b fs := by
  refine ⟨fun fs' hfs => ?_⟩
  rw [h] at hfs
  cases hfs

theorem Halts.of_onward {fs' : List Frame} (h : onward? config b fs = some fs')
    (hfs : Halts config b fs') : Halts config b fs := by
  refine ⟨fun fs'' hfs'' => ?_⟩
  rw [h] at hfs''
  cases hfs''
  exact hfs

theorem Halts.passed (hbefore : ∀ o ∈ before, o.PassedOver config b)
    (h : Halts config b (⟨body, rest, loop⟩ :: outer)) :
    Halts config b (⟨body, before ++ rest, loop⟩ :: outer) := by
  induction before with
  | nil => exact h
  | cons o before ih =>
    obtain ⟨ho, hbefore⟩ := List.forall_mem_cons.1 hbefore
    exact .of_onward (onward?_passed ho) (ih hbefore)

/-- Idle passes use up the limit. -/
theorem halts_idle {limit : Nat} (hlimit : l.limit = some limit)
    (hbody : ∀ o ∈ body, o.PassedOver config b) (hcalls : l.calls b = true) (left : Nat)
    (hleft : limit ≤ l.passes + left) : Halts config b (⟨body, [], some l⟩ :: outer) := by
  induction left generalizing l with
  | zero =>
    refine .of_none ?_
    have htest : l.test b = .error (l.limitFault limit) :=
      Loop.test_eq_error.2 ⟨hcalls, limit, hlimit, hleft, rfl⟩
    rw [onward?, Loop.begun, htest]
    rfl
  | succ left ih =>
    rcases Loop.begun_cases l body b with ⟨hnot, -⟩ | ⟨-, -, hbegun⟩ | ⟨e, hbegun⟩
    · rw [hcalls] at hnot
      cases hnot
    · have honward : onward? config b (⟨body, [], some l⟩ :: outer) =
          some (⟨body, body, some l.started⟩ :: outer) := by
        rw [onward?, hbegun]
        rfl
      have hpasses : limit ≤ l.started.passes + left := by
        change limit ≤ l.passes + 1 + left
        omega
      have hnext := ih (l := l.started) hlimit hcalls hpasses
      exact .of_onward honward (by simpa using hnext.passed hbody)
    · refine .of_none ?_
      rw [onward?, hbegun]
      rfl

/-- A pass that has just been begun: the first op that is not passed over decides; if there is none,
the limit does. -/
theorem halts_begun (hcalls : l.calls b = true)
    (hidle : (∀ o ∈ body, o.PassedOver config b) → l.limit ≠ none)
    (hfirst : ∀ before o after, body = before ++ o :: after →
      (∀ o' ∈ before, o'.PassedOver config b) → ¬o.PassedOver config b →
      ∀ outer, Halts config b (⟨body, o :: after, some l⟩ :: outer)) :
    Halts config b (⟨body, body, some l⟩ :: outer) := by
  rcases Op.passedOver_cases config b body with hall | ⟨before, o, after, hbody, hbefore, ho⟩
  · obtain ⟨limit, hlimit⟩ := Option.ne_none_iff_exists'.1 (hidle hall)
    have hend : Halts config b (⟨body, [], some l⟩ :: outer) :=
      halts_idle hlimit hall hcalls limit (Nat.le_add_left ..)
    simpa using hend.passed hall
  · have hrest := (hfirst before o after hbody hbefore ho outer).passed hbefore
    rwa [← hbody] at hrest

/-- **An op that neither is passed over nor spins** is handed out, fails, or leads to such an op. -/
theorem halts_op (op : Op) (hpassed : ¬op.PassedOver config b) (hspins : ¬op.Spins config b)
    (body rest : List Op) (loop : Option Loop) (outer : List Frame) :
    Halts config b (⟨body, op :: rest, loop⟩ :: outer) := by
  induction hdepth : op.depth using Nat.strong_induction_on
    generalizing op body rest loop outer with
  | _ k ih =>
    cases hkind : LoopMode.ofKind? op.kind with
    | none => exact .of_none (by simp only [onward?, hkind])
    | some mode =>
      cases hop : Loop.ofOp config mode op with
      | error e => exact .of_none (by simp only [onward?, hkind, hop])
      | ok p =>
        obtain ⟨l, inner⟩ := p
        have hinner : inner ≠ [] := fun h => hpassed ⟨mode, l, inner, hkind, hop, .inl h⟩
        have honward : onward? config b (⟨body, op :: rest, loop⟩ :: outer) = _ :=
          onward?_enter hkind hop hinner
        rcases Loop.begun_cases l inner b with ⟨hnot, -⟩ | ⟨hcalls, hlimit, hbegun⟩ | ⟨e, hbegun⟩
        · exact absurd ⟨mode, l, inner, hkind, hop, .inr hnot⟩ hpassed
        · rw [hbegun] at honward
          refine .of_onward honward (halts_begun hcalls (fun hall hnone => ?_) ?_)
          · exact hspins (.idle hkind hop hinner hcalls hnone hall)
          · intro before o after heq hbefore ho outer
            have hmem : o ∈ inner := by rw [heq]; simp
            have hlt := Op.depth_lt_of_mem_innerOps (Loop.innerOps_of_ofOp hop) hmem
            have hzero : l.limit ≠ some 0 := fun h => Nat.not_lt_zero _ (hlimit 0 h)
            have hstill : ¬o.Spins config b := fun hspin =>
              hspins (.inner hkind (heq ▸ hop) hcalls hzero hbefore hspin)
            exact ih o.depth (hdepth ▸ hlt) o ho hstill _ _ _ _ rfl
        · rw [hbegun] at honward
          exact .of_none honward

/-- **A stack that does not spin halts.** -/
theorem halts_of_not_spins (h : ¬FramesSpin config b fs) : Halts config b fs := by
  induction fs with
  | nil => exact .of_none rfl
  | cons f outer ih =>
    obtain ⟨body, rest, loop⟩ := f
    rcases Op.passedOver_cases config b rest with hall | ⟨before, o, after, rfl, hbefore, ho⟩
    · suffices hend : Halts config b (⟨body, [], loop⟩ :: outer) by simpa using hend.passed hall
      have houter (hloop : ∀ l ∈ loop, l.calls b = false) : Halts config b outer :=
        ih fun hspin => h (.up hall hloop hspin)
      cases loop with
      | none => exact .of_onward rfl (houter (by simp))
      | some l =>
        rcases Loop.begun_cases l body b with
          ⟨hnot, hbegun⟩ | ⟨hcalls, hlimit, hbegun⟩ | ⟨e, hbegun⟩
        · have honward : onward? config b (⟨body, [], some l⟩ :: outer) = some outer := by
            rw [onward?, hbegun]
            rfl
          refine .of_onward honward (houter fun l' hl => ?_)
          cases hl
          exact hnot
        · have honward : onward? config b (⟨body, [], some l⟩ :: outer) =
              some (⟨body, body, some l.started⟩ :: outer) := by
            rw [onward?, hbegun]
            rfl
          refine .of_onward honward (halts_begun hcalls (fun hbody hnone => ?_) ?_)
          · exact h (.idle hall hcalls hnone hbody)
          · rintro before o after rfl hbefore ho outer'
            exact halts_op o ho (fun hspin => h (.again hall hcalls hlimit hbefore hspin)) ..
        · exact .of_none (by rw [onward?, hbegun]; rfl)
    · exact (halts_op o ho (fun hspin => h (.rest hbefore hspin)) ..).passed hbefore

end

end Runner

end WorkflowEngine
