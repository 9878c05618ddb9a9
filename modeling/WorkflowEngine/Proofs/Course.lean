import WorkflowEngine.Proofs.Binding
import WorkflowEngine.Proofs.Moves
import WorkflowEngine.Proofs.Reading.Runner

/-!
# The course of a runner

A move that goes on changes the stack of frames (`Runner.Shift`), and leaves the marks of what it
has asked, read and executed. One such move after another is a course (`Runner.Course`). A run is a
course, and the beginning of one more move, however its steps are called for
(`Runner.begins_of_run`), and every course is run, if steps are called for often enough
(`Runner.Calling.course`).

**Stacks.** A move looks at the innermost frame alone, so what is below it stays as it is, and might
as well be something else (`Shift.append`, `Shift.of_append`). Of an op list that has more ops to
come it takes the first, and what it does to it does not depend on the others (`Shift.of_op`).

**Lists.** So an op that stands in a list is run as if it were alone (`Runner.RunsOp`), and a runner
goes through the ops of a list one after another, each to its end (`Runner.GoneThrough`). Within a
list (`Runner.Within`), either all ops so far have been run to their end, or one more has been
begun. A move keeps to that, unless it leaves a list that has been gone through (`Within.shift`).
-/

namespace WorkflowEngine

/-- The runner that goes on, if one does. -/
def Moved.next : Moved → Option Runner
  | .atEnd => none
  | .onward r => some r
  | .handed _ r => some r

namespace Runner

/-! ## Moves that go on -/

/-- A move that goes on: the stack before it, the marks that it leaves, and the stack after it. -/
inductive Shift (d : Dispatcher) (context : Handle) :
    List Frame → List Mark → List Frame → Prop
  | up (body : List Op) (outer : List Frame) :
      Shift d context (⟨body, [], none⟩ :: outer) [] outer
  | again {body : List Op} {l : Loop} {outer begun : List Frame} {b : Bindings} :
      l.begun body b = .ok begun →
      Shift d context (⟨body, [], some l⟩ :: outer) [.did (.view context) b] (begun ++ outer)
  | pass {op : Op} {mode : LoopMode} {l : Loop} {body rest : List Op} {loop : Option Loop}
      {outer : List Frame} : LoopMode.ofKind? op.kind = some mode →
      Loop.ofOp d.config mode op = .ok (l, []) →
      Shift d context (⟨body, op :: rest, loop⟩ :: outer) [.did .poll false]
        (⟨body, rest, loop⟩ :: outer)
  | enter {op : Op} {mode : LoopMode} {l : Loop} {inner body rest : List Op} {loop : Option Loop}
      {outer begun : List Frame} {b : Bindings} : LoopMode.ofKind? op.kind = some mode →
      Loop.ofOp d.config mode op = .ok (l, inner) → inner ≠ [] → l.begun inner b = .ok begun →
      Shift d context (⟨body, op :: rest, loop⟩ :: outer)
        [.did .poll false, .did (.view context) b] (begun ++ ⟨body, rest, loop⟩ :: outer)
  | plain {op : Op} {body rest : List Op} {loop : Option Loop} {outer : List Frame}
      {t : List Mark} {v : Value} : LoopMode.ofKind? op.kind = none →
      (d.exec op context).Goes t (.done (.ok v)) →
      Shift d context (⟨body, op :: rest, loop⟩ :: outer) (.did .poll false :: t)
        (⟨body, rest, loop⟩ :: outer)

/-- One move that goes on after another. -/
inductive Course (d : Dispatcher) (context : Handle) :
    List Frame → List Mark → List Frame → Prop
  | here (fs : List Frame) : Course d context fs [] fs
  | snoc {fs gs hs : List Frame} {t u : List Mark} : Course d context fs t gs →
      Shift d context gs u hs → Course d context fs (t ++ u) hs

variable {d : Dispatcher} {context : Handle} {fs gs base top outer : List Frame} {t u : List Mark}
  {ops body rest left done : List Op} {loop : Option Loop} {op : Op}

theorem Course.single (h : Shift d context fs t gs) : Course d context fs t gs :=
  .snoc (.here fs) h

theorem Course.trans {hs : List Frame} (h : Course d context fs t gs)
    (h' : Course d context gs u hs) : Course d context fs (t ++ u) hs := by
  induction h' with
  | here => rwa [List.append_nil]
  | snoc _ hshift ih =>
    rw [← List.append_assoc]
    exact .snoc ih hshift

/-! ## Traces of a move -/

theorem goes_of_check {α : Type} {k : Unit → Flow α} {a : α}
    (h : (Flow.check.bind k).Goes t (.done (.ok a))) :
    ∃ u, t = .did .poll false :: u ∧ (k ()).Goes u (.done (.ok a)) := by
  cases h with
  | act stop h =>
    cases stop with
    | false => exact ⟨_, rfl, h⟩
    | true =>
      cases h with
      | act _ h => cases h

theorem goes_of_view {α : Type} {h : Handle} {k : Bindings → Flow α} {a : α}
    (hgoes : ((Flow.view h).bind k).Goes t (.done (.ok a))) :
    ∃ b u, t = .did (.view h) b :: u ∧ (k b).Goes u (.done (.ok a)) := by
  cases hgoes with
  | act b hgoes => exact ⟨b, _, rfl, hgoes⟩

theorem goes_of_ofExcept {α β : Type} {r : Except Fault α} {k : α → Flow β} {b : β}
    (h : ((Flow.ofExcept r).bind k).Goes t (.done (.ok b))) :
    ∃ a, r = .ok a ∧ (k a).Goes t (.done (.ok b)) := by
  cases r with
  | ok a => exact ⟨a, rfl, h⟩
  | error e =>
    cases h with
    | act _ h => cases h

/-- A runner on its way: what has been left, and how far it has come. -/
structure Comes (d : Dispatcher) (r : Runner) (t : List Mark) (r' : Runner) : Prop where
  topLevel_eq : r'.topLevel = r.topLevel
  context_eq : r'.context = r.context
  phase_eq : r'.phase = r.phase
  course : Course d r.context r.frames t r'.frames

theorem Comes.refl (r : Runner) : Comes d r [] r := ⟨rfl, rfl, rfl, .here _⟩

theorem Comes.trans {r r' r'' : Runner} (h : Comes d r t r') (h' : Comes d r' u r'') :
    Comes d r (t ++ u) r'' where
  topLevel_eq := h'.topLevel_eq.trans h.topLevel_eq
  context_eq := h'.context_eq.trans h.context_eq
  phase_eq := h'.phase_eq.trans h.phase_eq
  course := h.course.trans (h.context_eq ▸ h'.course)

/-- **A move finds the run over, or it is one of the five** and leads on. -/
theorem move_cases {r : Runner} {m : Moved} (h : (move d r).Goes t (.done (.ok m))) :
    (m = .atEnd ∧ t = [] ∧ r.frames = []) ∨
      ∃ r', m.next = some r' ∧ Shift d r.context r.frames t r'.frames ∧ Comes d r t r' := by
  have hon {r' : Runner} {gs : List Frame} (hframes : r'.frames = gs)
      (htopLevel : r'.topLevel = r.topLevel) (hcontext : r'.context = r.context)
      (hphase : r'.phase = r.phase) (hshift : Shift d r.context r.frames t gs) :
      Shift d r.context r.frames t r'.frames ∧ Comes d r t r' := by
    subst hframes
    exact ⟨hshift, htopLevel, hcontext, hphase, .single hshift⟩
  match hframes : r.frames with
  | [] =>
    rw [move_atEnd d r hframes] at h
    obtain ⟨rfl, heq⟩ := h.of_done
    cases heq
    exact .inl ⟨rfl, rfl, rfl⟩
  | ⟨body, [], none⟩ :: outer =>
    rw [move_up d r hframes] at h
    obtain ⟨rfl, heq⟩ := h.of_done
    cases heq
    rw [hframes] at hon
    exact .inr ⟨_, rfl, hon rfl rfl rfl rfl (.up body outer)⟩
  | ⟨body, [], some l⟩ :: outer =>
    rw [move_again d r hframes] at h
    obtain ⟨b, u, rfl, htest⟩ := goes_of_view h
    obtain ⟨begun, hbegun, hdone⟩ := goes_of_ofExcept htest
    obtain ⟨rfl, heq⟩ := hdone.of_done
    cases heq
    rw [hframes] at hon
    exact .inr ⟨_, rfl, hon rfl rfl rfl rfl (.again hbegun)⟩
  | ⟨body, op :: rest, loop⟩ :: outer =>
    rw [hframes] at hon
    cases hkind : LoopMode.ofKind? op.kind with
    | none =>
      rw [move_plain d r hframes hkind] at h
      obtain ⟨u, rfl, hrest⟩ := goes_of_check h
      obtain ⟨before, after, v, rfl, hexec, hdone⟩ := Flow.Goes.of_bind hrest
      obtain ⟨rfl, heq⟩ := hdone.of_done
      cases heq
      rw [List.append_nil] at hon ⊢
      exact .inr ⟨_, rfl, hon rfl rfl rfl rfl (.plain hkind hexec)⟩
    | some mode =>
      cases hop : Loop.ofOp d.config mode op with
      | error e =>
        rw [move_misread d r hframes hkind hop] at h
        obtain ⟨u, rfl, hfail⟩ := goes_of_check h
        cases hfail with
        | act _ hfail => cases hfail
      | ok p =>
        obtain ⟨l, inner⟩ := p
        by_cases hinner : inner = []
        · subst hinner
          rw [move_bodiless d r hframes hkind hop] at h
          obtain ⟨u, rfl, hdone⟩ := goes_of_check h
          obtain ⟨rfl, heq⟩ := hdone.of_done
          cases heq
          exact .inr ⟨_, rfl, hon rfl rfl rfl rfl (.pass hkind hop)⟩
        · rw [move_enter d r hframes hkind hop hinner] at h
          obtain ⟨u, rfl, hrest⟩ := goes_of_check h
          obtain ⟨b, u, rfl, htest⟩ := goes_of_view hrest
          obtain ⟨begun, hbegun, hdone⟩ := goes_of_ofExcept htest
          obtain ⟨rfl, heq⟩ := hdone.of_done
          cases heq
          exact .inr ⟨_, rfl, hon rfl rfl rfl rfl (.enter hkind hop hinner hbegun)⟩

theorem goes_check {α : Type} {k : Unit → Flow α} {g : Flow α} (h : (k ()).Goes t g) :
    (Flow.check.bind k).Goes (.did .poll false :: t) g :=
  .act (a := .poll) false h

theorem goes_view {α : Type} {h : Handle} {k : Bindings → Flow α} {g : Flow α} (b : Bindings)
    (hgoes : (k b).Goes t g) : ((Flow.view h).bind k).Goes (.did (.view h) b :: t) g :=
  .act (a := .view h) b hgoes

/-! ## Stacks -/

/-- A move does not look at what is below. -/
theorem Shift.append (h : Shift d context fs t gs) (base : List Frame) :
    Shift d context (fs ++ base) t (gs ++ base) := by
  cases h with
  | up body => exact .up body (gs ++ base)
  | again hbegun =>
    rw [List.append_assoc]
    exact .again hbegun
  | pass hkind hop => exact .pass hkind hop
  | enter hkind hop hinner hbegun =>
    rw [List.append_assoc]
    exact .enter hkind hop hinner hbegun
  | plain hkind hexec => exact .plain hkind hexec

/-- What is below stays as it is. -/
theorem Shift.of_append (h : Shift d context (top ++ base) t gs) (htop : top ≠ []) :
    ∃ top', gs = top' ++ base ∧ Shift d context top t top' := by
  obtain ⟨f, top, rfl⟩ := List.exists_cons_of_ne_nil htop
  generalize hframes : f :: top ++ base = frames at h
  rw [List.cons_append] at hframes
  cases h with
  | up body outer =>
    cases hframes
    exact ⟨top, rfl, .up body top⟩
  | again hbegun =>
    cases hframes
    exact ⟨_, (List.append_assoc ..).symm, .again hbegun⟩
  | @pass _ _ _ body rest loop _ hkind hop =>
    cases hframes
    exact ⟨⟨body, rest, loop⟩ :: top, rfl, .pass hkind hop⟩
  | @enter _ _ _ _ body rest loop _ begun b hkind hop hinner hbegun =>
    cases hframes
    exact ⟨begun ++ ⟨body, rest, loop⟩ :: top, by simp, .enter hkind hop hinner hbegun⟩
  | @plain _ body rest loop _ _ _ hkind hexec =>
    cases hframes
    exact ⟨⟨body, rest, loop⟩ :: top, rfl, .plain hkind hexec⟩

/-- Where an op comes next, it does not matter in which list it stands. -/
theorem Shift.of_op (h : Shift d context (⟨body, op :: rest, loop⟩ :: outer) t gs) :
    ∃ top, gs = top ++ ⟨body, rest, loop⟩ :: outer ∧
      ∀ body rest loop outer, Shift d context (⟨body, op :: rest, loop⟩ :: outer) t
        (top ++ ⟨body, rest, loop⟩ :: outer) := by
  cases h with
  | pass hkind hop => exact ⟨[], rfl, fun _ _ _ _ => .pass hkind hop⟩
  | enter hkind hop hinner hbegun =>
    exact ⟨_, rfl, fun _ _ _ _ => .enter hkind hop hinner hbegun⟩
  | plain hkind hexec => exact ⟨[], rfl, fun _ _ _ _ => .plain hkind hexec⟩

/-! ## Lists -/

/-- The op, alone in a list, is run to its end. -/
def RunsOp (d : Dispatcher) (context : Handle) (op : Op) (t : List Mark) : Prop :=
  Course d context [⟨[op], [op], none⟩] t [⟨[op], [], none⟩]

/-- Ops that have been run one after another, each to its end. -/
inductive GoneThrough (d : Dispatcher) (context : Handle) : List Op → List Mark → Prop
  | nil : GoneThrough d context [] []
  | snoc {done : List Op} {op : Op} {t u : List Mark} : GoneThrough d context done t →
      RunsOp d context op u → GoneThrough d context (done ++ [op]) (t ++ u)

/-- The runner is within a list of ops: the marks that it has left there, the frames on top of that
of the list, and what is left of the list. Between two ops there are no frames on top; within an op
they are those that it would have put there if it were alone. -/
inductive Within (d : Dispatcher) (context : Handle) :
    List Op → List Mark → List Frame → List Op → Prop
  | between {done left : List Op} {t : List Mark} : GoneThrough d context done t →
      Within d context (done ++ left) t [] left
  | amid {done left : List Op} {op : Op} {t u : List Mark} {top : List Frame} :
      GoneThrough d context done t → top ≠ [] →
      Course d context [⟨[op], [op], none⟩] u (top ++ [⟨[op], [], none⟩]) →
      Within d context (done ++ op :: left) (t ++ u) top left

/-- A list of which nothing is left has been gone through. -/
theorem Within.gone (h : Within d context ops t [] []) : GoneThrough d context ops t := by
  generalize htop : ([] : List Frame) = top at h
  generalize hleft : ([] : List Op) = left at h
  cases h with
  | between hdone =>
    subst hleft
    rwa [List.append_nil]
  | amid _ hne _ => exact absurd htop.symm hne

/-- An op has been taken further: it is over, or there are frames on top. -/
theorem Within.of_course (hdone : GoneThrough d context done t)
    (h : Course d context [⟨[op], [op], none⟩] u (top ++ [⟨[op], [], none⟩])) :
    Within d context (done ++ op :: left) (t ++ u) top left := by
  by_cases htop : top = []
  · subst htop
    have hgone : GoneThrough d context (done ++ [op]) (t ++ u) := hdone.snoc h
    rw [List.append_cons]
    exact .between hgone
  · exact .amid hdone htop h

/-- **Within a list every move keeps within it**, up to the end of the list. -/
theorem Within.shift (h : Within d context ops t top left)
    (hshift : Shift d context (top ++ ⟨body, left, loop⟩ :: base) u gs)
    (hleft : top ≠ [] ∨ left ≠ []) :
    ∃ top' left', gs = top' ++ ⟨body, left', loop⟩ :: base ∧
      Within d context ops (t ++ u) top' left' := by
  cases h with
  | @between done _ _ hdone =>
    obtain ⟨op, left, rfl⟩ := List.exists_cons_of_ne_nil (hleft.resolve_left fun h => h rfl)
    obtain ⟨top, rfl, hop⟩ := hshift.of_op
    exact ⟨top, left, rfl, .of_course hdone (.single (hop [op] [] none []))⟩
  | @amid done _ op t v _ hdone htop hcourse =>
    obtain ⟨top', rfl, hinner⟩ := hshift.of_append htop
    rw [List.append_assoc]
    exact ⟨top', left, rfl, .of_course hdone (hcourse.snoc (hinner.append _))⟩

/-- **An op that is no loop is run by executing it**, after a question whether to stop. -/
theorem runsOp_plain_iff (hkind : LoopMode.ofKind? op.kind = none) :
    RunsOp d context op t ↔
      ∃ u v, t = .did .poll false :: u ∧ (d.exec op context).Goes u (.done (.ok v)) := by
  constructor
  · intro h
    have hcourse {t : List Mark} {fs : List Frame}
        (h : Course d context [⟨[op], [op], none⟩] t fs) :
        (t = [] ∧ fs = [⟨[op], [op], none⟩]) ∨
          (fs = [⟨[op], [], none⟩] ∨ fs = []) ∧ ∃ u v, t = .did .poll false :: u ∧
            (d.exec op context).Goes u (.done (.ok v)) := by
      induction h with
      | here => exact .inl ⟨rfl, rfl⟩
      | snoc _ hshift ih =>
        rcases ih with ⟨rfl, rfl⟩ | ⟨rfl | rfl, u, v, rfl, hexec⟩
        · cases hshift with
          | pass hloop _ => simp [hkind] at hloop
          | enter hloop _ _ _ => simp [hkind] at hloop
          | plain _ hexec => exact .inr ⟨.inl rfl, _, _, by simp, hexec⟩
        · cases hshift
          exact .inr ⟨.inr rfl, u, v, by simp, hexec⟩
        · cases hshift
    rcases hcourse h with ⟨-, heq⟩ | ⟨-, hexec⟩
    · cases heq
    · exact hexec
  · rintro ⟨u, v, rfl, hexec⟩
    exact .single (.plain hkind hexec)

/-! ## Runs -/

/-- **An advance is a course**, and then the beginning of one more move, unless it has handed out
an op or found the run over. -/
theorem advance_course (n : Nat) {r : Runner} {g : Flow (Option Step × Runner)}
    (h : (advance d n r).Goes t g) : ∃ t₀ u r', t = t₀ ++ u ∧ Comes d r t₀ r' ∧
      ((∃ g', (move d r').Goes u g') ∧ (∀ x, g ≠ .done (.ok x)) ∨
        u = [] ∧ (∃ step, g = .done (.ok (some step, r'))) ∨
        u = [] ∧ r'.frames = [] ∧ g = .done (.ok (none, r'))) := by
  induction n generalizing r t with
  | zero =>
    cases h
    exact ⟨[], [], r, rfl, .refl r, .inl ⟨⟨_, .here _⟩, fun _ => nofun⟩⟩
  | succ n ih =>
    rw [advance_succ] at h
    rcases h.bind_cases with ⟨g', hmove, rfl, hne⟩ | ⟨before, after, m, rfl, hmove, hrest⟩
    · exact ⟨[], t, r, rfl, .refl r, .inl ⟨⟨g', hmove⟩, (Flow.bind_unfinished hne).1⟩⟩
    · rcases move_cases hmove with ⟨rfl, rfl, hover⟩ | ⟨r', hnext, -, hcomes⟩
      · obtain ⟨rfl, rfl⟩ := hrest.of_done
        exact ⟨[], [], r, rfl, .refl r, .inr (.inr ⟨rfl, hover, rfl⟩)⟩
      · cases m with
        | atEnd => cases hnext
        | onward r₁ =>
          cases hnext
          obtain ⟨t₀, u, r', rfl, hmore, hend⟩ := ih hrest
          exact ⟨before ++ t₀, u, r', by simp, hcomes.trans hmore, hend⟩
        | handed step r₁ =>
          cases hnext
          obtain ⟨rfl, rfl⟩ := hrest.of_done
          exact ⟨before, [], r', rfl, hcomes, .inr (.inl ⟨rfl, step, rfl⟩)⟩

theorem goes_of_announce {r : Runner} {stage : Stage} {g : Flow Unit}
    (h : (r.announce stage).Goes t g) : ∀ m ∈ t, ∃ event x, m = .did (.announce event) x := by
  rw [announce] at h
  cases htop : r.topLevel with
  | false =>
    rw [htop] at h
    obtain ⟨rfl, -⟩ := h.of_done
    simp
  | true =>
    rw [htop] at h
    cases h with
    | here => simp
    | act x h =>
      obtain ⟨rfl, -⟩ := h.of_done
      simp

/-- At the end of a run nothing is done but to announce it, and nothing is yielded. -/
theorem deliver_none {r r' : Runner} {g : Flow (Option (Except Fault Step) × Runner)}
    (h : (r.deliver (.ok (none, r'))).Goes t g) :
    (∀ m ∈ t, ∃ event x, m = .did (.announce event) x) ∧
      ∀ item r'', g ≠ .done (.ok (some item, r'')) := by
  rw [deliver] at h
  rcases h.bind_cases with ⟨f, hannounce, rfl, hne⟩ | ⟨before, after, _, rfl, hannounce, hdone⟩
  · exact ⟨goes_of_announce hannounce, fun item r'' => (Flow.bind_unfinished hne).1 _⟩
  · obtain ⟨rfl, rfl⟩ := hdone.of_done
    rw [List.append_nil]
    exact ⟨goes_of_announce hannounce, fun _ _ => nofun⟩

theorem goes_attempt {α : Type} {f g : Flow α} (h : f.Goes t g) : f.attempt.Goes t g.attempt := by
  induction h with
  | here f => exact .here _
  | pause _ ih => exact .pause ih
  | act x _ ih => exact .act x ih

/-- An advance makes its first move, and goes on. -/
theorem advance_onward (n : Nat) {r r' : Runner} (h : (move d r).Goes t (.done (.ok (.onward r')))) :
    (advance d (n + 1) r).Goes t (advance d n r') := by
  rw [advance_succ, ← List.append_nil t]
  exact h.bind (.here _)

theorem advance_error (n : Nat) {r : Runner} {e : Fault}
    (h : (move d r).Goes t (.done (.error e))) :
    (advance d (n + 1) r).Goes t (.done (.error e)) := by
  rw [advance_succ]
  exact h.bind_left

/-- An advance that fails has asked whether to stop, or looked at the context, first. -/
theorem advance_error_first {n : Nat} {r : Runner} {e : Fault}
    (h : (advance d n r).Goes t (.done (.error e))) :
    ∃ a x u, t = .did a x :: u ∧ ∀ e', a ≠ .raise e' := by
  induction n generalizing r t with
  | zero => cases h
  | succ n ih =>
    rw [advance_succ] at h
    cases hframes : r.frames with
    | nil =>
      rw [move_atEnd d r hframes] at h
      cases h
    | cons f outer =>
      obtain ⟨body, rest, loop⟩ := f
      cases rest with
      | nil =>
        cases loop with
        | none =>
          rw [move_up d r hframes] at h
          exact ih h
        | some l =>
          rw [move_again d r hframes] at h
          cases h with
          | act b h => exact ⟨_, b, _, rfl, by simp⟩
      | cons op rest =>
        have hcheck : ∃ k, move d r = Flow.check.bind k := by
          rw [move, hframes]
          exact ⟨_, rfl⟩
        obtain ⟨k, hmove⟩ := hcheck
        rw [hmove] at h
        cases h with
        | act stop h => exact ⟨_, stop, _, rfl, by simp⟩

theorem next_error_iff {n : Nat} {r r' : Runner} (hphase : r.phase = .running) {e : Fault} :
    (next d n r).Goes t (.done (.ok (some (.error e), r'))) ↔
      (advance d n r).Goes t (.done (.error e)) ∧ r' = { r with phase := .finished } := by
  rw [next_of_running hphase]
  constructor
  · intro h
    obtain ⟨before, after, y, rfl, hadvance, hdeliver⟩ := h.of_bind
    have hadvance := hadvance.of_attempt
    match y with
    | .error e' =>
      obtain ⟨rfl, heq⟩ := hdeliver.of_done
      cases heq
      rw [List.append_nil]
      exact ⟨hadvance, rfl⟩
    | .ok (some step, r₁) =>
      obtain ⟨-, heq⟩ := hdeliver.of_done
      cases heq
    | .ok (none, r₁) => exact absurd rfl ((deliver_none hdeliver).2 _ _)
  · rintro ⟨h, rfl⟩
    rw [← List.append_nil t]
    exact (goes_attempt h).bind (.here _)

/-- A moment of a run: after a course, the beginning of a move, or the end of the run. -/
def OnCourse (d : Dispatcher) (r : Runner) (t : List Mark) : Prop :=
  ∃ t₀ u r', t = t₀ ++ u ∧ Comes d r t₀ r' ∧ ((∃ g, (move d r').Goes u g) ∨
    r'.frames = [] ∧ ∀ m ∈ u, ∃ event x, m = .did (.announce event) x)

theorem Comes.onCourse {r r' : Runner} (h : Comes d r t r') (h' : OnCourse d r' u) :
    OnCourse d r (t ++ u) := by
  obtain ⟨t₀, v, r'', rfl, hcomes, hend⟩ := h'
  exact ⟨t ++ t₀, v, r'', by simp, h.trans hcomes, hend⟩

theorem Comes.moment {r r' : Runner} (h : Comes d r t r') : OnCourse d r t :=
  ⟨t, [], r', by simp, h, .inl ⟨_, .here _⟩⟩

theorem goes_of_attempt {α : Type} {f : Flow α} {g : Flow (Except Fault α)}
    (h : f.attempt.Goes t g) : ∃ f', f.Goes t f' ∧ g = f'.attempt := by
  induction f generalizing t with
  | done r =>
    obtain ⟨rfl, rfl⟩ := h.of_done
    exact ⟨_, .here _, rfl⟩
  | starved =>
    cases h
    exact ⟨_, .here _, rfl⟩
  | pause rest ih =>
    cases h with
    | here => exact ⟨_, .here _, rfl⟩
    | pause h =>
      obtain ⟨f', hf, rfl⟩ := ih () h
      exact ⟨f', .pause hf, rfl⟩
  | act a next ih =>
    cases h with
    | here => exact ⟨_, .here _, rfl⟩
    | act x h =>
      obtain ⟨f', hf, rfl⟩ := ih x h
      exact ⟨f', .act x hf, rfl⟩

/-- **A call is on course**, and if it yields something, it has come to another runner or the run is
over. -/
theorem next_course (n : Nat) {r : Runner} (hphase : r.phase = .running)
    {g : Flow (Option (Except Fault Step) × Runner)} (h : (next d n r).Goes t g) :
    OnCourse d r t ∧ ∀ item r', g = .done (.ok (some item, r')) →
      Comes d r t r' ∨ r'.phase = .finished := by
  rw [next_of_running hphase] at h
  rcases h.bind_cases with ⟨f, hattempt, rfl, hne⟩ | ⟨before, after, x, rfl, hattempt, hdeliver⟩
  · obtain ⟨f, hadvance, rfl⟩ := goes_of_attempt hattempt
    obtain ⟨t₀, u, r', rfl, hcomes, ⟨hmove, -⟩ | ⟨-, step, rfl⟩ | ⟨-, -, rfl⟩⟩ :=
      advance_course n hadvance
    · exact ⟨⟨t₀, u, r', rfl, hcomes, .inl hmove⟩,
        fun item r' hg => absurd hg ((Flow.bind_unfinished hne).1 _)⟩
    · exact absurd rfl (hne _)
    · exact absurd rfl (hne _)
  · obtain ⟨t₀, u, r', rfl, hcomes, hend⟩ := advance_course n hattempt.of_attempt
    rcases hend with ⟨hmove, hfails⟩ | ⟨rfl, step, hx⟩ | ⟨rfl, hframes, hx⟩
    · cases x with
      | ok x => exact absurd rfl (hfails x)
      | error e =>
        obtain ⟨rfl, rfl⟩ := hdeliver.of_done
        refine ⟨⟨t₀, u, r', by simp, hcomes, .inl hmove⟩, fun item r' hg => .inr ?_⟩
        cases hg
        rfl
    · cases hx
      obtain ⟨rfl, rfl⟩ := hdeliver.of_done
      rw [List.append_nil, List.append_nil]
      refine ⟨hcomes.moment, fun item r' hg => .inl ?_⟩
      cases hg
      exact hcomes
    · cases hx
      obtain ⟨hannounce, hnone⟩ := deliver_none hdeliver
      exact ⟨⟨t₀, after, r', by simp, hcomes, .inr ⟨hframes, hannounce⟩⟩,
        fun item r' hg => absurd hg (hnone item r')⟩

/-- The flow is on course from a running runner, and leaves no marks if the run is over. -/
structure Follows {α : Type} (d : Dispatcher) (r : Runner) (f : Flow α) : Prop where
  running : r.phase = .running → ∀ t g, f.Goes t g → OnCourse d r t
  finished : r.phase = .finished → ∀ t g, f.Goes t g → t = []

theorem Follows.of_silent {α : Type} {r : Runner} {f : Flow α}
    (h : ∀ t g, f.Goes t g → t = []) : Follows d r f where
  running := by
    intro _ t g hgoes
    rw [h t g hgoes]
    exact (Comes.refl r).moment
  finished := fun _ => h

theorem Follows.of_done {α : Type} (r : Runner) (x : Except Fault α) : Follows d r (.done x) :=
  .of_silent fun _ _ h => h.of_done.1

theorem Follows.starved {α : Type} (r : Runner) : Follows d r (.starved : Flow α) := by
  refine .of_silent fun _ _ h => ?_
  cases h
  rfl

theorem Follows.map {α β : Type} {r : Runner} {f : Flow α} (h : Follows d r f) (k : α → β) :
    Follows d r (f.map k) := by
  have hfirst {t : List Mark} {g : Flow β} (hgoes : (f.map k).Goes t g) : ∃ f', f.Goes t f' := by
    rcases hgoes.bind_cases with ⟨f', hf, -, -⟩ | ⟨before, after, a, rfl, hf, hdone⟩
    · exact ⟨f', hf⟩
    · obtain ⟨rfl, -⟩ := hdone.of_done
      rw [List.append_nil]
      exact ⟨_, hf⟩
  refine ⟨fun hphase t g hgoes => ?_, fun hphase t g hgoes => ?_⟩
  · obtain ⟨f', hf⟩ := hfirst hgoes
    exact h.running hphase t f' hf
  · obtain ⟨f', hf⟩ := hfirst hgoes
    exact h.finished hphase t f' hf

theorem Follows.next {α : Type} (n : Nat) {r : Runner}
    {k : Option (Except Fault Step) × Runner → Flow α}
    (hnone : ∀ r', ∃ x, k (none, r') = .done x)
    (hmore : ∀ item r', Follows d r' (k (some item, r'))) : Follows d r ((next d n r).bind k) where
  running := by
    intro hphase t g h
    rcases h.bind_cases with ⟨f, hnext, -, -⟩ | ⟨before, after, ⟨item, r'⟩, rfl, hnext, hrest⟩
    · exact (next_course n hphase hnext).1
    · obtain ⟨hcourse, hitem⟩ := next_course n hphase hnext
      cases item with
      | none =>
        obtain ⟨x, hx⟩ := hnone r'
        rw [hx] at hrest
        obtain ⟨rfl, -⟩ := hrest.of_done
        rwa [List.append_nil]
      | some item =>
        rcases hitem item r' rfl with hcomes | hfinished
        · have hphase' := hcomes.phase_eq.trans hphase
          exact hcomes.onCourse ((hmore item r').running hphase' after g hrest)
        · rw [(hmore item r').finished hfinished after g hrest, List.append_nil]
          exact hcourse
  finished := by
    intro hphase t g h
    rw [next_of_finished hphase] at h
    obtain ⟨x, hx⟩ := hnone r
    change (k (none, r)).Goes t g at h
    rw [hx] at h
    exact h.of_done.1

/-- **However the steps are called for**, one by one, all together or as a stream. -/
theorem calls_follows (n k : Nat) (r : Runner) : Follows d r (calls d n k r) := by
  induction k generalizing r with
  | zero => exact .of_done r _
  | succ k ih =>
    refine .next n (fun r' => ⟨_, rfl⟩) fun item r' => ?_
    exact (ih r').map fun p => (item :: p.1, p.2)

theorem stepsFrom_follows (taken : List Step) (n : Nat) (r : Runner) :
    Follows d r (stepsFrom d taken n r) := by
  induction n generalizing taken r with
  | zero => exact .starved r
  | succ n ih =>
    refine .next n (fun r' => ⟨_, rfl⟩) fun item r' => ?_
    cases item with
    | ok step => exact ih (step :: taken) r'
    | error e => exact .of_done r' _

theorem streamFrom_follows (yielded : List (Except Fault Step)) (n : Nat) (r : Runner) :
    Follows d r (streamFrom d yielded n r) := by
  induction n generalizing yielded r with
  | zero => exact .starved r
  | succ n ih =>
    refine .next n (fun r' => ⟨_, rfl⟩) fun item r' => ?_
    exact ih (item :: yielded) r'

/-- The start of a run is announced, if at all, and then the run is on course. -/
def Begins (d : Dispatcher) (r : Runner) (t : List Mark) : Prop :=
  ∃ s u, t = s ++ u ∧ (∀ m ∈ s, ∃ event x, m = .did (.announce event) x) ∧
    OnCourse d { r with phase := .running } u

theorem begins_nil (r : Runner) : Begins d r [] := ⟨[], [], rfl, by simp, (Comes.refl _).moment⟩

theorem begins_of_next {α : Type} {n : Nat} {r : Runner}
    {k : Option (Except Fault Step) × Runner → Flow α} {g : Flow α} (hphase : r.phase = .pending)
    (hfollows : Follows d { r with phase := .running }
      ((next d n { r with phase := .running }).bind k))
    (h : ((next d n r).bind k).Goes t g) : Begins d r t := by
  rw [next_of_pending hphase, Flow.bind_assoc] at h
  rcases h.bind_cases with ⟨f, hannounce, -, -⟩ | ⟨s, u, _, rfl, hannounce, hrest⟩
  · exact ⟨t, [], by simp, goes_of_announce hannounce, (Comes.refl _).moment⟩
  · exact ⟨s, u, rfl, goes_of_announce hannounce, hfollows.running rfl u g hrest⟩

/-- **Every run is on course** from its start on, at every moment and however its steps are called
for. -/
theorem begins_of_run (n : Nat) {r : Runner} (hphase : r.phase = .pending) :
    (∀ k g, (calls d n k r).Goes t g → Begins d r t) ∧
    (∀ g, (stepsFrom d [] n r).Goes t g → Begins d r t) ∧
    ∀ g, (streamFrom d [] n r).Goes t g → Begins d r t := by
  refine ⟨fun k g h => ?_, fun g h => ?_, fun g h => ?_⟩
  · cases k with
    | zero =>
      obtain ⟨rfl, -⟩ := h.of_done
      exact begins_nil r
    | succ k => exact begins_of_next hphase (calls_follows n (k + 1) _) h
  · cases n with
    | zero =>
      cases h
      exact begins_nil r
    | succ n => exact begins_of_next hphase (stepsFrom_follows [] (n + 1) _) h
  · cases n with
    | zero =>
      cases h
      exact begins_nil r
    | succ n => exact begins_of_next hphase (streamFrom_follows [] (n + 1) _) h

/-! ## Courses are run -/

theorem Shift.moves {r : Runner} (h : Shift d context fs t gs) (hframes : r.frames = fs)
    (hcontext : r.context = context) : ∃ m r', (move d r).Goes t (.done (.ok m)) ∧
      m.next = some r' ∧ r'.frames = gs ∧ r'.context = context ∧ r'.phase = r.phase := by
  subst hcontext
  cases h with
  | up body =>
    rw [move_up d r hframes]
    exact ⟨_, _, .here _, rfl, rfl, rfl, rfl⟩
  | @again _ _ outer begun _ hbegun =>
    refine ⟨.onward { r with frames := begun ++ outer }, _, ?_, rfl, rfl, rfl, rfl⟩
    rw [move_again d r hframes]
    refine goes_view _ ?_
    rw [hbegun]
    exact .here _
  | pass hkind hop =>
    rw [move_bodiless d r hframes hkind hop]
    exact ⟨_, _, goes_check (.here _), rfl, rfl, rfl, rfl⟩
  | @enter _ _ _ _ body rest loop outer begun _ hkind hop hinner hbegun =>
    refine ⟨.onward { r with frames := begun ++ ⟨body, rest, loop⟩ :: outer }, _, ?_,
      rfl, rfl, rfl, rfl⟩
    rw [move_enter d r hframes hkind hop hinner]
    refine goes_check (goes_view _ ?_)
    rw [hbegun]
    exact .here _
  | @plain op body rest loop outer t v hkind hexec =>
    refine ⟨.handed ⟨r.dispatched, op, v, r.context⟩ { r with
      frames := ⟨body, rest, loop⟩ :: outer, dispatched := r.dispatched + 1 }, _, ?_,
      rfl, rfl, rfl, rfl⟩
    rw [move_plain d r hframes hkind, ← List.append_nil t]
    exact goes_check (hexec.bind (.here _))

/-- What is left of a number of calls: an advance from this runner, what the call that it belongs to
makes of it, and the further calls. -/
def resume (d : Dispatcher) (n k : Nat) (called r : Runner) (m : Nat) :
    Flow (List (Except Fault Step) × Runner) :=
  ((advance d m r).attempt.bind called.deliver).bind fun
    | (none, r) => .done (.ok ([], r))
    | (some item, r) => (calls d n k r).map fun p => (item :: p.1, p.2)

theorem calls_succ (n k : Nat) {r : Runner} (h : r.phase = .running) :
    calls d n (k + 1) r = resume d n k r r n := by
  rw [calls, next_of_running h]
  refine congrArg (Flow.bind _) (funext fun p => ?_)
  rcases p with ⟨_ | item, r⟩ <;> rfl

/-- From such a stack on, enough calls with enough steps leave these marks first, and what is left
of them is as described. -/
def Calling (d : Dispatcher) (context : Handle) (P : Flow (List (Except Fault Step) × Runner) → Prop)
    (fs : List Frame) (t : List Mark) : Prop :=
  ∀ r : Runner, r.frames = fs → r.context = context → r.phase = .running →
    ∃ N k, ∀ n m, N ≤ n → N ≤ m → ∀ called, ∃ g, P g ∧ (resume d n k called r m).Goes t g

variable {P : Flow (List (Except Fault Step) × Runner) → Prop}

/-- The run of a list, called for often enough and with enough steps, leaves these marks once its
start has been announced, and what is left of the calls is as described. -/
def CallsCome (d : Dispatcher) (topLevel : Bool) (list : List Op) (context : Handle)
    (P : Flow (List (Except Fault Step) × Runner) → Prop) (t : List Mark) : Prop :=
  ∃ (s : List Mark) (N k : Nat), (∀ m ∈ s, ∃ event x, m = .did (.announce event) x) ∧
    ∀ n, N ≤ n → ∃ g, P g ∧ (calls d n k (start topLevel list context)).Goes (s ++ t) g

theorem Calling.come {list : List Op} (topLevel : Bool)
    (h : Calling d context P [⟨list, list, none⟩] t) : CallsCome d topLevel list context P t := by
  let r : Runner := { Runner.start topLevel list context with phase := .running }
  obtain ⟨N, k, hgo⟩ := h r rfl rfl rfl
  have hcalls (n : Nat) (hn : N ≤ n) : ∃ g, P g ∧ (calls d n (k + 1) r).Goes t g := by
    rw [calls_succ n k rfl]
    exact hgo n n hn hn r
  have hfirst (n : Nat) : calls d n (k + 1) (Runner.start topLevel list context) =
      ((Runner.start topLevel list context).announce .workflowStart).bind
        fun _ => calls d n (k + 1) r := by
    rw [calls, next_of_pending rfl]
    exact Flow.bind_assoc _ _ _
  cases topLevel with
  | false =>
    refine ⟨[], N, k + 1, by simp, fun n hn => ?_⟩
    rw [hfirst]
    exact hcalls n hn
  | true =>
    refine ⟨[.did (.announce ⟨.workflowStart, .noop, context⟩) ()], N, k + 1, by simp, fun n hn => ?_⟩
    obtain ⟨g, hg, hgoes⟩ := hcalls n hn
    rw [hfirst]
    exact ⟨g, hg, .act (a := .announce ⟨.workflowStart, .noop, context⟩) () hgoes⟩

variable (hP : ∀ step g, P g → P (g.map fun p => (.ok step :: p.1, p.2)))

include hP

theorem Calling.shift (h : Calling d context P gs u) (hshift : Shift d context fs t gs) :
    Calling d context P fs (t ++ u) := by
  intro r hframes hcontext hphase
  obtain ⟨moved, r', hmove, hnext, hframes', hcontext', hphase'⟩ := hshift.moves hframes hcontext
  obtain ⟨N, k, hgo⟩ := h r' hframes' hcontext' (hphase'.trans hphase)
  have hadvance (m : Nat) : (advance d (m + 1) r).Goes t (goOn d m r moved) := by
    rw [advance_succ, ← List.append_nil t]
    exact hmove.bind (.here _)
  cases moved with
  | atEnd => cases hnext
  | onward r₁ =>
    -- The call goes on with the next move.
    cases hnext
    refine ⟨N + 1, k, fun n m hn hm called => ?_⟩
    obtain ⟨m, rfl⟩ := Nat.exists_eq_add_of_le' (Nat.le_of_add_left_le hm)
    obtain ⟨g, hg, hgoes⟩ := hgo n m (by omega) (by omega) called
    exact ⟨g, hg, (goes_attempt (hadvance m)).bind_left.bind_left.trans hgoes⟩
  | handed step r₁ =>
    -- The call is over, and the next one begins.
    cases hnext
    refine ⟨N + 1, k + 1, fun n m hn hm called => ?_⟩
    obtain ⟨m, rfl⟩ := Nat.exists_eq_add_of_le' (Nat.le_of_add_left_le hm)
    obtain ⟨g, hg, hgoes⟩ := hgo n n (by omega) (by omega) r'
    rw [← calls_succ n k (hphase'.trans hphase)] at hgoes
    exact ⟨_, hP step g hg, (goes_attempt (hadvance m)).bind_left.bind_left.trans hgoes.bind_left⟩

/-- **A course is run**, if what comes after it is. -/
theorem Calling.course (h : Course d context fs t gs) (hcalling : Calling d context P gs u) :
    Calling d context P fs (t ++ u) := by
  induction h generalizing u with
  | here => exact hcalling
  | snoc _ hshift ih =>
    rw [List.append_assoc]
    exact ih (hcalling.shift hP hshift)

end Runner

end WorkflowEngine
