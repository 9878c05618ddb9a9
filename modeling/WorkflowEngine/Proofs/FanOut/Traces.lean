import WorkflowEngine.Proofs.Judgement.FanOut
import WorkflowEngine.Proofs.Serial

/-!
# What is left in the traces of a fan-out

Tasks of a fan-out take turns, so its trace is put together from pieces of their traces. A property
of traces is handed on from the tasks to the whole (`FanOut.run_leaves`) if it is a *trait*: it
holds of what is not announced, of one trace after another, and of a trace that goes on with a piece
of another trace which has been begun in it and is resumed after a pause.

Between two turns each task either has not been begun, or it is suspended: what it has done so far
is somewhere in the trace of the whole (`FanOut.Suspended`). After the pause between two rounds it
is ready to be resumed (`FanOut.Ready`). Both remain so whatever others do in the meantime, so each
task can be looked at by itself.
-/

namespace WorkflowEngine

/-- Not an announcement. -/
def Mark.IsSilent : Mark → Prop
  | .did (.announce _) _ => False
  | _ => True

theorem Mark.IsQuiet.isSilent {m : Mark} (h : m.IsQuiet) : m.IsSilent := by
  cases m with
  | paused => trivial
  | did a _ =>
    cases a with
    | announce _ => exact h
    | _ => trivial

/-- A property of traces that is handed on from parts to the whole, also where parts take turns. -/
structure Trait (P : List Mark → Prop) : Prop where
  nil : P []
  silent : ∀ m : Mark, m.IsSilent → P [m]
  append : ∀ t w, P t → P w → P (t ++ w)
  /-- What has been done up to a pause, `u`, is somewhere in `t`, and then it goes on with `w`. -/
  resume : ∀ t u w, P t → (u ++ [.paused]).Sublist t → P (u ++ .paused :: w) → P (t ++ w)

variable {P : List Mark → Prop}

theorem Trait.snoc (hP : Trait P) {t : List Mark} {m : Mark} (ht : P t) (hm : m.IsSilent) :
    P (t ++ [m]) := hP.append t [m] ht (hP.silent m hm)

theorem Trait.of_silent (hP : Trait P) {t : List Mark} (h : ∀ m ∈ t, m.IsSilent) : P t := by
  induction t with
  | nil => exact hP.nil
  | cons m t ih =>
    have hm := h m (List.mem_cons_self ..)
    exact hP.append [m] t (hP.silent m hm) (ih fun m hm => h m (List.mem_cons_of_mem _ hm))

namespace Flow

variable {α β : Type} {R : List Mark → α → Prop} {S : List Mark → β → Prop} {f : Flow α}
  {t : List Mark}

/-- At every moment the trace has the property. -/
def Leaves (P : List Mark → Prop) (f : Flow α) : Prop := ∀ t g, f.Goes t g → P t

/-- When the flow goes on after the trace `t`, the whole trace has the property at every moment, and
in the end `R` holds of it and the result. -/
def Extends (P : List Mark → Prop) (R : List Mark → α → Prop) (f : Flow α) (t : List Mark) : Prop :=
  ∀ u g, f.Goes u g → P (t ++ u) ∧ ∀ a, g = .done (.ok a) → R (t ++ u) a

theorem extends_ok {a : α} (ht : P t) (ha : R t a) : (Flow.done (.ok a)).Extends P R t := by
  intro u g h
  obtain ⟨rfl, rfl⟩ := h.of_done
  rw [List.append_nil]
  refine ⟨ht, fun b hb => ?_⟩
  cases hb
  exact ha

theorem extends_starved (ht : P t) : (Flow.starved : Flow α).Extends P R t := by
  intro u g h
  cases h
  rw [List.append_nil]
  exact ⟨ht, fun b hb => nomatch hb⟩

theorem extends_pause {rest : Unit → Flow α} (ht : P t)
    (h : (rest ()).Extends P R (t ++ [.paused])) : (Flow.pause rest).Extends P R t := by
  intro u g hgoes
  cases hgoes with
  | here =>
    rw [List.append_nil]
    exact ⟨ht, fun b hb => nomatch hb⟩
  | @pause _ u _ hgoes =>
    have hsplit : t ++ .paused :: u = (t ++ [.paused]) ++ u := by simp
    rw [hsplit]
    exact h u g hgoes

theorem Extends.bind {k : α → Flow β} (h : f.Extends P R t)
    (hk : ∀ u a, P (t ++ u) → R (t ++ u) a → (k a).Extends P S (t ++ u)) :
    (f.bind k).Extends P S t := by
  intro w g hgoes
  rcases hgoes.bind_cases with ⟨f', hf, rfl, hne⟩ | ⟨before, after, a, rfl, hf, hgoes⟩
  · exact ⟨(h w f' hf).1, fun b hb => absurd hb ((bind_unfinished hne).1 b)⟩
  · obtain ⟨hbefore, hR⟩ := h before _ hf
    rw [← List.append_assoc]
    exact hk before a hbefore (hR a rfl) after g hgoes

theorem leaves_iff : f.Leaves P ↔ f.Extends P (fun _ _ => True) [] := by
  constructor
  · intro h u g hgoes
    exact ⟨h u g hgoes, fun _ _ => trivial⟩
  · intro h u g hgoes
    exact (h u g hgoes).1

theorem Leaves.after (hP : Trait P) (h : f.Leaves P) (ht : P t) :
    f.Extends P (fun _ _ => True) t := by
  intro u g hgoes
  exact ⟨hP.append t u ht (h u g hgoes), fun _ _ => trivial⟩

theorem Only.extends (hP : Trait P) {R : α → Prop} (h : f.Only Mark.IsQuiet R) (ht : P t) :
    f.Extends P (fun _ a => R a) t := by
  intro u g hgoes
  induction hgoes generalizing t with
  | here f =>
    rw [List.append_nil]
    refine ⟨ht, fun a ha => ?_⟩
    subst ha
    exact h
  | pause _ _ => exact h.1.elim
  | @act a next u g x _ ih =>
    obtain ⟨hquiet, hnext⟩ := h x
    have hsplit : t ++ .did a x :: u = (t ++ [.did a x]) ++ u := by simp
    rw [hsplit]
    exact ih hnext (hP.snoc ht hquiet.isSilent)

/-- Flows go on with a trace that has the property, as a judgement on the trace. -/
abbrev extending (P : List Mark → Prop) : Judgement where
  State := List Mark
  judges R f t := P t → f.Extends P R t
  ok h ht := extends_ok ht h
  bind h hk ht := (h ht).bind fun _ a hu ha => hk _ a ha hu

theorem Extends.growing (h : f.Extends P R t) :
    f.Extends P (fun t' a => t <+: t' ∧ R t' a) t := fun u g hgoes =>
  ⟨(h u g hgoes).1, fun a ha => ⟨List.prefix_append t u, (h u g hgoes).2 a ha⟩⟩

theorem extending_raises (hP : Trait P) (e : Fault) :
    (extending P).Raises (fun _ => True) e := fun _ _ _ =>
  Judgement.mono (J := extending P) ((fail_only (fun _ => id) (fun _ => False) e).extends hP)
    fun _ _ h => h.elim

theorem extending_walks (hP : Trait P) :
    (extending P).Walks (fun _ => True) fun _ => True where
  starved _ ht := extends_starved ht
  check _ := Judgement.mono (J := extending P) ((check_only fun _ => id).extends hP)
    fun _ _ _ => ⟨trivial, trivial⟩
  view h _ _ := (view_only (fun _ => id) h).extends hP
  raises _ := extending_raises hP _

/-- A flow that runs to its next pause has come there, or to its end, without one. -/
theorem Goes.of_advance {w : List Mark} {g : Flow (Stretch α)} (h : f.advance.Goes w g) :
    (∃ f', f.Goes w f') ∧
      ∀ rest, g = .done (.ok (.suspended rest)) → ∃ r, f.Goes w (.pause r) ∧ rest = r () := by
  induction f generalizing w with
  | done r =>
    cases r with
    | ok a =>
      obtain ⟨rfl, rfl⟩ := h.of_done
      exact ⟨⟨_, .here _⟩, fun rest hrest => nomatch hrest⟩
    | error e =>
      obtain ⟨rfl, rfl⟩ := h.of_done
      exact ⟨⟨_, .here _⟩, fun rest hrest => nomatch hrest⟩
  | starved =>
    cases h
    exact ⟨⟨_, .here _⟩, fun rest hrest => nomatch hrest⟩
  | pause r _ =>
    obtain ⟨rfl, rfl⟩ := h.of_done
    refine ⟨⟨_, .here _⟩, fun rest hrest => ?_⟩
    cases hrest
    exact ⟨r, .here _, rfl⟩
  | act a next ih =>
    cases h with
    | here => exact ⟨⟨_, .here _⟩, fun rest hrest => nomatch hrest⟩
    | act x h =>
      obtain ⟨⟨f', hf⟩, hsuspended⟩ := ih x h
      refine ⟨⟨f', .act x hf⟩, fun rest hrest => ?_⟩
      obtain ⟨r, hr, heq⟩ := hsuspended rest hrest
      exact ⟨r, .act x hr, heq⟩

end Flow

/-- What has ops executed one at a time has the property, if the ops have it. -/
theorem Flow.Serial.leaves {α : Type} (hP : Trait P) {own : Mark → Prop} {d : Dispatcher}
    {good : Op → Handle → Prop} {R : List Leg → α → Prop} {legs : List Leg} {f : Flow α}
    (h : f.Serial own d good R legs) (hown : ∀ m, own m → m.IsSilent)
    (hcall : ∀ op p, good op p → (d.exec op p).Leaves P) : f.Leaves P := by
  have hlegs : ∀ t legs, Legs own d good t legs → P t := by
    intro t legs h
    induction h with
    | nil => exact hP.nil
    | own hm _ ih => exact hP.append [_] _ (hP.silent _ (hown _ hm)) ih
    | leg hop hu _ ih => exact hP.append _ _ (hcall _ _ hop _ _ hu) ih
  intro t g hgoes
  rcases h.goes hgoes with ⟨new, hnew, -⟩ | ⟨op, p, before, begun, rest, hway⟩
  · exact hlegs t new hnew
  · obtain ⟨legs, hbefore⟩ := hway.legs
    rw [hway.trace_eq]
    exact hP.append _ _ (hlegs _ _ hbefore) (hcall op p hway.good _ _ hway.goes)

namespace FanOut

variable {α : Type} {report : Report} {t s : List Mark}

/-! ## Tasks -/

/-- What the task has done is somewhere in the trace, and it is to go on after a pause. -/
def Suspended (P : List Mark → Prop) (t : List Mark) (f : Flow α) : Prop :=
  ∃ u, u.Sublist t ∧ ∀ w g, f.Goes w g → P (u ++ .paused :: w)

/-- The same, and the pause has been made. -/
def Ready (P : List Mark → Prop) (t : List Mark) (f : Flow α) : Prop :=
  ∃ u, (u ++ [.paused]).Sublist t ∧ ∀ w g, f.Goes w g → P (u ++ .paused :: w)

theorem Suspended.later {f : Flow α} (h : Suspended P t f) (hs : t <+: s) : Suspended P s f := by
  obtain ⟨u, hu, hf⟩ := h
  exact ⟨u, hu.trans hs.sublist, hf⟩

theorem Ready.later {f : Flow α} (h : Ready P t f) (hs : t <+: s) : Ready P s f := by
  obtain ⟨u, hu, hf⟩ := h
  exact ⟨u, hu.trans hs.sublist, hf⟩

theorem Suspended.paused {f : Flow α} (h : Suspended P t f) : Ready P (t ++ [.paused]) f := by
  obtain ⟨u, hu, hf⟩ := h
  exact ⟨u, hu.append (List.Sublist.refl _), hf⟩

/-- How a task may have ended a turn. -/
def Rests (P : List Mark → Prop) (t : List Mark) : Flow.Stretch α → Prop
  | .settled _ => True
  | .suspended rest => Suspended P t rest

/-- The first turn of a task. -/
theorem first_extends (hP : Trait P) {f : Flow α} (h : f.Leaves P) (ht : P t) :
    f.advance.Extends P (Rests P) t := by
  intro w g hgoes
  obtain ⟨⟨f', hf⟩, hsuspended⟩ := hgoes.of_advance
  refine ⟨hP.append t w ht (h w f' hf), fun a ha => ?_⟩
  cases a with
  | settled a => trivial
  | suspended rest =>
    obtain ⟨r, hr, rfl⟩ := hsuspended rest ha
    refine ⟨w, List.sublist_append_right t w, fun w' g' hgoes' => ?_⟩
    exact h _ g' (hr.trans (.pause hgoes'))

/-- A further turn of a task. -/
theorem Ready.extends (hP : Trait P) {f : Flow α} (h : Ready P t f) (ht : P t) :
    f.advance.Extends P (Rests P) t := by
  obtain ⟨u, hu, hf⟩ := h
  intro w g hgoes
  obtain ⟨⟨f', hf'⟩, hsuspended⟩ := hgoes.of_advance
  refine ⟨hP.resume t u w ht hu (hf w f' hf'), fun a ha => ?_⟩
  cases a with
  | settled a => trivial
  | suspended rest =>
    obtain ⟨r, hr, rfl⟩ := hsuspended rest ha
    refine ⟨u ++ .paused :: w, ?_, fun w' g' hgoes' => ?_⟩
    · have hsplit : u ++ .paused :: w = (u ++ [.paused]) ++ w := by simp
      rw [hsplit]
      exact hu.append (List.Sublist.refl w)
    · have hmore := hf _ g' (hr.trans (.pause hgoes'))
      rwa [← List.cons_append, ← List.append_assoc] at hmore

/-! ## Workers -/

/-- What is left of the worker's task is as described. -/
def Worker.Has (H : Flow α → Prop) : Worker α → Prop
  | .busy _ rest => H rest
  | _ => True

theorem Worker.Has.mono {H H' : Flow α → Prop} {w : Worker α} (h : w.Has H)
    (hH : ∀ f, H f → H' f) : w.Has H' := by
  cases w with
  | busy index rest => exact hH rest h
  | _ => trivial

/-- What nobody has claimed has the property. -/
def Board.Leaves (P : List Mark → Prop) (b : Board α) : Prop := ∀ task ∈ b.waiting, task.1.Leaves P

/-- The tasks of the workers that have had their turn are suspended, and those of the others are
ready to be resumed. -/
structure Resting (P : List Mark → Prop) (t : List Mark) (done ahead : List (Worker α))
    (b : Board α) : Prop where
  done : ∀ w ∈ done, w.Has (Suspended P t)
  ahead : ∀ w ∈ ahead, w.Has (Ready P t)
  board : b.Leaves P

variable {done ahead : List (Worker α)} {b : Board α}

theorem Resting.later (h : Resting P t done ahead b) (hs : t <+: s) : Resting P s done ahead b where
  done w hw := (h.done w hw).mono fun _ hf => hf.later hs
  ahead w hw := (h.ahead w hw).mono fun _ hf => hf.later hs
  board := h.board

theorem Resting.turned (h : Resting P t done ahead b) {w : Worker α} (hw : w.Has (Suspended P t)) :
    Resting P t (done ++ [w]) ahead b where
  done := List.forall_mem_append.2 ⟨h.done, by simpa using hw⟩
  ahead := h.ahead
  board := h.board

variable (hP : Trait P) (hr : ∀ p, (report p).Only Mark.IsQuiet fun _ => True)

include hP hr

omit hP in
theorem settle_quiet (tally : Tally α) (index : Nat) (a : α) :
    (tally.settle report index a).Only Mark.IsQuiet fun _ => True :=
  (Flow.check_only fun _ => id).bind fun _ _ => (hr _).bind fun _ _ => trivial

/-- **One stretch** of a task, while the others rest. -/
theorem stretched_resting {f : Flow (Flow.Stretch α)} {index : Nat}
    (hf : P t → f.Extends P (Rests P) t) (hothers : Resting P t done ahead b) :
    (Flow.extending P).judges
      (AfterStretch (Flow.extending P) report (Resting P) done ahead index b) f t := by
  intro ht
  refine Judgement.mono (J := Flow.extending P) (fun ht => (hf ht).growing) (fun u x hx => ?_) ht
  obtain ⟨hgrown, hx⟩ := hx
  have hothers := hothers.later hgrown
  cases x with
  | suspended rest => exact hothers.turned (w := .busy index rest) hx
  | settled a =>
    refine Judgement.mono (J := Flow.extending P)
      (fun hu => ((settle_quiet hr b.tally index a).extends hP hu).growing) fun v tally hv => ?_
    obtain ⟨hdone, hahead, hboard⟩ := hothers.later hv.1
    exact ⟨hdone, List.forall_mem_cons.2 ⟨trivial, hahead⟩, hboard⟩

theorem resting_kept : Kept (Flow.extending P) report (Resting (α := α) P) where
  claim {t done ahead task index waiting tally} hs := by
    obtain ⟨htask, hrest⟩ := List.forall_mem_cons.1 hs.board
    have hothers : Resting P t done ahead ⟨waiting, tally⟩ :=
      ⟨hs.done, (List.forall_mem_cons.1 hs.ahead).2, hrest⟩
    refine (Flow.extending P).bind (fun ht => ((Flow.check_only fun _ => id).extends hP ht).growing)
      fun u _ hu => ?_
    exact stretched_resting hP hr (first_extends hP htask) (hothers.later hu.1)
  resume {t done ahead index rest b} hs := by
    obtain ⟨hready, hahead⟩ := List.forall_mem_cons.1 hs.ahead
    exact stretched_resting hP hr (Ready.extends hP hready) ⟨hs.done, hahead, hs.board⟩
  nothing hs := by
    refine Judgement.mono (J := Flow.extending P)
      (fun ht => ((Flow.check_only fun _ => id).extends hP ht).growing) fun u _ hu => ?_
    have hothers := hs.later hu.1
    exact Resting.turned ⟨hothers.done, (List.forall_mem_cons.1 hothers.ahead).2, hs.board⟩ trivial
  finished hs := Resting.turned ⟨hs.done, (List.forall_mem_cons.1 hs.ahead).2, hs.board⟩ trivial

omit hr in
theorem resting_outlasts :
    Outlasts (Flow.extending P) (fun _ => Resting (α := α) P) (fun _ _ => True) where
  starved _ := Flow.extends_starved
  ended _ _ := trivial
  pause hs _ h ht := by
    refine Flow.extends_pause ht (h _ ⟨by simp, fun w hw => ?_, hs.board⟩ (hP.snoc ht trivial))
    exact (hs.done w hw).mono fun _ hf => hf.paused

/-- **A fan-out hands on a trait of its tasks.** -/
theorem run_leaves (fuel : Nat) {tasks : List (Flow α)} (cap : Nat)
    (h : ∀ task ∈ tasks, task.Leaves P) : (run fuel tasks cap report).Leaves P := by
  have hcheck : ∀ t, P t → Flow.check.Extends P (fun _ _ => True) t :=
    fun t ht => (Flow.check_only fun _ => id).extends hP ht
  refine Flow.leaves_iff.2 (run_judged (J := Flow.extending P) (fun _ => resting_kept hP hr)
    (resting_outlasts hP) fuel cap (fun _ => trivial) (fun task htasks => ?_) (fun _ => ?_)
    (fun _ _ _ => trivial) (fun _ _ _ _ => ?_) hP.nil)
  · have htask : task.Leaves P := h task (by simp [htasks])
    refine (Flow.extending P).bind (hcheck []) fun u _ _ => ?_
    refine Judgement.mono (J := Flow.extending P) (fun hu => htask.after hP hu) fun u a _ => ?_
    exact (settle_quiet hr _ 0 a).extends hP
  · refine Judgement.mono (J := Flow.extending P) (hcheck []) fun u _ _ =>
      ⟨by simp, fun w hw => ?_, fun task ht => h task.1 (List.fst_mem_of_mem_zipIdx ht)⟩
    rw [List.eq_of_mem_replicate hw]
    trivial
  · exact (Flow.fail_only (fun _ => id) _ _).extends hP

end FanOut

/-- `parallel` hands on a trait of its branches. -/
theorem Executor.parallel_leaves (hP : Trait P) {d : Dispatcher} {op : Op} {context : Handle}
    (h : ∀ inner, (d.dispatch inner context).Leaves P) : (parallel d op context).Leaves P := by
  refine Flow.leaves_iff.2 (parallel_returns (Flow.extending_walks hP)
    (fun e _ => Flow.extending_raises hP e) (fun ops cap _ _ t _ ht => ?_) [] trivial hP.nil)
  have hbranches : ∀ task ∈ ops.map (d.dispatch · context), task.Leaves P := by
    intro task htask
    obtain ⟨inner, -, rfl⟩ := List.mem_map.1 htask
    exact h inner
  have hreport : ∀ p : Progress, (return : Flow Unit).Only Mark.IsQuiet fun _ => True :=
    fun _ => trivial
  exact (FanOut.run_leaves hP hreport d.fuel cap hbranches).after hP ht

end WorkflowEngine
