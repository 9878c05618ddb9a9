import WorkflowEngine.Proofs.Events

/-!
# How the ops of a run nest

As long as no op runs others at the same time, the ops of a run nest: an op is announced as
completed only when it is the innermost of those that have been begun. So the announcements can be
replayed on a stack (`openOps`).

**Failures.** An execution that has failed leaves its op on the stack, and above it what has been
left by the op that was being executed in it when it failed, if there was one. The ops on the stack
are thus the path to the place where the fault arose (`Engine.FailsAlong`): the last of them failed
by itself, that is, its executor did, or there is none for its kind; the others failed because the
next one did.

The proof is an induction on how deep executions may nest. At every level it reads the trace of the
executor (`Flow.Serial.goes`): whole executions leave the stack as it was, and at most one is under
way.

**Main theorem** (`Workflow.announcements`): what is announced in a run, from its first event to
what happens after its end.
-/

namespace WorkflowEngine

/-! ## Ops on a stack -/

/-- What a mark does to the ops that have been begun, innermost first. An op that is not the
innermost of them cannot be completed. -/
def Mark.nest (s : List (Op × Handle)) : Mark → Option (List (Op × Handle))
  | .did (.announce ⟨.opPre, op, p⟩) _ => some ((op, p) :: s)
  | .did (.announce ⟨.opPost, op, p⟩) _ => if s.head? = some (op, p) then some s.tail else none
  | _ => some s

/-- The ops that are open after a trace, innermost first, if `s` were open before. -/
def openOps (s : List (Op × Handle)) (t : List Mark) : Option (List (Op × Handle)) :=
  t.foldlM Mark.nest s

section

variable {s s' : List (Op × Handle)} {t u : List Mark} {op : Op} {p : Handle}

theorem openOps_append (h : openOps s t = some s') : openOps s (t ++ u) = openOps s' u := by
  have hbind : openOps s (t ++ u) = (openOps s t).bind fun s => openOps s u := List.foldlM_append
  rw [hbind, h]
  rfl

theorem openOps_pre (u : List Mark) : openOps s (.pre op p :: u) = openOps ((op, p) :: s) u := rfl

theorem openOps_post : openOps ((op, p) :: s) [.post op p] = some s := by
  simp [openOps, Mark.nest]

theorem Mark.nest_silent {m : Mark} (h : m.IsSilent) : m.nest s = some s := by
  cases m with
  | paused => rfl
  | did a _ =>
    cases a with
    | announce _ => exact h.elim
    | _ => rfl

theorem openOps_silent (h : ∀ m ∈ t, m.IsSilent) : openOps s t = some s := by
  induction t with
  | nil => rfl
  | cons m t ih =>
    have hm : openOps s [m] = some s := by
      simp [openOps, Mark.nest_silent (h m (List.mem_cons_self ..))]
    rw [← List.singleton_append, openOps_append hm]
    exact ih fun m hm => h m (List.mem_cons_of_mem _ hm)

/-- Own marks and whole executions leave the stack as it was, if each execution does. -/
theorem Legs.openOps_eq {own : Mark → Prop} {d : Dispatcher} {good : Op → Handle → Prop}
    {legs : List Leg} (h : Legs own d good t legs) (hown : ∀ m, own m → m.IsSilent)
    (hwhole : ∀ op q u v, u <:+: t → (d.exec op q).Goes u (.done (.ok v)) →
      ∀ s, openOps s u = some s) : openOps s t = some s := by
  induction h with
  | nil => rfl
  | @own m t legs hm _ ih =>
    have hfirst : openOps s [m] = some s :=
      openOps_silent fun m' hm' => List.mem_singleton.1 hm' ▸ hown m hm
    rw [← List.singleton_append, openOps_append hfirst]
    exact ih fun op q u v hu => hwhole op q u v (hu.trans (List.suffix_cons m t).isInfix)
  | @leg op q v u t legs _ hu _ ih =>
    have hfirst := hwhole op q u v (List.prefix_append u t).isInfix hu s
    rw [openOps_append hfirst]
    exact ih fun op q u' v hu' => hwhole op q u' v (hu'.trans (List.suffix_append u t).isInfix)

end

/-! ## Executions -/

namespace Engine

variable {e : Engine} {inner : Op → Op → Handle → Prop} {n : Nat} {op : Op} {p : Handle}
  {t u : List Mark} {fault : Fault}

/-- No op has been begun that runs others at the same time. -/
def Unparallel (e : Engine) (t : List Mark) : Prop :=
  ∀ op p, .pre op p ∈ t → e.registry.get? op.kind ≠ some Executor.parallel

theorem Unparallel.of_infix (h : e.Unparallel t) (hu : u <:+: t) : e.Unparallel u :=
  fun op p hmem => h op p (hu.subset hmem)

/-- The execution has failed, and the fault has come along these executions, outermost first. -/
inductive FailsAlong (e : Engine) (inner : Op → Op → Handle → Prop) :
    Nat → Op → Handle → List Mark → Fault → List (Op × Handle) → Prop
  /-- The executor failed by itself, between executions of other ops, or there is none. -/
  | here {n : Nat} {op : Op} {p : Handle} {u : List Mark} {legs : List Leg} {fault : Fault} :
      (e.carryOut n op p).Goes u (.done (.error fault)) →
      Legs Mark.IsSilent (e.dispatcher n) (inner op) u legs →
      FailsAlong e inner (n + 1) op p (.pre op p :: u) fault [(op, p)]
  /-- The executor failed because an op failed that it had executed. -/
  | inside {n : Nat} {op o : Op} {p q : Handle} {before begun : List Mark} {legs : List Leg}
      {fault : Fault} {chain : List (Op × Handle)} :
      (e.carryOut n op p).Goes (before ++ begun) (.done (.error fault)) →
      Legs Mark.IsSilent (e.dispatcher n) (inner op) before legs → inner op o q →
      FailsAlong e inner n o q begun fault chain →
      FailsAlong e inner (n + 1) op p (.pre op p :: (before ++ begun)) fault ((op, p) :: chain)

/-- Unless it runs others at the same time, an op has them executed one at a time. -/
theorem carryOut_serial (he : e.InTurn inner)
    (hkind : e.registry.get? op.kind ≠ some Executor.parallel) :
    (e.carryOut n op p).Serial Mark.IsSilent (e.dispatcher n) (inner op) (fun _ _ => True) [] := by
  unfold carryOut
  split
  · exact .act (fun _ => trivial) fun _ => .error _ _
  · next x hx =>
    rcases he op.kind x hx with rfl | hturn
    · exact absurd hx hkind
    · exact hturn (e.dispatcher n) op p

/-- The ops that are open at a moment of an execution: these, outermost first, above those that were
open before. None is open when it has a result, and when it has failed they are the path of the
fault. -/
structure Nested (e : Engine) (inner : Op → Op → Handle → Prop) (n : Nat) (op : Op) (p : Handle)
    (t : List Mark) (g : Flow Value) (chain : List (Op × Handle)) : Prop where
  opened : ∀ s, openOps s t = some (chain.reverse ++ s)
  result : ∀ v, g = .done (.ok v) → chain = []
  failed : ∀ fault, g = .done (.error fault) → e.FailsAlong inner n op p t fault chain

/-- An execution that has a result leaves the stack as it was. -/
theorem Nested.closed {v : Value} {chain : List (Op × Handle)}
    (h : e.Nested inner n op p t (.done (.ok v)) chain) (s : List (Op × Handle)) :
    openOps s t = some s := by
  have hopened := h.opened s
  rwa [h.result v rfl] at hopened

theorem openOps_of_legs {own : Mark → Prop} {d : Dispatcher} {good : Op → Handle → Prop}
    {legs : List Leg} (hown : ∀ m, own m → m.IsSilent)
    (hexec : ∀ {o : Op} {q : Handle} {w : List Mark} {g : Flow Value}, (d.exec o q).Goes w g →
      e.Unparallel w → ∃ chain, e.Nested inner n o q w g chain)
    (s : List (Op × Handle)) (hu : e.Unparallel u) (h : Legs own d good u legs) :
    openOps s u = some s := by
  refine h.openOps_eq hown fun o q w v hinfix hgoes s => ?_
  obtain ⟨chain, hnested⟩ := hexec hgoes (hu.of_infix hinfix)
  exact hnested.closed s

/-- When the executor has given a result, the op stays open until it is announced as completed. -/
theorem nested_of_result {before after : List Mark} {v : Value} {g : Flow Value}
    (hbefore : ∀ s, openOps s before = some s) (hafter : after <+: closing op p v)
    (hend : ∀ r, g = .done r → after = closing op p v ∧ r = .ok v) :
    ∃ chain, e.Nested inner n op p (.pre op p :: (before ++ after)) g chain := by
  have hwrites : ∀ s w, w <+: writes op p v →
      openOps s (.pre op p :: (before ++ w)) = some ((op, p) :: s) := by
    intro s w hw
    rw [openOps_pre, openOps_append (hbefore _)]
    exact openOps_silent fun m hm => silent_of_mem_writes (hw.subset hm)
  rcases List.prefix_concat_iff.1 hafter with rfl | hafter
  · refine ⟨[], fun s => ?_, fun _ _ => rfl, fun fault hfault => ?_⟩
    · have hall := hwrites s (writes op p v) List.prefix_rfl
      rw [← List.append_assoc, ← List.cons_append, openOps_append hall]
      exact openOps_post
    · obtain ⟨-, herr⟩ := hend _ hfault
      cases herr
  · have hopen : ∀ r, g ≠ .done r := by
      intro r hr
      obtain ⟨rfl, -⟩ := hend r hr
      have hlength := hafter.length_le
      simp [closing] at hlength
    exact ⟨[(op, p)], fun s => hwrites s after hafter, fun v hv => absurd hv (hopen _),
      fun fault hfault => absurd hfault (hopen _)⟩

/-- **Executions nest**, whatever the ops in them. -/
theorem exec_nested (he : e.InTurn inner) {g : Flow Value} (h : (e.exec n op p).Goes t g)
    (ht : e.Unparallel t) : ∃ chain, e.Nested inner n op p t g chain := by
  induction n generalizing op p t g with
  | zero =>
    cases h
    refine ⟨[], fun s => rfl, fun v hv => ?_, fun fault hf => ?_⟩
    · cases hv
    · cases hf
  | succ n ih =>
    have hlegs : ∀ {u legs} (s : List (Op × Handle)), e.Unparallel u →
        Legs Mark.IsSilent (e.dispatcher n) (inner op) u legs → openOps s u = some s :=
      openOps_of_legs (fun _ => id) ih
    rcases exec_goes h with
      ⟨rfl, hne⟩ | ⟨u, rfl, ⟨f, hf, hne, rfl⟩ | ⟨before, after, v, rfl, hf, hafter, hend⟩⟩
    · exact ⟨[], fun s => rfl, fun v hv => absurd hv (hne _), fun fault hf => absurd hf (hne _)⟩
    · -- the executor is at work, or has failed
      have hu : e.Unparallel u := ht.of_infix (List.suffix_cons _ u).isInfix
      obtain ⟨hnoresult, hfailed⟩ := Flow.bind_unfinished (k := complete op p) hne
      have hkind := ht op p (List.mem_cons_self ..)
      rcases (carryOut_serial he hkind).goes hf with
        ⟨legs, hown, -⟩ | ⟨o, q, before, begun, rest, hway⟩
      · refine ⟨[(op, p)], fun s => ?_, fun v hv => absurd hv (hnoresult v), fun fault hfault => ?_⟩
        · rw [openOps_pre]
          exact hlegs _ hu hown
        · have hf' := hfailed fault hfault
          subst hf'
          exact .here hf hown
      · obtain rfl := hway.trace_eq
        obtain ⟨legs, hbefore⟩ := hway.legs
        obtain ⟨chain, hnested⟩ := ih hway.goes (hu.of_infix (List.suffix_append before begun).isInfix)
        refine ⟨(op, p) :: chain, fun s => ?_, fun v hv => absurd hv (hnoresult v),
          fun fault hfault => ?_⟩
        · have hstack : openOps ((op, p) :: s) before = some ((op, p) :: s) :=
            hlegs _ (hu.of_infix (List.prefix_append before begun).isInfix) hbefore
          rw [openOps_pre, openOps_append hstack, hnested.opened]
          simp
        · have hf' := hfailed fault hfault
          obtain ⟨err, herr, hrest⟩ := hway.outcome hf'
          cases herr
          subst hf'
          exact .inside hf hbefore hway.good (hnested.failed fault hrest)
    · -- the executor has given a result
      have hbefore : e.Unparallel before := ht.of_infix ⟨[.pre op p], after, by simp⟩
      obtain ⟨legs, hown, -⟩ :=
        (carryOut_serial he (ht op p (List.mem_cons_self ..))).goes_ok hf
      exact nested_of_result (fun s => hlegs s hbefore hown) hafter hend

end Engine

/-! ## Runs -/

/-- A run of the ops in the context has failed, and the fault has come along these executions,
outermost first: along none if it arose between two executions of the run itself. -/
inductive Workflow.FailsAlong (e : Engine) (inner : Op → Op → Handle → Prop) (m : Nat)
    (d : Dispatcher) (list : List Op) (p : Handle) :
    List Mark → Fault → List (Op × Handle) → Prop
  | here {u : List Mark} {legs : List Leg} {fault : Fault} :
      Legs Mark.IsQuiet d (Runner.Serves list p) u legs →
      FailsAlong e inner m d list p (.started p :: u) fault []
  | inside {before begun : List Mark} {legs : List Leg} {op : Op} {q : Handle} {fault : Fault}
      {chain : List (Op × Handle)} :
      Legs Mark.IsQuiet d (Runner.Serves list p) before legs → Runner.Serves list p op q →
      e.FailsAlong inner m op q begun fault chain →
      FailsAlong e inner m d list p (.started p :: (before ++ begun)) fault chain

namespace Workflow

variable {e : Engine} {inner : Op → Op → Handle → Prop} {m n : Nat} {w : Workflow} {p : Handle}
  {t : List Mark} {g : Flow Execution}

/-- **The trace of a top-level run.** It has not begun; or it is at work on its ops or has failed,
and its end has not been announced; or it has come to its end and announced it. -/
theorem execute_goes {d : Dispatcher} (h : (w.execute d p).Goes t g) :
    (t = [] ∧ ∀ r, g ≠ .done r) ∨
      ∃ u f, ((Runner.start false w.ops p).steps d).Goes u f ∧
        ((t = .started p :: u ∧ (∀ x, g ≠ .done (.ok x)) ∧
            ∀ fault, g = .done (.error fault) → f = .done (.error fault)) ∨
          ∃ y x, f = .done (.ok y) ∧ t = .started p :: (u ++ [.finished p]) ∧
            g = .done (.ok x)) := by
  cases hfuel : d.fuel with
  | zero =>
    have hstarved : w.execute d p = .starved := by
      show ((w.runner p).steps d).bind _ = _
      rw [Runner.steps, hfuel]
      rfl
    rw [hstarved] at h
    cases h
    refine .inl ⟨rfl, fun r hr => ?_⟩
    cases hr
  | succ n =>
    rw [execute_eq hfuel] at h
    cases h with
    | here =>
      refine .inl ⟨rfl, fun r hr => ?_⟩
      cases hr
    | @act _ _ u _ _ h =>
      right
      rcases Flow.Goes.bind_cases (f := (Runner.start false w.ops p).steps d) h with
        ⟨f, hf, rfl, hne⟩ | ⟨before, after, y, rfl, hf, hend⟩
      · exact ⟨u, f, hf, .inl ⟨rfl, Flow.bind_unfinished hne⟩⟩
      · cases hend with
        | here =>
          refine ⟨before, _, hf, .inl ⟨by rw [List.append_nil], ?_, ?_⟩⟩
          · intro x hx
            cases hx
          · intro fault hfault
            cases hfault
        | act _ hend =>
          cases hend
          exact ⟨before, _, hf, .inr ⟨y, _, rfl, rfl, rfl⟩⟩

/-- **The life of a run.** Its start is announced first, and its end last, if it comes to a result;
between them nothing but ops is announced. -/
theorem execute_lifecycle (he : e.InTurn inner)
    (h : (w.execute ((e.dispatcher m).upTo n) p).Goes t g) :
    (t = [] ∧ ∀ r, g ≠ .done r) ∨
      ∃ u, e.Orderly u ∧
        ((t = .started p :: u ∧ ∀ x, g ≠ .done (.ok x)) ∨
          ∃ x, t = .started p :: (u ++ [.finished p]) ∧ g = .done (.ok x)) := by
  rcases execute_goes h with hnot | ⟨u, f, hf, hend⟩
  · exact .inl hnot
  · have horderly : ((Runner.start false w.ops p).steps ((e.dispatcher m).upTo n)).Leaves e.Orderly :=
      (Runner.steps_serial (fun _ => id) w.ops p).leaves e.orderly_trait
        (fun _ => Mark.IsQuiet.isSilent) fun o q _ => Engine.exec_orderly he m o q
    refine .inr ⟨u, horderly u f hf, ?_⟩
    rcases hend with ⟨ht, hnoresult, -⟩ | ⟨y, x, -, ht, hg⟩
    · exact .inl ⟨ht, hnoresult⟩
    · exact .inr ⟨x, ht, hg⟩

theorem execute_closes (he : e.InTurn inner)
    (h : (w.execute ((e.dispatcher m).upTo n) p).Goes t g) {before after : List Mark} {op : Op}
    {q : Handle} (ht : t = before ++ .post op q :: after) : e.Closes before op q := by
  rcases execute_lifecycle he h with ⟨rfl, -⟩ | ⟨u, hu, hshape⟩
  · simp at ht
  · -- the announcements of the run itself are not about ops
    obtain ⟨last, hlast, rfl⟩ : ∃ last, (∀ o r, .post o r ∉ last) ∧
        t = .started p :: (u ++ last) := by
      rcases hshape with ⟨rfl, -⟩ | ⟨x, rfl, -⟩
      · exact ⟨[], by simp, by simp⟩
      · exact ⟨[.finished p], by simp, rfl⟩
    rcases List.cons_eq_append_iff.1 ht with ⟨rfl, hcons⟩ | ⟨front, rfl, hfront⟩
    · cases hcons
    · rcases Mark.append_eq_cons hfront with ⟨rest, hrest⟩ | ⟨front', -, hrest⟩
      · exact (hu.closes hrest).after [.started p]
      · refine absurd ?_ (hlast op q)
        rw [hrest]
        exact List.mem_append_right front' (List.mem_cons_self ..)

/-- **The ops of a run nest**, and a failed run leaves the path of the fault open. -/
theorem execute_nested (he : e.InTurn inner)
    (h : (w.execute ((e.dispatcher m).upTo n) p).Goes t g) (ht : e.Unparallel t) :
    ∃ chain : List (Op × Handle), openOps [] t = some chain.reverse ∧
      (∀ x, g = .done (.ok x) → chain = []) ∧
      ∀ fault, g = .done (.error fault) →
        FailsAlong e inner m ((e.dispatcher m).upTo n) w.ops p t fault chain := by
  have hlegs : ∀ {u legs} (s : List (Op × Handle)), e.Unparallel u →
      Legs Mark.IsQuiet ((e.dispatcher m).upTo n) (Runner.Serves w.ops p) u legs →
      openOps s u = some s :=
    Engine.openOps_of_legs (fun _ => Mark.IsQuiet.isSilent) (Engine.exec_nested he)
  rcases execute_goes h with ⟨rfl, hne⟩ | ⟨u, f, hf, ⟨rfl, hnoresult, hfailed⟩ | ⟨y, x, rfl, rfl, rfl⟩⟩
  · exact ⟨[], rfl, fun x hx => absurd hx (hne _), fun fault hf => absurd hf (hne _)⟩
  · have hu : e.Unparallel u := ht.of_infix (List.suffix_cons _ u).isInfix
    rcases (Runner.steps_serial (fun _ => id) w.ops p).goes hf with
      ⟨legs, hown, -⟩ | ⟨o, q, before, begun, rest, hway⟩
    · have hstack : openOps [] u = some [] := hlegs [] hu hown
      exact ⟨[], hstack, fun x hx => absurd hx (hnoresult x), fun _ _ => .here hown⟩
    · obtain rfl := hway.trace_eq
      obtain ⟨legs, hbefore⟩ := hway.legs
      obtain ⟨chain, hnested⟩ := Engine.exec_nested he hway.goes
        (hu.of_infix (List.suffix_append before begun).isInfix)
      have hstack : openOps [] before = some [] :=
        hlegs [] (hu.of_infix (List.prefix_append before begun).isInfix) hbefore
      refine ⟨chain, ?_, fun x hx => absurd hx (hnoresult x), fun fault hfault => ?_⟩
      · have hopened := (openOps_append hstack).trans (hnested.opened [])
        rwa [List.append_nil] at hopened
      · obtain ⟨err, herr, hrest⟩ := hway.outcome (hfailed fault hfault)
        cases herr
        exact .inside hbefore hway.good (hnested.failed fault hrest)
  · have hu : e.Unparallel u := ht.of_infix ⟨[.started p], [.finished p], by simp⟩
    obtain ⟨legs, hown, -⟩ := (Runner.steps_serial (fun _ => id) w.ops p).goes_ok hf
    refine ⟨[], ?_, fun _ _ => rfl, fun fault hfault => nomatch hfault⟩
    show openOps [] (u ++ [.finished p]) = _
    rw [openOps_append (hlegs [] hu hown)]
    rfl

end Workflow

/-! ## After the end -/

theorem Runner.finished_of_next {d : Dispatcher} {n : Nat} {r r' : Runner} {t : List Mark}
    {item : Option (Except Fault Step)} (h : (next d n r).Goes t (.done (.ok (item, r'))))
    (hitem : ∀ step, item ≠ some (.ok step)) : r'.phase = .finished := by
  have hrunning : ∀ {r : Runner} {t}, r.phase = .running →
      (next d n r).Goes t (.done (.ok (item, r'))) → r'.phase = .finished := by
    intro r t hphase h
    rw [next_of_running hphase] at h
    obtain ⟨_, last, x, _, _, hend⟩ := h.of_bind
    rcases x with fault | ⟨_ | step, s⟩
    · cases hend
      rfl
    · obtain ⟨_, _, _, _, _, hend⟩ := Flow.Goes.of_bind (f := s.announce .workflowDone) hend
      cases hend
      rfl
    · cases hend
      exact absurd rfl (hitem step)
  cases hphase : r.phase with
  | finished =>
    rw [next_of_finished hphase] at h
    cases h
    exact hphase
  | running => exact hrunning hphase h
  | pending =>
    rw [next_of_pending hphase] at h
    obtain ⟨_, _, _, _, _, hrest⟩ := h.of_bind
    exact hrunning rfl hrest

/-! ## The theorem -/

/-- **What is announced in a run.** Whatever the ops, and whatever is answered, at every moment of a
top-level run:

* its start has been announced first and only then; its end is announced last, and just if the run
  comes to a result; between them nothing but ops is announced;
* where an op is announced as completed, an execution of it is all there, and its result is bound
  (`Engine.Closes`); and no op has been completed more often in a context than begun;
* as long as no op runs others at the same time, the ops nest, and those that a fault has left open
  are the path to the place where it arose (`Workflow.FailsAlong`).

Nested runs announce nothing but ops. Every execution that comes to a result begins with the first
announcement of its op, and ends with its writes and the second one. A runner that has yielded a
fault, or nothing, yields nothing from then on and does nothing more. -/
theorem Workflow.announcements {e : Engine} {inner : Op → Op → Handle → Prop}
    (he : e.InTurn inner) (m : Nat) (w : Workflow) (p : Handle) :
    let d : Nat → Dispatcher := fun n => (e.dispatcher m).upTo n
    (∀ n t g, (w.execute (d n) p).Goes t g →
      ((t = [] ∧ ∀ r, g ≠ .done r) ∨ ∃ u, Mark.OnlyOps u ∧
        ((t = .started p :: u ∧ ∀ x, g ≠ .done (.ok x)) ∨
          ∃ x, t = .started p :: (u ++ [.finished p]) ∧ g = .done (.ok x))) ∧
      (∀ before op q after, t = before ++ .post op q :: after → e.Closes before op q) ∧
      (∀ op q, t.countP (Mark.signals ⟨.opPost, op, q⟩) ≤
        t.countP (Mark.signals ⟨.opPre, op, q⟩)) ∧
      (e.Unparallel t → ∃ chain : List (Op × Handle), openOps [] t = some chain.reverse ∧
        (∀ x, g = .done (.ok x) → chain = []) ∧
        ∀ fault, g = .done (.error fault) → FailsAlong e inner m (d n) w.ops p t fault chain)) ∧
    (∀ n ops q t g, ((d n).runOps ops q).Goes t g → Mark.OnlyOps t) ∧
    (∀ n op q t g, ((d n).dispatch op q).Goes t g → Mark.OnlyOps t) ∧
    (∀ op q t v, (e.exec m op q).Goes t (.done (.ok v)) →
      ∃ between, t = .pre op q :: (between ++ Engine.closing op q v)) ∧
    ∀ d n r t item r', (Runner.next d n r).Goes t (.done (.ok (item, r'))) →
      (∀ step, item ≠ some (.ok step)) →
      ∀ d' n', Runner.next d' n' r' = .done (.ok (none, r')) := by
  intro d
  refine ⟨?run, ?nested, ?dispatched, ?executed, ?ended⟩
  case run =>
    intro n t g h
    refine ⟨?_, fun before op q after ht => execute_closes he h ht,
      fun op q => Engine.posts_le_pres he h op q, execute_nested he h⟩
    rcases execute_lifecycle he h with hnot | ⟨u, hu, hshape⟩
    · exact .inl hnot
    · exact .inr ⟨u, hu.onlyOps, hshape⟩
  case nested =>
    intro n ops q t g h
    exact (Engine.runOps_orderly he m n ops q t g h).onlyOps
  case dispatched =>
    intro n op q t g h
    exact (Engine.dispatch_orderly he m n op q t g h).onlyOps
  case executed =>
    intro op q t v h
    exact Engine.exec_brackets h
  case ended =>
    intro d n r t item r' h hitem d' n'
    exact Runner.next_of_finished (Runner.finished_of_next h hitem)

/-- The built-in executors announce nothing by themselves. -/
theorem plainEngine_inTurn : plainEngine.InTurn Executor.Inner := by
  have hM : (Monitor.avoiding Action.Announces).SuitsLeaves :=
    Monitor.avoiding_suitsLeaves (fun _ h => nomatch h) (fun h => nomatch h) fun _ h => nomatch h
  have hclient : Http.outside.Keeps (Monitor.avoiding Action.Announces) :=
    Http.outside_keeps hM fun _ _ => Monitor.avoiding_neutral fun h => nomatch h
  have hleaves : plainEngine.Composed (Flow.Avoids Action.Announces) :=
    Engine.Composed.mono (EngineBuilder.composed_build hM hclient (fun _ h => nomatch h)
      fun _ h => nomatch h) fun _ => Flow.avoids_iff_keeps.2
  exact hleaves.inTurn

/-- `sequential` looks at the context even if there is nothing to run. -/
theorem Executor.sequential_ne_parallel : sequential ≠ parallel := by
  intro h
  have hlength := congrArg (fun x : Executor =>
    ((x ⟨{}, 0, fun _ _ => .starved⟩ (.sequential []) ⟨0⟩).trace {} goingWorld).length) h
  revert hlength
  decide +kernel

/-- A group of an op that there is no executor for. -/
def lostGroup : Op := .sequential [.new "nope"]

def Workflow.lost : Workflow := (empty "lost").add lostGroup

/-- The run of the group with the built-in executors. -/
def lostRun : Flow Execution := Workflow.lost.execute ((plainEngine.dispatcher 9).upTo 9) ⟨0⟩

theorem lostRun_fails : (lostRun.run {} goingWorld).1 = .ended (.error (.unknownKind "nope")) := rfl

/-- The group and the op in it are left open, and the fault has come along them. -/
theorem Workflow.announcements_of_lost :
    plainEngine.InTurn Executor.Inner ∧ ∃ t,
      lostRun.Goes t (.done (.error (.unknownKind "nope"))) ∧ plainEngine.Unparallel t ∧
      openOps [] t = some [(.new "nope", ⟨1⟩), (lostGroup, ⟨0⟩)] ∧
      FailsAlong plainEngine Executor.Inner 9 ((plainEngine.dispatcher 9).upTo 9) lost.ops ⟨0⟩ t
        (.unknownKind "nope") [(lostGroup, ⟨0⟩), (.new "nope", ⟨1⟩)] := by
  have hgoes := Flow.goes_trace {} lostRun goingWorld
  rw [lostRun_fails] at hgoes
  have hopen : openOps [] (lostRun.trace {} goingWorld) =
      some [(.new "nope", ⟨1⟩), (lostGroup, ⟨0⟩)] := by decide +kernel
  have hkinds : (lostRun.trace {} goingWorld).all (fun m =>
      (m.nest []).all (·.all (·.1.kind ∈ ["sequential", "nope"]))) = true := by decide +kernel
  generalize lostRun.trace {} goingWorld = t at hgoes hopen hkinds
  have hunparallel : plainEngine.Unparallel t := by
    intro op p hmem hkind
    have hop : op.kind = "sequential" ∨ op.kind = "nope" := by
      simpa [Mark.nest] using List.all_eq_true.1 hkinds _ hmem
    rcases hop with hop | hop <;> rw [hop] at hkind
    · exact Executor.sequential_ne_parallel (Option.some.inj hkind)
    · cases hkind
  obtain ⟨hruns, -⟩ := announcements plainEngine_inTurn 9 lost ⟨0⟩
  obtain ⟨-, -, -, hnests⟩ := hruns 9 t _ hgoes
  obtain ⟨chain, hchain, -, hfails⟩ := hnests hunparallel
  have hpath : chain = [(lostGroup, ⟨0⟩), (.new "nope", ⟨1⟩)] := by
    have hsame := Option.some.inj (hopen.symm.trans hchain)
    rw [← List.reverse_reverse chain, ← hsame]
    rfl
  rw [hpath] at hfails
  exact ⟨plainEngine_inTurn, t, hgoes, hunparallel, hopen, hfails _ rfl⟩

end WorkflowEngine
