import WorkflowEngine.Proofs.Trace
import WorkflowEngine.Runner

/-!
# The moves of a runner

On its way to the next op a runner makes one move after another. It leaves a list that is used up;
it tests the condition of a loop whose body is used up, or of a loop op that comes next; or it hands
out the op that comes next. A test reads the context once (`Loop.test`). What the test comes to, and
so the frame that is begun, if any, depends only on what has been read (`Loop.begun`).

Main statements: an equation for each kind of move.
-/

namespace WorkflowEngine

/-! ## Tests -/

namespace Loop

/-- What is read of a loop op: its body, its own limit or else the configured one, and the path of
its condition. -/
theorem of_ofOp {config : Config} {mode : LoopMode} {op : Op} {l : Loop} {body : List Op}
    (h : ofOp config mode op = .ok (l, body)) : ∃ own condition, op.innerOps = .ok body ∧
      op.natParam "maxIterations" = .ok own ∧ op.requireText "condition" = .ok condition ∧
      l = ⟨mode, condition, own.or config.maxLoopIterations, 0⟩ := by
  simp only [ofOp, bind, Except.bind, pure, Except.pure] at h
  split at h
  · cases h
  · next hbody =>
    split at h
    · cases h
    · next own hown =>
      split at h
      · cases h
      · next condition hcondition =>
        cases h
        exact ⟨own, condition, hbody, hown, hcondition, rfl⟩

theorem passes_of_ofOp {config : Config} {mode : LoopMode} {op : Op} {l : Loop}
    {body : List Op} (h : ofOp config mode op = .ok (l, body)) : l.passes = 0 := by
  obtain ⟨own, condition, -, -, -, rfl⟩ := of_ofOp h
  rfl

/-- Whether the condition, read in these bindings, calls for a pass. -/
def calls (l : Loop) (b : Bindings) : Bool := l.mode.callsFor (b.isTruthy l.condition)

/-- One more pass of the loop is started. -/
def started (l : Loop) : Loop := { l with passes := l.passes + 1 }

/-- What a test comes to that has read these bindings: the fault of the limit, the loop with one
more pass started, or the end of the loop. -/
def test (l : Loop) (b : Bindings) : Except Fault (Option Loop) :=
  if l.calls b then
    match l.limit with
    | none => .ok (some l.started)
    | some limit => if limit ≤ l.passes then .error (l.limitFault limit) else .ok (some l.started)
  else .ok none

theorem begin?_eq_test (l : Loop) (context : Handle) :
    l.begin? context = (Flow.view context).bind fun b => Flow.ofExcept (l.test b) := by
  obtain ⟨mode, condition, limit, passes⟩ := l
  refine congrArg (Flow.bind _) (funext fun b => ?_)
  unfold test calls
  split
  · cases limit with
    | none => rfl
    | some limit =>
      dsimp only
      split <;> rfl
  · rfl

theorem test_eq_none {l : Loop} {b : Bindings} : l.test b = .ok none ↔ l.calls b = false := by
  unfold test
  cases l.calls b with
  | false => simp
  | true =>
    cases l.limit with
    | none => simp
    | some limit => by_cases h : limit ≤ l.passes <;> simp [h]

theorem test_eq_some {l l' : Loop} {b : Bindings} : l.test b = .ok (some l') ↔
    l.calls b = true ∧ (∀ limit ∈ l.limit, l.passes < limit) ∧ l' = l.started := by
  unfold test
  cases l.calls b with
  | false => simp
  | true =>
    cases l.limit with
    | none => simp [eq_comm]
    | some limit =>
      by_cases h : limit ≤ l.passes
      · simp [h, Nat.not_lt.2 h]
      · simp [h, Nat.lt_of_not_le h, eq_comm]

theorem test_eq_error {l : Loop} {b : Bindings} {e : Fault} : l.test b = .error e ↔
    l.calls b = true ∧ ∃ limit ∈ l.limit, limit ≤ l.passes ∧ e = l.limitFault limit := by
  unfold test
  cases l.calls b with
  | false => simp
  | true =>
    cases l.limit with
    | none => simp
    | some limit => by_cases h : limit ≤ l.passes <;> simp [h, eq_comm]

/-- The frames that a test puts on top: that of a pass of the body, or none. -/
def begun (l : Loop) (body : List Op) (b : Bindings) : Except Fault (List Frame) :=
  (l.test b).map fun o => (o.map (⟨body, body, some ·⟩)).toList

theorem begun_of_calls_not {l : Loop} {body : List Op} {b : Bindings} (h : l.calls b = false) :
    l.begun body b = .ok [] := by
  rw [begun, test_eq_none.2 h]
  rfl

theorem begun_of_calls {l : Loop} {body : List Op} {b : Bindings} (h : l.calls b = true)
    (hlimit : ∀ limit ∈ l.limit, l.passes < limit) :
    l.begun body b = .ok [⟨body, body, some l.started⟩] := by
  rw [begun, test_eq_some.2 ⟨h, hlimit, rfl⟩]
  rfl

/-- A test ends the loop, begins a pass, or fails. -/
theorem begun_cases (l : Loop) (body : List Op) (b : Bindings) :
    (l.calls b = false ∧ l.begun body b = .ok []) ∨
    (l.calls b = true ∧ (∀ limit ∈ l.limit, l.passes < limit) ∧
      l.begun body b = .ok [⟨body, body, some l.started⟩]) ∨
    ∃ e, l.begun body b = .error e := by
  cases htest : l.test b with
  | error e => exact .inr (.inr ⟨e, by rw [begun, htest]; rfl⟩)
  | ok o =>
    cases o with
    | none =>
      have hcalls := test_eq_none.1 htest
      exact .inl ⟨hcalls, begun_of_calls_not hcalls⟩
    | some l' =>
      obtain ⟨hcalls, hlimit, -⟩ := test_eq_some.1 htest
      exact .inr (.inl ⟨hcalls, hlimit, begun_of_calls hcalls hlimit⟩)

/-- Goes on with the frames that a test puts on top. -/
theorem begin?_bind {α : Type} (l : Loop) (body : List Op) (context : Handle)
    (k : List Frame → Flow α) :
    (do match ← l.begin? context with
        | some loop => return some ⟨body, body, some loop⟩
        | none => return none : Flow (Option Frame)).bind (fun o => k o.toList) =
      (Flow.view context).bind fun b => (Flow.ofExcept (l.begun body b)).bind k := by
  rw [begin?_eq_test]
  refine congrArg (Flow.act _) (funext fun b => ?_)
  change ((Flow.ofExcept (l.test b)).bind _).bind _ = (Flow.ofExcept (l.begun body b)).bind k
  unfold begun
  cases l.test b with
  | error e => rfl
  | ok o => cases o <;> rfl

end Loop

/-! ## Moves -/

/-- Two runners make moves of the same kind, with related steps, and are related after them. -/
inductive Moved.Rel (S : Step → Step → Prop) (R : Runner → Runner → Prop) : Moved → Moved → Prop
  | atEnd : Rel S R .atEnd .atEnd
  | onward {r r' : Runner} : R r r' → Rel S R (.onward r) (.onward r')
  | handed {s s' : Step} {r r' : Runner} : S s s' → R r r' → Rel S R (.handed s r) (.handed s' r')

namespace Runner

variable (d : Dispatcher) (r : Runner) {body rest inner : List Op} {loop : Option Loop}
  {outer : List Frame} {op : Op} {l : Loop} {mode : LoopMode}

theorem move_atEnd (h : r.frames = []) : move d r = .done (.ok .atEnd) := by
  rw [move, h]
  rfl

/-- A list that is used up, and is no body, is left. -/
theorem move_up (h : r.frames = ⟨body, [], none⟩ :: outer) :
    move d r = .done (.ok (.onward { r with frames := outer })) := by
  rw [move, h]
  rfl

/-- Before another pass the condition is tested. -/
theorem move_again (h : r.frames = ⟨body, [], some l⟩ :: outer) :
    move d r = (Flow.view r.context).bind fun b => (Flow.ofExcept (l.begun body b)).bind fun fs =>
      .done (.ok (.onward { r with frames := fs ++ outer })) := by
  rw [move, h]
  exact Loop.begin?_bind l body r.context
    fun fs => .done (.ok (Moved.onward { r with frames := fs ++ outer }))

/-- An op that is no loop is handed out. -/
theorem move_plain (h : r.frames = ⟨body, op :: rest, loop⟩ :: outer)
    (hkind : LoopMode.ofKind? op.kind = none) :
    move d r = Flow.check.bind fun _ => (d.exec op r.context).bind fun v =>
      .done (.ok (.handed ⟨r.dispatched, op, v, r.context⟩
        { r with frames := ⟨body, rest, loop⟩ :: outer, dispatched := r.dispatched + 1 })) := by
  rw [move, h]
  dsimp only
  rw [hkind]
  rfl

/-- A loop op that cannot be read. -/
theorem move_misread (h : r.frames = ⟨body, op :: rest, loop⟩ :: outer)
    (hkind : LoopMode.ofKind? op.kind = some mode) {e : Fault}
    (hop : Loop.ofOp d.config mode op = .error e) :
    move d r = Flow.check.bind fun _ => .fail e := by
  rw [move, h]
  dsimp only
  rw [hkind]
  dsimp only [enter?]
  rw [hop]
  rfl

/-- A loop op without a body is passed over. -/
theorem move_bodiless (h : r.frames = ⟨body, op :: rest, loop⟩ :: outer)
    (hkind : LoopMode.ofKind? op.kind = some mode)
    (hop : Loop.ofOp d.config mode op = .ok (l, [])) :
    move d r = Flow.check.bind fun _ =>
      .done (.ok (.onward { r with frames := ⟨body, rest, loop⟩ :: outer })) := by
  rw [move, h]
  dsimp only
  rw [hkind]
  dsimp only [enter?]
  rw [hop]
  rfl

/-- Before the first pass of a loop op the condition is tested. -/
theorem move_enter (h : r.frames = ⟨body, op :: rest, loop⟩ :: outer)
    (hkind : LoopMode.ofKind? op.kind = some mode)
    (hop : Loop.ofOp d.config mode op = .ok (l, inner)) (hinner : inner ≠ []) :
    move d r = Flow.check.bind fun _ => (Flow.view r.context).bind fun b =>
      (Flow.ofExcept (l.begun inner b)).bind fun fs =>
        .done (.ok (.onward { r with frames := fs ++ ⟨body, rest, loop⟩ :: outer })) := by
  rw [move, h]
  dsimp only
  rw [hkind]
  dsimp only [enter?]
  rw [hop]
  obtain ⟨o, inner, rfl⟩ := List.exists_cons_of_ne_nil hinner
  exact congrArg (Flow.bind _) (funext fun _ => Loop.begin?_bind l (o :: inner) r.context
    fun fs => .done (.ok (Moved.onward { r with frames := fs ++ ⟨body, rest, loop⟩ :: outer })))

/-! ## Advances, move by move -/

section

variable {d r} {f : Frame} {n : Nat}

theorem advance_again (hframes : r.frames = f :: outer) (hrest : f.rest = []) :
    advance d (n + 1) r = (again? f r.context).bind fun next =>
      advance d n { r with frames := next.toList ++ outer } := by
  rw [advance_succ, move, hframes]
  dsimp only
  rw [hrest]
  exact Flow.bind_assoc _ _ _

theorem advance_enter (hframes : r.frames = f :: outer) (hrest : f.rest = op :: rest)
    (hmode : LoopMode.ofKind? op.kind = some mode) :
    advance d (n + 1) r = Flow.check.bind fun _ => (enter? d mode op r.context).bind fun next =>
      advance d n { r with frames := next.toList ++ { f with rest } :: outer } := by
  rw [advance_succ, move, hframes]
  dsimp only
  rw [hrest]
  dsimp only
  rw [hmode]
  refine (Flow.bind_assoc _ _ _).trans (congrArg (Flow.bind _) (funext fun _ => ?_))
  exact Flow.bind_assoc _ _ _

theorem advance_step (hframes : r.frames = f :: outer) (hrest : f.rest = op :: rest)
    (hmode : LoopMode.ofKind? op.kind = none) :
    advance d (n + 1) r = Flow.check.bind fun _ => (d.exec op r.context).bind fun v =>
      .done (.ok (some ⟨r.dispatched, op, v, r.context⟩,
        { r with frames := { f with rest } :: outer, dispatched := r.dispatched + 1 })) := by
  rw [advance_succ, move, hframes]
  dsimp only
  rw [hrest]
  dsimp only
  rw [hmode]
  refine (Flow.bind_assoc _ _ _).trans (congrArg (Flow.bind _) (funext fun _ => ?_))
  exact Flow.bind_assoc _ _ _

end

end Runner

end WorkflowEngine
