import WorkflowEngine.Proofs.Reading

/-!
# A stack of frames and what it stands for

A runner goes through a stack of frames. `Reading.frames` does the same without giving up control
between the steps. A stack stands for a plain reading (`Reading.stack`): of each frame, innermost
first, the ops that are left are read, and then the passes that its loop still has to go.

**Both ways.** Going through a stack does what the reading of the stack does
(`Reading.frames_below`), by induction on the number of steps; and the reading of a list, followed
by going through what is left, does what going through the whole does (`Reading.below_frames`), by
induction on the number of steps of the reading.

**Invariant.** No loop has more passes started than its limit allows (`Loop.Within`). That is why it
makes no difference whether a loop stops at its limit or from its limit on.
-/

namespace WorkflowEngine

namespace Loop

/-- No more passes have been started than the limit allows. -/
def Within (l : Loop) : Prop := ∀ limit ∈ l.limit, l.passes ≤ limit

theorem Within.start (mode : LoopMode) (condition : String) (limit : Option Nat) :
    Within { mode, condition, limit } := fun _ _ => Nat.zero_le _

/-- The loop with one more pass started. -/
def next (l : Loop) : Loop := { l with passes := l.passes + 1 }

theorem Within.next {l : Loop} (h : l.Within) (hne : l.limit ≠ some l.passes) : l.next.Within := by
  intro limit hlimit
  have hle : l.passes ≤ limit := h limit hlimit
  have hlt : l.passes ≠ limit := fun heq => hne (heq ▸ hlimit)
  exact Nat.lt_of_le_of_ne hle hlt

/-- Within its limit, a loop fails if the passes started are as many as the limit. -/
theorem begin?_eq {l : Loop} (h : l.Within) (context : Handle) :
    l.begin? context = (Flow.view context).bind fun b =>
      if l.mode.callsFor (b.isTruthy l.condition) then
        if l.limit = some l.passes then
          .fail (.loopLimit l.mode.kind l.condition l.passes)
        else .done (.ok (some l.next))
      else .done (.ok none) := by
  obtain ⟨mode, condition, limit, passes⟩ := l
  refine congrArg (Flow.bind _) (funext fun b => ?_)
  by_cases hcall : mode.callsFor (b.isTruthy condition)
  · rw [if_pos hcall, if_pos hcall]
    cases limit with
    | none => rfl
    | some limit =>
      have hle : passes ≤ limit := h limit rfl
      by_cases heq : limit = passes
      · subst heq
        rw [if_pos rfl]
        exact if_pos (Nat.le_refl _)
      · rw [if_neg fun hsome => heq (Option.some.inj hsome)]
        exact if_neg fun hge => heq (Nat.le_antisymm hge hle)
  · rw [if_neg hcall, if_neg hcall]
    rfl

end Loop

namespace Reading

variable {α β : Type} {d : Dispatcher} {context : Handle}

/-! ## Readings of flows -/

theorem of_bind (f : Flow α) (g : α → Flow β) : of (f.bind g) = of f >>= fun a => of (g a) := by
  funext taken
  rw [bind_apply, of, of, Flow.attempt_bind, Flow.bind_assoc, Flow.bind_assoc]
  refine congrArg (Flow.bind _) (funext fun r => ?_)
  cases r <;> rfl

theorem of_fail_bind (e : Fault) (k : α → Reading β) : of (.fail e) >>= k = of (.fail e) := rfl

theorem starved_bind_below (k : α → Reading β) (g : Reading β) : (of .starved >>= k).Below g :=
  fun _ => .starved _

/-! ## Testing the condition of a loop -/

/-- Goes on with one reading if a loop has another pass to go, and with the other if it is over. -/
def test (context : Handle) (l : Loop) (again ended : Reading α) : Reading α := do
  let b ← of (Flow.view context)
  if l.mode.callsFor (b.isTruthy l.condition) then
    if l.limit = some l.passes then of (.fail (.loopLimit l.mode.kind l.condition l.passes))
    else again
  else ended

theorem test_bind (l : Loop) (again ended : Reading α) (k : α → Reading β) :
    test context l again ended >>= k = test context l (again >>= k) (ended >>= k) := by
  unfold test
  rw [bind_assoc]
  refine congrArg (bind _) (funext fun b => ?_)
  split
  · split
    · rw [of_fail_bind]
    · rfl
  · rfl

theorem test_below {l : Loop} {again again' ended ended' : Reading α}
    (ha : l.limit ≠ some l.passes → again.Below again') (ho : ended.Below ended') :
    (test context l again ended).Below (test context l again' ended') := by
  refine .after fun b => ?_
  split
  · split
    · exact .refl _
    · next hne => exact ha hne
  · exact ho

/-- The passes that a loop still has to go. -/
def loop (d : Dispatcher) (context : Handle) (n : Nat) (body : List Op) (l : Loop) : Reading Unit :=
  passes d context l.mode l.condition l.limit body n l.passes

theorem loop_succ (n : Nat) (body : List Op) (l : Loop) :
    loop d context (n + 1) body l = test context l
      (do ops d context n body; loop d context n body l.next) (return) := by
  unfold loop
  rw [passes]
  rfl

theorem again?_bind {l : Loop} (h : l.Within) (body rest : List Op)
    (k : Option Frame → Reading α) :
    of (Runner.again? ⟨body, rest, some l⟩ context) >>= k =
      test context l (k (some ⟨body, body, some l.next⟩)) (k none) := by
  have hagain : Runner.again? ⟨body, rest, some l⟩ context = (l.begin? context).bind fun next =>
      .done (.ok (next.map fun l => ⟨body, body, some l⟩)) := by
    refine congrArg (Flow.bind _) (funext fun o => ?_)
    cases o <;> rfl
  rw [hagain, Loop.begin?_eq h, Flow.bind_assoc, of_bind, bind_assoc]
  refine congrArg (bind _) (funext fun b => ?_)
  split
  · split
    · rfl
    · rfl
  · rfl

theorem enter?_bind (mode : LoopMode) (o : Op) (k : Option Frame → Reading α) :
    of (Runner.enter? d mode o context) >>= k = (do
      let body ← of (.ofExcept o.innerOps)
      let limit ← of (.ofExcept (o.natParam "maxIterations"))
      let condition ← of (.ofExcept (o.requireText "condition"))
      if body.isEmpty then k none
      else
        of (Runner.again? ⟨body, [], some
          { mode, condition, limit := limit.or d.config.maxLoopIterations }⟩ context) >>= k) := by
  cases hbody : o.innerOps with
  | error e => simp only [Runner.enter?, Loop.ofOp, hbody]; rfl
  | ok body =>
    cases hlimit : o.natParam "maxIterations" with
    | error e => simp only [Runner.enter?, Loop.ofOp, hbody, hlimit]; rfl
    | ok limit =>
      cases hcondition : o.requireText "condition" with
      | error e => simp only [Runner.enter?, Loop.ofOp, hbody, hlimit, hcondition]; rfl
      | ok condition =>
        have hparts : Loop.ofOp d.config mode o = .ok
            ({ mode, condition, limit := limit.or d.config.maxLoopIterations }, body) := by
          simp only [Loop.ofOp, hbody, hlimit, hcondition]
          rfl
        simp only [Runner.enter?, hparts]
        cases body <;> rfl

/-! ## Stacks of frames -/

/-- Goes through a stack of frames as a runner does, and on from step to step. -/
def frames (d : Dispatcher) (context : Handle) : Nat → List Frame → Reading Unit
  | 0, _ => of .starved
  | _ + 1, [] => return
  | n + 1, f :: outer =>
    match f.rest with
    | [] => do
      let again ← of (Runner.again? f context)
      frames d context n (again.toList ++ outer)
    | op :: rest => do
      of Flow.check
      match LoopMode.ofKind? op.kind with
      | some mode =>
        let entered ← of (Runner.enter? d mode op context)
        frames d context n (entered.toList ++ { f with rest } :: outer)
      | none =>
        let result ← of (d.exec op context)
        take op result context
        frames d context n ({ f with rest } :: outer)

/-- What a stack of frames stands for. -/
def stack (d : Dispatcher) (context : Handle) (n : Nat) : List Frame → Reading Unit
  | [] => return
  | f :: outer => do
    ops d context n f.rest
    f.loop.elim (return) (loop d context n f.body)
    stack d context n outer

theorem stack_below_succ (n : Nat) (fs : List Frame) :
    (stack d context n fs).Below (stack d context (n + 1) fs) := by
  obtain ⟨hops, -, hpasses⟩ := below_succ d context n
  induction fs with
  | nil => exact .refl _
  | cons f outer ih =>
    refine .bind (hops f.rest) fun _ => .bind ?_ fun _ => ih
    cases f.loop with
    | none => exact .refl _
    | some l => exact hpasses _ _ _ _ _

theorem stack_below {m n : Nat} (h : m ≤ n) (fs : List Frame) :
    (stack d context m fs).Below (stack d context n fs) :=
  below_of_le (fun n => stack_below_succ n fs) h

theorem frames_below_succ (n : Nat) (fs : List Frame) :
    (frames d context n fs).Below (frames d context (n + 1) fs) := by
  induction n generalizing fs with
  | zero =>
    unfold frames
    exact starved_below _
  | succ n ih =>
    unfold frames
    cases fs with
    | nil => exact .refl _
    | cons f outer =>
      dsimp only
      split
      · exact .after fun _ => ih _
      · refine .after fun _ => ?_
        split
        · exact .after fun _ => ih _
        · exact .after fun _ => .after fun _ => ih _

theorem frames_mono {m n : Nat} (h : m ≤ n) (fs : List Frame) :
    (frames d context m fs).Below (frames d context n fs) :=
  below_of_le (fun n => frames_below_succ n fs) h

/-! ## From a stack to its reading -/

/-- The loop of the frame is within its limit. -/
def FrameWithin (f : Frame) : Prop := ∀ l ∈ f.loop, l.Within

theorem op_stack_below (n : Nat) (f : Frame) (o : Op) (rest : List Op) (outer : List Frame) :
    (op d context n o >>= fun _ => stack d context n ({ f with rest } :: outer)).Below
      (stack d context (n + 1) ({ f with rest := o :: rest } :: outer)) := by
  have hsplit : stack d context (n + 1) ({ f with rest := o :: rest } :: outer) =
      op d context n o >>= fun _ => ops d context n rest >>= fun _ =>
        f.loop.elim (return) (loop d context (n + 1) f.body) >>= fun _ =>
          stack d context (n + 1) outer := by
    simp only [stack]
    rw [ops, bind_assoc]
  rw [hsplit]
  refine .after fun _ => .after fun _ => .bind ?_ fun _ => stack_below_succ n outer
  cases f.loop with
  | none => exact .refl _
  | some l => exact (below_succ d context n).2.2 _ _ _ _ _

/-- What begins a loop, tests its condition, and goes on, is below the passes of that loop. -/
theorem again?_below {n k : Nat} {l : Loop} {body rest : List Op} {outer : List Frame}
    (hl : l.Within) (houter : ∀ f ∈ outer, FrameWithin f)
    (ih : ∀ fs, (∀ f ∈ fs, FrameWithin f) →
      (frames d context n fs).Below (stack d context k fs)) :
    (of (Runner.again? ⟨body, rest, some l⟩ context) >>= fun again =>
      frames d context n (again.toList ++ outer)).Below
      (loop d context (k + 1) body l >>= fun _ => stack d context k outer) := by
  rw [again?_bind hl, loop_succ, test_bind, bind_assoc]
  refine test_below (fun hne => ?_) (ih outer houter)
  refine ih (⟨body, body, some l.next⟩ :: outer) fun f hf => ?_
  rcases List.mem_cons.1 hf with rfl | hf
  · intro l' hl'
    cases hl'
    exact hl.next hne
  · exact houter f hf

/-- **From a stack to its reading.** Going through a stack whose loops are within their limits does
what the reading does that the stack stands for. -/
theorem frames_below (n : Nat) (fs : List Frame) (h : ∀ f ∈ fs, FrameWithin f) :
    (frames d context n fs).Below (stack d context (3 * n) fs) := by
  induction n generalizing fs with
  | zero =>
    unfold frames
    exact starved_below _
  | succ n ih =>
    cases fs with
    | nil => exact .refl _
    | cons f outer =>
      obtain ⟨body, rest, l⟩ := f
      have houter : ∀ g ∈ outer, FrameWithin g := fun g hg => h g (List.mem_cons_of_mem _ hg)
      have hfirst := h _ (List.mem_cons_self ..)
      unfold frames
      cases rest with
      | nil =>
        -- The frame is used up: its loop, if it has one, is tested.
        cases l with
        | none => exact (ih outer houter).trans (stack_below (by omega) outer)
        | some l =>
          refine (again?_below (hfirst l rfl) houter ih).trans ?_
          refine Below.trans ?_ (stack_below (show 3 * n + 1 ≤ 3 * (n + 1) by omega) _)
          exact .after fun _ => stack_below_succ _ outer
      | cons o rest =>
        -- The op is taken off its frame first, and then entered or executed.
        have htail : ∀ g ∈ (⟨body, rest, l⟩ : Frame) :: outer, FrameWithin g := by
          intro g hg
          rcases List.mem_cons.1 hg with rfl | hg
          · exact hfirst
          · exact houter g hg
        refine Below.trans ?_ (op_stack_below (3 * n + 2) ⟨body, rest, l⟩ o rest outer)
        have hrest := (ih _ htail).trans (stack_below (show 3 * n ≤ 3 * n + 2 by omega) _)
        rw [op, bind_assoc]
        refine .after fun _ => ?_
        cases LoopMode.ofKind? o.kind with
        | none =>
          simp only [bind_assoc]
          exact .after fun result => .after fun _ => hrest
        | some mode =>
          simp only [bind_assoc, enter?_bind]
          refine .after fun inner => .after fun limit => .after fun condition => ?_
          by_cases hempty : inner.isEmpty
          · rw [if_pos hempty, if_pos hempty]
            exact hrest
          · rw [if_neg hempty, if_neg hempty]
            refine (again?_below (.start mode condition _) htail ih).trans (.after fun _ => ?_)
            exact stack_below (by omega) _

/-! ## From a reading to a stack -/

/-- **From a reading to a stack.** A list, an op or the passes of a loop are read, and then what is
left of the stack is gone through: going through the whole stack does that too, if it is cut off as
much later as the reading is long. -/
theorem below_frames (n : Nat) : ∃ c, ∀ (d : Dispatcher) (context : Handle) (m : Nat),
    (∀ list body l outer, (ops d context n list >>= fun _ =>
      frames d context m (⟨body, [], l⟩ :: outer)).Below
        (frames d context (m + c) (⟨body, list, l⟩ :: outer))) ∧
    (∀ o body rest l outer, (op d context n o >>= fun _ =>
      frames d context m (⟨body, rest, l⟩ :: outer)).Below
        (frames d context (m + c) (⟨body, o :: rest, l⟩ :: outer))) ∧
    ∀ (l : Loop) body rest outer, l.Within →
      (loop d context n body l >>= fun _ => frames d context m outer).Below
        (of (Runner.again? ⟨body, rest, some l⟩ context) >>= fun again =>
          frames d context (m + c) (again.toList ++ outer)) := by
  induction n with
  | zero =>
    refine ⟨0, fun d context m => ⟨?_, ?_, ?_⟩⟩
    · intro list body l outer
      rw [ops]
      exact starved_bind_below _ _
    · intro o body rest l outer
      rw [op]
      exact starved_bind_below _ _
    · intro l body rest outer _
      rw [loop, passes]
      exact starved_bind_below _ _
  | succ n ih =>
    obtain ⟨c, ih⟩ := ih
    refine ⟨c + c + 1, fun d context m => ?_⟩
    replace ih := ih d context
    refine ⟨?_, ?_, ?_⟩
    · intro list body l outer
      cases list with
      | nil =>
        rw [ops, pure_bind]
        exact frames_mono (by omega) _
      | cons o rest =>
        rw [ops, bind_assoc]
        have hrest := (ih m).1 rest body l outer
        have hfirst := (ih (m + c)).2.1 o body rest l outer
        exact ((Below.after fun _ => hrest).trans hfirst).trans (frames_mono (by omega) _)
    · intro o body rest l outer
      rw [op, bind_assoc, ← Nat.add_assoc, frames]
      refine .after fun _ => ?_
      have hrest : (frames d context m (⟨body, rest, l⟩ :: outer)).Below
          (frames d context (m + (c + c)) (⟨body, rest, l⟩ :: outer)) := frames_mono (by omega) _
      cases LoopMode.ofKind? o.kind with
      | none =>
        simp only [bind_assoc]
        exact .after fun result => .after fun _ => hrest
      | some mode =>
        simp only [bind_assoc, enter?_bind]
        refine .after fun inner => .after fun limit => .after fun condition => ?_
        by_cases hempty : inner.isEmpty
        · rw [if_pos hempty, if_pos hempty]
          exact hrest
        · rw [if_neg hempty, if_neg hempty]
          refine ((ih m).2.2 _ inner [] _ (.start mode condition _)).trans (.after fun _ => ?_)
          exact frames_mono (by omega) _
    · intro l body rest outer hl
      rw [loop_succ, test_bind, bind_assoc, again?_bind hl]
      refine test_below (fun hne => ?_) (frames_mono (by omega) _)
      -- The pass, then the further passes, then the rest: each takes a part of the stack.
      have hpasses := (ih m).2.2 l.next body [] outer (hl.next hne)
      have hbody := (ih (m + c + 1)).1 body body (some l.next) outer
      have hframe : (of (Runner.again? ⟨body, [], some l.next⟩ context) >>= fun again =>
          frames d context (m + c) (again.toList ++ outer)) =
          frames d context (m + c + 1) (⟨body, [], some l.next⟩ :: outer) := by rw [frames]
      rw [hframe] at hpasses
      exact ((Below.after fun _ => hpasses).trans hbody).trans (frames_mono (by omega) _)

/-! ## Whole lists -/

/-- Going through a list, and reading it, come to the same. -/
theorem frames_below_ops (n : Nat) (list : List Op) :
    (frames d context n [⟨list, list, none⟩]).Below (ops d context (3 * n) list) := by
  have hstack : stack d context (3 * n) [⟨list, list, none⟩] = ops d context (3 * n) list :=
    bind_pure _
  rw [← hstack]
  refine frames_below n _ fun f hf => ?_
  cases List.mem_singleton.1 hf
  exact fun _ hl => nomatch hl

theorem ops_below_frames (n : Nat) : ∃ m, ∀ (d : Dispatcher) (context : Handle) (list : List Op),
    (ops d context n list).Below (frames d context m [⟨list, list, none⟩]) := by
  obtain ⟨c, hc⟩ := below_frames n
  refine ⟨2 + c, fun d context list => ?_⟩
  have hlist := (hc d context 2).1 list list none []
  have hleft : frames d context 2 [⟨list, [], none⟩] = (return) := by
    rw [frames]
    rfl
  rwa [hleft, bind_pure_unit] at hlist

end Reading

end WorkflowEngine
