import WorkflowEngine.Proofs.Moves
import WorkflowEngine.Proofs.Reading.Frames

/-!
# A runner does what the plain reading does

**Theorem (`Runner.follows_reading`).** Calling `Runner.next` until it yields nothing more, and
reading the op list plainly, agree. Answered alike, they do the same at every moment; one ends
exactly if the other does, and then they have yielded the same steps and the same fault. And what
has been yielded after any number of calls is the beginning of what the reading yields.

A runner that is called again and again goes through its stack of frames (`Reading.frames`), but for
where the number of steps is counted: a call of `next` counts anew. So each of the two is below the
other, cut off later (`Reading.streamFrom_below`, `Reading.below_streamFrom`). The rest is in
`Reading.frames_below_ops` and `Reading.ops_below_frames`.
-/

namespace WorkflowEngine

namespace Runner

variable {d : Dispatcher}

/-! ## Runners that are cut off later -/

theorem advance_below_succ (n : Nat) (r : Runner) :
    (advance d n r).Below (advance d (n + 1) r) := by
  induction n generalizing r with
  | zero => exact .starved _
  | succ n ih =>
    rw [advance_succ, advance_succ]
    refine .bind (.refl _) fun m => ?_
    cases m with
    | onward r => exact ih r
    | _ => exact .refl _

theorem next_below_succ_of_running (n : Nat) {r : Runner} (h : r.phase = .running) :
    (next d n r).Below (next d (n + 1) r) := by
  rw [next_of_running h, next_of_running h]
  exact .bind (advance_below_succ n r).attempt fun _ => .refl _

theorem next_below_succ (n : Nat) (r : Runner) : (next d n r).Below (next d (n + 1) r) := by
  match h : r.phase with
  | .finished =>
    rw [next_of_finished h, next_of_finished h]
    exact .refl _
  | .running => exact next_below_succ_of_running n h
  | .pending =>
    rw [next_of_pending h, next_of_pending h]
    exact .bind (.refl _) fun _ => next_below_succ_of_running n rfl

theorem next_below {m n : Nat} (h : m ≤ n) (r : Runner) : (next d m r).Below (next d n r) :=
  Flow.below_of_le (fun n => next_below_succ n r) h

theorem streamFrom_below_succ (yielded : List (Except Fault Step)) (n : Nat) (r : Runner) :
    (streamFrom d yielded n r).Below (streamFrom d yielded (n + 1) r) := by
  induction n generalizing yielded r with
  | zero => exact .starved _
  | succ n ih =>
    unfold streamFrom
    refine .bind (next_below_succ n r) fun p => ?_
    obtain ⟨_ | item, r⟩ := p
    · exact .refl _
    · exact ih _ _

/-! ## From call to call -/

/-- What is made of the end of an advance: the next item, and with it the further ones. -/
def collect (d : Dispatcher) (yielded : List (Except Fault Step)) (n : Nat) (r : Runner)
    (x : Except Fault (Option Step × Runner)) : Flow (List (Except Fault Step)) :=
  (r.deliver x).bind fun
    | (none, _) => .done (.ok yielded.reverse)
    | (some item, r) => streamFrom d (item :: yielded) n r

theorem streamFrom_succ (yielded : List (Except Fault Step)) (n : Nat) {r : Runner}
    (h : r.phase = .running) : streamFrom d yielded (n + 1) r =
      (advance d n r).attempt.bind (collect d yielded n r) := by
  rw [streamFrom, next_of_running h]
  exact Flow.bind_assoc _ _ _

theorem collect_error_succ (yielded : List (Except Fault Step)) (n : Nat) (r : Runner) (e : Fault) :
    collect d yielded (n + 1) r (.error e) = .done (.ok (yielded.reverse ++ [.error e])) := by
  unfold collect deliver
  simp only [Flow.bind, streamFrom]
  rw [next_of_finished rfl]
  simp only [bind, Flow.bind, pure, List.reverse_cons]

theorem collect_error_below (yielded : List (Except Fault Step)) (n : Nat) (r : Runner)
    (e : Fault) : (collect d yielded n r (.error e)).Below
      (.done (.ok (yielded.reverse ++ [.error e]))) := by
  cases n with
  | zero => exact .starved _
  | succ n =>
    rw [collect_error_succ]
    exact .done _

/-- What is made of the end of an advance does not depend on the runner that was advanced. -/
theorem collect_below_succ (yielded : List (Except Fault Step)) (n : Nat) (r r' : Runner)
    (x : Except Fault (Option Step × Runner)) :
    (collect d yielded n r x).Below (collect d yielded (n + 1) r' x) := by
  match x with
  | .ok (some step, s) => exact streamFrom_below_succ _ n s
  | .ok (none, s) =>
    refine .bind (.refl _) fun p => ?_
    obtain ⟨_ | item, s⟩ := p
    · exact .refl _
    · exact streamFrom_below_succ _ n s
  | .error e =>
    rw [collect_error_succ]
    exact collect_error_below yielded n r e

end Runner

namespace Reading

open Runner (collect advance)

variable {d : Dispatcher} {context : Handle} {topLevel : Bool}

/-- A runner under way. -/
def runner (topLevel : Bool) (context : Handle) (taken : List Step) (fs : List Frame) : Runner :=
  ⟨topLevel, context, fs, .running, taken.length⟩

/-- What has been yielded when some steps have been taken, newest first. -/
def yielded (taken : List Step) : List (Except Fault Step) := (taken.map .ok).reverse

/-- The end of a run. At top level it is announced. -/
def ending (topLevel : Bool) (context : Handle) : Reading Unit :=
  if topLevel then of (Flow.announce .workflowDone .noop context) else return

/-! ## Parts of an advance -/

theorem attempt_bind {α β γ : Type} (f : Flow α) (k : α → Flow β) (c : Except Fault β → Flow γ) :
    (f.bind k).attempt.bind c = f.attempt.bind fun
      | .ok a => (k a).attempt.bind c
      | .error e => c (.error e) := by
  rw [Flow.attempt_bind, Flow.bind_assoc]
  refine congrArg (Flow.bind _) (funext fun r => ?_)
  cases r <;> rfl

theorem streamFrom_of_bind {α : Type} (f : Flow α) (k : α → Reading Unit) (taken : List Step) :
    (of f >>= k).streamFrom taken = f.attempt.bind fun
      | .ok a => (k a).streamFrom taken
      | .error e => .done (.ok (yields (.error e, taken))) := by
  rw [streamFrom, Flow.map, bind_apply, of, Flow.bind_assoc, Flow.bind_assoc]
  refine congrArg (Flow.bind _) (funext fun r => ?_)
  cases r <;> rfl

variable {α β : Type} {taken : List Step} {c : Except Fault β → Flow (List (Except Fault Step))}

theorem part_below {f : Flow α} {k : α → Flow β} {k' : α → Reading Unit}
    (hok : ∀ a, ((k a).attempt.bind c).Below ((k' a).streamFrom taken))
    (herror : ∀ e, (c (.error e)).Below (.done (.ok (yields (.error e, taken))))) :
    ((f.bind k).attempt.bind c).Below ((of f >>= k').streamFrom taken) := by
  rw [attempt_bind, streamFrom_of_bind]
  refine .bind (.refl _) fun x => ?_
  cases x with
  | ok a => exact hok a
  | error e => exact herror e

theorem below_part {f : Flow α} {k : α → Flow β} {k' : α → Reading Unit}
    (hok : ∀ a, ((k' a).streamFrom taken).Below ((k a).attempt.bind c))
    (herror : ∀ e, (Flow.done (.ok (yields (.error e, taken)))).Below (c (.error e))) :
    ((of f >>= k').streamFrom taken).Below ((f.bind k).attempt.bind c) := by
  rw [attempt_bind, streamFrom_of_bind]
  refine .bind (.refl _) fun x => ?_
  cases x with
  | ok a => exact hok a
  | error e => exact herror e

/-! ## Ends of an advance -/

theorem collect_none (n : Nat) (r : Runner) (fs : List Frame) :
    collect d (yielded taken) n r (.ok (none, runner topLevel context taken fs)) =
      (ending topLevel context).streamFrom taken := by
  unfold collect yielded ending
  rw [List.reverse_reverse]
  cases topLevel <;> rfl

theorem collect_some (n : Nat) (r : Runner) (o : Op) (result : Value) (fs : List Frame) :
    collect d (yielded taken) n r (.ok (some ⟨taken.length, o, result, context⟩,
      ⟨topLevel, context, fs, .running, taken.length + 1⟩)) =
      Runner.streamFrom d (yielded (taken ++ [⟨taken.length, o, result, context⟩])) n
        (runner topLevel context (taken ++ [⟨taken.length, o, result, context⟩]) fs) := by
  unfold collect yielded runner
  rw [List.map_append, List.reverse_append, List.length_append]
  rfl

theorem collect_error_below (n : Nat) (r : Runner) (e : Fault) :
    (collect d (yielded taken) n r (.error e)).Below
      (.done (.ok (yields (.error e, taken)))) := by
  have h := Runner.collect_error_below (d := d) (yielded taken) n r e
  rwa [yielded, List.reverse_reverse] at h

/-! ## From calls to the stack -/

/-- An advance, and then the further calls, are below going through the stack. -/
theorem advance_below {n N : Nat} (r : Runner)
    (ih : ∀ taken fs,
      (Runner.streamFrom d (yielded taken) n (runner topLevel context taken fs)).Below
        ((frames d context N fs >>= fun _ => ending topLevel context).streamFrom taken))
    (j : Nat) (fs : List Frame) :
    ((advance d j (runner topLevel context taken fs)).attempt.bind
      (collect d (yielded taken) n r)).Below
      ((frames d context (N + j) fs >>= fun _ => ending topLevel context).streamFrom taken) := by
  have herror : ∀ e, (collect d (yielded taken) n r (.error e)).Below
      (.done (.ok (yields (.error e, taken)))) := collect_error_below n r
  induction j generalizing fs with
  | zero => exact .starved _
  | succ j ihj =>
    rw [← Nat.add_assoc]
    cases fs with
    | nil =>
      rw [frames, pure_bind, ← collect_none (d := d) n r []]
      exact .refl _
    | cons f outer =>
      obtain ⟨body, rest, l⟩ := f
      cases rest with
      | nil =>
        rw [Runner.advance_again rfl rfl, frames, bind_assoc]
        exact part_below (fun again => ihj _) herror
      | cons o rest =>
        rw [frames, bind_assoc]
        cases hmode : LoopMode.ofKind? o.kind with
        | some mode =>
          rw [Runner.advance_enter rfl rfl hmode]
          refine part_below (fun _ => ?_) herror
          simp only [bind_assoc]
          exact part_below (fun entered => ihj _) herror
        | none =>
          rw [Runner.advance_step rfl rfl hmode]
          refine part_below (fun _ => ?_) herror
          simp only [bind_assoc]
          refine part_below (fun result => ?_) herror
          have hstep :=
            ih (taken ++ [⟨taken.length, o, result, context⟩]) (⟨body, rest, l⟩ :: outer)
          rw [← collect_some n r] at hstep
          refine hstep.trans (.bind ?_ fun _ => .refl _)
          exact (Below.bind (frames_mono (by omega) _) fun _ => .refl _) _

theorem streamFrom_below (d : Dispatcher) (context : Handle) (topLevel : Bool) (n : Nat) :
    ∃ N, ∀ taken fs,
      (Runner.streamFrom d (yielded taken) n (runner topLevel context taken fs)).Below
        ((frames d context N fs >>= fun _ => ending topLevel context).streamFrom taken) := by
  induction n with
  | zero => exact ⟨0, fun _ _ => .starved _⟩
  | succ n ih =>
    obtain ⟨N, ih⟩ := ih
    refine ⟨N + n, fun taken fs => ?_⟩
    rw [Runner.streamFrom_succ _ _ rfl]
    exact advance_below _ ih n fs

/-! ## From the stack to calls -/

/-- Going through the stack is below calling again and again. -/
theorem below_streamFrom (n : Nat) (taken : List Step) (fs : List Frame) :
    ((frames d context n fs >>= fun _ => ending topLevel context).streamFrom taken).Below
      (Runner.streamFrom d (yielded taken) (n + 1) (runner topLevel context taken fs)) := by
  induction n generalizing taken fs with
  | zero =>
    rw [frames]
    exact .starved _
  | succ n ih =>
    rw [Runner.streamFrom_succ _ _ rfl]
    have herror : ∀ r e, (Flow.done (.ok (yields (.error e, taken)))).Below
        (collect d (yielded taken) (n + 1) r (.error e)) := by
      intro r e
      rw [Runner.collect_error_succ, yielded, List.reverse_reverse]
      exact .refl _
    have hagain : ∀ r fs,
        ((frames d context n fs >>= fun _ => ending topLevel context).streamFrom taken).Below
          ((advance d n (runner topLevel context taken fs)).attempt.bind
            (collect d (yielded taken) (n + 1) r)) := by
      intro r fs
      have h := ih taken fs
      rw [Runner.streamFrom_succ _ _ rfl] at h
      exact h.trans (.bind (.refl _) fun x => Runner.collect_below_succ _ _ _ _ x)
    cases hfs : fs with
    | nil =>
      rw [frames, pure_bind, ← collect_none (d := d) (n + 1) (runner topLevel context taken []) []]
      exact .refl _
    | cons f outer =>
      obtain ⟨body, rest, l⟩ := f
      cases rest with
      | nil =>
        rw [Runner.advance_again rfl rfl, frames, bind_assoc]
        exact below_part (fun again => hagain _ _) (herror _)
      | cons o rest =>
        rw [frames, bind_assoc]
        cases hmode : LoopMode.ofKind? o.kind with
        | some mode =>
          rw [Runner.advance_enter rfl rfl hmode]
          refine below_part (fun _ => ?_) (herror _)
          simp only [bind_assoc]
          exact below_part (fun entered => hagain _ _) (herror _)
        | none =>
          rw [Runner.advance_step rfl rfl hmode]
          refine below_part (fun _ => ?_) (herror _)
          simp only [bind_assoc]
          refine below_part (fun result => ?_) (herror _)
          have hstep :=
            ih (taken ++ [⟨taken.length, o, result, context⟩]) (⟨body, rest, l⟩ :: outer)
          rw [← collect_some (n + 1) (runner topLevel context taken fs)] at hstep
          exact hstep

/-! ## Whole runs -/

/-- Calling to the end is below the reading, cut off later. -/
theorem bounded_reading (d : Dispatcher) (topLevel : Bool) (list : List Op) (context : Handle) :
    Flow.Bounded (fun n => Runner.streamFrom d [] n (.start topLevel list context))
      (fun n => (run d topLevel context n list).stream) := by
  intro n
  obtain ⟨N, hN⟩ := streamFrom_below d context topLevel n
  refine ⟨3 * N, ?_⟩
  cases n with
  | zero => exact .starved _
  | succ n =>
    have hbegun :
        (Runner.streamFrom d [] (n + 1) (runner topLevel context [] [⟨list, list, none⟩])).Below
          ((ops d context (3 * N) list >>= fun _ => ending topLevel context).streamFrom []) := by
      refine (hN [] _).trans (.bind ?_ fun _ => .refl _)
      exact (Below.bind (frames_below_ops N list) fun _ => .refl _) _
    cases topLevel with
    | false => exact hbegun
    | true => exact .act fun _ => hbegun

/-- The reading is below calling to the end, cut off later, and how much later depends on nothing
else. -/
theorem stream_below_calls (n : Nat) :
    ∃ m, ∀ (d : Dispatcher) (topLevel : Bool) (list : List Op) (context : Handle),
      (run d topLevel context n list).stream.Below
        (Runner.streamFrom d [] m (.start topLevel list context)) := by
  obtain ⟨m, hm⟩ := ops_below_frames n
  refine ⟨m + 1, fun d topLevel list context => ?_⟩
  have hbegun : ((ops d context n list >>= fun _ => ending topLevel context).streamFrom []).Below
      (Runner.streamFrom d [] (m + 1) (runner topLevel context [] [⟨list, list, none⟩])) := by
    refine Flow.Below.trans (.bind ?_ fun _ => .refl _) (below_streamFrom m [] _)
    exact (Below.bind (hm d context list) fun _ => .refl _) _
  cases topLevel with
  | false => exact hbegun
  | true => exact .act fun _ => hbegun

theorem bounded_calls (d : Dispatcher) (topLevel : Bool) (list : List Op) (context : Handle) :
    Flow.Bounded (fun n => (run d topLevel context n list).stream)
      (fun n => Runner.streamFrom d [] n (.start topLevel list context)) := by
  intro n
  obtain ⟨m, hm⟩ := stream_below_calls n
  exact ⟨m, hm d topLevel list context⟩

end Reading

/-! ## The theorem -/

namespace Runner

variable {d : Dispatcher}

/-- What a number of calls of `next` yield, each cut off after `n` steps. -/
def calls (d : Dispatcher) (n : Nat) : Nat → Runner → Flow (List (Except Fault Step) × Runner)
  | 0, r => return ([], r)
  | k + 1, r => do
    match ← next d n r with
    | (none, r) => return ([], r)
    | (some item, r) =>
      let (items, r) ← calls d n k r
      return (item :: items, r)

theorem yielded_prefix {yielded items : List (Except Fault Step)} {n : Nat} {r : Runner}
    {t : List Mark} (h : (streamFrom d yielded n r).Goes t (.done (.ok items))) :
    yielded.reverse <+: items := by
  induction n generalizing yielded r t with
  | zero => cases h
  | succ n ih =>
    rw [streamFrom] at h
    obtain ⟨before, after, p, rfl, -, h2⟩ := Flow.Goes.of_bind h
    obtain ⟨_ | item, r'⟩ := p
    · cases h2
      exact List.prefix_rfl
    · have hmore := ih h2
      rw [List.reverse_cons] at hmore
      exact (List.prefix_append _ _).trans hmore

theorem calls_prefix {m k n : Nat} {r r' : Runner} {yielded called items : List (Except Fault Step)}
    {t u : List Mark} (hcalls : (calls d m k r).Goes t (.done (.ok (called, r'))))
    (h : (streamFrom d yielded n r).Goes (t ++ u) (.done (.ok items))) :
    yielded.reverse ++ called <+: items := by
  induction k generalizing yielded called n r t with
  | zero =>
    cases hcalls
    rw [List.append_nil]
    exact yielded_prefix h
  | succ k ih =>
    cases n with
    | zero => exact absurd h Flow.Goes.of_starved
    | succ n =>
      rw [calls] at hcalls
      rw [streamFrom] at h
      obtain ⟨t₁, t₂, p, rfl, h1, h2⟩ := Flow.Goes.of_bind hcalls
      -- The two calls are cut off at different times; they come to the same.
      have hlater := (Flow.Below.bind (next_below (Nat.le_max_right m n) r)
        fun p => .refl _).goes_done h
      have hfirst := (next_below (Nat.le_max_left m n) r).goes_done h1
      rw [List.append_assoc] at hlater
      have hrest := Flow.Goes.rest_of_bind hfirst hlater
      obtain ⟨_ | item, r₁⟩ := p
      · cases h2
        cases hrest.of_done.2
        exact ⟨[], by simp⟩
      · obtain ⟨t₃, t₄, q, rfl, h3, h4⟩ := Flow.Goes.of_bind h2
        cases h4
        rw [List.append_assoc] at hrest
        have hmore := ih h3 hrest
        rwa [List.reverse_cons, List.append_assoc] at hmore

/-- **A runner does what the plain reading of its op list does.** Whatever the ops, the limits, the
executors and the answers, stops included: calling `next` to the end and the reading do the same at
every moment, and one ends exactly if the other does, with the same steps, the same fault, and the
same contexts. The steps are numbered from 0 on, and what the calls have yielded at any moment is
the beginning of what the reading yields. -/
theorem follows_reading (d : Dispatcher) (topLevel : Bool) (list : List Op) (context : Handle) :
    Flow.Agree (fun n => streamFrom d [] n (start topLevel list context))
      (fun n => (Reading.run d topLevel context n list).stream) ∧
    ∀ n t items, (Reading.run d topLevel context n list).stream.Goes t (.done (.ok items)) →
      (∀ (i : Nat) (step : Step), items[i]? = some (.ok step) → step.index = i) ∧
      ∀ before after m k yielded r, t = before ++ after →
        (calls d m k (start topLevel list context)).Goes before (.done (.ok (yielded, r))) →
        yielded <+: items := by
  have hcalls := Reading.bounded_calls d topLevel list context
  refine ⟨.of_bounded (Reading.bounded_reading d topLevel list context) hcalls, ?_⟩
  intro n t items h
  refine ⟨fun i step hi => Reading.index_of_stream h hi, ?_⟩
  rintro before after m k yielded r rfl hyielded
  obtain ⟨N, hN⟩ := hcalls.ends ⟨n, h⟩
  exact calls_prefix hyielded hN

/-- A dispatcher whose ops turn off the condition `go`. -/
def turningOff : Dispatcher := ⟨{}, 0, fun _ context => do
  Flow.store context "go" .null
  return .null⟩

/-- A loop that goes on until its condition is turned off, and an op after it. -/
def loopAndMore : List Op := [.repeatWhile "go" [.set .null], .set .null]

/-- The loop is gone through once; the first call yields the first of the two steps. -/
theorem follows_reading_of_loop :
    ∃ t items, (Reading.run turningOff true ⟨0⟩ 9 loopAndMore).stream.Goes t (.done (.ok items)) ∧
      items.length = 2 ∧
      ∃ before after yielded r, t = before ++ after ∧
        (calls turningOff 9 1 (start true loopAndMore ⟨0⟩)).Goes before (.done (.ok (yielded, r))) ∧
        yielded.length = 1 ∧ yielded <+: items := by
  let w : World := { contexts := (Store.empty.create (.ofList [("go", .bool true)])).2 }
  let reading := (Reading.run turningOff true ⟨0⟩ 9 loopAndMore).stream
  let call := calls turningOff 9 1 (start true loopAndMore ⟨0⟩)
  have hread : (reading.run {} w).1.result?.map List.length = some 2 := by decide +kernel
  have hcall : (call.run {} w).1.result?.map (fun p => p.1.length) = some 1 := by decide +kernel
  obtain ⟨items, hitems, hlength⟩ := Option.map_eq_some_iff.1 hread
  obtain ⟨⟨yielded, r⟩, hyielded, hone⟩ := Option.map_eq_some_iff.1 hcall
  have hreadGoes := Flow.goes_of_result? hitems
  have hcallGoes := Flow.goes_of_result? hyielded
  have hsplit : reading.trace {} w =
      call.trace {} w ++ (reading.trace {} w).drop (call.trace {} w).length := rfl
  obtain ⟨-, hfollows⟩ := follows_reading turningOff true loopAndMore ⟨0⟩
  exact ⟨_, items, hreadGoes, hlength, _, _, yielded, r, hsplit, hcallGoes, hone,
    (hfollows 9 _ items hreadGoes).2 _ _ 9 1 yielded r hsplit hcallGoes⟩

end Runner

end WorkflowEngine
