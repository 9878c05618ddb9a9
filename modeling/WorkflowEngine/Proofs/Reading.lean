import WorkflowEngine.Proofs.Approximation
import WorkflowEngine.Runner

/-!
# The plain reading of an op list

A runner keeps a stack of frames with cursors and counters, because it gives up control after every
step. What an op list means can be said without all that: the ops are read in order, and a loop is
read by reading its body again and again. `Reading.ops`, `Reading.op` and `Reading.passes` say it
so, by recursion, and without any of the runner's state.

**Readings.** A reading goes on with the steps taken so far, and it keeps them when a fault ends it.

**Cut off.** The recursion counts down a number of steps, and more of them only take a reading
further (`Reading.below_succ`).
-/

namespace WorkflowEngine

/-- From the steps taken so far to a result or a fault, and all the steps taken by then. -/
def Reading (α : Type) : Type := List Step → Flow (Except Fault α × List Step)

namespace Reading

variable {α β : Type}

/-- Goes on with the result of a reading. A fault ends the whole. -/
def bind (f : Reading α) (k : α → Reading β) : Reading β := fun taken =>
  (f taken).bind fun
    | (.ok a, taken) => k a taken
    | (.error e, taken) => .done (.ok (.error e, taken))

instance : Monad Reading where
  pure a := fun taken => .done (.ok (.ok a, taken))
  bind := bind

theorem bind_apply (f : Reading α) (k : α → Reading β) (taken : List Step) :
    (f >>= k) taken = (f taken).bind fun
      | (.ok a, taken) => k a taken
      | (.error e, taken) => .done (.ok (.error e, taken)) := rfl

theorem bind_pure (f : Reading α) : (f >>= fun a => pure a) = f := by
  funext taken
  refine Eq.trans (congrArg (Flow.bind _) (funext fun p => ?_)) (Flow.bind_pure _)
  obtain ⟨_ | a, taken⟩ := p <;> rfl

theorem bind_assoc {γ : Type} (f : Reading α) (k : α → Reading β) (l : β → Reading γ) :
    f >>= k >>= l = f >>= fun a => k a >>= l := by
  funext taken
  refine Eq.trans (Flow.bind_assoc _ _ _) (congrArg (Flow.bind _) (funext fun p => ?_))
  obtain ⟨_ | a, taken⟩ := p <;> rfl

instance : LawfulMonad Reading := .mk' _ bind_pure (fun _ _ => rfl) bind_assoc

/-- What a flow does. A fault leaves the steps taken as they are. -/
def of (f : Flow α) : Reading α := fun taken => f.attempt.bind fun r => .done (.ok (r, taken))

instance : MonadLift Flow Reading where
  monadLift := of

/-- Takes a step: an op has been executed. -/
def take (op : Op) (result : Value) (context : Handle) : Reading Unit := fun taken =>
  .done (.ok (.ok (), taken ++ [⟨taken.length, op, result, context⟩]))

/-! ## The reading -/

mutual

/-- Reads ops one after another. -/
def ops (d : Dispatcher) (context : Handle) : Nat → List Op → Reading Unit
  | 0, _ => of .starved
  | _ + 1, [] => return
  | n + 1, first :: rest => do
    op d context n first
    ops d context n rest

/-- Reads one op. A loop is read in passes, unless there is nothing in it. -/
def op (d : Dispatcher) (context : Handle) : Nat → Op → Reading Unit
  | 0, _ => of .starved
  | n + 1, op => do
    of Flow.check
    match LoopMode.ofKind? op.kind with
    | none =>
      let result ← of (d.exec op context)
      take op result context
    | some mode =>
      let body ← of (.ofExcept op.innerOps)
      let limit ← of (.ofExcept (op.natParam "maxIterations"))
      let condition ← of (.ofExcept (op.requireText "condition"))
      if body.isEmpty then return
      else passes d context mode condition (limit.or d.config.maxLoopIterations) body n 0

/-- Reads the body of a loop as often as its condition calls for it, which has been done a number of
times already. -/
def passes (d : Dispatcher) (context : Handle) (mode : LoopMode) (condition : String)
    (limit : Option Nat) (body : List Op) : Nat → Nat → Reading Unit
  | 0, _ => of .starved
  | n + 1, started => do
    let b ← of (Flow.view context)
    if mode.callsFor (b.isTruthy condition) then
      if limit = some started then of (.fail (.loopLimit mode.kind condition started))
      else do
        ops d context n body
        passes d context mode condition limit body n (started + 1)
    else return

end

/-- A whole run. At top level it announces its start and its end. -/
def run (d : Dispatcher) (topLevel : Bool) (context : Handle) (n : Nat) (list : List Op) :
    Reading Unit := do
  if topLevel then of (Flow.announce .workflowStart .noop context)
  ops d context n list
  if topLevel then of (Flow.announce .workflowDone .noop context)

/-- What is yielded: the steps, and the fault if there is one. -/
def yields : Except Fault Unit × List Step → List (Except Fault Step)
  | (.ok (), taken) => taken.map .ok
  | (.error e, taken) => taken.map .ok ++ [.error e]

/-- What a reading yields, together with the steps taken before. -/
def streamFrom (f : Reading Unit) (taken : List Step) : Flow (List (Except Fault Step)) :=
  (f taken).map yields

/-- What a reading yields from the beginning. -/
def stream (f : Reading Unit) : Flow (List (Except Fault Step)) := f.streamFrom []

/-! ## Readings that are cut off later -/

/-- The second reading does what the first does, and perhaps goes on where that is cut off. -/
def Below (f g : Reading α) : Prop := ∀ taken, (f taken).Below (g taken)

theorem Below.refl (f : Reading α) : f.Below f := fun _ => .refl _

theorem Below.trans {f g h : Reading α} (hfg : f.Below g) (hgh : g.Below h) : f.Below h :=
  fun taken => (hfg taken).trans (hgh taken)

theorem Below.bind {f g : Reading α} {k l : α → Reading β} (h : f.Below g)
    (hk : ∀ a, (k a).Below (l a)) : (f >>= k).Below (g >>= l) := by
  intro taken
  refine (h taken).bind fun p => ?_
  obtain ⟨_ | a, taken⟩ := p
  · exact .refl _
  · exact hk a taken

/-- Only what comes after a reading is cut off later. -/
theorem Below.after {f : Reading α} {k l : α → Reading β} (hk : ∀ a, (k a).Below (l a)) :
    (f >>= k).Below (f >>= l) := .bind (.refl f) hk

theorem below_of_le {f : Nat → Reading α} (h : ∀ n, (f n).Below (f (n + 1))) {m n : Nat}
    (hmn : m ≤ n) : (f m).Below (f n) :=
  fun taken => Flow.below_of_le (fun n => h n taken) hmn

theorem starved_below (f : Reading α) : (of .starved : Reading α).Below f := fun _ => .starved _

theorem below_succ (d : Dispatcher) (context : Handle) (n : Nat) :
    (∀ list, (ops d context n list).Below (ops d context (n + 1) list)) ∧
    (∀ o, (op d context n o).Below (op d context (n + 1) o)) ∧
    ∀ mode condition limit body started,
      (passes d context mode condition limit body n started).Below
        (passes d context mode condition limit body (n + 1) started) := by
  induction n with
  | zero =>
    refine ⟨?_, ?_, ?_⟩
    · intro list
      rw [ops]
      exact starved_below _
    · intro o
      rw [op]
      exact starved_below _
    · intro mode condition limit body started
      rw [passes]
      exact starved_below _
  | succ n ih =>
    obtain ⟨ihops, ihop, ihpasses⟩ := ih
    refine ⟨?_, ?_, ?_⟩
    · intro list
      cases list with
      | nil => exact .refl _
      | cons first rest => exact .bind (ihop first) fun _ => ihops rest
    · intro o
      unfold op
      refine .after fun _ => ?_
      split
      · exact .refl _
      · refine .after fun body => .after fun limit => .after fun condition => ?_
        split
        · exact .refl _
        · exact ihpasses _ _ _ _ _
    · intro mode condition limit body started
      unfold passes
      refine .after fun b => ?_
      split
      · split
        · exact .refl _
        · exact .bind (ihops body) fun _ => ihpasses _ _ _ _ _
      · exact .refl _

/-! ## Indices -/

/-- Every step has its place in the list as its index. -/
def Indexed (taken : List Step) : Prop :=
  ∀ (i : Nat) (step : Step), taken[i]? = some step → step.index = i

theorem indexed_nil : Indexed [] := fun _ _ h => nomatch h

theorem Indexed.snoc {taken : List Step} (h : Indexed taken) (op : Op) (result : Value)
    (context : Handle) : Indexed (taken ++ [⟨taken.length, op, result, context⟩]) := by
  intro i step hi
  rw [List.getElem?_append] at hi
  split at hi
  · exact h i step hi
  · next hle =>
    rw [List.getElem?_singleton] at hi
    split at hi
    · next hzero =>
      cases hi
      show taken.length = i
      omega
    · cases hi

/-- However it is answered, the reading keeps the steps numbered. -/
def Numbers (f : Reading α) : Prop := ∀ taken t r taken',
  Indexed taken → (f taken).Goes t (.done (.ok (r, taken'))) → Indexed taken'

theorem Numbers.bind {f : Reading α} {k : α → Reading β} (hf : f.Numbers)
    (hk : ∀ a, (k a).Numbers) : (f >>= k).Numbers := by
  intro taken t r taken' h hgoes
  obtain ⟨before, after, p, rfl, h1, h2⟩ := Flow.Goes.of_bind hgoes
  obtain ⟨_ | a, between⟩ := p
  · cases h2
    exact hf _ _ _ _ h h1
  · exact hk a _ _ _ _ (hf _ _ _ _ h h1) h2

theorem numbers_pure (a : α) : (pure a : Reading α).Numbers := by
  intro taken t r taken' h hgoes
  cases hgoes
  exact h

theorem numbers_of (f : Flow α) : (of f).Numbers := by
  intro taken t r taken' h hgoes
  obtain ⟨before, after, x, rfl, -, h2⟩ := Flow.Goes.of_bind hgoes
  cases h2
  exact h

theorem numbers_take (op : Op) (result : Value) (context : Handle) :
    (take op result context).Numbers := by
  intro taken t r taken' h hgoes
  cases hgoes
  exact h.snoc op result context

theorem numbers_read (d : Dispatcher) (context : Handle) (n : Nat) :
    (∀ list, (ops d context n list).Numbers) ∧ (∀ o, (op d context n o).Numbers) ∧
    ∀ mode condition limit body started,
      (passes d context mode condition limit body n started).Numbers := by
  induction n with
  | zero =>
    refine ⟨?_, ?_, ?_⟩
    · intro list
      rw [ops]
      exact numbers_of _
    · intro o
      rw [op]
      exact numbers_of _
    · intro mode condition limit body started
      rw [passes]
      exact numbers_of _
  | succ n ih =>
    obtain ⟨ihops, ihop, ihpasses⟩ := ih
    refine ⟨?_, ?_, ?_⟩
    · intro list
      cases list with
      | nil => exact numbers_pure ()
      | cons first rest => exact (ihop first).bind fun _ => ihops rest
    · intro o
      rw [op]
      refine (numbers_of _).bind fun _ => ?_
      split
      · exact (numbers_of _).bind fun _ => numbers_take _ _ _
      · refine (numbers_of _).bind fun body => (numbers_of _).bind fun limit =>
          (numbers_of _).bind fun condition => ?_
        split
        · exact numbers_pure ()
        · exact ihpasses _ _ _ _ _
    · intro mode condition limit body started
      rw [passes]
      refine (numbers_of _).bind fun b => ?_
      split
      · split
        · exact numbers_of _
        · exact (ihops body).bind fun _ => ihpasses _ _ _ _ _
      · exact numbers_pure ()

theorem numbers_run (d : Dispatcher) (topLevel : Bool) (context : Handle) (n : Nat)
    (list : List Op) : (run d topLevel context n list).Numbers := by
  have hops := (numbers_read d context n).1 list
  cases topLevel with
  | false => exact hops.bind fun _ => numbers_pure ()
  | true => exact (numbers_of _).bind fun _ => hops.bind fun _ => numbers_of _

theorem getElem?_of_yields {p : Except Fault Unit × List Step} {i : Nat} {step : Step}
    (h : (yields p)[i]? = some (.ok step)) : p.2[i]? = some step := by
  obtain ⟨_ | _, taken⟩ := p
  · simp only [yields] at h
    rw [List.getElem?_append] at h
    split at h
    · simpa using h
    · rw [List.getElem?_singleton] at h
      split at h
      · cases h
      · cases h
  · simpa [yields] using h

/-- **The steps that a run yields are numbered from 0 on.** -/
theorem index_of_stream {d : Dispatcher} {topLevel : Bool} {context : Handle} {n : Nat}
    {list : List Op} {t : List Mark} {items : List (Except Fault Step)}
    (h : (run d topLevel context n list).stream.Goes t (.done (.ok items))) {i : Nat} {step : Step}
    (hi : items[i]? = some (.ok step)) : step.index = i := by
  obtain ⟨before, after, p, rfl, h1, h2⟩ := Flow.Goes.of_bind h
  cases h2
  exact numbers_run d topLevel context n list _ _ _ _ indexed_nil h1 i step (getElem?_of_yields hi)

end Reading

end WorkflowEngine
