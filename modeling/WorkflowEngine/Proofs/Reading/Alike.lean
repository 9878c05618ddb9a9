import WorkflowEngine.Proofs.Reading.Steps

/-!
# Readings that differ in what they take note of

A plain reading takes a step for every op that has been executed. Other notes may be taken instead:
`Reading.opsBy` is the plain reading with any way of executing an op. Two such readings do the same,
and their notes stay in a relation, if this is so for every op that is executed
(`Reading.alike_by`).
-/

namespace WorkflowEngine

namespace Flow

variable {α β γ δ : Type}

/-- The two flows do the same, and where one has a result, so has the other, and the two are in a
relation. -/
inductive Same (R : α → β → Prop) : Flow α → Flow β → Prop
  | ok {a : α} {b : β} : R a b → Same R (.done (.ok a)) (.done (.ok b))
  | error (e : Fault) : Same R (.done (.error e)) (.done (.error e))
  | starved : Same R .starved .starved
  | pause {rest : Unit → Flow α} {rest' : Unit → Flow β} :
      Same R (rest ()) (rest' ()) → Same R (.pause rest) (.pause rest')
  | act {a : Action} {next : a.Answer → Flow α} {next' : a.Answer → Flow β} :
      (∀ x, Same R (next x) (next' x)) → Same R (.act a next) (.act a next')

namespace Same

variable {R : α → β → Prop} {S : γ → δ → Prop}

theorem refl {R : α → α → Prop} (hR : ∀ a, R a a) (f : Flow α) : f.Same R f := by
  induction f with
  | done r =>
    cases r with
    | ok a => exact .ok (hR a)
    | error e => exact .error e
  | starved => exact .starved
  | pause rest ih => exact .pause (ih ())
  | act a next ih => exact .act ih

theorem bind {f : Flow α} {g : Flow β} {k : α → Flow γ} {l : β → Flow δ} (h : f.Same R g)
    (hk : ∀ a b, R a b → (k a).Same S (l b)) : (f.bind k).Same S (g.bind l) := by
  induction h with
  | ok hab => exact hk _ _ hab
  | error e => exact .error e
  | starved => exact .starved
  | pause _ ih => exact .pause ih
  | act _ ih => exact .act ih

theorem bind_eq {f : Flow α} {g : Flow β} (h : f.Same R g) {k : α → Flow γ} {l : β → Flow γ}
    (hk : ∀ a b, R a b → k a = l b) : f.bind k = g.bind l := by
  induction h with
  | ok hab => exact hk _ _ hab
  | error e => rfl
  | starved => rfl
  | pause _ ih => exact congrArg Flow.pause (funext fun _ => ih)
  | act _ ih => exact congrArg (Flow.act _) (funext ih)

end Same

end Flow

namespace Reading

variable {α β : Type}

/-! ## The plain reading with another way of executing an op -/

mutual

/-- Reads ops one after another. -/
def opsBy (execute : Op → Reading Unit) (config : Config) (context : Handle) :
    Nat → List Op → Reading Unit
  | 0, _ => of .starved
  | _ + 1, [] => return
  | n + 1, first :: rest => do
    opBy execute config context n first
    opsBy execute config context n rest

/-- Reads one op. -/
def opBy (execute : Op → Reading Unit) (config : Config) (context : Handle) :
    Nat → Op → Reading Unit
  | 0, _ => of .starved
  | n + 1, op => do
    of Flow.check
    match LoopMode.ofKind? op.kind with
    | none => execute op
    | some mode =>
      let body ← of (.ofExcept op.innerOps)
      let limit ← of (.ofExcept (op.natParam "maxIterations"))
      let condition ← of (.ofExcept (op.requireText "condition"))
      if body.isEmpty then return
      else passesBy execute config context mode condition (limit.or config.maxLoopIterations) body n 0

/-- Reads the body of a loop as often as its condition calls for it. -/
def passesBy (execute : Op → Reading Unit) (config : Config) (context : Handle) (mode : LoopMode)
    (condition : String) (limit : Option Nat) (body : List Op) : Nat → Nat → Reading Unit
  | 0, _ => of .starved
  | n + 1, started => do
    let b ← of (Flow.view context)
    if mode.callsFor (b.isTruthy condition) then
      if limit = some started then of (.fail (.loopLimit mode.kind condition started))
      else do
        opsBy execute config context n body
        passesBy execute config context mode condition limit body n (started + 1)
    else return

end

/-- A whole run. At top level it announces its start and its end. -/
def runBy (execute : Op → Reading Unit) (config : Config) (topLevel : Bool) (context : Handle)
    (n : Nat) (list : List Op) : Reading Unit := do
  if topLevel then of (Flow.announce .workflowStart .noop context)
  opsBy execute config context n list
  if topLevel then of (Flow.announce .workflowDone .noop context)

/-- Executes an op and takes a step. -/
def execute (d : Dispatcher) (context : Handle) (op : Op) : Reading Unit := do
  let result ← of (d.exec op context)
  take op result context

theorem eq_by (d : Dispatcher) (context : Handle) (n : Nat) :
    (∀ list, ops d context n list = opsBy (execute d context) d.config context n list) ∧
    (∀ o, op d context n o = opBy (execute d context) d.config context n o) ∧
    ∀ mode condition limit body started,
      passes d context mode condition limit body n started =
        passesBy (execute d context) d.config context mode condition limit body n started := by
  induction n with
  | zero =>
    refine ⟨fun _ => ?_, fun _ => ?_, fun _ _ _ _ _ => ?_⟩
    · rw [ops, opsBy]
    · rw [op, opBy]
    · rw [passes, passesBy]
  | succ n ih =>
    obtain ⟨ihops, ihop, ihpasses⟩ := ih
    refine ⟨fun list => ?_, fun o => ?_, fun mode condition limit body started => ?_⟩
    · cases list with
      | nil => rw [ops, opsBy]
      | cons first rest => rw [ops, opsBy, ihop, ihops]
    · rw [op, opBy]
      simp only [ihpasses]
      rfl
    · rw [passes, passesBy, ihops, ihpasses]

theorem run_eq_runBy (d : Dispatcher) (topLevel : Bool) (context : Handle) (n : Nat)
    (list : List Op) : run d topLevel context n list =
      runBy (execute d context) d.config topLevel context n list := by
  unfold run runBy
  rw [(eq_by d context n).1]

/-! ## Alike -/

/-- From notes in a relation the two readings do the same, and their notes are in the relation
afterwards. -/
def Alike (R : List Step → List Step → Prop) (f g : Reading α) : Prop := ∀ taken taken',
  R taken taken' → (f taken).Same (fun p q => p.1 = q.1 ∧ R p.2 q.2) (g taken')

variable {R : List Step → List Step → Prop}

theorem Alike.bind {f g : Reading α} {k l : α → Reading β} (h : Alike R f g)
    (hk : ∀ a, Alike R (k a) (l a)) : Alike R (f >>= k) (g >>= l) := by
  intro taken taken' hR
  refine (h taken taken' hR).bind fun p q hpq => ?_
  obtain ⟨r, taken⟩ := p
  obtain ⟨r', taken'⟩ := q
  obtain ⟨rfl, hR⟩ := hpq
  cases r with
  | ok a => exact hk a taken taken' hR
  | error e => exact .ok ⟨rfl, hR⟩

theorem alike_of (f : Flow α) : Alike R (of f) (of f) := by
  intro taken taken' hR
  refine (Flow.Same.refl (R := Eq) (fun _ => rfl) f.attempt).bind fun r r' hr => ?_
  cases hr
  exact .ok ⟨rfl, hR⟩

theorem alike_pure (a : α) : Alike R (pure a) (pure a) := fun _ _ hR => .ok ⟨rfl, hR⟩

/-- **Readings are alike if they execute each op alike.** -/
theorem alike_by {first second : Op → Reading Unit} (h : ∀ op, Alike R (first op) (second op))
    (config : Config) (context : Handle) (n : Nat) :
    (∀ list, Alike R (opsBy first config context n list) (opsBy second config context n list)) ∧
    (∀ o, Alike R (opBy first config context n o) (opBy second config context n o)) ∧
    ∀ mode condition limit body started,
      Alike R (passesBy first config context mode condition limit body n started)
        (passesBy second config context mode condition limit body n started) := by
  induction n with
  | zero =>
    refine ⟨fun _ => ?_, fun _ => ?_, fun _ _ _ _ _ => ?_⟩
    · rw [opsBy, opsBy]
      exact alike_of _
    · rw [opBy, opBy]
      exact alike_of _
    · rw [passesBy, passesBy]
      exact alike_of _
  | succ n ih =>
    obtain ⟨ihops, ihop, ihpasses⟩ := ih
    refine ⟨fun list => ?_, fun o => ?_, fun mode condition limit body started => ?_⟩
    · cases list with
      | nil => exact alike_pure ()
      | cons first rest => exact (ihop first).bind fun _ => ihops rest
    · rw [opBy, opBy]
      refine (alike_of _).bind fun _ => ?_
      split
      · exact h o
      · refine (alike_of _).bind fun body => (alike_of _).bind fun limit =>
          (alike_of _).bind fun condition => ?_
        split
        · exact alike_pure ()
        · exact ihpasses _ _ _ _ _
    · rw [passesBy, passesBy]
      refine (alike_of _).bind fun b => ?_
      split
      · split
        · exact alike_of _
        · exact (ihops body).bind fun _ => ihpasses _ _ _ _ _
      · exact alike_pure ()

theorem alike_runBy {first second : Op → Reading Unit} (h : ∀ op, Alike R (first op) (second op))
    (config : Config) (topLevel : Bool) (context : Handle) (n : Nat) (list : List Op) :
    Alike R (runBy first config topLevel context n list)
      (runBy second config topLevel context n list) := by
  have hops := (alike_by h config context n).1 list
  cases topLevel with
  | false => exact hops.bind fun _ => alike_pure ()
  | true => exact (alike_of _).bind fun _ => hops.bind fun _ => alike_of _

end Reading

end WorkflowEngine
