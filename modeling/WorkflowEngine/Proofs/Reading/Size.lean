import WorkflowEngine.Op.Depth
import WorkflowEngine.Proofs.Binding
import WorkflowEngine.Proofs.Reading.Alike

/-!
# How long a run can be

If every loop of an op list has a limit, so do all runs of the list. The size of an op that is no
loop is 1, and that of a loop is its limit times the size of its body.

**Surroundings.** Whether a flow ends depends on how its actions are answered. `Flow.runIn` runs a
flow with answers from anywhere: those of a world, or of one that others change whenever the flow
pauses.

**Theorem (`Engine.ends_within_size`).** If every loop has a limit, and every execution of an op
that a run of the list can hand out ends, then every run of the list ends, however the conditions of
its loops turn out, and hands out at most as many ops as the size of the list. Ops are counted when
they are handed out (`Reading.counted`), so an op that fails counts too.

A loop counts its passes anew whenever it is entered, so a runner has to look at its whole stack of
frames to see how much is still to come. The plain reading does not: it reads a loop within the
recursion that reads the op. The bound follows that recursion (`Reading.bounds_op`), and for the
passes of one loop it is an induction on the passes that are left.
-/

namespace WorkflowEngine

/-! ## Sizes -/

namespace Op

/-- The limit of a loop op: its own, or else that of the configuration. -/
def limit? (config : Config) (op : Op) : Option Nat :=
  match op.natParam "maxIterations" with
  | .ok own => own.or config.maxLoopIterations
  | .error _ => none

/-- How many ops the op can have handed out. What cannot be read of a loop counts nothing. -/
def size (config : Config) (op : Op) : Nat :=
  match LoopMode.ofKind? op.kind with
  | none => 1
  | some _ =>
    match _h : op.innerOps with
    | .ok body =>
      (op.limit? config).getD 0 * (body.attach.map fun o => o.1.size config).foldr (· + ·) 0
    | .error _ => 0
termination_by op.depth
decreasing_by exact depth_lt_of_mem_innerOps _h o.2

/-- How many ops the ops of a list can have handed out. -/
def sizes (config : Config) (list : List Op) : Nat := (list.map (size config)).foldr (· + ·) 0

theorem size_of_plain {config : Config} {op : Op} (h : LoopMode.ofKind? op.kind = none) :
    op.size config = 1 := by
  rw [size, h]

/-- The size of a loop is its limit times the size of its body. -/
theorem size_of_loop {config : Config} {op : Op} {mode : LoopMode} {body : List Op} {limit : Nat}
    (h : LoopMode.ofKind? op.kind = some mode) (hbody : op.innerOps = .ok body)
    (hlimit : op.limit? config = some limit) : op.size config = limit * sizes config body := by
  rw [size, h, hlimit]
  dsimp only
  split
  · next body' hbody' =>
    cases hbody.symm.trans hbody'
    rw [sizes, Option.getD_some, List.attach_map_val (f := size config)]
  · next e he => cases hbody.symm.trans he

/-- Every loop that the op is or has in the bodies of its loops has a limit, its own or that of the
configuration. -/
inductive Limited (config : Config) : Op → Prop
  | plain {op : Op} : LoopMode.ofKind? op.kind = none → Limited config op
  | loop {op : Op} {mode : LoopMode} : LoopMode.ofKind? op.kind = some mode →
      (∀ l body, Loop.ofOp config mode op = .ok (l, body) → ∃ limit, l.limit = some limit) →
      (∀ l body, Loop.ofOp config mode op = .ok (l, body) →
        ∀ inner ∈ body, Limited config inner) → Limited config op

end Op

/-! ## Surroundings -/

/-- What answers the actions of a flow. The answers may depend on all that has happened, and while
the flow pauses anything may happen. -/
structure Surroundings where
  State : Type
  answer : State → (a : Action) → a.Answer × State
  /-- What becomes of it during a pause. -/
  idle : State → State

/-- A world, which nobody changes during a pause. -/
def World.surroundings (env : Environment) : Surroundings := ⟨World, World.perform env, id⟩

namespace Flow

variable {α β : Type} {S : Surroundings} {s s' : S.State}

/-- Runs a flow to its end, in any surroundings. -/
def runIn (S : Surroundings) : Flow α → S.State → Outcome α × S.State
  | .done r, s => (.ended r, s)
  | .starved, s => (.starved, s)
  | .pause rest, s => (rest ()).runIn S (S.idle s)
  | .act a next, s =>
    let p := S.answer s a
    (next p.1).runIn S p.2

theorem runIn_surroundings (env : Environment) (f : Flow α) (w : World) :
    f.runIn (World.surroundings env) w = f.run env w := by
  induction f generalizing w with
  | done r => rfl
  | starved => rfl
  | pause rest ih => exact ih () w
  | act a next ih => exact ih _ _

theorem runIn_bind_ok {f : Flow α} {a : α} (h : f.runIn S s = (.ended (.ok a), s'))
    (k : α → Flow β) : (f.bind k).runIn S s = (k a).runIn S s' := by
  induction f generalizing s with
  | done r =>
    cases h
    rfl
  | starved => cases h
  | pause rest ih => exact ih () h
  | act b next ih => exact ih _ h

theorem runIn_bind_error {f : Flow α} {e : Fault} (h : f.runIn S s = (.ended (.error e), s'))
    (k : α → Flow β) : (f.bind k).runIn S s = (.ended (.error e), s') := by
  induction f generalizing s with
  | done r =>
    cases h
    rfl
  | starved => cases h
  | pause rest ih => exact ih () h
  | act b next ih => exact ih _ h

theorem runIn_attempt {f : Flow α} {r : Except Fault α} (h : f.runIn S s = (.ended r, s')) :
    f.attempt.runIn S s = (.ended (.ok r), s') := by
  induction f generalizing s with
  | done r =>
    cases h
    rfl
  | starved => cases h
  | pause rest ih => exact ih () h
  | act b next ih => exact ih _ h

theorem runIn_of_map {f : Flow α} {g : α → β} {r : Except Fault β}
    (h : ((f.map g).runIn S s).1 = .ended r) :
    ∃ q, (f.runIn S s).1 = .ended q ∧ q.map g = r := by
  induction f generalizing s with
  | done q =>
    cases q with
    | ok a =>
      cases h
      exact ⟨.ok a, rfl, rfl⟩
    | error e =>
      cases h
      exact ⟨.error e, rfl, rfl⟩
  | starved => cases h
  | pause rest ih => exact ih () h
  | act b next ih => exact ih _ h

theorem runIn_ofExcept (S : Surroundings) (r : Except Fault α) (s : S.State) :
    ∃ s', (ofExcept r).runIn S s = (.ended r, s') := by
  cases r with
  | ok a => exact ⟨s, rfl⟩
  | error e => exact ⟨_, rfl⟩

theorem runIn_check (S : Surroundings) (s : S.State) :
    ∃ r s', check.runIn S s = (.ended r, s') := by
  have hrun : check.runIn S s = (if (S.answer s .poll).1 then fail .cancelled
    else .done (.ok ())).runIn S (S.answer s .poll).2 := rfl
  rw [hrun]
  split
  · exact ⟨_, _, rfl⟩
  · exact ⟨_, _, rfl⟩

/-- A flow that ends does so however much later it would be cut off. -/
theorem Below.runIn_eq {f g : Flow α} (h : f.Below g) {r : Except Fault α}
    (hf : f.runIn S s = (.ended r, s')) : g.runIn S s = (.ended r, s') := by
  induction h generalizing s with
  | starved g => cases hf
  | done r => exact hf
  | pause _ ih => exact ih hf
  | act _ ih => exact ih _ hf

/-- With enough steps the flow comes to its end, and with more it comes to the same. -/
def EndsIn (S : Surroundings) (f : Nat → Flow α) (s : S.State) : Prop :=
  ∃ N r s', ∀ n, N ≤ n → (f n).runIn S s = (.ended r, s')

theorem EndsIn.bind {f : Nat → Flow α} {g : α → Nat → Flow β} (hf : EndsIn S f s)
    (hg : ∀ a s, EndsIn S (g a) s) : EndsIn S (fun n => (f n).bind fun a => g a n) s := by
  obtain ⟨N, r, s', hrun⟩ := hf
  cases r with
  | error e => exact ⟨N, .error e, s', fun n hn => runIn_bind_error (hrun n hn) _⟩
  | ok a =>
    obtain ⟨M, r, s'', hrun'⟩ := hg a s'
    refine ⟨max N M, r, s'', fun n hn => ?_⟩
    exact (runIn_bind_ok (hrun n (by omega)) _).trans (hrun' n (by omega))

theorem endsIn_perform (a : Action) (s : S.State) : EndsIn S (fun _ => perform a) s :=
  ⟨0, _, _, fun _ _ => rfl⟩

theorem endsIn_done (r : Except Fault α) (s : S.State) : EndsIn S (fun _ => .done r) s :=
  ⟨0, r, s, fun _ _ => rfl⟩

end Flow

namespace Reading

variable {α β : Type} {S : Surroundings} {j k : Nat}

/-! ## Readings that end -/

/-- With enough steps, for the executions of ops and for the reading itself, the reading comes to
its end, and has taken note of at most so many ops. -/
def Bounds (S : Surroundings) (k : Nat) (f : Nat → Nat → Reading α) : Prop := ∀ taken s,
  ∃ N r taken' s', taken'.length ≤ taken.length + k ∧
    ∀ m n, N ≤ m → N ≤ n → (f m n taken).runIn S s = (.ended (.ok (r, taken')), s')

theorem Bounds.mono {f : Nat → Nat → Reading α} (h : Bounds S j f) (hjk : j ≤ k) :
    Bounds S k f := by
  intro taken s
  obtain ⟨N, r, taken', s', hle, hrun⟩ := h taken s
  exact ⟨N, r, taken', s', by omega, hrun⟩

theorem Bounds.of_succ {f : Nat → Nat → Reading α} (h : Bounds S k fun m n => f m (n + 1)) :
    Bounds S k f := by
  intro taken s
  obtain ⟨N, r, taken', s', hle, hrun⟩ := h taken s
  refine ⟨N + 1, r, taken', s', hle, fun m n hm hn => ?_⟩
  obtain ⟨n, rfl⟩ := Nat.exists_eq_add_of_le' (Nat.le_of_add_left_le hn)
  exact hrun m n (by omega) (by omega)

theorem bounds_pure (a : α) : Bounds S 0 fun _ _ => (pure a : Reading α) :=
  fun taken s => ⟨0, .ok a, taken, s, Nat.le_refl _, fun _ _ _ _ => rfl⟩

theorem bounds_take (op : Op) (result : Value) (context : Handle) :
    Bounds S 1 fun _ _ => take op result context :=
  fun _ s => ⟨0, .ok (), _, s, by simp, fun _ _ _ _ => rfl⟩

theorem bounds_of {f : Nat → Flow α} (h : ∀ s, Flow.EndsIn S f s) :
    Bounds S 0 fun m _ => of (f m) := by
  intro taken s
  obtain ⟨N, r, s', hrun⟩ := h s
  refine ⟨N, r, taken, s', Nat.le_refl _, fun m n hm _ => ?_⟩
  exact Flow.runIn_bind_ok (Flow.runIn_attempt (hrun m hm)) _

theorem Bounds.bind {f : Nat → Nat → Reading α} {g : α → Nat → Nat → Reading β}
    (hf : Bounds S j f) (hg : ∀ a, Bounds S k (g a)) :
    Bounds S (j + k) fun m n => f m n >>= fun a => g a m n := by
  intro taken s
  obtain ⟨N, r, between, s', hle, hrun⟩ := hf taken s
  cases r with
  | error e =>
    refine ⟨N, .error e, between, s', by omega, fun m n hm hn => ?_⟩
    exact Flow.runIn_bind_ok (hrun m n hm hn) _
  | ok a =>
    obtain ⟨M, r, taken', s'', hle', hrun'⟩ := hg a between s'
    refine ⟨max N M, r, taken', s'', by omega, fun m n hm hn => ?_⟩
    exact (Flow.runIn_bind_ok (hrun m n (by omega) (by omega)) _).trans
      (hrun' m n (by omega) (by omega))

theorem Bounds.after {f : Flow α} {P : Except Fault α → Prop} {g : α → Nat → Nat → Reading β}
    (hf : ∀ s, ∃ r s', P r ∧ f.runIn S s = (.ended r, s'))
    (hg : ∀ a, P (.ok a) → Bounds S k (g a)) :
    Bounds S k fun m n => of f >>= fun a => g a m n := by
  intro taken s
  obtain ⟨r, s', hr, hrun⟩ := hf s
  have hof : (of f taken).runIn S s = (.ended (.ok (r, taken)), s') :=
    Flow.runIn_bind_ok (Flow.runIn_attempt hrun) _
  cases r with
  | error e =>
    refine ⟨0, .error e, taken, s', Nat.le_add_right .., fun m n _ _ => ?_⟩
    exact Flow.runIn_bind_ok hof _
  | ok a =>
    obtain ⟨N, r, taken', s'', hle, hrun'⟩ := hg a hr taken s'
    refine ⟨N, r, taken', s'', hle, fun m n hm hn => ?_⟩
    exact (Flow.runIn_bind_ok hof _).trans (hrun' m n hm hn)

theorem Bounds.after_check {g : Nat → Nat → Reading β} (hg : Bounds S k g) :
    Bounds S k fun m n => of Flow.check >>= fun _ => g m n := by
  refine .after (P := fun _ => True) (fun s => ?_) fun _ _ => hg
  obtain ⟨r, s', hrun⟩ := Flow.runIn_check S s
  exact ⟨r, s', trivial, hrun⟩

theorem Bounds.after_perform {a : Action} {g : a.Answer → Nat → Nat → Reading β}
    (hg : ∀ x, Bounds S k (g x)) : Bounds S k fun m n => of (.perform a) >>= fun x => g x m n :=
  .after (P := fun _ => True) (fun _ => ⟨_, _, trivial, rfl⟩) fun x _ => hg x

theorem Bounds.after_read {r : Except Fault α} {g : α → Nat → Nat → Reading β}
    (hg : ∀ a, r = .ok a → Bounds S k (g a)) :
    Bounds S k fun m n => of (.ofExcept r) >>= fun a => g a m n := by
  refine .after (P := fun q => r = q) (fun s => ?_) hg
  obtain ⟨s', hrun⟩ := Flow.runIn_ofExcept S r s
  exact ⟨r, s', rfl, hrun⟩

/-! ## What the reading of a list takes -/

/-- Takes note of an op, and then executes it. -/
def handOut (d : Dispatcher) (context : Handle) (op : Op) : Reading Unit := do
  take op .null context
  let _ ← of (d.exec op context)

/-- Whether a run ends well, and how many ops it has handed out. -/
def counted (d : Dispatcher) (topLevel : Bool) (context : Handle) (n : Nat) (list : List Op) :
    Flow (Except Fault Unit × Nat) :=
  (runBy (handOut d context) d.config topLevel context n list []).map fun p => (p.1, p.2.length)

section

variable {execute : Nat → Op → Reading Unit} {config : Config} {context : Handle} {list : List Op}

theorem bounds_ops {ops : List Op}
    (h : ∀ o ∈ ops, Bounds S (o.size config) fun m n => opBy (execute m) config context n o) :
    Bounds S (Op.sizes config ops) fun m n => opsBy (execute m) config context n ops := by
  induction ops with
  | nil =>
    refine .of_succ ?_
    simp only [opsBy]
    exact bounds_pure ()
  | cons o rest ih =>
    refine .of_succ ?_
    simp only [opsBy]
    exact (h o (List.mem_cons_self ..)).bind fun _ =>
      ih fun o' ho' => h o' (List.mem_cons_of_mem _ ho')

theorem bounds_passes {mode : LoopMode} {condition : String} {limit : Nat} {body : List Op}
    (hbody : Bounds S (Op.sizes config body) fun m n => opsBy (execute m) config context n body)
    (left : Nat) {started : Nat} (hleft : started + left = limit) :
    Bounds S (left * Op.sizes config body) fun m n =>
      passesBy (execute m) config context mode condition (some limit) body n started := by
  induction left generalizing started with
  | zero =>
    obtain rfl : started = limit := hleft
    refine .of_succ ?_
    simp only [passesBy, Nat.zero_mul, if_true]
    refine .after_perform fun b => ?_
    split
    · exact bounds_of fun s => ⟨0, _, _, fun _ _ => rfl⟩
    · exact bounds_pure ()
  | succ left ih =>
    have hnext : started + 1 + left = limit := by omega
    have hne : some limit ≠ some started := fun h => by
      cases h
      omega
    refine .of_succ ?_
    simp only [passesBy, if_neg hne, Nat.succ_mul, Nat.add_comm _ (Op.sizes config body)]
    refine .after_perform fun b => ?_
    split
    · exact hbody.bind fun _ => ih hnext
    · exact (bounds_pure ()).mono (Nat.zero_le _)

/-- **An op ends and takes note of at most as many ops as its size**, if this is so for each op that
is executed. -/
theorem bounds_op (hexecute : ∀ op, op.InLine list → LoopMode.ofKind? op.kind = none →
      Bounds S 1 fun m _ => execute m op) {o : Op} (h : o.Limited config) (ho : o.InLine list) :
    Bounds S (o.size config) fun m n => opBy (execute m) config context n o := by
  induction h with
  | @plain o hkind =>
    refine .of_succ ?_
    simp only [opBy, hkind, Op.size_of_plain hkind]
    exact .after_check (hexecute o ho hkind)
  | @loop o mode hkind hlimit _ ih =>
    refine .of_succ ?_
    simp only [opBy, hkind]
    refine .after_check (.after_read fun body hbody => .after_read fun limit hown =>
      .after_read fun condition hcondition => ?_)
    split
    · exact (bounds_pure ()).mono (Nat.zero_le _)
    · have hloop : Loop.ofOp config mode o =
          .ok ({ mode, condition, limit := limit.or config.maxLoopIterations }, body) := by
        simp only [Loop.ofOp, hbody, hown, hcondition]
        rfl
      obtain ⟨most, hmost⟩ := hlimit _ _ hloop
      have hsize : o.size config = most * Op.sizes config body :=
        Op.size_of_loop hkind hbody (by rw [Op.limit?, hown]; exact hmost)
      have hinner : ∀ inner ∈ body,
          Bounds S (inner.size config) fun m n => opBy (execute m) config context n inner :=
        fun inner hmem => ih _ _ hloop inner hmem (.body ho (by rw [hkind]; rfl) hbody hmem)
      rw [hsize, show limit.or config.maxLoopIterations = some most from hmost]
      exact bounds_passes (bounds_ops hinner) most (Nat.zero_add _)

theorem bounds_runBy (hexecute : ∀ op, op.InLine list → LoopMode.ofKind? op.kind = none →
      Bounds S 1 fun m _ => execute m op) (hlist : ∀ op ∈ list, op.Limited config)
    (topLevel : Bool) (context : Handle) : Bounds S (Op.sizes config list) fun m n =>
      runBy (execute m) config topLevel context n list := by
  have hops : Bounds S (Op.sizes config list) fun m n =>
      opsBy (execute m) config context n list :=
    bounds_ops fun o ho => bounds_op hexecute (hlist o ho) (.here ho)
  cases topLevel with
  | false => exact hops.bind fun _ => bounds_pure ()
  | true =>
    refine .after_perform fun _ => hops.bind (k := 0) fun _ => ?_
    exact bounds_of fun s => ⟨0, _, _, fun _ _ => rfl⟩

end

/-- The plain reading takes no more steps than ops have been handed out. -/
theorem alike_handOut (d : Dispatcher) (context : Handle) (op : Op) :
    Alike (fun taken handed => taken.length ≤ handed.length) (execute d context op)
      (handOut d context op) := by
  intro taken handed hle
  have hexec := Flow.Same.refl (R := Eq) (fun _ => rfl) (d.exec op context).attempt
  have hof : (of (d.exec op context) taken).Same
      (fun p q => p.1 = q.1 ∧ p.2 = taken ∧ q.2.length = handed.length + 1)
      (of (d.exec op context) (handed ++ [⟨handed.length, op, .null, context⟩])) := by
    refine hexec.bind fun r r' hr => .ok ⟨hr, rfl, ?_⟩
    rw [List.length_append, List.length_singleton]
  refine hof.bind fun p q hpq => ?_
  obtain ⟨r, taken'⟩ := p
  obtain ⟨r', handed'⟩ := q
  obtain ⟨rfl, rfl, hlength⟩ := hpq
  dsimp only at hle hlength
  cases r with
  | error e => exact .ok ⟨rfl, show taken'.length ≤ handed'.length by omega⟩
  | ok v =>
    refine .ok ⟨rfl, show (taken' ++ [_]).length ≤ handed'.length from ?_⟩
    rw [List.length_append, List.length_singleton, hlength]
    exact Nat.succ_le_succ hle

theorem alike_run (d : Dispatcher) (topLevel : Bool) (context : Handle) (n : Nat)
    (list : List Op) : Alike (fun taken handed => taken.length ≤ handed.length)
      (run d topLevel context n list)
      (runBy (handOut d context) d.config topLevel context n list) := by
  rw [run_eq_runBy]
  exact alike_runBy (alike_handOut d context) d.config topLevel context n list

/-- The run that counts its ops does what the run does. -/
theorem steps_eq_counted (d : Dispatcher) (topLevel : Bool) (context : Handle) (n : Nat)
    (list : List Op) : ((run d topLevel context n list).steps.map fun _ => ()) =
      (counted d topLevel context n list).bind fun p => .done p.1 := by
  have hsame := alike_run d topLevel context n list [] [] (Nat.le_refl _)
  refine (Flow.bind_map _ _ _).trans (Eq.trans ?_ (Flow.map_bind _ _ _).symm)
  refine hsame.bind_eq fun p q hpq => ?_
  obtain ⟨_ | _, taken⟩ := p <;> obtain ⟨r', handed⟩ := q <;> obtain ⟨rfl, -⟩ := hpq <;> rfl

theorem runIn_steps {f : Reading Unit} {r : Except Fault Unit} {taken : List Step} {s s' : S.State}
    (h : (f []).runIn S s = (.ended (.ok (r, taken)), s')) :
    f.steps.runIn S s = (.ended (r.map fun _ => taken), s') := by
  refine (Flow.runIn_bind_ok h _).trans ?_
  cases r <;> rfl

end Reading

/-! ## The theorem -/

namespace Engine

variable {e : Engine} {list : List Op} {context : Handle} {S : Surroundings}

/-- With enough steps for the executions of ops and for the runner, all steps of a run are the same,
and no more than the size of the list. -/
theorem steps_endsIn (hlist : ∀ op ∈ list, op.Limited e.config)
    (hexec : ∀ op, op.InLine list → LoopMode.ofKind? op.kind = none → ∀ s,
      Flow.EndsIn S (fun m => e.exec m op context) s) (topLevel : Bool) (s : S.State) :
    ∃ N r s', (∀ taken, r = .ok taken → taken.length ≤ Op.sizes e.config list) ∧
      ∀ m n, N ≤ m → N ≤ n →
        ((Runner.stepsFrom (e.dispatcher m) [] n (.start topLevel list context)).map Prod.fst).runIn
          S s = (.ended r, s') := by
  have hexecute : ∀ op, op.InLine list → LoopMode.ofKind? op.kind = none →
      Reading.Bounds S 1 fun m _ => Reading.execute (e.dispatcher m) context op :=
    fun op hop hkind => (Reading.bounds_of (hexec op hop hkind)).bind
      fun v => Reading.bounds_take op v context
  have hrun := Reading.bounds_runBy hexecute hlist topLevel context
  obtain ⟨N, r, taken, s', hle, hends⟩ := hrun [] s
  obtain ⟨M, hM⟩ := Runner.taken_below_steps N
  refine ⟨max N M, r.map fun _ => taken, s', fun taken' h => ?_, fun m n hm hn => ?_⟩
  · cases r with
    | error e => cases h
    | ok _ =>
      cases h
      simpa using hle
  · have hreading : (Reading.run (e.dispatcher m) topLevel context N list).steps.runIn S s =
        (.ended (r.map fun _ => taken), s') := by
      rw [Reading.run_eq_runBy]
      exact Reading.runIn_steps (hends m N (by omega) (Nat.le_refl N))
    exact (Flow.Below.trans (hM (e.dispatcher m) topLevel list context)
      ((Runner.stepsFrom_mono (show M ≤ n by omega) [] _).map Prod.fst)).runIn_eq hreading

/-- **Limits bound a run.** If every loop of a list has a limit, at every depth, and the executions
end of the ops that are handed out, then a run of the list ends after finitely many steps of the
runner, whatever the answers, and executes no more ops than the size of the list. Nor does it hand
out more ops, those that fail included: this is what the same run finds that counts them. -/
theorem ends_within_size {e : Engine} {list : List Op} {context : Handle} {S : Surroundings}
    (hlist : ∀ op ∈ list, op.Limited e.config)
    (hexec : ∀ op, op.InLine list → LoopMode.ofKind? op.kind = none → ∀ s,
      Flow.EndsIn S (fun m => e.exec m op context) s) (topLevel : Bool) :
    (∀ s, ∃ N, ∀ m n, N ≤ m → N ≤ n →
      ∃ r, ((Runner.stepsFrom (e.dispatcher m) [] n (.start topLevel list context)).runIn S s).1 =
        .ended r ∧ ∀ p, r = .ok p → p.1.length ≤ Op.sizes e.config list) ∧
    (∀ m, Flow.Agree
      (fun n => (Runner.stepsFrom (e.dispatcher m) [] n (.start topLevel list context)).map
        fun _ => ())
      (fun n => (Reading.counted (e.dispatcher m) topLevel context n list).bind
        fun p => .done p.1)) ∧
    ∀ s, ∃ N, ∀ m n, N ≤ m → N ≤ n →
      ∃ q k, ((Reading.counted (e.dispatcher m) topLevel context n list).runIn S s).1 =
        .ended (.ok (q, k)) ∧ k ≤ Op.sizes e.config list := by
  refine ⟨fun s => ?_, fun m => ?_, fun s => ?_⟩
  · obtain ⟨N, r, s', hle, hends⟩ := steps_endsIn hlist hexec topLevel s
    refine ⟨N, fun m n hm hn => ?_⟩
    obtain ⟨q, hq, hmap⟩ := Flow.runIn_of_map (congrArg Prod.fst (hends m n hm hn))
    refine ⟨q, hq, fun p hp => hle p.1 ?_⟩
    rw [← hmap, hp]
    rfl
  · have hread : ∀ n,
        ((Reading.run (e.dispatcher m) topLevel context n list).steps.map fun _ => ()) =
          (Reading.counted (e.dispatcher m) topLevel context n list).bind fun p => .done p.1 :=
      fun n => Reading.steps_eq_counted (e.dispatcher m) topLevel context n list
    have hmap : ∀ n, ((Runner.stepsFrom (e.dispatcher m) [] n (.start topLevel list context)).map
        fun _ => ()) = (((Runner.stepsFrom (e.dispatcher m) [] n
          (.start topLevel list context)).map Prod.fst).map fun _ => ()) :=
      fun n => (Flow.map_map _ Prod.fst fun _ => ()).symm
    simp only [← hread, hmap]
    exact .of_bounded ((Runner.bounded_steps _ topLevel list context).bind _)
      ((Runner.bounded_taken _ topLevel list context).bind _)
  · have hhandOut : ∀ op, op.InLine list → LoopMode.ofKind? op.kind = none →
        Reading.Bounds S 1 fun m _ => Reading.handOut (e.dispatcher m) context op :=
      fun op hop hkind => (Reading.bounds_take op .null context).bind (k := 0) fun _ =>
        (Reading.bounds_of (hexec op hop hkind)).bind fun _ => Reading.bounds_pure ()
    have hrun := Reading.bounds_runBy hhandOut hlist topLevel context
    obtain ⟨N, r, handed, s', hle, hends⟩ := hrun [] s
    refine ⟨N, fun m n hm hn => ⟨r, handed.length, ?_, by simpa using hle⟩⟩
    exact congrArg Prod.fst (Flow.runIn_bind_ok (hends m n hm hn) _)

/-! ## Executions that end -/

theorem exec_endsIn {op : Op} {x : Executor} (hx : e.registry.get? op.kind = some x)
    (h : ∀ s, Flow.EndsIn S (fun m => x (e.dispatcher m) op context) s) (s : S.State) :
    Flow.EndsIn S (fun m => e.exec m op context) s := by
  suffices hsucc : Flow.EndsIn S (fun m => e.exec (m + 1) op context) s by
    obtain ⟨N, r, s', hrun⟩ := hsucc
    refine ⟨N + 1, r, s', fun n hn => ?_⟩
    obtain ⟨n, rfl⟩ := Nat.exists_eq_add_of_le' (Nat.le_of_add_left_le hn)
    exact hrun n (by omega)
  have hbind (result : Value) (s : S.State) :
      Flow.EndsIn S (fun _ => bindResult op context result) s := by
    unfold bindResult
    split
    · exact (Flow.endsIn_perform _ s).bind fun _ s => Flow.endsIn_perform _ s
    · exact Flow.endsIn_perform _ s
  simp only [exec, hx]
  refine (Flow.endsIn_perform _ s).bind fun _ s => (h s).bind fun result s => ?_
  exact (hbind result s).bind fun _ s => (Flow.endsIn_perform _ s).bind fun _ s =>
    Flow.endsIn_done _ s

/-- `sequential` ends if the loops of its inner ops have limits and the ops that are handed out
end. -/
theorem sequential_endsIn {op : Op} {ops : List Op} (hops : op.innerOps = .ok ops)
    (hlist : ∀ o ∈ ops, o.Limited e.config)
    (hexec : ∀ context o, o.InLine ops → LoopMode.ofKind? o.kind = none → ∀ s,
      Flow.EndsIn S (fun m => e.exec m o context) s) (s : S.State) :
    Flow.EndsIn S (fun m => Executor.sequential (e.dispatcher m) op context) s := by
  have hrun (inner : Handle) (s : S.State) :
      Flow.EndsIn S (fun m => (e.dispatcher m).runOps ops inner) s := by
    obtain ⟨N, r, s', -, hends⟩ := steps_endsIn hlist (hexec inner) false s
    have hsteps : Flow.EndsIn S (fun m => (Runner.stepsFrom (e.dispatcher m) [] m
        (.start false ops inner)).map Prod.fst) s := ⟨N, r, s', fun m hm => hends m m hm hm⟩
    have hresults := hsteps.bind fun steps s => Flow.endsIn_done (.ok (steps.map Step.result)) s
    have hmap (m : Nat) : (e.dispatcher m).runOps ops inner =
        ((Runner.stepsFrom (e.dispatcher m) [] m (.start false ops inner)).map Prod.fst).map
          (List.map Step.result) := (Flow.map_map _ _ _).symm
    simp only [hmap]
    exact hresults
  have hcopy : Flow.EndsIn S (fun _ => Flow.copy context) s :=
    (Flow.endsIn_perform (.view context) s).bind fun b s => Flow.endsIn_perform (.create b) s
  have hparts (m : Nat) : Executor.sequential (e.dispatcher m) op context =
      (Flow.copy context).bind fun inner => ((e.dispatcher m).runOps ops inner).bind fun results =>
        .done (.ok (.array results)) := by
    simp only [Executor.sequential, hops]
    rfl
  simp only [hparts]
  exact hcopy.bind fun inner s => (hrun inner s).bind fun results s => Flow.endsIn_done _ s

/-- The engine as it comes, with a limit for all loops. -/
def limitedEngine : Engine :=
  (({} : EngineBuilder).configured { maxLoopIterations := some 3 }).build

/-- A loop with a limit of its own. -/
def twoPasses : Op := (Op.repeatWhile "go" [.set .null]).withParam "maxIterations" (.nat 2)

/-- A loop that has the limit of the configuration, and in it a loop that has its own. -/
def loopInLoop : Op := .repeatWhile "go" [twoPasses, .sequential [.set .null]]

theorem inLine_of_loopInLoop {op : Op} (h : op.InLine [loopInLoop]) :
    op = loopInLoop ∨ op = twoPasses ∨ op = .sequential [.set .null] ∨ op = .set .null := by
  induction h with
  | here hm => exact .inl (List.mem_singleton.1 hm)
  | @body _ inner _ _ hloop hops hm ih =>
    rcases ih with rfl | rfl | rfl | rfl
    · have houter : loopInLoop.innerOps = .ok [twoPasses, .sequential [.set .null]] := rfl
      rw [houter] at hops
      cases hops
      have hpair : inner = twoPasses ∨ inner = .sequential [.set .null] := by simpa using hm
      exact .inr (hpair.imp_right .inl)
    · have hinner : twoPasses.innerOps = .ok [.set .null] := rfl
      rw [hinner] at hops
      cases hops
      exact .inr (.inr (.inr (List.mem_singleton.1 hm)))
    · cases hloop
    · cases hloop

theorem inLine_of_set {op : Op} (h : op.InLine [.set .null]) : op = .set .null := by
  induction h with
  | here hm => exact List.mem_singleton.1 hm
  | body _ hloop _ _ ih =>
    subst ih
    cases hloop

theorem set_exec_ends (context : Handle) (w : World) :
    Flow.EndsIn (World.surroundings {}) (fun m => limitedEngine.exec m (.set .null) context) w :=
  exec_endsIn (S := World.surroundings {}) (x := Executor.set) rfl
    (fun w => ⟨0, .ok .null, w, fun _ _ => rfl⟩) w

theorem loopInLoop_exec_ends (op : Op) (hop : op.InLine [loopInLoop])
    (hkind : LoopMode.ofKind? op.kind = none) (w : World) :
    Flow.EndsIn (World.surroundings {}) (fun m => limitedEngine.exec m op ⟨0⟩) w := by
  rcases inLine_of_loopInLoop hop with rfl | rfl | rfl | rfl
  · cases hkind
  · cases hkind
  · have hset : ∀ o ∈ [Op.set .null], o.Limited limitedEngine.config :=
      fun o ho => List.mem_singleton.1 ho ▸ .plain rfl
    refine exec_endsIn (S := World.surroundings {}) (x := Executor.sequential) rfl
      (sequential_endsIn rfl hset fun context o ho _ w => ?_) w
    rw [inLine_of_set ho]
    exact set_exec_ends context w
  · exact set_exec_ends ⟨0⟩ w

theorem loopInLoop_limited : loopInLoop.Limited limitedEngine.config := by
  have hmode : LoopMode.ofKind? loopInLoop.kind = some .asLongAs := rfl
  have hinnerMode : LoopMode.ofKind? twoPasses.kind = some .asLongAs := rfl
  have hinner : twoPasses.Limited limitedEngine.config := by
    refine .loop hinnerMode ?_ ?_ <;> rintro l body ⟨⟩
    · exact ⟨2, rfl⟩
    · exact fun o ho => List.mem_singleton.1 ho ▸ .plain rfl
  refine .loop hmode ?_ ?_ <;> rintro l body ⟨⟩
  · exact ⟨3, rfl⟩
  · intro o ho
    simp only [List.mem_cons, List.not_mem_nil, or_false] at ho
    rcases ho with rfl | rfl
    · exact hinner
    · exact .plain rfl

/-- In three passes there are two ops of the inner loop and one more. -/
theorem sizes_loopInLoop : Op.sizes limitedEngine.config [loopInLoop] = 9 := by
  have hset : (Op.set .null).size limitedEngine.config = 1 := Op.size_of_plain rfl
  have hsequential : (Op.sequential [.set .null]).size limitedEngine.config = 1 :=
    Op.size_of_plain rfl
  have hinner : twoPasses.size limitedEngine.config =
      2 * Op.sizes limitedEngine.config [.set .null] := Op.size_of_loop rfl rfl rfl
  have houter : loopInLoop.size limitedEngine.config =
      3 * Op.sizes limitedEngine.config [twoPasses, .sequential [.set .null]] :=
    Op.size_of_loop rfl rfl rfl
  simp [Op.sizes, houter, hinner, hset, hsequential]

/-- The condition is never turned off, so the limit of the inner loop ends the run. -/
theorem ends_within_nine :
    (∀ op ∈ [loopInLoop], op.Limited limitedEngine.config) ∧
    (∀ op, op.InLine [loopInLoop] → LoopMode.ofKind? op.kind = none → ∀ w,
      Flow.EndsIn (World.surroundings {}) (fun m => limitedEngine.exec m op ⟨0⟩) w) ∧
    ∃ N, ∀ m n, N ≤ m → N ≤ n →
      ∃ q k, ((Reading.counted (limitedEngine.dispatcher m) true ⟨0⟩ n [loopInLoop]).run {}
        goingWorld).1 = .ended (.ok (q, k)) ∧ k ≤ 9 := by
  have hlist : ∀ op ∈ [loopInLoop], op.Limited limitedEngine.config :=
    fun o ho => List.mem_singleton.1 ho ▸ loopInLoop_limited
  refine ⟨hlist, loopInLoop_exec_ends, ?_⟩
  obtain ⟨-, -, hcount⟩ := ends_within_size (S := World.surroundings {}) hlist loopInLoop_exec_ends true
  obtain ⟨N, hN⟩ := hcount goingWorld
  refine ⟨N, fun m n hm hn => ?_⟩
  rw [← Flow.runIn_surroundings, ← sizes_loopInLoop]
  exact hN m n hm hn

end Engine

end WorkflowEngine
