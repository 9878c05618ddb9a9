import WorkflowEngine.Proofs.Interleaving.Meaning
import WorkflowEngine.Proofs.Moves

/-!
# Frames among others

A runner reads of its context only what the conditions of its loops begin with; the rest is done
by the ops. The ops in its frames stay such that they read only what is known (`Frame.Fits`): what
an op binds is known afterwards, and a loop that begins again knows at least what it knew before.

The steps of a runner are taken one by one (`Runner.following`): an advance to the next executed op,
and what follows.
-/

namespace WorkflowEngine

namespace Flow

variable {α β : Type} {reads writes : String → Prop}

theorem within_bind (h : Handle) (f : Flow α) (k : α → Flow β) :
    (f.bind k).within h = (f.within h).bind fun a => (k a).within h := by
  induction f with
  | done r => cases r <;> rfl
  | starved => rfl
  | pause rest ih => exact congrArg Flow.pause (funext ih)
  | act a next ih =>
    cases a with
    | _ => exact congrArg (Flow.act _) (funext ih)

theorem Touches.bind {f : Flow α} {k : α → Flow β} (hf : f.Touches reads writes)
    (hk : ∀ a, (k a).Touches reads writes) : (f.bind k).Touches reads writes := by
  induction f with
  | done r =>
    cases r with
    | ok a => exact hk a
    | error e => trivial
  | starved => trivial
  | pause rest ih => exact ih () hf
  | act a next ih =>
    cases a with
    | view _ =>
      exact ⟨fun b c h => congrArg (Flow.bind · k) (hf.1 b c h), fun b => ih b (hf.2 b)⟩
    | bind _ _ _ | unbind _ _ => exact ⟨hf.1, ih () hf.2⟩
    | create _ => exact hf.elim
    | _ => exact fun x => ih x (hf x)

/-- What only reads the context reads the keys on which its result depends. -/
theorem touches_view {h : Handle} {k : Bindings → Flow α}
    (hk : ∀ b c, SameOn reads b c → k b = k c) (hall : ∀ b, (k b).Touches reads writes) :
    ((view h).bind k).Touches reads writes := ⟨hk, hall⟩

end Flow

/-! ## Beginning a pass -/

/-- The key that the condition of a loop begins with. -/
def Loop.Reads (l : Loop) (key : String) : Prop := Path.head? l.condition = some key

namespace Loop

variable {l : Loop}

theorem begin?_within (l : Loop) (h k : Handle) : l.begin? h = (l.begin? k).within h := by
  refine congrArg (Flow.act _) (funext fun b => ?_)
  show ite _ _ _ = Flow.within h (ite _ _ _)
  split
  · cases l.limit with
    | none => rfl
    | some limit => by_cases hle : limit ≤ l.passes <;> simp only [hle, ↓reduceIte] <;> rfl
  · rfl

theorem begin?_touches (l : Loop) (h : Handle) :
    (l.begin? h).Touches l.Reads (fun _ => False) := by
  refine Flow.touches_view (fun b c hsame => ?_) fun b => ?_
  · have htruthy : b.isTruthy l.condition = c.isTruthy l.condition := by
      unfold Bindings.isTruthy
      rw [Bindings.lookup_congr hsame]
    rw [htruthy]
  · split
    · cases l.limit with
      | none => trivial
      | some limit =>
        show Flow.Touches _ _ (ite _ _ _)
        split
        · exact fun _ => trivial
        · trivial
    · trivial

/-- A loop that has begun a pass has the same condition. -/
theorem condition_of_begin? {ans : Query → Value} {h : Handle} {b c : Bindings} {l' : Loop}
    (hsolo : (l.begin? h).solo ans b = some (some l', c)) : l'.condition = l.condition := by
  unfold begin? at hsolo
  change (ite _ _ _ : Flow (Option Loop)).solo ans b = _ at hsolo
  split at hsolo
  · split at hsolo
    · cases hsolo
      rfl
    · split at hsolo
      · cases hsolo
      · cases hsolo
        rfl
  · cases hsolo

end Loop

namespace Flow

variable {α β : Type}

theorem solo_bind (ans : Query → Value) (f : Flow α) (k : α → Flow β) (b : Bindings) :
    (f.bind k).solo ans b = (f.solo ans b).bind fun p => (k p.1).solo ans p.2 := by
  induction f generalizing b with
  | done r => cases r <;> rfl
  | starved => rfl
  | pause rest ih => exact ih () b
  | act a next ih =>
    cases a with
    | create _ => rfl
    | _ => exact ih _ _

end Flow

namespace Runner

variable {ans : Query → Value} {f f' : Frame} {b c : Bindings} {h : Handle}

theorem again?_within (f : Frame) (h k : Handle) : again? f h = (again? f k).within h := by
  unfold again?
  cases f.loop with
  | none => rfl
  | some l =>
    refine Eq.trans ?_ (Flow.within_bind h _ _).symm
    show (l.begin? h).bind _ = _
    rw [l.begin?_within h k]
    refine congrArg (Flow.bind _) (funext fun next => ?_)
    cases next <;> rfl

theorem again?_touches (f : Frame) (h : Handle) :
    (again? f h).Touches (fun key => ∃ l, f.loop = some l ∧ l.Reads key) (fun _ => False) := by
  unfold again?
  cases f.loop with
  | none => trivial
  | some l =>
    refine Flow.Touches.bind ?_ fun next => by cases next <;> trivial
    have heq : (fun key => ∃ l', some l = some l' ∧ l'.Reads key) = l.Reads := by
      funext key
      exact propext ⟨fun ⟨l', hl, hk⟩ => Option.some.inj hl ▸ hk, fun hk => ⟨l, rfl, hk⟩⟩
    rw [heq]
    exact l.begin?_touches h

theorem frame_of_again? (hsolo : (again? f h).solo ans b = some (some f', c)) :
    ∃ l l', f.loop = some l ∧ l'.condition = l.condition ∧ f' = ⟨f.body, f.body, some l'⟩ := by
  unfold again? at hsolo
  cases hloop : f.loop with
  | none =>
    rw [hloop] at hsolo
    cases hsolo
  | some l =>
    rw [hloop] at hsolo
    have hbind := (Flow.solo_bind ans (l.begin? h) _ b).symm.trans hsolo
    obtain ⟨⟨next, b'⟩, hbegin, hrest⟩ := Option.bind_eq_some_iff.1 hbind
    cases next with
    | none => cases hrest
    | some l' =>
      cases hrest
      exact ⟨l, l', rfl, Loop.condition_of_begin? hbegin, rfl⟩

/-- Of the dispatcher a loop op needs only the limit of loops. -/
theorem enter?_limited (d : Dispatcher) (mode : LoopMode) (op : Op) (h : Handle) :
    enter? d mode op h = enter? (.limited d.config.maxLoopIterations) mode op h := rfl

theorem enter?_within (d : Dispatcher) (mode : LoopMode) (op : Op) (h k : Handle) :
    enter? d mode op h = (enter? d mode op k).within h := by
  unfold enter?
  cases Loop.ofOp d.config mode op with
  | error e => rfl
  | ok p =>
    obtain ⟨l, body⟩ := p
    show ite _ _ _ = Flow.within h (ite _ _ _)
    split
    · rfl
    · refine Eq.trans ?_ (Flow.within_bind h _ _).symm
      show (l.begin? h).bind _ = _
      rw [l.begin?_within h k]
      refine congrArg (Flow.bind _) (funext fun next => ?_)
      cases next <;> rfl

theorem parts_of_ofOp {config : Config} {mode : LoopMode} {op : Op} {l : Loop} {body : List Op}
    (hop : Loop.ofOp config mode op = .ok (l, body)) :
    op.innerOps = .ok body ∧ op.requireText "condition" = .ok l.condition := by
  unfold Loop.ofOp at hop
  cases hinner : op.innerOps with
  | error e => rw [hinner] at hop; cases hop
  | ok body' =>
    cases hlimit : op.natParam "maxIterations" with
    | error e => rw [hinner, hlimit] at hop; cases hop
    | ok limit =>
      cases hcondition : op.requireText "condition" with
      | error e => rw [hinner, hlimit, hcondition] at hop; cases hop
      | ok condition =>
        rw [hinner, hlimit, hcondition] at hop
        cases hop
        exact ⟨rfl, rfl⟩

theorem enter?_touches (d : Dispatcher) (mode : LoopMode) (op : Op) (h : Handle) :
    (enter? d mode op h).Touches
      (fun key => ∃ path, op.requireText "condition" = .ok path ∧ Path.head? path = some key)
      (fun _ => False) := by
  unfold enter?
  cases hop : Loop.ofOp d.config mode op with
  | error e => exact fun _ => trivial
  | ok p =>
    obtain ⟨l, body⟩ := p
    have hcondition := (parts_of_ofOp hop).2
    show Flow.Touches _ _ (ite _ _ _)
    split
    · trivial
    · refine Flow.Touches.bind ?_ fun next => by cases next <;> trivial
      have heq : (fun key => ∃ path, op.requireText "condition" = .ok path ∧
          Path.head? path = some key) = l.Reads := by
        funext key
        rw [hcondition]
        exact propext ⟨fun ⟨path, hpath, hk⟩ => by cases hpath; exact hk, fun hk => ⟨_, rfl, hk⟩⟩
      rw [heq]
      exact l.begin?_touches h

theorem frame_of_enter? {d : Dispatcher} {mode : LoopMode} {op : Op}
    (hsolo : (enter? d mode op h).solo ans b = some (some f', c)) :
    ∃ body l, op.innerOps = .ok body ∧ op.requireText "condition" = .ok l.condition ∧
      f' = ⟨body, body, some l⟩ := by
  unfold enter? at hsolo
  cases hop : Loop.ofOp d.config mode op with
  | error e =>
    rw [hop] at hsolo
    cases hsolo
  | ok p =>
    obtain ⟨l, body⟩ := p
    obtain ⟨hinner, hcondition⟩ := parts_of_ofOp hop
    rw [hop] at hsolo
    change (ite _ _ _ : Flow (Option Frame)).solo ans b = _ at hsolo
    split at hsolo
    · cases hsolo
    · have hbind := (Flow.solo_bind ans (l.begin? h) _ b).symm.trans hsolo
      obtain ⟨⟨next, b'⟩, hbegin, hrest⟩ := Option.bind_eq_some_iff.1 hbind
      cases next with
      | none => cases hrest
      | some l' =>
        cases hrest
        exact ⟨body, l', hinner, by rw [hcondition, Loop.condition_of_begin? hbegin], rfl⟩

end Runner

/-! ## Frames that fit into a context -/

/-- What is left of a frame reads only what is known, also when it is begun again. -/
structure Frame.Fits (reads writes : Op → String → Prop) (scripted : Op → Prop) (alone : Bool)
    (known may : String → Prop) (f : Frame) : Prop where
  rest : Op.ListFits reads writes scripted alone known may f.rest
  again : ∀ l, f.loop = some l →
    Op.ListFits reads writes scripted alone known may f.body ∧ ∀ key, l.Reads key → known key

namespace Frame.Fits

variable {reads writes : Op → String → Prop} {scripted : Op → Prop} {alone : Bool}
  {known may : String → Prop}
  {f f' : Frame} {ans : Query → Value} {b c : Bindings} {h : Handle}

theorem mono {more : String → Prop} (hf : f.Fits reads writes scripted alone known may)
    (hle : ∀ key, known key → more key) : f.Fits reads writes scripted alone more may where
  rest := hf.rest.mono hle
  again l hl := ⟨(hf.again l hl).1.mono hle, fun key hk => hle key ((hf.again l hl).2 key hk)⟩

theorem list {ops : List Op} (hops : Op.ListFits reads writes scripted alone known may ops) :
    Frame.Fits reads writes scripted alone known may ⟨ops, ops, none⟩ :=
  ⟨hops, fun _ hl => nomatch hl⟩

theorem begin {f' : Frame} (hf : f.Fits reads writes scripted alone known may)
    (hsolo : (Runner.again? f h).solo ans b = some (some f', c)) :
    f'.Fits reads writes scripted alone known may := by
  obtain ⟨l, l', hl, hcondition, rfl⟩ := Runner.frame_of_again? hsolo
  obtain ⟨hbody, hreads⟩ := hf.again l hl
  refine ⟨hbody, fun l'' hl'' => ?_⟩
  cases hl''
  exact ⟨hbody, fun key hk => hreads key (by rwa [Loop.Reads, ← hcondition])⟩

theorem enter {d : Dispatcher} {mode : LoopMode} {op : Op}
    (hop : op.Fits reads writes scripted alone known may)
    (hmode : LoopMode.ofKind? op.kind = some mode)
    (hsolo : (Runner.enter? d mode op h).solo ans b = some (some f', c)) :
    f'.Fits reads writes scripted alone known may := by
  obtain ⟨body, l, hbody, hcondition, rfl⟩ := Runner.frame_of_enter? hsolo
  have hfits := hop.body hmode hbody
  refine ⟨hfits, fun l' hl' => ?_⟩
  cases hl'
  exact ⟨hfits, fun key hk => hop.read key (.condition hmode hcondition hk)⟩

end Frame.Fits

section

variable {reads writes : Op → String → Prop} {scripted : Op → Prop} {alone : Bool}
  {known may : String → Prop}
  {f : Frame} {next : Option Frame} {outer : List Frame} {ans : Query → Value} {b c : Bindings}
  {h : Handle} {op : Op} {rest : List Op}

/-- The frames after a list has been used up. -/
theorem Frame.fits_again (hfits : ∀ f' ∈ f :: outer, f'.Fits reads writes scripted alone known may)
    (hsolo : (Runner.again? f h).solo ans b = some (next, c)) :
    ∀ f' ∈ next.toList ++ outer, f'.Fits reads writes scripted alone known may := by
  intro f' hf'
  rcases List.mem_append.1 hf' with hnext | hf'
  · cases Option.mem_toList.1 hnext
    exact (hfits f (List.mem_cons_self ..)).begin hsolo
  · exact hfits f' (List.mem_cons_of_mem _ hf')

/-- The frames after a loop op. -/
theorem Frame.fits_enter {d : Dispatcher} {mode : LoopMode}
    (hfits : ∀ f' ∈ f :: outer, f'.Fits reads writes scripted alone known may)
    (hcursor : f.rest = op :: rest) (hmode : LoopMode.ofKind? op.kind = some mode)
    (hsolo : (Runner.enter? d mode op h).solo ans b = some (next, c)) :
    ∀ f' ∈ next.toList ++ { f with rest } :: outer,
      f'.Fits reads writes scripted alone known may := by
  have hf := hfits f (List.mem_cons_self ..)
  have hlist : Op.ListFits reads writes scripted alone known may (op :: rest) := hcursor ▸ hf.rest
  intro f' hf'
  rcases List.mem_append.1 hf' with hnext | hf'
  · cases Option.mem_toList.1 hnext
    exact .enter hlist.head hmode hsolo
  · rcases List.mem_cons.1 hf' with rfl | hf'
    · exact ⟨hlist.tail_of_loop hmode, hf.again⟩
    · exact hfits f' (List.mem_cons_of_mem _ hf')

/-- The frames after an op that is no loop. -/
theorem Frame.fits_step (hfits : ∀ f' ∈ f :: outer, f'.Fits reads writes scripted alone known may)
    (hcursor : f.rest = op :: rest) : ∀ f' ∈ { f with rest } :: outer,
      f'.Fits reads writes scripted alone (op.knownAfter alone known) may := by
  have hf := hfits f (List.mem_cons_self ..)
  have hlist : Op.ListFits reads writes scripted alone known may (op :: rest) := hcursor ▸ hf.rest
  intro f' hf'
  rcases List.mem_cons.1 hf' with rfl | hf'
  · exact ⟨hlist.tail, (hf.mono fun _ => .inl).again⟩
  · exact (hfits f' (List.mem_cons_of_mem _ hf')).mono fun _ => .inl

end

/-! ## Steps, one by one -/

theorem Flow.attempt_bind_rethrow {α β : Type} (f : Flow α) {k : Except Fault α → Flow β}
    (hk : ∀ e, k (.error e) = .done (.error e)) :
    f.attempt.bind k = f.bind fun a => k (.ok a) := by
  induction f with
  | done r =>
    cases r with
    | ok a => rfl
    | error e => exact hk e
  | starved => rfl
  | pause rest ih => exact congrArg Flow.pause (funext ih)
  | act a next ih => exact congrArg (Flow.act a) (funext ih)

namespace Runner

/-- A runner that has been started, of ops that are part of a run. -/
def underway (context : Handle) (frames : List Frame) (dispatched : Nat) : Runner :=
  { topLevel := false, context, frames, phase := .running, dispatched }

/-- The steps from an advance on. -/
def following (d : Dispatcher) (taken : List Step) (n i : Nat) (r : Runner) :
    Flow (List Step × Runner) :=
  (advance d i r).bind fun
    | (none, r) => (r.announce .workflowDone).bind fun _ =>
      .done (.ok (taken.reverse, { r with phase := .finished }))
    | (some step, r) => stepsFrom d (step :: taken) n r

variable {d : Dispatcher} {taken : List Step} {n i k : Nat} {p : Handle} {f : Frame}
  {outer : List Frame}

theorem stepsFrom_running {r : Runner} (h : r.phase = .running) :
    stepsFrom d taken (n + 1) r = following d taken n n r := by
  show (next d n r).bind _ = _
  rw [next_of_running h, Flow.bind_assoc]
  refine Eq.trans (Flow.attempt_bind_rethrow _ fun e => rfl) ?_
  refine congrArg (Flow.bind _) (funext fun x => ?_)
  rcases x with ⟨_ | step, r⟩
  · exact Flow.bind_assoc _ _ _
  · rfl

theorem stepsFrom_underway (frames : List Frame) :
    stepsFrom d taken (n + 1) (underway p frames k) =
      following d taken n n (underway p frames k) := stepsFrom_running rfl

theorem stepsFrom_start (n : Nat) (ops : List Op) :
    stepsFrom d [] n (start false ops p) = stepsFrom d [] n (underway p [⟨ops, ops, none⟩] 0) := by
  cases n with
  | zero => rfl
  | succ n =>
    show (next d n (start false ops p)).bind _ = (next d n _).bind _
    rw [next_of_pending rfl]
    rfl

theorem steps_start (ops : List Op) (hfuel : d.fuel = n + 1) :
    (start false ops p).steps d = following d [] n n (underway p [⟨ops, ops, none⟩] 0) := by
  rw [← stepsFrom_underway, steps, hfuel, stepsFrom_start]

theorem following_nil : following d taken n (i + 1) (underway p [] k) =
    .done (.ok (taken.reverse, { underway p [] k with phase := .finished })) := rfl

theorem following_again (hrest : f.rest = []) :
    following d taken n (i + 1) (underway p (f :: outer) k) = (again? f p).bind fun next =>
      following d taken n i (underway p (next.toList ++ outer) k) := by
  rw [following, advance_again rfl hrest]
  exact Flow.bind_assoc _ _ _

theorem following_enter {op : Op} {rest : List Op} {mode : LoopMode} (hrest : f.rest = op :: rest)
    (hmode : LoopMode.ofKind? op.kind = some mode) :
    following d taken n (i + 1) (underway p (f :: outer) k) =
      Flow.check.bind fun _ => (enter? d mode op p).bind fun next =>
        following d taken n i (underway p (next.toList ++ { f with rest } :: outer) k) := by
  rw [following, advance_enter rfl hrest hmode]
  refine (Flow.bind_assoc _ _ _).trans (congrArg (Flow.bind _) (funext fun _ => ?_))
  exact Flow.bind_assoc _ _ _

theorem following_step {op : Op} {rest : List Op} (hrest : f.rest = op :: rest)
    (hmode : LoopMode.ofKind? op.kind = none) :
    following d taken n (i + 1) (underway p (f :: outer) k) =
      Flow.check.bind fun _ => (d.exec op p).bind fun v =>
        stepsFrom d (⟨k, op, v, p⟩ :: taken) n (underway p ({ f with rest } :: outer) (k + 1)) := by
  rw [following, advance_step rfl hrest hmode]
  refine (Flow.bind_assoc _ _ _).trans (congrArg (Flow.bind _) (funext fun _ => ?_))
  exact Flow.bind_assoc _ _ _

end Runner

end WorkflowEngine
