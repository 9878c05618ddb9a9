import WorkflowEngine.Proofs.Interleaving.Branches
import WorkflowEngine.Proofs.Interleaving.Frames

/-!
# What an op reaches is what it means

**Main statement (`Engine.Performs.sound`).** If an op comes to a result among others, then it
comes to a result and to bindings to which its meaning leads (`Yields`), as long as the branches
of parallel ops are apart. The statement is a partial one: the op may fail, and it may be cut off.

The proof is an induction on the number of steps after which the op is cut off. Runners are gone
through frame by frame, with an induction on the steps that are left.
-/

namespace WorkflowEngine

/-! ## Engines and their scripts -/

/-- The engine has the groups of this library, and it executes some ops, which are neither groups
nor loops, by scripts that touch only the keys that are given for the op. -/
structure Engine.Performs (e : Engine) (reads writes : Op → String → Prop) (scripted : Op → Prop)
    (script : Op → Flow Value) : Prop where
  sequential : e.registry.get? "sequential" = some Executor.sequential
  parallel : e.registry.get? "parallel" = some Executor.parallel
  map : e.registry.get? "map" = some Executor.map
  leaf : ∀ op n context, op.IsLeaf → scripted op →
    e.carryOut n op context = (script op).within context
  touches : ∀ op, op.IsLeaf → scripted op → (script op).Touches (reads op) (writes op)

/-- What the leaves of an engine come to. -/
def Engine.lore (e : Engine) (ans : Query → Value) (writes : Op → String → Prop)
    (scripted : Op → Prop) (script : Op → Flow Value) : Lore :=
  ⟨ans, fun op b v c => scripted op ∧ (script op).solo ans b = some (v, c),
    e.config.maxLoopIterations, Op.MayBind writes⟩

variable {e : Engine} {reads writes : Op → String → Prop} {scripted : Op → Prop}
  {script : Op → Flow Value} {ans : Query → Value} {n : Nat} {op : Op} {ops : List Op}
  {alone : Bool} {known may : String → Prop} {p : Handle} {t : Turf} {s : Store} {b : Bindings}

namespace Engine.Performs

theorem carryOut_of_kind (e : Engine) {kind : String} {x : Executor}
    (hx : e.registry.get? kind = some x) (hkind : op.kind = kind) (n : Nat) :
    e.carryOut n op p = x (e.dispatcher n) op p := by
  unfold carryOut
  rw [hkind, hx]

/-- Groups that work in copies bind nothing in their context but their result. -/
theorem known_of_not_parallel {key : String} (hkind : op.kind ≠ "parallel")
    (h : op.knownAfter alone known key) :
    known key ∨ key = Bindings.outputKey ∨ op.outputBinding = some key := by
  rcases h with hk | ⟨hbinds, -⟩
  · exact .inl hk
  · cases hbinds with
    | output _ => exact .inr (.inl rfl)
    | binding _ hname => exact .inr (.inr hname)
    | branch hpar _ _ _ => exact absurd hpar hkind

/-- The branches of a parallel op bind in its context. -/
theorem known_of_parallel {key : String} (hops : op.innerOps = .ok ops)
    (h : op.knownAfter alone known key) : Interleaving.knownOfBranches known ops key ∨
      key = Bindings.outputKey ∨ op.outputBinding = some key := by
  by_cases houtput : key = Bindings.outputKey
  · exact .inr (.inl houtput)
  · rcases h with hk | ⟨hbinds, -⟩
    · exact .inl ⟨houtput, .inl hk⟩
    · cases hbinds with
      | output _ => exact absurd rfl houtput
      | binding _ hname => exact .inr (.inr hname)
      | branch _ hops' ho hb =>
        cases hops.symm.trans hops'
        exact .inl ⟨houtput, .inr ⟨_, ho, hb⟩⟩

end Engine.Performs

/-! ## Steps of runners -/

/-- The steps after those that have been taken have results of which `P` holds. -/
def StepsAt (p : Handle) (known : String → Prop) (taken : List Step)
    (P : List Value → Bindings → Prop) (u : Turf) (x : List Step × Runner) (s : Store) : Prop :=
  ∃ vs, x.1.map Step.result = taken.reverse.map Step.result ++ vs ∧ At p known P u vs s

theorem StepsAt.step {taken : List Step} {step : Step} {P P' : List Value → Bindings → Prop}
    {x : List Step × Runner} {more : String → Prop} (hle : ∀ key, known key → more key)
    (hP : ∀ vs c, P vs c → P' (step.result :: vs) c) (h : StepsAt p more (step :: taken) P t x s) :
    StepsAt p known taken P' t x s := by
  obtain ⟨vs, hresults, c, hc, hhome⟩ := h
  refine ⟨step.result :: vs, ?_, c, hP vs c hc, hhome.mono hle⟩
  rw [hresults, List.reverse_cons, List.map_append, List.append_assoc]
  rfl

theorem Dispatcher.runOps_settles {d : Dispatcher} {m : Budget} {P : List Value → Bindings → Prop}
    (hfuel : d.fuel = n + 1)
    (h : (Runner.following d [] n n (.underway p [⟨ops, ops, none⟩] 0)).Settles ans
      (StepsAt p known [] P) m t s) :
    (d.runOps ops p).Settles ans (At p known P) m t s := by
  have hsteps : ((Runner.start false ops p).steps d).Settles ans (StepsAt p known [] P) m t s := by
    rw [Runner.steps_start ops hfuel]
    exact h
  refine hsteps.bind_last fun u x s' _ hx => ?_
  obtain ⟨vs, hresults, hat⟩ := hx
  have hvs : x.1.map Step.result = vs := hresults
  show At p known P u (x.1.map Step.result) s'
  rw [hvs]
  exact hat

/-! ## Partial statements -/

/-- What an engine reaches in so many steps is what ops mean. -/
def Engine.Sound (e : Engine) (ans : Query → Value) (reads writes : Op → String → Prop)
    (scripted : Op → Prop) (script : Op → Flow Value) (n : Nat) : Prop :=
  ∀ (op : Op) (alone : Bool) (known may : String → Prop) (p : Handle) (t : Turf) (s : Store)
    (b : Bindings), LoopMode.ofKind? op.kind = none →
    op.Fits reads writes scripted alone known may → t.Grants p alone may → Home p known t s b →
    (e.exec n op p).Settles ans
      (At p (op.knownAfter alone known) fun v c =>
        Yields (e.lore ans writes scripted script) (.exec op) b [v] c) none t s

/-- What a runner reaches in so many steps is what its frames mean. -/
def Engine.StepsSound (e : Engine) (ans : Query → Value) (reads writes : Op → String → Prop)
    (scripted : Op → Prop) (script : Op → Flow Value) (n N : Nat) : Prop :=
  ∀ (fs : List Frame) (taken : List Step) (k : Nat) (alone : Bool) (known may : String → Prop)
    (p : Handle) (t : Turf) (s : Store) (b : Bindings),
    (∀ f ∈ fs, f.Fits reads writes scripted alone known may) → t.Grants p alone may →
    Home p known t s b →
    (Runner.stepsFrom (e.dispatcher n) taken N (.underway p fs k)).Settles ans
      (StepsAt p known taken fun vs c =>
        Yields (e.lore ans writes scripted script) (.frames fs) b vs c) none t s

namespace Engine.Sound

variable (hsound : e.Sound ans reads writes scripted script n)

include hsound

/-- An advance, and the steps after it. -/
theorem following {N : Nat} (hrest : e.StepsSound ans reads writes scripted script n N) (i : Nat)
    {fs : List Frame} {taken : List Step} {k : Nat}
    (hfits : ∀ f ∈ fs, f.Fits reads writes scripted alone known may)
    (hgrants : t.Grants p alone may) (hhome : Home p known t s b) :
    (Runner.following (e.dispatcher n) taken N i (.underway p fs k)).Settles ans
      (StepsAt p known taken fun vs c =>
        Yields (e.lore ans writes scripted script) (.frames fs) b vs c) none t s := by
  induction i generalizing fs k t s b with
  | zero => exact rfl
  | succ i ih =>
    cases fs with
    | nil =>
      rw [Runner.following_nil]
      exact ⟨[], (List.append_nil _).symm, b, .finished, hhome⟩
    | cons f outer =>
      have hf := hfits f (List.mem_cons_self ..)
      cases hcursor : f.rest with
      | nil =>
        -- The list is used up: it is begun again, or it is over.
        obtain ⟨m, -, hall⟩ := (Runner.again?_touches f ⟨0⟩).settles ans b
        have hbegin := (hall p known t s (fun key ⟨l, hl, hk⟩ => (hf.again l hl).2 key hk)
          (fun _ h => h.elim) hhome).budget (.unlimited m)
        rw [Runner.following_again hcursor, Runner.again?_within f p ⟨0⟩]
        refine hbegin.bind (n := none) fun u next s' hu hx => ?_
        obtain ⟨b', hsolo, hhome'⟩ := hx
        refine (ih (Frame.fits_again hfits hsolo) (hgrants.inside hu) hhome').mono
          fun v x s'' hy => ?_
        obtain ⟨vs, hresults, c, hc, hend⟩ := hy
        exact ⟨vs, hresults, c, .again hcursor hsolo hc, hend⟩
      | cons op rest =>
        have hlist : Op.ListFits reads writes scripted alone known may (op :: rest) :=
          hcursor ▸ hf.rest
        have hop := hlist.head
        cases hmode : LoopMode.ofKind? op.kind with
        | some mode =>
          have hlimited := Runner.enter?_limited (e.dispatcher n) mode op p
          obtain ⟨m, -, hall⟩ := (Runner.enter?_touches
            (.limited e.config.maxLoopIterations) mode op ⟨0⟩).settles ans b
          have hbegin := (hall p known t s (fun key ⟨path, hp, hk⟩ =>
            hop.read key (.condition hmode hp hk)) (fun _ h => h.elim) hhome).budget (.unlimited m)
          rw [Runner.following_enter hcursor hmode, hlimited, Runner.enter?_within _ mode op p ⟨0⟩]
          refine ⟨trivial, hbegin.bind (n := none) fun u next s' hu hx => ?_⟩
          obtain ⟨b', hsolo, hhome'⟩ := hx
          refine (ih (Frame.fits_enter hfits hcursor hmode hsolo) (hgrants.inside hu) hhome').mono
            fun v x s'' hy => ?_
          obtain ⟨vs, hresults, c, hc, hend⟩ := hy
          exact ⟨vs, hresults, c, .enter hcursor hmode hsolo hc, hend⟩
        | none =>
          rw [Runner.following_step hcursor hmode]
          have hexec := hsound op alone known may p t s b hmode hop hgrants hhome
          refine ⟨trivial, hexec.bind (n := none) fun u v s' hu hx => ?_⟩
          obtain ⟨b', hyields, hhome'⟩ := hx
          refine (hrest _ _ _ alone _ may p u s' b' (Frame.fits_step hfits hcursor)
            (hgrants.inside hu) hhome').mono fun w x s'' hy =>
              hy.step (fun _ => .inl) fun vs c hc => ?_
          exact .step hcursor hmode hyields hc

theorem stepsSound (N : Nat) : e.StepsSound ans reads writes scripted script n N := by
  induction N with
  | zero => exact fun _ _ _ _ _ _ _ _ _ _ _ _ _ => rfl
  | succ N ih =>
    intro fs taken k alone known may p t s b hfits hgrants hhome
    rw [Runner.stepsFrom_underway]
    exact hsound.following ih N hfits hgrants hhome

theorem runOps (hfits : Op.ListFits reads writes scripted alone known may ops)
    (hgrants : t.Grants p alone may) (hhome : Home p known t s b) :
    ((e.dispatcher n).runOps ops p).Settles ans
      (At p known fun vs c => Yields (e.lore ans writes scripted script) (.list ops) b vs c)
      none t s := by
  cases n with
  | zero => exact rfl
  | succ n =>
    refine Dispatcher.runOps_settles rfl ?_
    refine hsound.following (hsound.stepsSound n) n (fun f hf => ?_) hgrants hhome
    cases List.mem_singleton.1 hf
    exact .list hfits

theorem runOps_copy {c : Handle}
    (hfits : Op.ListFits reads writes scripted true known (fun _ => True) ops) (hhas : t.Has c)
    (hhome : Home c known t s b) :
    ((e.dispatcher n).runOps ops c).Settles ans
      (At c known fun vs c => Yields (e.lore ans writes scripted script) (.list ops) b vs c)
      none t s :=
  hsound.runOps hfits hhas.grants hhome

theorem branch (hop : op.Fits reads writes scripted alone known may)
    (hgrants : t.Grants p alone may) (hhome : Home p known t s b) :
    ((e.dispatcher n).dispatch op p).Settles ans
      (At p (op.knownAfter alone known) fun v c =>
        Yields (e.lore ans writes scripted script) (.branch op) b [v] c) none t s := by
  unfold Dispatcher.dispatch
  cases hmode : LoopMode.ofKind? op.kind with
  | none =>
    refine (hsound op alone known may p t s b hmode hop hgrants hhome).mono fun u v s' hx => ?_
    obtain ⟨c, hc, hend⟩ := hx
    exact ⟨c, .straight hmode hc, hend⟩
  | some mode =>
    refine (hsound.runOps hop.singleton hgrants hhome).bind_last fun u vs s' _ hx => ?_
    obtain ⟨c, hc, hend⟩ := hx
    refine ⟨c, .loop hmode hc, hend.mono fun key hk => ?_⟩
    exact hk.resolve_right fun hb => Op.not_binds_of_loop hmode hb.1

theorem items {name : String} (results items : List Value)
    (hfits : Op.ListFits reads writes scripted true (knownOfItem known name) (fun _ => True) ops)
    (hhome : Home p known t s b) :
    (Executor.mapItems (e.dispatcher n) ops name p results items).Settles ans
      (At p known fun vs c => c = b ∧ ∃ ws, vs = results.reverse ++ ws ∧
        Yields (e.lore ans writes scripted script) (.items ops name items) b ws b) none t s := by
  induction items generalizing results t s with
  | nil => exact ⟨b, ⟨rfl, [], (List.append_nil _).symm, .noItem⟩, hhome⟩
  | cons item items ih =>
    refine Executor.mapItems_settles (m := none) (n := none) hhome
      (P := fun c => ∃ ws, Yields (e.lore ans writes scripted script) (.list ops)
        (Executor.itemBindings b name item) ws c) (fun c u s' hcopy hhas => ?_) ?_
    · refine (hsound.runOps_copy hfits hhas hcopy).mono fun v ws s'' hx => ?_
      obtain ⟨c, hc, hend⟩ := hx
      exact ⟨c, ⟨ws, hc⟩, hend⟩
    · rintro c u s' ⟨ws, hws⟩ hhome' hu
      refine (ih (c.output.getD .null :: results) hhome').mono fun v vs s'' hx => ?_
      obtain ⟨c', ⟨rfl, ws', rfl, hws'⟩, hend⟩ := hx
      refine ⟨c', ⟨rfl, c.output.getD .null :: ws', ?_, .item hws hws'⟩, hend⟩
      rw [List.reverse_cons, List.append_assoc]
      rfl

end Engine.Sound

/-! ## Parallel ops -/

/-- What branches have come to is what they mean, if that is so for each of them. -/
theorem Interleaving.Joined.yields {lore : Lore} {vs : List Value} {c : Bindings}
    {cap : Option Nat} (hbinds : lore.binds = Op.MayBind writes) (hkind : op.kind = "parallel")
    (hops : op.innerOps = .ok ops) (hcap : op.natParam "concurrency" = .ok cap)
    (h : Joined writes ops b (fun i v c => ∀ o, ops[i]? = some o →
      Yields lore (.branch o) b [v] c) vs c) :
    Yields lore (.exec op) b [.array vs] (op.bound (.array vs) c) := by
  obtain ⟨hlength, ends, hends, hmerges⟩ := h
  refine .parallel hkind hops hcap hlength (fun i o v ho hv => hends i v hv o ho) ?_
  rw [hbinds]
  exact hmerges

theorem Executor.natParam_of_concurrency {config : Config} {branches cap : Nat}
    (h : concurrency config op branches = .ok cap) :
    ∃ own, op.natParam "concurrency" = .ok own := by
  unfold concurrency at h
  cases hown : op.natParam "concurrency" with
  | error e => rw [hown] at h; cases h
  | ok own => exact ⟨own, rfl⟩

namespace Engine.Sound

/-- The branches of a parallel op, executed by any flow that leaves them apart. -/
theorem branches (hsound : e.Sound ans reads writes scripted script n) {flow : Flow (List Value)}
    (hhome : Home p known t s b) (hgrants : t.Grants p alone may)
    (hop : op.Fits reads writes scripted alone known may) (hkind : op.kind = "parallel")
    (hops : op.innerOps = .ok ops)
    (hflow : ∀ (Q : Nat → Value → Store → Prop) base T, Interleaving.Stable Q base →
      Turfs base base T s →
      (∀ i (f : Flow Value), (ops.map ((e.dispatcher n).dispatch · p))[i]? = some f →
        f.Ready ans (fun _ => Q i) none (base i) s) →
      flow.Settles ans (fun _ vs s' => Interleaving.Fulfilled Q ops.length vs s') none T s) :
    flow.Settles ans (At p (Interleaving.knownOfBranches known ops)
      (Interleaving.Joined writes ops b fun i v c => ∀ o, ops[i]? = some o →
        Yields (e.lore ans writes scripted script) (.branch o) b [v] c)) none t s := by
  refine Interleaving.branches_settle hhome hgrants hop hkind hops
    (fun i o u s' ho hhome' hgrants' => ?_) hflow
  have hfits := hop.branch hkind hops (List.mem_of_getElem? ho)
  refine (hsound.branch hfits hgrants' hhome').mono fun w v s'' hx => ?_
  obtain ⟨c, hc, hend⟩ := hx
  refine ⟨c, fun o' ho' => ?_, hend⟩
  cases ho.symm.trans ho'
  exact hc

end Engine.Sound

/-! ## Ops -/

namespace Engine.Performs

variable (he : e.Performs reads writes scripted script)
  (hop : op.Fits reads writes scripted alone known may) (hgrants : t.Grants p alone may)
  (hhome : Home p known t s b)

include he hop hgrants hhome

theorem leaf_reaches (hleaf : op.IsLeaf) : (e.exec (n + 1) op p).Settles ans
    (At p (op.knownAfter alone known) fun v c =>
      Yields (e.lore ans writes scripted script) (.exec op) b [v] c) none t s := by
  have hne : op.kind ≠ "parallel" := fun h => hleaf.2 (by rw [h]; decide)
  have hscripted := hop.tame.scripted op (.self op) hleaf
  obtain ⟨m, -, hall⟩ := (he.touches op hleaf hscripted).settles ans b
  have hact := (hall p known t s (fun key hk => hop.read key (.leaf hleaf hk))
    (fun key hk => (hgrants key (hop.write key (.leaf hleaf hk))).1) hhome).budget (.unlimited m)
  rw [← he.leaf op n p hleaf hscripted] at hact
  refine (exec_settles hhome hgrants hleaf.1 hop.write (fun _ => known_of_not_parallel hne)
    hact).mono fun u v s' hx => ?_
  obtain ⟨c, ⟨b', hsolo, rfl⟩, hend⟩ := hx
  exact ⟨_, .leaf hleaf ⟨hscripted, hsolo⟩, hend⟩

variable (hsound : e.Sound ans reads writes scripted script n)

include hsound

theorem sequential_reaches (hkind : op.kind = "sequential") : (e.exec (n + 1) op p).Settles ans
    (At p (op.knownAfter alone known) fun v c =>
      Yields (e.lore ans writes scripted script) (.exec op) b [v] c) none t s := by
  have hne : op.kind ≠ "parallel" := by rw [hkind]; decide
  have hloop : LoopMode.ofKind? op.kind = none := by rw [hkind]; rfl
  have hact : (e.carryOut n op p).Settles ans (At p known fun v c => c = b ∧
      Yields (e.lore ans writes scripted script) (.exec op) b [v] (op.bound v b)) none t s := by
    rw [carryOut_of_kind e he.sequential hkind]
    refine Executor.sequential_settles hhome (fun _ => rfl) fun ops c u s' hops hcopy hhas => ?_
    refine (hsound.runOps_copy (hop.sequence hkind hops) hhas hcopy).mono fun w vs s'' hx => ?_
    obtain ⟨c', hc', -⟩ := hx
    exact .sequential hkind hops hc'
  refine (exec_settles hhome hgrants hloop hop.write (fun _ => known_of_not_parallel hne)
    hact).mono fun u v s' hx => ?_
  obtain ⟨c, ⟨b', ⟨rfl, hyields⟩, rfl⟩, hend⟩ := hx
  exact ⟨_, hyields, hend⟩

theorem map_reaches (hkind : op.kind = "map") : (e.exec (n + 1) op p).Settles ans
    (At p (op.knownAfter alone known) fun v c =>
      Yields (e.lore ans writes scripted script) (.exec op) b [v] c) none t s := by
  have hne : op.kind ≠ "parallel" := by rw [hkind]; decide
  have hloop : LoopMode.ofKind? op.kind = none := by rw [hkind]; rfl
  have hact : (e.carryOut n op p).Settles ans (At p known fun v c => c = b ∧
      Yields (e.lore ans writes scripted script) (.exec op) b [v] (op.bound v b)) none t s := by
    rw [carryOut_of_kind e he.map hkind]
    refine Executor.map_settles hhome
      (fun path key hpath hk => hop.read key (.input hkind hpath hk)) (fun _ => rfl)
      fun items name ops hitems hname hops => ?_
    refine (hsound.items [] items (hop.item hkind hname hops) hhome).mono fun u vs s' hx => ?_
    obtain ⟨c, ⟨rfl, ws, rfl, hws⟩, hend⟩ := hx
    exact ⟨c, ⟨rfl, .map hkind hitems hname hops hws⟩, hend⟩
  refine (exec_settles hhome hgrants hloop hop.write (fun _ => known_of_not_parallel hne)
    hact).mono fun u v s' hx => ?_
  obtain ⟨c, ⟨b', ⟨rfl, hyields⟩, rfl⟩, hend⟩ := hx
  exact ⟨_, hyields, hend⟩

theorem parallel_reaches (hkind : op.kind = "parallel") : (e.exec (n + 1) op p).Settles ans
    (At p (op.knownAfter alone known) fun v c =>
      Yields (e.lore ans writes scripted script) (.exec op) b [v] c) none t s := by
  obtain ⟨reached, hknown, hact⟩ : ∃ reached : String → Prop,
      (∀ key, op.knownAfter alone known key →
        reached key ∨ key = Bindings.outputKey ∨ op.outputBinding = some key) ∧
      (e.carryOut n op p).Settles ans (At p reached fun v c =>
        Yields (e.lore ans writes scripted script) (.exec op) b [v] (op.bound v c)) none t s := by
    rw [carryOut_of_kind e he.parallel hkind]
    cases hops : op.innerOps with
    | error fault =>
      refine ⟨op.knownAfter alone known, fun _ => .inl, ?_⟩
      refine Flow.settles_ofExcept_bind (fun _ => rfl) fun ops hops' => ?_
      cases hops.symm.trans hops'
    | ok ops =>
      refine ⟨Interleaving.knownOfBranches known ops, fun _ => known_of_parallel hops, ?_⟩
      refine Flow.settles_ofExcept_bind (fun _ => rfl) fun ops' hops' => ?_
      cases hops.symm.trans hops'
      refine Flow.settles_ofExcept_bind (fun _ => rfl) fun cap hcap => ?_
      obtain ⟨own, hown⟩ := Executor.natParam_of_concurrency hcap
      refine (hsound.branches hhome hgrants hop hkind hops
        fun Q base T hQ hturfs hready => ?_).bind_last fun u vs s' _ hx => ?_
      · have hrun := Interleaving.run_settles n cap (M := none) hQ hturfs (.unlimited _)
          (fun k hk => nomatch hk) hready
        rw [List.length_map] at hrun
        exact hrun
      · obtain ⟨c, hc, hend⟩ := hx
        exact ⟨c, hc.yields rfl hkind hops hown, hend⟩
  refine (exec_settles hhome hgrants (Op.kind_parallel_loop hkind) hop.write hknown hact).mono
    fun u v s' hx => ?_
  obtain ⟨c, ⟨b', hyields, rfl⟩, hend⟩ := hx
  exact ⟨_, hyields, hend⟩

end Engine.Performs

/-- **What an op reaches is what it means.** -/
theorem Engine.Performs.sound (he : e.Performs reads writes scripted script) (ans : Query → Value)
    (n : Nat) : e.Sound ans reads writes scripted script n := by
  induction n with
  | zero => exact fun _ _ _ _ _ _ _ _ _ _ _ _ => rfl
  | succ n ih =>
    intro op alone known may p t s b hloop hop hgrants hhome
    rcases op.isLeaf_or with ⟨mode, hmode⟩ | hleaf | hkind | hkind | hkind
    · rw [hloop] at hmode
      cases hmode
    · exact he.leaf_reaches hop hgrants hhome hleaf
    · exact he.sequential_reaches hop hgrants hhome ih hkind
    · exact he.parallel_reaches hop hgrants hhome ih hkind
    · exact he.map_reaches hop hgrants hhome ih hkind

end WorkflowEngine
