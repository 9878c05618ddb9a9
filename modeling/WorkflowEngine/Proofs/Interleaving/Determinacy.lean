import WorkflowEngine.Proofs.Interleaving.Increments
import WorkflowEngine.Proofs.Interleaving.Reaching

/-!
# Branches that are apart are determinate

**Main statement (`Setting.comes_to_the_same`).** Let the branches of a parallel op be apart, and in
the same way those of every parallel op inside a branch. If the op comes to a result and to bindings
in one setting, then in every other it comes to the same, however many branches may run at a time,
and wherever the executors pause; and so do the branches when they are executed one after another.
Each entry of the result is what the branch at its place comes to by itself.

A *setting* is what may differ: the engine, the world, and the op as far as it is not its
branches. What is reached in a setting is a meaning of the op (`Engine.Performs.sound`), and what
an op means is reached in every setting (`Engine.Performs.complete`). The meaning itself speaks
neither of pauses nor of caps, so it is carried over from one setting to another as it is.

That the branches are apart is not enough: two branches of a parallel op inside a branch that
write the same key leave there what the later of them has written, and which of them is the later
depends on their pauses (`Setting.nested_race`).
-/

namespace WorkflowEngine

/-- The leaves of some op trees. -/
def Op.LeafOf (ops : List Op) (leaf : Op) : Prop := leaf.IsLeaf ∧ ∃ op ∈ ops, op.Holds leaf

/-! ## One branch after another -/

/-- Executes the branches of a parallel op one after another, in their order. -/
def Executor.inTurn : Executor := fun d op context => do
  let ops ← op.innerOps
  return .array (← Flow.inTurn (ops.map (d.dispatch · context)))

/-- Executes a parallel op as if its branches were one after another. -/
def Engine.inTurn (e : Engine) (n : Nat) (op : Op) (context : Handle) : Flow Value := do
  let result ← Executor.inTurn (e.dispatcher n) op context
  bindResult op context result
  return result

section

variable {e : Engine} {reads writes : Op → String → Prop} {scripted : Op → Prop}
  {script : Op → Flow Value} {ans : Query → Value} {n : Nat} {m : Budget} {op : Op} {ops : List Op}
  {alone : Bool} {known may : String → Prop} {p : Handle} {t : Turf} {s : Store} {b c : Bindings}
  {vs : List Value} {cap : Option Nat}

/-- The rule for branches one after another is that for any flow that leaves them apart. -/
theorem Engine.inTurn_settles {P : List Value → Bindings → Prop}
    (hop : op.Fits reads writes scripted alone known may) (hgrants : t.Grants p alone may)
    (hhome : Home p known t s b) (hkind : op.kind = "parallel") (hops : op.innerOps = .ok ops)
    (hbranches : (Flow.inTurn (ops.map ((e.dispatcher n).dispatch · p))).Settles ans
      (At p (Interleaving.knownOfBranches known ops) P) m t s) :
    (e.inTurn n op p).Settles ans (At p (op.knownAfter alone known) fun v c =>
      ∃ vs b', v = .array vs ∧ P vs b' ∧ c = op.bound v b') m t s := by
  have hact : (Executor.inTurn (e.dispatcher n) op p).Settles ans
      (At p (Interleaving.knownOfBranches known ops) fun v c => ∃ vs, v = .array vs ∧ P vs c)
      m t s := by
    refine Flow.settles_ofExcept_bind (fun hnone => absurd hops (hnone ops)) fun ops' hops' => ?_
    cases hops.symm.trans hops'
    refine hbranches.bind_last fun u vs s' _ hx => ?_
    obtain ⟨d, hd, hend⟩ := hx
    exact ⟨d, ⟨vs, rfl, hd⟩, hend⟩
  refine bound_settles hhome hgrants (Op.kind_parallel_loop hkind) hop.write
    (fun _ => Performs.known_of_parallel hops) hact fun u v s' hx => ?_
  obtain ⟨d, ⟨b', ⟨vs, hvs, hP⟩, hd⟩, hend⟩ := hx
  exact ⟨d, ⟨vs, b', hvs, hP, hd⟩, hend⟩

theorem Engine.Sound.inTurn (hsound : e.Sound ans reads writes scripted script n)
    (hop : op.Fits reads writes scripted alone known may) (hgrants : t.Grants p alone may)
    (hhome : Home p known t s b) (hkind : op.kind = "parallel") (hops : op.innerOps = .ok ops)
    (hcap : op.natParam "concurrency" = .ok cap) :
    (e.inTurn n op p).Settles ans (At p (op.knownAfter alone known) fun v c =>
      Yields (e.lore ans writes scripted script) (.exec op) b [v] c) none t s := by
  have hbranches : (Flow.inTurn (ops.map ((e.dispatcher n).dispatch · p))).Settles ans _ none t s :=
    hsound.branches hhome hgrants hop hkind hops fun Q base T hQ hturfs hready => by
      have hturns := (Interleaving.inTurn_settles hQ hturfs hready).budget (.unlimited _)
      rw [List.length_map] at hturns
      exact hturns.mono fun _ _ _ => And.left
  refine (inTurn_settles hop hgrants hhome hkind hops hbranches).mono fun u v s' hx => ?_
  obtain ⟨d, ⟨vs, b', rfl, hjoined, rfl⟩, hend⟩ := hx
  exact ⟨_, hjoined.yields rfl hkind hops hcap, hend⟩

theorem Engine.Completes.inTurn {ends : Nat → Bindings} (hlength : vs.length = ops.length)
    (h : ∀ i o v, ops[i]? = some o → vs[i]? = some v →
      e.Completes ans reads writes scripted (.branch o) b [v] (ends i))
    (hmerges : Merges (Op.MayBind writes) ops ends b c) :
    ∃ N k, ∀ (n : Nat) (op : Op) (alone : Bool) (known may : String → Prop) (p : Handle) (t : Turf)
      (s : Store), N ≤ n → op.kind = "parallel" → op.innerOps = .ok ops →
      op.Fits reads writes scripted alone known may → t.Grants p alone may → Home p known t s b →
      (e.inTurn n op p).Settles ans (At p (op.knownAfter alone known) fun v d =>
        v = .array vs ∧ d = op.bound (.array vs) c) (some k) t s := by
  obtain ⟨N, K, need, hneed, hall⟩ := Completes.branches hlength h hmerges
  refine ⟨N, K, fun n op alone known may p t s hn hkind hops hop hgrants hhome => ?_⟩
  have hbranches := hall n op alone known may p t s _ hn hkind hops hop hgrants hhome
    fun Q base T hQ hturfs hready => by
      have hturns := Interleaving.inTurn_settles hQ hturfs hready
      rw [List.length_map, hneed] at hturns
      exact hturns.mono fun _ _ _ => And.left
  refine (inTurn_settles hop hgrants hhome hkind hops hbranches).mono fun u v s' hx => ?_
  obtain ⟨d, ⟨ws, b', rfl, ⟨rfl, hb'⟩, rfl⟩, hend⟩ := hx
  exact ⟨_, ⟨rfl, hb' op _⟩, hend⟩

/-- What a parallel op means: its result lists what its branches come to. -/
theorem Yields.of_parallel {lore : Lore} (hkind : op.kind = "parallel")
    (hops : op.innerOps = .ok ops) (h : Yields lore (.exec op) b vs c) :
    ∃ ws ends d, vs = [.array ws] ∧ c = op.bound (.array ws) d ∧ ws.length = ops.length ∧
      (∀ i o v, ops[i]? = some o → ws[i]? = some v → Yields lore (.branch o) b [v] (ends i)) ∧
      Merges lore.binds ops ends b d := by
  cases h with
  | leaf hleaf _ => exact absurd hleaf (Op.not_isLeaf_of_group (by rw [hkind]; decide))
  | sequential hseq _ _ => exact absurd (hkind.symm.trans hseq) (by decide)
  | map hmap _ _ _ _ => exact absurd (hkind.symm.trans hmap) (by decide)
  | parallel _ hops' _ hlength hbranches hmerges =>
    cases hops.symm.trans hops'
    exact ⟨_, _, _, rfl, rfl, hlength, hbranches, hmerges⟩

end

/-! ## Settings -/

/-- A setting in which given branches are executed at the same time, from given bindings on: a
parallel op that has these branches, an engine that executes their leaves by scripts, and a world,
with a context in it. -/
structure Setting (reads writes : Op → String → Prop) (ans : Query → Value) (ops : List Op)
    (b : Bindings) where
  engine : Engine
  script : Op → Flow Value
  environment : Environment
  world : World
  context : Handle
  op : Op
  performs : engine.Performs reads writes (Op.LeafOf ops) script
  answers : environment.Answers ans
  valid : world.contexts.Valid context
  bindings : world.contexts.view context = b
  kind : op.kind = "parallel"
  branches : op.innerOps = .ok ops
  cap : ∃ own, op.natParam "concurrency" = .ok own

namespace Setting

variable {reads writes : Op → String → Prop} {ans : Query → Value} {ops : List Op} {b c : Bindings}
  {R W : Nat → String → Prop} {v : Value}

/-- Two settings differ in the caps, and in the pauses of the executors and how often these ask
whether to stop, but not in what the results are bound to, in the limit of loops, or in what the
executors do besides. -/
structure Matches (x y : Setting reads writes ans ops b) : Prop where
  binding : x.op.outputBinding = y.op.outputBinding
  limit : x.engine.config.maxLoopIterations = y.engine.config.maxLoopIterations
  calm : ∀ leaf, Op.LeafOf ops leaf → (x.script leaf).calm = (y.script leaf).calm

section

variable (x : Setting reads writes ans ops b)

/-- Nothing in the run of a flow says to stop. -/
def Calm (f : Flow Value) : Prop :=
  (f.trace x.environment x.world).any Mark.saysStop = false

instance (f : Flow Value) : Decidable (x.Calm f) := inferInstanceAs (Decidable (_ = false))

/-- The run of a flow ends with a result, and leaves bindings in the context. -/
def Ends (f : Flow Value) (v : Value) (c : Bindings) : Prop :=
  (f.run x.environment x.world).1 = .ended (.ok v) ∧
    (f.run x.environment x.world).2.contexts.view x.context = c

/-- Within some number of steps, a result and bindings are reached, and nothing says to stop. -/
def Reached (f : Nat → Flow Value) (v : Value) (c : Bindings) : Prop :=
  ∃ n, x.Calm (f n) ∧ x.Ends (f n) v c

/-- With enough steps a result and bindings are reached, unless something says to stop. -/
def Reaches (f : Nat → Flow Value) (v : Value) (c : Bindings) : Prop :=
  ∃ N, ∀ n, N ≤ n → x.Calm (f n) → x.Ends (f n) v c

/-- The execution of the op. -/
def exec (n : Nat) : Flow Value := x.engine.exec n x.op x.context

/-- Its branches one after another. -/
def inTurn (n : Nat) : Flow Value := x.engine.inTurn n x.op x.context

/-- One branch by itself. -/
def branch (o : Op) (n : Nat) : Flow Value := (x.engine.dispatcher n).dispatch o x.context

/-- What the leaves of the branches come to. -/
def lore : Lore := x.engine.lore ans writes (Op.LeafOf ops) x.script

/-- The turf of the whole context. -/
def turf : Turf := ⟨fun h _ => h = x.context, fun h _ => h = x.context⟩

theorem home : Home x.context (fun _ => True) x.turf x.world.contexts b :=
  ⟨x.valid, fun _ _ => rfl, fun key _ => congrArg (Record.get? · key) x.bindings⟩

theorem grants : x.turf.Grants x.context true (fun _ => True) := fun _ _ => ⟨rfl, fun _ => rfl⟩

/-- Branches whose own branches are apart fit into the context. -/
theorem branch_fits (hfree : ∀ o ∈ ops, o.RaceFree reads writes) {o : Op} (ho : o ∈ ops) :
    o.Fits reads writes (Op.LeafOf ops) true (fun _ => True) (fun _ => True) where
  read _ _ := trivial
  write _ _ := trivial
  tame := ⟨fun _ hheld hleaf => ⟨hleaf, o, ho, hheld⟩, hfree o ho⟩

theorem fits (hapart : Op.Apart reads writes ops R W) (hfree : ∀ o ∈ ops, o.RaceFree reads writes) :
    x.op.Fits reads writes (Op.LeafOf ops) true (fun _ => True) (fun _ => True) where
  read _ _ := trivial
  write _ _ := trivial
  tame := by
    refine ⟨fun leaf hheld hleaf => ?_, fun o os hheld hkind hos => ?_⟩
    · cases hheld with
      | self => exact absurd hleaf (Op.not_isLeaf_of_group (by rw [x.kind]; decide))
      | inner _ hops hinner hheld =>
        cases x.branches.symm.trans hops
        exact ⟨hleaf, _, hinner, hheld⟩
    · cases hheld with
      | self =>
        cases x.branches.symm.trans hos
        exact ⟨R, W, hapart⟩
      | inner _ hops hinner hheld =>
        cases x.branches.symm.trans hops
        exact hfree _ hinner o os hheld hkind hos

/-! ## Runs in a setting -/

variable {x} {f : Flow Value} {m : Budget} {o : Op} {P : Value → Bindings → Prop}

/-- What the judgement says of the run of a flow. All of the context is known, so all of what is
bound in the end. -/
theorem settled (hcalm : x.Calm f)
    (hf : f.Settles ans (At x.context (o.knownAfter true fun _ => True) P) m x.turf
      x.world.contexts) :
    (∃ v c, P v c ∧ x.Ends f v c) ∨ (m = none ∧ ∀ v c, ¬x.Ends f v c) := by
  rcases hf.run x.answers hcalm with ⟨v, u, hrun, c, hc, hhome⟩ | ⟨hnone, hall⟩
  · exact .inl ⟨v, c, hc, hrun, Record.ext_get? fun key => hhome.same key (.inl trivial)⟩
  · exact .inr ⟨hnone, fun v c hends => hall v hends.1⟩

theorem Ends.of_settles (h : x.Ends f v c) (hcalm : x.Calm f)
    (hf : f.Settles ans (At x.context (o.knownAfter true fun _ => True) P) m x.turf
      x.world.contexts) : P v c := by
  rcases settled hcalm hf with ⟨v', c', hP, hrun, hview⟩ | ⟨-, hall⟩
  · cases h.1.symm.trans hrun
    cases h.2.symm.trans hview
    exact hP
  · exact absurd h (hall v c)

/-- With enough steps, what is completed within a budget is reached. -/
theorem reaches_of_settles {f : Nat → Flow Value} {N k : Nat}
    (hf : ∀ n, N ≤ n → (f n).Settles ans (At x.context (o.knownAfter true fun _ => True)
      fun w d => w = v ∧ d = c) (some k) x.turf x.world.contexts) : x.Reaches f v c := by
  refine ⟨N, fun n hn hcalm => ?_⟩
  rcases settled hcalm (hf n hn) with ⟨v', c', ⟨rfl, rfl⟩, hends⟩ | ⟨hnone, -⟩
  · exact hends
  · cases hnone

end

/-! ## The theorem -/

section

variable {x y : Setting reads writes ans ops b} (hapart : Op.Apart reads writes ops R W)
  (hfree : ∀ o ∈ ops, o.RaceFree reads writes)

include hapart hfree

theorem yields_of_reached (h : x.Reached x.exec v c ∨ x.Reached x.inTurn v c) :
    Yields x.lore (.exec x.op) b [v] c := by
  have hfits := x.fits hapart hfree
  obtain ⟨own, hcap⟩ := x.cap
  rcases h with ⟨n, hcalm, hends⟩ | ⟨n, hcalm, hends⟩
  · have hexec := x.performs.sound ans n x.op true _ _ x.context x.turf _ b
      (Op.kind_parallel_loop x.kind) hfits x.grants x.home
    exact hends.of_settles hcalm hexec
  · have hturns := (x.performs.sound ans n).inTurn hfits x.grants x.home x.kind x.branches hcap
    exact hends.of_settles hcalm hturns

omit hapart hfree in
/-- The leaves come to the same in settings that match. -/
theorem Matches.lore_eq (hxy : x.Matches y) : x.lore = y.lore := by
  have hleaf : ∀ o b v c, (Op.LeafOf ops o ∧ (x.script o).solo ans b = some (v, c)) =
      (Op.LeafOf ops o ∧ (y.script o).solo ans b = some (v, c)) := by
    intro o b v c
    refine propext (and_congr_right fun ho => ?_)
    rw [← Flow.solo_calm ans (x.script o), hxy.calm o ho, Flow.solo_calm]
  unfold lore Engine.lore
  simp only [hleaf, hxy.limit]

/-- **Branches that are apart are determinate.** What is reached in one setting, be it that the
branches are executed at the same time or one after another, is reached in every setting that
matches it, at the same time and one after another. And each result is that of the branch at its
place. -/
theorem comes_to_the_same (hxy : x.Matches y)
    (h : x.Reached x.exec v c ∨ x.Reached x.inTurn v c) :
    y.Reaches y.exec v c ∧ y.Reaches y.inTurn v c ∧
      ∃ vs : List Value, v = .array vs ∧ vs.length = ops.length ∧
        ∀ (i : Nat) o w, ops[i]? = some o → vs[i]? = some w → ∃ d, y.Reaches (y.branch o) w d := by
  have hyields := yields_of_reached hapart hfree h
  obtain ⟨vs, ends, d, hv, rfl, hlength, hbranches, hmerges⟩ :=
    hyields.of_parallel x.kind x.branches
  cases hv
  rw [hxy.lore_eq] at hbranches hmerges
  have hbound : x.op.bound (.array vs) d = y.op.bound (.array vs) d := by
    unfold Op.bound
    rw [hxy.binding]
  have hcompletes : ∀ i o v, ops[i]? = some o → vs[i]? = some v →
      y.engine.Completes ans reads writes (Op.LeafOf ops) (.branch o) b [v] (ends i) :=
    fun i o v ho hv => y.performs.complete (hbranches i o v ho hv)
  rw [hbound]
  have hfits := y.fits hapart hfree
  refine ⟨?_, ?_, vs, rfl, hlength, fun i o w ho hw => ?_⟩
  · obtain ⟨own, hown⟩ := y.cap
    obtain ⟨cap, hcap⟩ := Executor.exists_concurrency y.engine.config ops.length hown
    obtain ⟨N, k, hall⟩ :=
      y.performs.parallel_completes y.kind y.branches hcap hlength hcompletes hmerges
    refine reaches_of_settles (o := y.op) (N := N) (k := k) fun n hn => ?_
    refine (hall n true _ _ y.context y.turf _ hn hfits y.grants y.home).mono fun u w s hx => ?_
    obtain ⟨c, ⟨hv, hc⟩, hend⟩ := hx
    cases hv
    exact ⟨c, ⟨rfl, hc⟩, hend⟩
  · obtain ⟨N, k, hall⟩ := Engine.Completes.inTurn hlength hcompletes hmerges
    refine reaches_of_settles (o := y.op) (N := N) (k := k) fun n hn => ?_
    exact hall n y.op true _ _ y.context y.turf _ hn y.kind y.branches hfits y.grants y.home
  · obtain ⟨N, k, hall⟩ := hcompletes i o w ho hw
    refine ⟨ends i, reaches_of_settles (o := o) (N := N) (k := k) fun n hn => ?_⟩
    have hone := branch_fits hfree (List.mem_of_getElem? ho)
    refine (hall n true _ _ y.context y.turf _ hn hone y.grants y.home).mono fun u v s hx => ?_
    obtain ⟨c, ⟨hv, hc⟩, hend⟩ := hx
    cases hv
    exact ⟨c, ⟨rfl, hc⟩, hend⟩

end

/-! ## Increments -/

/-- A setting for increments, some of which are late, in a context that binds nothing. -/
def counts (pauses : Op → Nat) {ops : List Op} (hops : ∀ op ∈ ops, ∃ keys, op.Counts keys) (op : Op)
    (hkind : op.kind = "parallel") (hbranches : op.innerOps = .ok ops)
    (hcap : ∃ own, op.natParam "concurrency" = .ok own) :
    Setting Op.counted Op.counted (fun _ => .null) ops .empty where
  engine := Rehearsal.counting pauses
  script := Rehearsal.lateScript pauses
  environment := {}
  world := { contexts := (Store.empty.create .empty).2 }
  context := ⟨0⟩
  op := op
  performs := Rehearsal.counting_performs pauses fun _ ⟨hleaf, op, hop, hheld⟩ =>
    (hops op hop).elim fun _ h => h.kind_of_leaf hheld hleaf
  answers := fun _ _ => rfl
  valid := by decide
  bindings := rfl
  kind := hkind
  branches := hbranches
  cap := hcap

theorem counts_matches (pauses pauses' : Op → Nat) {ops : List Op}
    {hops : ∀ op ∈ ops, ∃ keys, op.Counts keys} {op op' : Op}
    {hkind : op.kind = "parallel"} {hkind' : op'.kind = "parallel"}
    {hbranches : op.innerOps = .ok ops} {hbranches' : op'.innerOps = .ok ops}
    {hcap : ∃ own, op.natParam "concurrency" = .ok own}
    {hcap' : ∃ own, op'.natParam "concurrency" = .ok own}
    (hbinding : op.outputBinding = op'.outputBinding) :
    (counts pauses hops op hkind hbranches hcap).Matches
      (counts pauses' hops op' hkind' hbranches' hcap') where
  binding := hbinding
  limit := rfl
  calm leaf _ := (Rehearsal.calm_lateScript pauses leaf).trans
    (Rehearsal.calm_lateScript pauses' leaf).symm

/-- An increment, and two others at the same time. -/
def threeCounts : List Op := [.increment "x", .parallel [.increment "y", .increment "z"]]

theorem threeCounts_counts : (Op.increment "x").Counts ["x"] ∧
    (Op.parallel [.increment "y", .increment "z"]).Counts ["y", "z"] :=
  ⟨.one rfl, @Op.Counts.all _ [.increment "y", .increment "z"] rfl rfl rfl (by decide)⟩

theorem threeCounts_all : ∀ op ∈ threeCounts, ∃ keys, op.Counts keys := by
  simp only [threeCounts, List.forall_mem_cons]
  exact ⟨⟨_, threeCounts_counts.1⟩, ⟨_, threeCounts_counts.2⟩, nofun⟩

theorem threeCounts_apart : ∃ R W, Op.Apart Op.counted Op.counted threeCounts R W :=
  threeCounts_counts.1.apart_pair threeCounts_counts.2 (by decide) (by decide)

theorem threeCounts_raceFree : ∀ op ∈ threeCounts, op.RaceFree Op.counted Op.counted := by
  have hone : ∀ key, (Op.increment key).RaceFree Op.counted Op.counted := fun key =>
    .of_isLeaf (Op.isLeaf_of_increment rfl)
  have hy : (Op.increment "y").Counts ["y"] := .one rfl
  have hz : (Op.increment "z").Counts ["z"] := .one rfl
  obtain ⟨R, W, hapart⟩ := hy.apart_pair hz (by decide) (by decide)
  simp only [threeCounts, List.forall_mem_cons]
  refine ⟨hone "x", .of_apart rfl hapart ?_, nofun⟩
  simp only [List.forall_mem_cons]
  exact ⟨hone "y", hone "z", nofun⟩

/-- All branches at once, and no increment late. -/
def prompt : Setting Op.counted Op.counted (fun _ => .null) threeCounts .empty :=
  counts (fun _ => 0) threeCounts_all (.parallel threeCounts) rfl rfl ⟨_, rfl⟩

/-- One branch at a time, and two of the increments late. -/
def belated : Setting Op.counted Op.counted (fun _ => .null) threeCounts .empty :=
  counts (fun op => if op = .increment "x" then 2 else if op = .increment "y" then 1 else 0)
    threeCounts_all ((Op.parallel threeCounts).withParam "concurrency" (.nat 1)) rfl rfl ⟨_, rfl⟩

/-- Counting comes to the same, late or not. -/
theorem counts_come_to_the_same :
    (∃ R W, Op.Apart Op.counted Op.counted threeCounts R W) ∧
    (∀ op ∈ threeCounts, op.RaceFree Op.counted Op.counted) ∧ prompt.Matches belated ∧
    ∃ v c, prompt.Reached prompt.exec v c ∧ v = .array [.int 1, .array [.int 1, .int 1]] ∧
      belated.Reaches belated.exec v c ∧ belated.Reaches belated.inTurn v c := by
  have hmatches : prompt.Matches belated := counts_matches _ _ rfl
  have hreached : prompt.Reached prompt.exec (.array [.int 1, .array [.int 1, .int 1]]) _ :=
    ⟨9, by decide +kernel, Outcome.eq_of_result? (by decide +kernel), rfl⟩
  obtain ⟨R, W, hapart⟩ := threeCounts_apart
  obtain ⟨hexec, hturns, -⟩ :=
    comes_to_the_same hapart threeCounts_raceFree hmatches (.inl hreached)
  exact ⟨⟨R, W, hapart⟩, threeCounts_raceFree, hmatches, _, _, hreached, rfl, hexec, hturns⟩

/-! ## Races inside a branch -/

/-- A branch in which two increments bind their results to the same name, and another branch. -/
def racing : List Op :=
  [.parallel [(Op.increment "a").output "last",
    ((Op.increment "b").withParam "by" (.int 2)).output "last"], .increment "x"]

theorem racing_counts : (racing.headD .noop).Counts ["a", "last", "b", "last"] ∧
    (Op.increment "x").Counts ["x"] :=
  ⟨@Op.Counts.all _ [(Op.increment "a").output "last",
    ((Op.increment "b").withParam "by" (.int 2)).output "last"] rfl rfl rfl (by decide), .one rfl⟩

theorem racing_all : ∀ op ∈ racing, ∃ keys, op.Counts keys := by
  simp only [racing, List.forall_mem_cons]
  exact ⟨⟨_, racing_counts.1⟩, ⟨_, racing_counts.2⟩, nofun⟩

/-- The branches, with that of the two increments some pauses late. -/
def race (pauses : Nat) : Setting Op.counted Op.counted (fun _ => .null) racing .empty :=
  counts (fun op => if op.outputBinding = some "last" ∧ op.param? "by" = none then pauses else 0)
    racing_all (.parallel racing) rfl rfl ⟨_, rfl⟩

/-- **A race inside a branch.** The branches are apart, nothing fails and nothing says to stop, but
whether one of the executors pauses makes a difference to the final context. -/
theorem nested_race :
    (∃ R W, Op.Apart Op.counted Op.counted racing R W) ∧ (race 0).Matches (race 1) ∧
    (∃ v c, (race 0).Reached (race 0).exec v c ∧ c.get? "last" = some (.int 2)) ∧
    ∃ v c, (race 1).Reached (race 1).exec v c ∧ c.get? "last" = some (.int 1) := by
  refine ⟨racing_counts.1.apart_pair racing_counts.2 (by decide) (by decide),
    counts_matches _ _ rfl, ?_, ?_⟩
  · exact ⟨.array [.array [.int 1, .int 2], .int 1], _,
      ⟨9, by decide +kernel, Outcome.eq_of_result? (by decide +kernel), rfl⟩, by decide +kernel⟩
  · exact ⟨.array [.array [.int 1, .int 2], .int 1], _,
      ⟨9, by decide +kernel, Outcome.eq_of_result? (by decide +kernel), rfl⟩, by decide +kernel⟩

end Setting

end WorkflowEngine
