import WorkflowEngine.Proofs.Interleaving.Reached

/-!
# What an op means it reaches

**Main statement (`Engine.Performs.complete`).** If the meaning of an op leads to a result and to
bindings (`Yields`), then with enough steps the op comes to just these among others, within a number
of pauses that does not depend on the others, as long as the branches of parallel ops are apart.

The proof is an induction on the meaning, with one lemma for each way in which work is done. How
many steps are enough, and how many pauses there may be, is said before anything of the contexts
in which the work is done, so that it can be summed up over the branches of a parallel op.
-/

namespace WorkflowEngine

variable {e : Engine} {reads writes : Op → String → Prop} {scripted : Op → Prop}
  {script : Op → Flow Value} {ans : Query → Value} {n : Nat} {op : Op} {ops : List Op}
  {alone : Bool} {known may : String → Prop} {p : Handle} {t : Turf} {s : Store} {b b' c : Bindings}
  {v : Value} {vs : List Value}

/-- With enough steps and within a budget, work comes to these results and bindings, whatever the
context in which it is done, and whatever others do. -/
def Engine.Completes (e : Engine) (ans : Query → Value) (reads writes : Op → String → Prop)
    (scripted : Op → Prop) : Work → Bindings → List Value → Bindings → Prop
  | .exec op, b, vs, c => ∃ N k, ∀ (n : Nat) (alone : Bool) (known may : String → Prop)
      (p : Handle) (t : Turf) (s : Store), N ≤ n → op.Fits reads writes scripted alone known may →
      t.Grants p alone may → Home p known t s b → (e.exec n op p).Settles ans
        (At p (op.knownAfter alone known) fun v d => vs = [v] ∧ d = c) (some k) t s
  | .branch op, b, vs, c => ∃ N k, ∀ (n : Nat) (alone : Bool) (known may : String → Prop)
      (p : Handle) (t : Turf) (s : Store), N ≤ n → op.Fits reads writes scripted alone known may →
      t.Grants p alone may → Home p known t s b → ((e.dispatcher n).dispatch op p).Settles ans
        (At p (op.knownAfter alone known) fun v d => vs = [v] ∧ d = c) (some k) t s
  | .frames fs, b, vs, c => ∃ N k, ∀ (n m i : Nat) (taken : List Step) (dispatched : Nat)
      (alone : Bool) (known may : String → Prop) (p : Handle) (t : Turf) (s : Store),
      N ≤ n → N ≤ m → N ≤ i → (∀ f ∈ fs, f.Fits reads writes scripted alone known may) →
      t.Grants p alone may → Home p known t s b →
      (Runner.following (e.dispatcher n) taken m i (.underway p fs dispatched)).Settles ans
        (StepsAt p known taken fun ws d => ws = vs ∧ d = c) (some k) t s
  | .items ops name items, b, vs, _ => ∃ N k, ∀ (n : Nat) (results : List Value)
      (known : String → Prop) (p : Handle) (t : Turf) (s : Store), N ≤ n →
      Op.ListFits reads writes scripted true (knownOfItem known name) (fun _ => True) ops →
      Home p known t s b → (Executor.mapItems (e.dispatcher n) ops name p results items).Settles ans
        (At p known fun ws d => ws = results.reverse ++ vs ∧ d = b) (some k) t s

namespace Engine.Completes

/-! ## Op lists -/

theorem finished : e.Completes ans reads writes scripted (.frames []) b [] b := by
  refine ⟨1, 0, fun n m i taken dispatched alone known may p t s _ _ hi _ _ hhome => ?_⟩
  obtain ⟨i, rfl⟩ := Nat.exists_eq_add_of_lt hi
  exact ⟨[], (List.append_nil _).symm, b, ⟨rfl, rfl⟩, hhome⟩

theorem again {f : Frame} {next : Option Frame} {outer : List Frame} (hcursor : f.rest = [])
    (hsolo : (Runner.again? f ⟨0⟩).solo ans b = some (next, b'))
    (h : e.Completes ans reads writes scripted (.frames (next.toList ++ outer)) b' vs c) :
    e.Completes ans reads writes scripted (.frames (f :: outer)) b vs c := by
  obtain ⟨N, k, hrest⟩ := h
  obtain ⟨m₀, hm₀, hall⟩ := (Runner.again?_touches f ⟨0⟩).settles ans b
  have hsome : m₀ ≠ none := hm₀ (by rw [hsolo]; exact Option.some_ne_none _)
  obtain ⟨k₀, rfl⟩ := Option.ne_none_iff_exists'.1 hsome
  refine ⟨N + 1, k₀ + k, fun n m i taken dispatched alone known may p t s hn hm hi hfits hgrants
    hhome => ?_⟩
  obtain ⟨i, rfl⟩ := Nat.exists_eq_add_of_lt hi
  have hf := hfits f (List.mem_cons_self ..)
  have hbegin := hall p known t s (fun key ⟨l, hl, hk⟩ => (hf.again l hl).2 key hk)
    (fun _ h => h.elim) hhome
  rw [Runner.following_again hcursor, Runner.again?_within f p ⟨0⟩]
  refine hbegin.bind (n := some k) fun u next' s' hu hx => ?_
  obtain ⟨b'', hsolo', hhome'⟩ := hx
  cases hsolo.symm.trans hsolo'
  exact hrest n m _ taken dispatched alone known may p u s' (by omega) (by omega) (by omega)
    (Frame.fits_again hfits hsolo) (hgrants.inside hu) hhome'

theorem enter {f : Frame} {rest : List Op} {mode : LoopMode} {next : Option Frame}
    {outer : List Frame} (hcursor : f.rest = op :: rest)
    (hmode : LoopMode.ofKind? op.kind = some mode)
    (hsolo : (Runner.enter? (.limited e.config.maxLoopIterations) mode op ⟨0⟩).solo ans b =
      some (next, b'))
    (h : e.Completes ans reads writes scripted (.frames (next.toList ++ { f with rest } :: outer))
      b' vs c) :
    e.Completes ans reads writes scripted (.frames (f :: outer)) b vs c := by
  obtain ⟨N, k, hrest⟩ := h
  obtain ⟨m₀, hm₀, hall⟩ := (Runner.enter?_touches
    (.limited e.config.maxLoopIterations) mode op ⟨0⟩).settles ans b
  have hsome : m₀ ≠ none := hm₀ (by rw [hsolo]; exact Option.some_ne_none _)
  obtain ⟨k₀, rfl⟩ := Option.ne_none_iff_exists'.1 hsome
  refine ⟨N + 1, k₀ + k, fun n m i taken dispatched alone known may p t s hn hm hi hfits hgrants
    hhome => ?_⟩
  obtain ⟨i, rfl⟩ := Nat.exists_eq_add_of_lt hi
  have hf := hfits f (List.mem_cons_self ..)
  have hlist : Op.ListFits reads writes scripted alone known may (op :: rest) := hcursor ▸ hf.rest
  have hbegin := hall p known t s (fun key ⟨path, hp, hk⟩ =>
    hlist.head.read key (.condition hmode hp hk)) (fun _ h => h.elim) hhome
  rw [Runner.following_enter hcursor hmode, Runner.enter?_limited (e.dispatcher n) mode op p,
    Runner.enter?_within _ mode op p ⟨0⟩]
  refine ⟨trivial, hbegin.bind (n := some k) fun u next' s' hu hx => ?_⟩
  obtain ⟨b'', hsolo', hhome'⟩ := hx
  cases hsolo.symm.trans hsolo'
  exact hrest n m _ taken dispatched alone known may p u s' (by omega) (by omega) (by omega)
    (Frame.fits_enter hfits hcursor hmode hsolo) (hgrants.inside hu) hhome'

theorem step {f : Frame} {rest : List Op} {outer : List Frame} (hcursor : f.rest = op :: rest)
    (hmode : LoopMode.ofKind? op.kind = none)
    (hop : e.Completes ans reads writes scripted (.exec op) b [v] b')
    (h : e.Completes ans reads writes scripted (.frames ({ f with rest } :: outer)) b' vs c) :
    e.Completes ans reads writes scripted (.frames (f :: outer)) b (v :: vs) c := by
  obtain ⟨N₁, k₁, hexec⟩ := hop
  obtain ⟨N₂, k₂, hrest⟩ := h
  refine ⟨max N₁ N₂ + 1, k₁ + k₂, fun n m i taken dispatched alone known may p t s hn hm hi hfits
    hgrants hhome => ?_⟩
  obtain ⟨i, rfl⟩ := Nat.exists_eq_add_of_lt hi
  obtain ⟨m, rfl⟩ := Nat.exists_eq_add_of_lt hm
  have hf := hfits f (List.mem_cons_self ..)
  have hlist : Op.ListFits reads writes scripted alone known may (op :: rest) := hcursor ▸ hf.rest
  rw [Runner.following_step hcursor hmode]
  refine ⟨trivial, (hexec n alone known may p t s (by omega) hlist.head hgrants hhome).bind
    (n := some k₂) fun u v' s' hu hx => ?_⟩
  obtain ⟨b'', ⟨hv, rfl⟩, hhome'⟩ := hx
  cases hv
  rw [Runner.stepsFrom_underway]
  refine (hrest n _ _ _ _ alone _ may p u s' (by omega) (by omega) (by omega)
    (Frame.fits_step hfits hcursor) (hgrants.inside hu) hhome').mono fun w x s'' hy =>
      hy.step (fun _ => .inl) fun ws d hd => ?_
  exact ⟨congrArg (v :: ·) hd.1, hd.2⟩

theorem runOps (h : e.Completes ans reads writes scripted (.list ops) b vs c) :
    ∃ N k, ∀ (n : Nat) (alone : Bool) (known may : String → Prop) (p : Handle) (t : Turf)
      (s : Store), N ≤ n → Op.ListFits reads writes scripted alone known may ops →
      t.Grants p alone may → Home p known t s b → ((e.dispatcher n).runOps ops p).Settles ans
        (At p known fun ws d => ws = vs ∧ d = c) (some k) t s := by
  obtain ⟨N, k, hall⟩ := h
  refine ⟨N + 1, k, fun n alone known may p t s hn hfits hgrants hhome => ?_⟩
  obtain ⟨n, rfl⟩ := Nat.exists_eq_add_of_lt hn
  refine Dispatcher.runOps_settles rfl ?_
  refine hall _ _ _ [] 0 alone known may p t s (by omega) (by omega) (by omega) (fun f hf => ?_)
    hgrants hhome
  cases List.mem_singleton.1 hf
  exact .list hfits

/-! ## Branches -/

theorem straight (hmode : LoopMode.ofKind? op.kind = none)
    (h : e.Completes ans reads writes scripted (.exec op) b vs c) :
    e.Completes ans reads writes scripted (.branch op) b vs c := by
  obtain ⟨N, k, hall⟩ := h
  refine ⟨N, k, fun n alone known may p t s hn hop hgrants hhome => ?_⟩
  unfold Dispatcher.dispatch
  rw [hmode]
  exact hall n alone known may p t s hn hop hgrants hhome

theorem loop {mode : LoopMode} (hmode : LoopMode.ofKind? op.kind = some mode)
    (h : e.Completes ans reads writes scripted (.list [op]) b vs c) :
    e.Completes ans reads writes scripted (.branch op) b [vs.getLast?.getD .null] c := by
  obtain ⟨N, k, hall⟩ := h.runOps
  refine ⟨N, k, fun n alone known may p t s hn hop hgrants hhome => ?_⟩
  unfold Dispatcher.dispatch
  rw [hmode]
  refine (hall n alone known may p t s hn hop.singleton hgrants hhome).bind_last
    fun u ws s' _ hx => ?_
  obtain ⟨d, ⟨rfl, rfl⟩, hend⟩ := hx
  refine ⟨d, ⟨rfl, rfl⟩, hend.mono fun key hk => ?_⟩
  exact hk.resolve_right fun hb => Op.not_binds_of_loop hmode hb.1

/-! ## Items -/

theorem noItem {name : String} :
    e.Completes ans reads writes scripted (.items ops name []) b [] b :=
  ⟨0, 0, fun _ _ _ _ _ _ _ _ hhome => ⟨b, ⟨(List.append_nil _).symm, rfl⟩, hhome⟩⟩

theorem item {name : String} {item : Value} {items ws : List Value}
    (hone : e.Completes ans reads writes scripted (.list ops)
      (Executor.itemBindings b name item) ws c)
    (hrest : e.Completes ans reads writes scripted (.items ops name items) b vs b) :
    e.Completes ans reads writes scripted (.items ops name (item :: items)) b
      (c.output.getD .null :: vs) b := by
  obtain ⟨N₁, k₁, hone⟩ := hone.runOps
  obtain ⟨N₂, k₂, hrest⟩ := hrest
  refine ⟨max N₁ N₂, k₁ + k₂, fun n results known p t s hn hfits hhome => ?_⟩
  refine Executor.mapItems_settles (m := some k₁) (n := some k₂) (P := fun d => d = c) hhome
    (fun h u s' hcopy hhas => ?_) ?_
  · refine (hone n true _ _ h u s' (by omega) hfits hhas.grants hcopy).mono fun w ws' s'' hx => ?_
    obtain ⟨d, ⟨-, hd⟩, hend⟩ := hx
    exact ⟨d, hd, hend⟩
  · rintro d u s' rfl hhome' hu
    refine (hrest n (d.output.getD .null :: results) known p u s' (by omega) hfits hhome').mono
      fun w ws' s'' hx => ?_
    obtain ⟨d', ⟨rfl, rfl⟩, hend⟩ := hx
    refine ⟨d', ⟨?_, rfl⟩, hend⟩
    rw [List.reverse_cons, List.append_assoc]
    rfl

end Engine.Completes

/-! ## Parallel ops -/

theorem Budget.exists_total (k : Nat → Nat) (n : Nat) :
    ∃ K, Budget.total (fun i => some (k i)) n = some K := by
  induction n with
  | zero => exact ⟨0, rfl⟩
  | succ n ih =>
    obtain ⟨K, hK⟩ := ih
    rw [total, hK]
    exact ⟨_, rfl⟩

theorem exists_bound (f : Nat → Nat) (n : Nat) : ∃ N, ∀ i < n, f i ≤ N := by
  induction n with
  | zero => exact ⟨0, fun i hi => absurd hi (Nat.not_lt_zero i)⟩
  | succ n ih =>
    obtain ⟨N, hN⟩ := ih
    refine ⟨max N (f n), fun i hi => ?_⟩
    rcases Nat.lt_succ_iff_lt_or_eq.1 hi with hlt | rfl
    · exact Nat.le_trans (hN i hlt) (Nat.le_max_left ..)
    · exact Nat.le_max_right ..

/-- What branches leave is all that matters once the result of the whole is bound. -/
theorem Merges.bound_eq {binds : Op → String → Prop} {ends ends' : Nat → Bindings} {d : Bindings}
    (h : Merges binds ops ends b c) (h' : Merges binds ops ends' b d)
    (heq : ∀ i < ops.length, ends i = ends' i) (op : Op) (v : Value) :
    op.bound v c = op.bound v d := by
  have hsame : ∀ key, key ≠ Bindings.outputKey → c.get? key = d.get? key := by
    intro key hne
    by_cases hex : ∃ (i : Nat) (o : Op), ops[i]? = some o ∧ binds o key
    · obtain ⟨i, o, ho, hkey⟩ := hex
      rw [h.bound i o key ho hkey hne, h'.bound i o key ho hkey hne,
        heq i (List.getElem?_eq_some_iff.1 ho).1]
    · have hnone : ∀ o ∈ ops, ¬binds o key := by
        intro o ho hkey
        obtain ⟨i, hi⟩ := List.mem_iff_getElem?.1 ho
        exact hex ⟨i, o, hi, hkey⟩
      rw [h.rest key hnone hne, h'.rest key hnone hne]
  refine Record.ext_get? fun key => ?_
  unfold Op.bound
  rw [Record.get?_insert, Record.get?_insert]
  by_cases hkey : key = Bindings.outputKey
  · rw [if_pos hkey, if_pos hkey]
  · rw [if_neg hkey, if_neg hkey]
    cases op.outputBinding with
    | none => exact hsame key hkey
    | some name =>
      show (c.insert name v).get? key = (d.insert name v).get? key
      rw [Record.get?_insert, Record.get?_insert, hsame key hkey]

/-- Steps and pauses that are enough for each branch. -/
theorem Engine.Completes.exists_needs {ends : Nat → Bindings}
    (h : ∀ i o v, ops[i]? = some o → vs[i]? = some v →
      e.Completes ans reads writes scripted (.branch o) b [v] (ends i)) :
    ∃ N k : Nat → Nat, ∀ i o v, ops[i]? = some o → vs[i]? = some v →
      ∀ (n : Nat) (alone : Bool) (known may : String → Prop) (p : Handle) (t : Turf) (s : Store),
        N i ≤ n → o.Fits reads writes scripted alone known may → t.Grants p alone may →
        Home p known t s b → ((e.dispatcher n).dispatch o p).Settles ans
          (At p (o.knownAfter alone known) fun w d => [v] = [w] ∧ d = ends i) (some (k i)) t s := by
  have hall : ∀ i, ∃ N k, ∀ o v, ops[i]? = some o → vs[i]? = some v →
      ∀ (n : Nat) (alone : Bool) (known may : String → Prop) (p : Handle) (t : Turf) (s : Store),
        N ≤ n → o.Fits reads writes scripted alone known may → t.Grants p alone may →
        Home p known t s b → ((e.dispatcher n).dispatch o p).Settles ans
          (At p (o.knownAfter alone known) fun w d => [v] = [w] ∧ d = ends i) (some k) t s := by
    intro i
    cases ho : ops[i]? with
    | none => exact ⟨0, 0, fun o v h => nomatch h⟩
    | some o =>
      cases hv : vs[i]? with
      | none => exact ⟨0, 0, fun o v _ h => nomatch h⟩
      | some v =>
        obtain ⟨N, k, hbranch⟩ := h i o v ho hv
        refine ⟨N, k, fun o' v' ho' hv' => ?_⟩
        cases ho'
        cases hv'
        exact hbranch
  obtain ⟨N, hall⟩ := Classical.skolem.1 hall
  obtain ⟨k, hall⟩ := Classical.skolem.1 hall
  exact ⟨N, k, hall⟩

theorem eq_of_results {ws : List Value} (hlength : ws.length = vs.length)
    (h : ∀ (i : Nat) w, ws[i]? = some w → vs[i]? = some w) : ws = vs := by
  refine List.ext_getElem? fun i => ?_
  cases hw : ws[i]? with
  | none =>
    rw [List.getElem?_eq_none_iff, hlength] at hw
    exact (List.getElem?_eq_none hw).symm
  | some w => exact (h i w hw).symm

/-- The branches of a parallel op, executed by any flow that leaves them apart. -/
theorem Engine.Completes.branches {ends : Nat → Bindings} (hlength : vs.length = ops.length)
    (h : ∀ i o v, ops[i]? = some o → vs[i]? = some v →
      e.Completes ans reads writes scripted (.branch o) b [v] (ends i))
    (hmerges : Merges (Op.MayBind writes) ops ends b c) :
    ∃ N K, ∃ need : Nat → Budget, Budget.total need ops.length = some K ∧
      ∀ (n : Nat) (op : Op) (alone : Bool) (known may : String → Prop) (p : Handle) (t : Turf)
        (s : Store) (flow : Flow (List Value)), N ≤ n → op.kind = "parallel" →
        op.innerOps = .ok ops → op.Fits reads writes scripted alone known may →
        t.Grants p alone may → Home p known t s b →
        (∀ (Q : Nat → Value → Store → Prop) base T, Interleaving.Stable Q base →
          Turfs base base T s →
          (∀ i (f : Flow Value), (ops.map ((e.dispatcher n).dispatch · p))[i]? = some f →
            f.Ready ans (fun _ => Q i) (need i) (base i) s) →
          flow.Settles ans (fun _ vs s' => Interleaving.Fulfilled Q ops.length vs s')
            (some K) T s) →
        flow.Settles ans (At p (Interleaving.knownOfBranches known ops) fun ws d => ws = vs ∧
          ∀ (op : Op) (v : Value), op.bound v d = op.bound v c) (some K) t s := by
  obtain ⟨N, k, hall⟩ := exists_needs h
  obtain ⟨K, hK⟩ := Budget.exists_total k ops.length
  obtain ⟨bound, hbound⟩ := exists_bound N ops.length
  refine ⟨bound, K, fun i => some (k i), hK, fun n op alone known may p t s flow hn hkind hops hop
    hgrants hhome hflow => ?_⟩
  refine (Interleaving.branches_settle hhome hgrants hop hkind hops
    (P := fun i v d => vs[i]? = some v ∧ d = ends i) (fun i o u s' ho hhome' hgrants' => ?_)
    hflow).mono fun u ws s' hx => ?_
  · have hi := (List.getElem?_eq_some_iff.1 ho).1
    have hv : vs[i]? = some vs[i] := List.getElem?_eq_getElem (by rw [hlength]; exact hi)
    have hfits := hop.branch hkind hops (List.mem_of_getElem? ho)
    refine (hall i o _ ho hv n false _ _ p u s' (Nat.le_trans (hbound i hi) hn) hfits hgrants'
      hhome').mono fun w v s'' hy => ?_
    obtain ⟨d, ⟨heq, rfl⟩, hend⟩ := hy
    cases heq
    exact ⟨_, ⟨hv, rfl⟩, hend⟩
  · obtain ⟨d, ⟨hlength', ends', hends, hmerges'⟩, hend⟩ := hx
    have hws : ws = vs := eq_of_results (hlength'.trans hlength.symm) fun i w hw => (hends i w hw).1
    refine ⟨d, ⟨hws, hmerges'.bound_eq hmerges fun i hi => ?_⟩, hend⟩
    exact (hends i ws[i] (List.getElem?_eq_getElem (by rw [hlength']; exact hi))).2

theorem Executor.exists_concurrency {own : Option Nat} (config : Config) (branches : Nat)
    (h : op.natParam "concurrency" = .ok own) :
    ∃ cap, concurrency config op branches = .ok cap := by
  unfold concurrency
  rw [h]
  exact ⟨_, rfl⟩

/-! ## Ops -/

namespace Engine.Performs

variable (he : e.Performs reads writes scripted script)

include he

theorem leaf_completes (hleaf : op.IsLeaf) (hscripted : scripted op)
    (hsolo : (script op).solo ans b = some (v, c)) :
    e.Completes ans reads writes scripted (.exec op) b [v] (op.bound v c) := by
  have hne : op.kind ≠ "parallel" := fun h => hleaf.2 (by rw [h]; decide)
  obtain ⟨m₀, hm₀, hall⟩ := (he.touches op hleaf hscripted).settles ans b
  have hsome : m₀ ≠ none := hm₀ (by rw [hsolo]; exact Option.some_ne_none _)
  obtain ⟨k, rfl⟩ := Option.ne_none_iff_exists'.1 hsome
  refine ⟨1, k, fun n alone known may p t s hn hop hgrants hhome => ?_⟩
  obtain ⟨n, rfl⟩ := Nat.exists_eq_add_of_lt hn
  have hact := hall p known t s (fun key hk => hop.read key (.leaf hleaf hk))
    (fun key hk => (hgrants key (hop.write key (.leaf hleaf hk))).1) hhome
  rw [← he.leaf op _ p hleaf hscripted] at hact
  refine (exec_settles hhome hgrants hleaf.1 hop.write (fun _ => known_of_not_parallel hne)
    hact).mono fun u w s' hx => ?_
  obtain ⟨d, ⟨b', hsolo', rfl⟩, hend⟩ := hx
  cases hsolo.symm.trans hsolo'
  exact ⟨_, ⟨rfl, rfl⟩, hend⟩

theorem sequential_completes (hkind : op.kind = "sequential") (hops : op.innerOps = .ok ops)
    (h : e.Completes ans reads writes scripted (.list ops) b vs c) :
    e.Completes ans reads writes scripted (.exec op) b [.array vs] (op.bound (.array vs) b) := by
  have hne : op.kind ≠ "parallel" := by rw [hkind]; decide
  have hloop : LoopMode.ofKind? op.kind = none := by rw [hkind]; rfl
  obtain ⟨N, k, hall⟩ := h.runOps
  refine ⟨N + 1, k, fun n alone known may p t s hn hop hgrants hhome => ?_⟩
  obtain ⟨n, rfl⟩ := Nat.exists_eq_add_of_lt hn
  have hact : (e.carryOut (N + n) op p).Settles ans
      (At p known fun v d => d = b ∧ v = .array vs) (some k) t s := by
    rw [carryOut_of_kind e he.sequential hkind]
    refine Executor.sequential_settles hhome (fun hall => absurd hops (hall ops))
      fun ops' c' u s' hops' hcopy hhas => ?_
    cases hops.symm.trans hops'
    refine (hall _ true known _ c' u s' (Nat.le_add_right ..) (hop.sequence hkind hops) hhas.grants
      hcopy).mono fun w ws s'' hx => ?_
    obtain ⟨d, ⟨rfl, -⟩, -⟩ := hx
    rfl
  refine (exec_settles hhome hgrants hloop hop.write (fun _ => known_of_not_parallel hne)
    hact).mono fun u w s' hx => ?_
  obtain ⟨d, ⟨b', ⟨rfl, rfl⟩, rfl⟩, hend⟩ := hx
  exact ⟨_, ⟨rfl, rfl⟩, hend⟩

theorem map_completes {items : List Value} {name : Option String} (hkind : op.kind = "map")
    (hitems : Executor.inputArray op b = .ok items) (hname : op.textParam "itemVariable" = .ok name)
    (hops : op.innerOps = .ok ops)
    (h : e.Completes ans reads writes scripted (.items ops (name.getD "item") items) b vs c) :
    e.Completes ans reads writes scripted (.exec op) b [.array vs] (op.bound (.array vs) b) := by
  have hne : op.kind ≠ "parallel" := by rw [hkind]; decide
  have hloop : LoopMode.ofKind? op.kind = none := by rw [hkind]; rfl
  obtain ⟨N, k, hall⟩ := h
  refine ⟨N + 1, k, fun n alone known may p t s hn hop hgrants hhome => ?_⟩
  obtain ⟨n, rfl⟩ := Nat.exists_eq_add_of_lt hn
  have hact : (e.carryOut (N + n) op p).Settles ans
      (At p known fun v d => d = b ∧ v = .array vs) (some k) t s := by
    rw [carryOut_of_kind e he.map hkind]
    refine Executor.map_settles hhome
      (fun path key hpath hk => hop.read key (.input hkind hpath hk))
      (fun hnone => absurd ⟨items, name, ops, hitems, hname, hops⟩ hnone)
      fun items' name' ops' hitems' hname' hops' => ?_
    cases hitems.symm.trans hitems'
    cases hname.symm.trans hname'
    cases hops.symm.trans hops'
    refine (hall _ [] known p t s (Nat.le_add_right ..) (hop.item hkind hname hops) hhome).mono
      fun u ws s' hx => ?_
    obtain ⟨d, ⟨rfl, rfl⟩, hend⟩ := hx
    exact ⟨d, ⟨rfl, rfl⟩, hend⟩
  refine (exec_settles hhome hgrants hloop hop.write (fun _ => known_of_not_parallel hne)
    hact).mono fun u w s' hx => ?_
  obtain ⟨d, ⟨b', ⟨rfl, rfl⟩, rfl⟩, hend⟩ := hx
  exact ⟨_, ⟨rfl, rfl⟩, hend⟩

theorem parallel_completes {cap : Nat} {ends : Nat → Bindings} (hkind : op.kind = "parallel")
    (hops : op.innerOps = .ok ops)
    (hcap : Executor.concurrency e.config op ops.length = .ok cap)
    (hlength : vs.length = ops.length)
    (h : ∀ i o v, ops[i]? = some o → vs[i]? = some v →
      e.Completes ans reads writes scripted (.branch o) b [v] (ends i))
    (hmerges : Merges (Op.MayBind writes) ops ends b c) :
    e.Completes ans reads writes scripted (.exec op) b [.array vs] (op.bound (.array vs) c) := by
  obtain ⟨N, K, need, hneed, hall⟩ := Completes.branches hlength h hmerges
  -- There are at most as many rounds as there are pauses, and one more.
  refine ⟨N + K + 2, K, fun n alone known may p t s hn hop hgrants hhome => ?_⟩
  obtain ⟨n, rfl⟩ := Nat.exists_eq_add_of_lt hn
  have hact : (e.carryOut (N + K + 1 + n) op p).Settles ans
      (At p (Interleaving.knownOfBranches known ops) fun v d => v = .array vs ∧
        ∀ (op : Op) (v : Value), op.bound v d = op.bound v c) (some K) t s := by
    rw [carryOut_of_kind e he.parallel hkind]
    refine Flow.settles_ofExcept_bind (fun hnone => absurd hops (hnone ops)) fun ops' hops' => ?_
    cases hops.symm.trans hops'
    refine Flow.settles_ofExcept_bind (fun hnone => absurd hcap (hnone cap)) fun cap' _ => ?_
    have hn : N ≤ N + K + 1 + n := by omega
    refine (hall _ op alone known may p t s _ hn hkind hops hop hgrants hhome
      fun Q base T hQ hturfs hready => ?_).bind_last fun u ws s' _ hx => ?_
    · have hrun := Interleaving.run_settles (N + K + 1 + n) cap' (M := some K) hQ hturfs
        (by rw [List.length_map, hneed]; exact .refl _) (fun k hk => by cases hk; omega) hready
      rw [List.length_map] at hrun
      exact hrun
    · obtain ⟨d, ⟨rfl, hd⟩, hend⟩ := hx
      exact ⟨d, ⟨rfl, hd⟩, hend⟩
  refine (exec_settles hhome hgrants (Op.kind_parallel_loop hkind) hop.write
    (fun _ => known_of_parallel hops) hact).mono fun u w s' hx => ?_
  obtain ⟨d, ⟨b', ⟨rfl, hb'⟩, rfl⟩, hend⟩ := hx
  exact ⟨_, ⟨rfl, hb' op _⟩, hend⟩

/-- **What an op means it reaches.** -/
theorem complete {work : Work} (h : Yields (e.lore ans writes scripted script) work b vs c) :
    e.Completes ans reads writes scripted work b vs c := by
  induction h with
  | leaf hleaf hlore => exact he.leaf_completes hleaf hlore.1 hlore.2
  | sequential hkind hops _ ih => exact he.sequential_completes hkind hops ih
  | map hkind hitems hname hops _ ih => exact he.map_completes hkind hitems hname hops ih
  | parallel hkind hops hown hlength _ hmerges ih =>
    obtain ⟨cap, hcap⟩ := Executor.exists_concurrency e.config _ hown
    exact he.parallel_completes hkind hops hcap hlength ih hmerges
  | straight hmode _ ih => exact ih.straight hmode
  | loop hmode _ ih => exact ih.loop hmode
  | finished => exact .finished
  | again hcursor hsolo _ ih => exact ih.again hcursor hsolo
  | enter hcursor hmode hsolo _ ih => exact ih.enter hcursor hmode hsolo
  | step hcursor hmode _ _ ihop ih => exact .step hcursor hmode ihop ih
  | noItem => exact .noItem
  | item _ _ ihone ihrest => exact ihone.item ihrest

end Engine.Performs

end WorkflowEngine
