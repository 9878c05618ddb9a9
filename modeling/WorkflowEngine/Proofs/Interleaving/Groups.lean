import WorkflowEngine.Proofs.Interleaving.Meaning

/-!
# Groups among others

Rules for the execution of an op, and for the groups that work in copies of their context. An op
leaves its home as its executor does, with its result bound (`Engine.exec_settles`). What is done in
a new context leaves the home as it is (`Home.settles_create`), and there everything is known, since
nobody else has a handle on it.

The rules say from what is so of the parts what is so of the whole, for any budget. So they serve
for partial statements, where an op may fail and its loops may go on for ever, and for statements on
ops that come to their ends.
-/

namespace WorkflowEngine

variable {α β : Type} {ans : Query → Value} {m n : Budget} {t : Turf} {s : Store} {p : Handle}
  {known may : String → Prop} {alone : Bool} {b : Bindings} {op : Op}

/-- A result and bindings of which `P` holds have been reached, and these are the bindings at home,
as far as they are known. -/
def At (p : Handle) (known : String → Prop) (P : α → Bindings → Prop) (u : Turf) (a : α)
    (s : Store) : Prop := ∃ c, P a c ∧ Home p known u s c

/-- The keys that an op may bind are granted to it, and nobody else writes those that stay as they
are bound. -/
def Turf.Grants (t : Turf) (p : Handle) (alone : Bool) (may : String → Prop) : Prop :=
  ∀ key, may key → t.own p key ∧ (Op.Stays alone key → t.dep p key)

theorem Turf.Grants.inside {t' : Turf} (h : t.Grants p alone may) (ht : t.Inside t') :
    t'.Grants p alone may := fun key hk =>
  ⟨ht.own p key (h key hk).1, fun hs => ht.dep p key ((h key hk).2 hs)⟩

/-- A context of which everything is granted. -/
def Turf.Has (t : Turf) (p : Handle) : Prop := ∀ key, t.dep p key ∧ t.own p key

theorem Turf.Has.grants (h : t.Has p) : t.Grants p true (fun _ => True) :=
  fun key _ => ⟨(h key).2, fun _ => (h key).1⟩

namespace Flow

/-- A part that is a result, or a fault that arises: then the whole has no budget. -/
theorem settles_ofExcept_bind {r : Except Fault α} {k : α → Flow β}
    {Q : Turf → β → Store → Prop} (hm : (∀ a, r ≠ .ok a) → m = none)
    (hk : ∀ a, r = .ok a → (k a).Settles ans Q m t s) :
    ((ofExcept r).bind k).Settles ans Q m t s := by
  cases r with
  | ok a => exact hk a rfl
  | error e => exact ⟨trivial, hm fun a h => nomatch h⟩

end Flow

/-! ## Executing an op -/

/-- What an engine does for an op: it runs the executor of its kind, if there is one. -/
def Engine.carryOut (e : Engine) (n : Nat) (op : Op) (context : Handle) : Flow Value :=
  match e.registry.get? op.kind with
  | none => Flow.fail (.unknownKind op.kind)
  | some executor => executor (e.dispatcher n) op context

theorem Engine.exec_succ (e : Engine) (n : Nat) (op : Op) (context : Handle) :
    e.exec (n + 1) op context = (Flow.announce .opPre op context).bind fun _ =>
      (e.carryOut n op context).bind fun result =>
        (Engine.bindResult op context result).bind fun _ =>
          (Flow.announce .opPost op context).bind fun _ => .done (.ok result) := by
  refine congrArg (Flow.bind _) (funext fun _ => ?_)
  unfold carryOut
  cases e.registry.get? op.kind <;> rfl

theorem Engine.bindResult_settles {k : Unit → Flow β} {Q : Turf → β → Store → Prop} (v : Value)
    (hhome : Home p known t s b) (hgrants : t.Grants p alone may)
    (hwrites : ∀ key, key = Bindings.outputKey ∨ op.outputBinding = some key → may key)
    (hk : ∀ s', Home p (fun key => known key ∨
      ((key = Bindings.outputKey ∨ op.outputBinding = some key) ∧ t.dep p key)) t s'
      (op.bound v b) → (k ()).Settles ans Q m t s') :
    ((Engine.bindResult op p v).bind k).Settles ans Q m t s := by
  have houtput : t.own p Bindings.outputKey := (hgrants _ (hwrites _ (.inl rfl))).1
  unfold Engine.bindResult
  unfold Op.bound at hk
  cases hname : op.outputBinding with
  | none =>
    rw [hname] at hk
    refine ⟨houtput, hk _ ?_⟩
    refine (hhome.bind Bindings.outputKey v).mono fun key hkey => ?_
    rcases hkey with hkey | ⟨rfl | hkey, hdep⟩
    · exact .inl hkey
    · exact .inr ⟨rfl, hdep⟩
    · cases hkey
  | some name =>
    rw [hname] at hk
    have hbinding : t.own p name := (hgrants _ (hwrites _ (.inr hname))).1
    refine ⟨hbinding, houtput, hk _ ?_⟩
    refine ((hhome.bind name v).bind Bindings.outputKey v).mono fun key hkey => ?_
    rcases hkey with hkey | ⟨rfl | hkey, hdep⟩
    · exact .inl (.inl hkey)
    · exact .inr ⟨rfl, hdep⟩
    · cases hkey
      exact .inl (.inr ⟨rfl, hdep⟩)

section

variable {P : Value → Bindings → Prop} {reached : String → Prop} {writes : Op → String → Prop}
  (hhome : Home p known t s b) (hgrants : t.Grants p alone may)
  (hloop : LoopMode.ofKind? op.kind = none) (hwrites : ∀ key, op.MayBind writes key → may key)
  (hknown : ∀ key, op.knownAfter alone known key →
    reached key ∨ key = Bindings.outputKey ∨ op.outputBinding = some key)

include hhome hgrants hloop hwrites hknown

theorem Engine.bound_settles {act : Flow Value} {k : Value → Flow β} {Q : Turf → β → Store → Prop}
    (hact : act.Settles ans (At p reached P) m t s)
    (hk : ∀ u v s', At p (op.knownAfter alone known) (fun v c => ∃ b', P v b' ∧ c = op.bound v b')
      u v s' → (k v).Settles ans Q m.bare u s') :
    (act.bind fun v => (bindResult op p v).bind fun _ => k v).Settles ans Q m t s := by
  have hbinds : ∀ key, key = Bindings.outputKey ∨ op.outputBinding = some key → may key := by
    rintro key (rfl | hname)
    · exact hwrites _ (.output hloop)
    · exact hwrites _ (.binding hloop hname)
  refine hact.bind_last fun u v s' hu hx => ?_
  obtain ⟨b', hb', hhome'⟩ := hx
  refine bindResult_settles v hhome' (hgrants.inside hu) hbinds fun s'' hhome'' => ?_
  refine hk u v s'' ⟨op.bound v b', ⟨b', hb', rfl⟩, hhome''.mono fun key hkey => ?_⟩
  -- Nobody else writes what is known after an op.
  have hdep : t.dep p key := hkey.elim (hhome.dep key) fun ⟨hb, hstays⟩ =>
    (hgrants key (hwrites key hb.mayBind)).2 hstays
  exact (hknown key hkey).imp_right fun hor => ⟨hor, hu.dep p key hdep⟩

/-- **Executing an op.** Its result is bound after what its executor does. -/
theorem Engine.exec_settles {e : Engine} {fuel : Nat}
    (hact : (e.carryOut fuel op p).Settles ans (At p reached P) m t s) :
    (e.exec (fuel + 1) op p).Settles ans
      (At p (op.knownAfter alone known) fun v c => ∃ b', P v b' ∧ c = op.bound v b') m t s := by
  rw [exec_succ]
  refine ⟨trivial, bound_settles hhome hgrants hloop hwrites hknown hact fun u v s' h => ?_⟩
  exact ⟨trivial, h⟩

end

/-! ## Copies -/

/-- **A new context.** What is done there leaves the home as it is. -/
theorem Home.settles_create {bindings : Bindings} {f : Handle → Flow α} {Q : α → Prop}
    (hhome : Home p known t s b)
    (hf : ∀ c u s', s'.Valid c → s'.view c = bindings → u.Has c →
      (f c).Settles ans (fun _ a _ => Q a) m u s') :
    ((Flow.create bindings).bind f).Settles ans (fun u a s' => Q a ∧ Home p known u s' b) m t s
    := by
  let c := (s.create bindings).1
  let s₁ := (s.create bindings).2
  -- The part of the turf in which everything is done.
  let u : Turf := ⟨(t.adding c).dep, fun h _ => h = c⟩
  have hinside : u.Inside (t.adding c) := ⟨fun _ _ => id, fun _ _ => .inl⟩
  have hvalid : s₁.Valid p := Store.valid_create.2 (.inl hhome.valid)
  have hview : s₁.view p = s.view p := Store.view_create_of_valid hhome.valid bindings
  have hpart := hf c u s₁ (Store.valid_create.2 (.inr rfl)) (Store.view_create_self s bindings)
    fun key => ⟨.inl rfl, rfl⟩
  refine ⟨trivial, (hpart.framed hinside).mono fun w a s' hx => ?_⟩
  obtain ⟨⟨-, -, hq⟩, hw, hkeeps⟩ := hx
  refine ⟨hq, hkeeps.valid p hvalid, fun key hk => hw.dep p key (.inr (hhome.dep key hk)), ?_⟩
  intro key hk
  have hne : p ≠ c := fun heq => Store.not_valid_create (heq ▸ hhome.valid)
  rw [hkeeps.same p key hvalid (.inr (hhome.dep key hk)) hne, hview]
  exact hhome.same key hk

/-- `sequential` works in a copy. -/
theorem Executor.sequential_settles {d : Dispatcher} {Q : Value → Prop}
    (hhome : Home p known t s b) (hm : (∀ ops, op.innerOps ≠ .ok ops) → m = none)
    (hinner : ∀ ops c u s', op.innerOps = .ok ops → Home c known u s' b → u.Has c →
      (d.runOps ops c).Settles ans (fun _ vs _ => Q (.array vs)) m u s') :
    (Executor.sequential d op p).Settles ans (At p known fun v c => c = b ∧ Q v) m t s := by
  refine Flow.settles_ofExcept_bind hm fun ops hops => ⟨trivial, ?_⟩
  have hcreate : ((Flow.create (s.view p)).bind fun c => (d.runOps ops c).bind fun vs =>
      .done (.ok (.array vs))).Settles ans (fun u v s' => Q v ∧ Home p known u s' b) m t s := by
    refine hhome.settles_create fun c u s' hvalid hview hhas => ?_
    have hcopy : Home c known u s' b := ⟨hvalid, fun key _ => (hhas key).1, hview ▸ hhome.same⟩
    exact (hinner ops c u s' hops hcopy hhas).bind_last fun _ _ _ _ hq => hq
  exact hcreate.mono fun w v s' hx => ⟨b, ⟨rfl, hx.1⟩, hx.2⟩

/-! ## Items -/

/-- What is known in the context of an item. -/
def knownOfItem (known : String → Prop) (name key : String) : Prop :=
  (known key ∨ key = name) ∨ key = Bindings.outputKey

/-- What `map` does for one item. -/
def Executor.forItem (d : Dispatcher) (ops : List Op) (name : String) (item : Value)
    (b : Bindings) : Flow Value := do
  let inner ← Flow.create (itemBindings b name item)
  let _ ← d.runOps ops inner
  let e ← Flow.view inner
  return e.output.getD .null

theorem Executor.mapItems_cons (d : Dispatcher) (ops : List Op) (name : String) (context : Handle)
    (results : List Value) (item : Value) (items : List Value) :
    mapItems d ops name context results (item :: items) = Flow.check.bind fun _ =>
      (Flow.view context).bind fun b => (forItem d ops name item b).bind fun v =>
        mapItems d ops name context (v :: results) items := by
  refine congrArg (Flow.bind _) (funext fun _ => congrArg (Flow.bind _) (funext fun b => ?_))
  refine Eq.symm ((Flow.bind_assoc _ _ _).trans (congrArg (Flow.bind _) (funext fun inner => ?_)))
  exact (Flow.bind_assoc _ _ _).trans (congrArg (Flow.bind _) (funext fun _ => rfl))

/-- **One item, and the others.** -/
theorem Executor.mapItems_settles {d : Dispatcher} {ops : List Op} {name : String}
    {results : List Value} {item : Value} {items : List Value} {P : Bindings → Prop}
    {Q : Turf → List Value → Store → Prop} (hhome : Home p known t s b)
    (hitem : ∀ c u s', Home c (knownOfItem known name) u s' (itemBindings b name item) → u.Has c →
      (d.runOps ops c).Settles ans (At c (knownOfItem known name) fun _ e => P e) m u s')
    (hrest : ∀ e u s', P e → Home p known u s' b → t.Inside u →
      (mapItems d ops name p (e.output.getD .null :: results) items).Settles ans Q n u s') :
    (mapItems d ops name p results (item :: items)).Settles ans Q (m.add n) t s := by
  have hone : (forItem d ops name item (s.view p)).Settles ans
      (fun u v s' => (∃ e, P e ∧ v = e.output.getD .null) ∧ Home p known u s' b) m t s := by
    refine hhome.settles_create fun c u s' hvalid hview hhas => ?_
    have hcopy : Home c (knownOfItem known name) u s' (itemBindings b name item) := by
      refine ⟨hvalid, fun key _ => (hhas key).1, ?_⟩
      rw [hview]
      exact (hhome.same.insert name item).erase Bindings.outputKey
    refine (hitem c u s' hcopy hhas).bind_last fun u' vs s'' _ hx => ?_
    obtain ⟨e, he, hhome'⟩ := hx
    refine ⟨trivial, e, he, ?_⟩
    show ((s''.view c).get? Bindings.outputKey).getD .null = _
    rw [hhome'.same _ (.inr rfl)]
    rfl
  rw [mapItems_cons]
  refine ⟨trivial, trivial, hone.bind fun u v s' hu hx => ?_⟩
  obtain ⟨⟨e, he, rfl⟩, hhome'⟩ := hx
  exact hrest e u s' he hhome' hu

/-- What `map` reads begins with a name that is known. -/
theorem Executor.inputArray_congr {c : Bindings}
    (h : ∀ path key, op.requireText "inputKey" = .ok path → Path.head? path = some key →
      b.get? key = c.get? key) :
    inputArray op b = inputArray op c := by
  unfold inputArray
  cases hpath : op.requireText "inputKey" with
  | error e => rfl
  | ok path =>
    have hlookup : b.lookup path = c.lookup path :=
      Bindings.lookup_congr fun key hk => h path key hpath hk
    dsimp only [bind, Except.bind]
    rw [hlookup]

/-- `map` works in copies. -/
theorem Executor.map_settles {d : Dispatcher} {Q : Value → Prop} (hhome : Home p known t s b)
    (hread : ∀ path key, op.requireText "inputKey" = .ok path → Path.head? path = some key →
      known key)
    (hm : (¬∃ items name ops, inputArray op b = .ok items ∧ op.textParam "itemVariable" = .ok name ∧
      op.innerOps = .ok ops) → m = none)
    (hitems : ∀ items name ops, inputArray op b = .ok items →
      op.textParam "itemVariable" = .ok name → op.innerOps = .ok ops →
      (mapItems d ops (name.getD "item") p [] items).Settles ans
        (At p known fun vs c => c = b ∧ Q (.array vs)) m t s) :
    (Executor.map d op p).Settles ans (At p known fun v c => c = b ∧ Q v) m t s := by
  have hinput : inputArray op (s.view p) = inputArray op b := inputArray_congr fun path key hp hk =>
    hhome.same key (hread path key hp hk)
  refine ⟨trivial, ?_⟩
  show Flow.Settles ans _ ((Flow.ofExcept (inputArray op (s.view p))).bind _) m t s
  rw [hinput]
  refine Flow.settles_ofExcept_bind (fun h => hm fun ⟨items, _, _, hi, _⟩ => h items hi)
    fun items hi => ?_
  refine Flow.settles_ofExcept_bind (fun h => hm fun ⟨_, name, _, _, hn, _⟩ => h name hn)
    fun name hn => ?_
  refine Flow.settles_ofExcept_bind (fun h => hm fun ⟨_, _, ops, _, _, ho⟩ => h ops ho)
    fun ops ho => ?_
  exact (hitems items name ops hi hn ho).bind_last fun u vs s' _ hx => hx

end WorkflowEngine
