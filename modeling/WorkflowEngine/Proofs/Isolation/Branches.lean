import WorkflowEngine.Proofs.Isolation.Builtin
import WorkflowEngine.Proofs.Isolation.Groups

/-!
# Branches that work in copies

`sequential` runs its ops in a copy of the context, and `map` makes a copy for every item. So what
their siblings write in the meantime does not reach them, at whatever depth something is read and
though they hold the shared context as well: results, deeds and faults of a `sequential` branch
depend on nothing but the bindings at its start (`Executor.sequential_isolated`), and so do, for
`map`, the items; what an item comes to depends on the item and on the bindings at the moment when
it is started (`Executor.map_from_start`).

Both are said of runs as `Flow.Among` describes them, and the branches of a group have such runs
(`Engine.branch_among`).

Main statement: `Engine.branches_see_only_their_start`.
-/

namespace WorkflowEngine

namespace Executor

variable {d : Dispatcher} {op : Op}

/-! ## `sequential` -/

/-- **A branch that runs ops one after another works in a copy**, so that it depends on nothing but
what its context held when it started. -/
theorem sequential_isolated (hd : d.Contained) (op : Op) : Flow.Isolated (sequential d op) := by
  refine Flow.isolated_of_opens fun x y => ?_
  unfold sequential
  cases op.innerOps with
  | error e => exact .echoes (Flow.echoes_fail e)
  | ok ops =>
    refine .view fun b => .echoes ?_
    refine Flow.Mirrors.bind (Flow.create_mirrors b) fun ρ inner inner' _ hinner => ?_
    exact (hd.runOps hinner ops).bind fun _ _ _ => Flow.echoes_ok _

/-! ## `map` -/

/-- What `map` finds at its start: the items, their name and the inner ops. -/
def mapParts (op : Op) (b : Bindings) : Except Fault (List Value × String × List Op) := do
  let items ← inputArray op b
  let name ← op.textParam "itemVariable"
  let ops ← op.innerOps
  return (items, name.getD "item", ops)

theorem map_eq (d : Dispatcher) (op : Op) (h : Handle) :
    map d op h = (Flow.view h).bind fun b => (Flow.ofExcept (mapParts op b)).bind fun p =>
      (mapItems d p.2.2 p.2.1 h [] p.1).map Value.array := by
  refine congrArg (Flow.bind _) (funext fun b => ?_)
  unfold mapParts
  cases inputArray op b with
  | error e => rfl
  | ok items =>
    cases op.textParam "itemVariable" with
    | error e => rfl
    | ok name => cases op.innerOps <;> rfl

theorem forItem_contextless (hd : d.Contained) (ops : List Op) (name : String) (item : Value)
    (b : Bindings) : (forItem d ops name item b).Contextless := by
  intro ρ
  refine Flow.Mirrors.bind (Flow.create_mirrors _) fun ρ₁ x y _ hxy => ?_
  refine (hd.runOps hxy ops).bind fun ρ₂ _ hle => ?_
  exact (Flow.echoes_view (hle x y hxy)).bind fun _ _ _ => Flow.echoes_ok _

/-- What is left to do when an item is started: the item, with the bindings that the context holds,
and then the items after it. -/
def itemAndRest (d : Dispatcher) (ops : List Op) (name : String) (h : Handle)
    (results : List Value) (item : Value) (items : List Value) (b : Bindings) : Flow (List Value) :=
  (forItem d ops name item b).bind fun v => mapItems d ops name h (v :: results) items

/-- From this moment on an item comes to `r` among others, and so it does alone, deed for deed,
given the bindings that the context holds at this moment. -/
def ItemComesTo (d : Dispatcher) (ops : List Op) (name : String) (h : Handle) (out : Outside)
    (item : Value) (σ : Branch) (r : Except Fault Value) : Prop :=
  ∃ τ, (forItem d ops name item (σ.store.view h)).Among out σ (.done r) τ ∧
    (Flow.done r).IsPartOf σ.deeds τ
      ((forItem d ops name item (σ.store.view h)).alone (out.after σ.deeds) { store := .empty })

/-- The items have run one after another: each was started at some moment of the run, and came to
what it comes to alone, given the bindings of that moment. The first `results.length` of them came
to results; if there are more, then a stop was found to be requested before the next one, or it came
to a fault. -/
structure ItemsRun (d : Dispatcher) (ops : List Op) (name : String) (h : Handle) (out : Outside)
    (reaches : Flow (List Value) → Branch → Prop) (before items results : List Value)
    (r : Except Fault (List Value)) : Prop where
  item : ∀ i v, results[i]? = some v → ∃ item σ, items[i]? = some item ∧
    reaches (itemAndRest d ops name h ((results.take i).reverse ++ before) item (items.drop (i + 1))
      (σ.store.view h)) σ ∧ ItemComesTo d ops name h out item σ (.ok v)
  ending : (r = .ok (before.reverse ++ results) ∧ results.length = items.length) ∨
    ∃ item e, items[results.length]? = some item ∧ r = .error e ∧
      (e = .cancelled ∨ ∃ σ,
        reaches (itemAndRest d ops name h (results.reverse ++ before) item
          (items.drop (results.length + 1)) (σ.store.view h)) σ ∧
        ItemComesTo d ops name h out item σ (.error e))

variable {ops : List Op} {name : String} {h : Handle} {out : Outside} {σ σ' : Branch}

theorem cancelled_of_check {e : Fault}
    (h : Flow.check.Among out σ (.done (.error e)) σ') : e = .cancelled := by
  cases h with
  | act h =>
    dsimp only at h
    split at h
    · cases h with
      | act h =>
        cases h
        rfl
    · cases h

/-- Unless a stop is found to be requested, an item is started with the bindings of that moment. -/
theorem started_or_cancelled {before items : List Value} {item : Value}
    {r : Except Fault (List Value)}
    (hrun : (mapItems d ops name h before (item :: items)).Among out σ (.done r) σ') :
    r = .error .cancelled ∨ ∃ τ : Branch,
      (mapItems d ops name h before (item :: items)).Among out σ
        (itemAndRest d ops name h before item items (τ.store.view h)) τ ∧
      (itemAndRest d ops name h before item items (τ.store.view h)).Among out τ (.done r) σ' := by
  rw [mapItems_cons] at hrun ⊢
  rcases hrun.of_bind with ⟨e, rfl, hcheck⟩ | ⟨_, τ, hcheck, hstarted⟩
  · exact .inl (congrArg Except.error (cancelled_of_check hcheck))
  · have hreached := (hcheck.bind (k := fun _ => (Flow.view h).bind fun b =>
      itemAndRest d ops name h before item items b)).trans (.act (.here _ _))
    cases hstarted with
    | act hstarted => exact .inr ⟨τ, hreached, hstarted⟩

/-- Among others an item comes to what it comes to alone. -/
theorem itemComesTo_of_among (hd : d.Contained) {item : Value} {τ : Branch} {r : Except Fault Value}
    (hrun : (forItem d ops name item (σ.store.view h)).Among out σ (.done r) τ) :
    ItemComesTo d ops name h out item σ r := by
  refine ⟨τ, hrun, ?_⟩
  have hitem := forItem_contextless hd ops name item (σ.store.view h) .none
  exact Flow.Mirrors.asAlone hitem (.none rfl) _ _ hrun

/-- **The items run one after another**, each as it does alone from the moment it is started. -/
theorem itemsRun_of_among (hd : d.Contained) {items before : List Value}
    {r : Except Fault (List Value)}
    (hrun : (mapItems d ops name h before items).Among out σ (.done r) σ') :
    ∃ results, ItemsRun d ops name h out ((mapItems d ops name h before items).Among out σ) before
      items results r := by
  -- On the items; each is started where the one before it has left the branch.
  induction items generalizing before σ with
  | nil =>
    cases hrun
    exact ⟨[], fun i v hv => by simp at hv, .inl (by simp)⟩
  | cons item items ih =>
    rcases started_or_cancelled hrun with rfl | ⟨τ, hstart, hstarted⟩
    · exact ⟨[], fun i v hv => by simp at hv, .inr ⟨item, _, rfl, rfl, .inl rfl⟩⟩
    rcases Flow.Among.of_bind hstarted with ⟨e, rfl, hfault⟩ | ⟨v, υ, hitem, hrest⟩
    · refine ⟨[], fun i v hv => by simp at hv, .inr ⟨item, e, rfl, rfl, .inr ⟨τ, ?_, ?_⟩⟩⟩
      · simpa using hstart
      · exact itemComesTo_of_among hd hfault
    · obtain ⟨results, hitems, hending⟩ := ih hrest
      have hreach : ∀ f υ', (mapItems d ops name h (v :: before) items).Among out υ f υ' →
          (mapItems d ops name h before (item :: items)).Among out σ f υ' :=
        fun f υ' h => hstart.trans (hitem.bind.trans h)
      refine ⟨v :: results, fun i w hw => ?_, ?_⟩
      · cases i with
        | zero =>
          cases hw
          exact ⟨item, τ, rfl, hstart, itemComesTo_of_among hd hitem⟩
        | succ i =>
          obtain ⟨item', υ', hmem, hstarts, hcomes⟩ := hitems i w hw
          refine ⟨item', υ', hmem, ?_, hcomes⟩
          simpa using hreach _ _ hstarts
      · rcases hending with ⟨rfl, hlength⟩ | ⟨item', e, hmem, rfl, hfault⟩
        · exact .inl ⟨by simp, congrArg (· + 1) hlength⟩
        · refine .inr ⟨item', e, hmem, rfl, hfault.imp_right ?_⟩
          rintro ⟨υ', hstarts, hcomes⟩
          refine ⟨υ', ?_, hcomes⟩
          simpa using hreach _ _ hstarts

theorem ItemsRun.mono {reaches reaches' : Flow (List Value) → Branch → Prop}
    {before items results : List Value} {r : Except Fault (List Value)}
    (hrun : ItemsRun d ops name h out reaches before items results r)
    (hle : ∀ f τ, reaches f τ → reaches' f τ) :
    ItemsRun d ops name h out reaches' before items results r where
  item i v hv := by
    obtain ⟨item, τ, hmem, hstarts, hcomes⟩ := hrun.item i v hv
    exact ⟨item, τ, hmem, hle _ _ hstarts, hcomes⟩
  ending := by
    refine hrun.ending.imp_right fun ⟨item, e, hmem, he, hfault⟩ => ⟨item, e, hmem, he, ?_⟩
    exact hfault.imp_right fun ⟨τ, hstarts, hcomes⟩ => ⟨τ, hle _ _ hstarts, hcomes⟩

/-- What a run of `map` comes to, given where its branch stands at the start: the fault that lies in
the op or in the input, or the items that are there at the start, one after another. -/
def MapsFromStart (d : Dispatcher) (op : Op) (h : Handle) (out : Outside) (σ : Branch)
    (r : Except Fault Value) : Prop :=
  match mapParts op (σ.store.view h) with
  | .error e => r = .error e
  | .ok (items, name, ops) => ∃ results r', r = r'.map Value.array ∧
      ItemsRun d ops name h out (fun f τ => (map d op h).Among out σ (f.map Value.array) τ) [] items
        results r'

/-- **A branch that maps** has its items from the bindings that its context held when it started,
whatever becomes of them later. -/
theorem map_from_start (hd : d.Contained) {op : Op} {r : Except Fault Value}
    (hrun : (map d op h).Among out σ (.done r) σ') : MapsFromStart d op h out σ r := by
  unfold MapsFromStart
  rw [map_eq] at hrun ⊢
  cases hrun with
  | act hrun =>
    change ((Flow.ofExcept (mapParts op (σ.store.view h))).bind _).Among out σ _ σ' at hrun
    cases hparts : mapParts op (σ.store.view h) with
    | error e =>
      rw [hparts] at hrun
      cases hrun with
      | act hrun =>
        cases hrun
        rfl
    | ok parts =>
      obtain ⟨items, name, ops⟩ := parts
      rw [hparts] at hrun
      change ((mapItems d ops name h [] items).map Value.array).Among out σ _ σ' at hrun
      obtain ⟨r', τ, hitems, rfl⟩ : ∃ r' τ,
          (mapItems d ops name h [] items).Among out σ (.done r') τ ∧ r = r'.map Value.array := by
        rcases Flow.Among.of_bind hrun with ⟨e, rfl, hfault⟩ | ⟨vs, τ, hvalues, hdone⟩
        · exact ⟨_, _, hfault, rfl⟩
        · cases hdone
          exact ⟨_, _, hvalues, rfl⟩
      obtain ⟨results, hrun⟩ := itemsRun_of_among hd hitems
      refine ⟨results, r', rfl, hrun.mono fun f τ hf => .act ?_⟩
      change ((Flow.ofExcept (mapParts op (σ.store.view h))).bind _).Among out σ _ τ
      rw [hparts]
      exact hf.bind

end Executor

/-! ## The theorem -/

/-- **A branch that works in copies sees nothing of its siblings**, in whatever group it runs. -/
theorem Engine.branches_see_only_their_start {e : Engine} (he : e.Contained) (n : Nat) (op : Op) :
    Flow.Isolated (Executor.sequential (e.dispatcher n) op) ∧
      (∀ h out σ r σ', (Executor.map (e.dispatcher n) op h).Among out σ (.done r) σ' →
        Executor.MapsFromStart (e.dispatcher n) op h out σ r) ∧
      ∀ group ops h out σ v σ',
        (Executor.parallel (e.dispatcher (n + 1)) group h).Among out σ (.done (.ok v)) σ' →
        group.innerOps = .ok ops → σ.store.Valid h →
        ∀ (i : Nat) x, ops[i]? = some op → LoopMode.ofKind? op.kind = none →
          e.registry.get? op.kind = some x →
          ∃ results a, v = .array results ∧ results[i]? = some a ∧
            (x (e.dispatcher n) op h).RanDuring
              (Executor.MomentOf (e.dispatcher (n + 1)) group h out σ) σ' a :=
  ⟨Executor.sequential_isolated (e.exec_contained he n) op,
    fun _ _ _ _ _ hrun => Executor.map_from_start (e.exec_contained he n) hrun,
    fun _ _ _ _ _ _ _ hrun hops hvalid _ _ hi hloop hx =>
      Engine.branch_among he hrun hops hvalid hi hloop hx⟩

/-- The executors of this library and those for rehearsals. -/
def Engine.rehearsing : Engine := ({ executors := Rehearsal.executors } : EngineBuilder).build

theorem Engine.rehearsing_contained : Engine.rehearsing.Contained :=
  EngineBuilder.contained_build (by simp) Rehearsal.executors_contained

/-- Waits, and then reads `x`. -/
def Op.readingLate : List Op :=
  [(Op.new "wait").withParam "ticks" (.nat 1), .format "\x7b\x7bx\x7d\x7d"]

def lateBranch : Handle → Flow Value :=
  Executor.sequential (Engine.rehearsing.dispatcher 9) (.sequential Op.readingLate)

/-- Nothing says to stop, and nobody answers. -/
def Outside.silent : Outside := ⟨fun _ => false, fun _ => false, fun _ _ _ => .null⟩

/-- What a context holds at first, and what a sibling makes of it. -/
def Bindings.early : Bindings := .ofList [("x", .string "early"), ("xs", .array [.nat 1, .nat 2])]

def Bindings.late : Bindings := .ofList [("x", .string "late"), ("xs", .null)]

/-- A branch that waits, with a sibling that binds `x`. -/
def Op.lateGroup : Op :=
  .parallel [.sequential Op.readingLate, (Op.set (.string "late")).output "x"]

/-- While a branch waits, a sibling overwrites what it reads afterwards. It reads its copy; and the
second item, which is started only then, is there though the input is gone, but reads the new
`x`. -/
theorem Engine.branches_read_their_copies :
    Engine.rehearsing.Contained ∧
    (∃ σ, (lateBranch ⟨0⟩).Among .silent (.fresh .early)
        (.done (.ok (.array [.null, .string "early"]))) σ ∧
      σ.store.view ⟨0⟩ = .late ∧ σ.dispatched = 2 ∧
      ((lateBranch ⟨0⟩).alone (Outside.silent.after []) (.fresh .early)).1 =
        .ended (.ok (.array [.null, .string "early"]))) ∧
    Executor.MapsFromStart (Engine.rehearsing.dispatcher 9) (.map "xs" "item" Op.readingLate) ⟨0⟩
      .silent (.fresh .early) (.ok (.array [.string "early", .string "late"])) ∧
    ∃ σ, (Executor.parallel (Engine.rehearsing.dispatcher 10) Op.lateGroup ⟨0⟩).Among .silent
        (.fresh .early) (.done (.ok (.array [.array [.null, .string "early"], .string "late"]))) σ ∧
      (lateBranch ⟨0⟩).RanDuring (Executor.MomentOf (Engine.rehearsing.dispatcher 10) Op.lateGroup
        ⟨0⟩ .silent (.fresh .early)) σ (.array [.null, .string "early"]) := by
  have hcontained := Engine.rehearsing_contained
  refine ⟨hcontained, ?_, ?_, ?_⟩
  · have hrun := Flow.among_amid .silent [⟨#[.late, .early]⟩] (σ := .fresh .early)
      (f := lateBranch ⟨0⟩) (g := .done (.ok (.array [.null, .string "early"]))) (by cbv)
    have hisolated := (Engine.branches_see_only_their_start hcontained 9
      (.sequential Op.readingLate)).1 .silent ⟨0⟩ (.fresh .early) _ _ hrun
    exact ⟨_, hrun, by cbv, by cbv, (hisolated.2 (.ended _) rfl).1⟩
  · have hrun := Flow.among_amid .silent
      [⟨#[.late, Executor.itemBindings .early "item" (.nat 1)]⟩,
        ⟨#[.late, (Executor.itemBindings .early "item" (.nat 1)).insert "_output" (.string "early"),
          Executor.itemBindings .late "item" (.nat 2)]⟩] (σ := .fresh .early)
      (f := Executor.map (Engine.rehearsing.dispatcher 9) (.map "xs" "item" Op.readingLate) ⟨0⟩)
      (g := .done (.ok (.array [.string "early", .string "late"]))) (by cbv)
    exact (Engine.branches_see_only_their_start hcontained 9
      (.map "xs" "item" Op.readingLate)).2.1 _ _ _ _ _ hrun
  · have hrun := Flow.among_alone .silent (σ := .fresh .early)
      (f := Executor.parallel (Engine.rehearsing.dispatcher 10) Op.lateGroup ⟨0⟩)
      (o := .ended (.ok (.array [.array [.null, .string "early"], .string "late"]))) (by cbv)
    obtain ⟨results, a, hresults, ha, hran⟩ := (Engine.branches_see_only_their_start hcontained 9
      (.sequential Op.readingLate)).2.2 Op.lateGroup _ _ _ _ _ _ hrun rfl (by decide) 0
      Executor.sequential rfl (by decide) rfl
    cases hresults
    cases ha
    exact ⟨_, hrun, hran⟩

end WorkflowEngine
