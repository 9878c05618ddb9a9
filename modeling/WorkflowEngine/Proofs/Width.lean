import WorkflowEngine.Op.Depth
import WorkflowEngine.Proofs.Gauge.Engine
import WorkflowEngine.Proofs.Interleaving.Keys
import WorkflowEngine.Proofs.Monitor.Builtin
import WorkflowEngine.Rehearsal.Executors

/-!
# How many leaves are in flight

Ops nest, and so do the caps of parallel ops: a group inside a branch has a cap of its own, and its
branches may be groups again. The *width* of an op (`Op.width`) puts all these caps together. A leaf
has width 1. What runs its inner ops one after another is as wide as the widest of them, and a
parallel op is as wide as its widest branches together, as many of them as may run at a time.

**Theorem (`Engine.in_flight_le_width`).** However the leaves of an op suspend, whatever is answered
to them, and whenever the run is asked to stop: at no moment are more executions of leaves in flight
than the op is wide. An execution is in flight from the event before it to the event after it; one
that has failed, or that is given up because another has failed, has no such event and is still
counted, so the bound holds of those as well.

**How the proof goes.** The gauge `inFlight` counts the beginning of a leaf up and its end down. A
leaf by itself announces nothing, so its execution costs 1; by induction on how deep calls nest, an
op costs its width, with one case for each kind of group.
-/

namespace WorkflowEngine

/-! ## Widths -/

namespace Op

/-- How many leaves of an op can be in flight at a time. What cannot be read of an op is not run and
has width 0. -/
def width (config : Config) (op : Op) : Nat :=
  if op.IsLeaf then 1
  else
    match h : op.innerOps with
    | .error _ => 0
    | .ok ops =>
      let widths := ops.attach.map fun o =>
        have := depth_lt_of_mem_innerOps h o.2
        o.1.width config
      if op.kind = "parallel" then
        match Executor.concurrency config op ops.length with
        | .ok cap => sumOfLargest (max cap 1) widths
        | .error _ => 0
      else widths.max?.getD 0
termination_by op.depth

variable {config : Config} {op : Op} {ops : List Op}

theorem width_of_isLeaf (h : op.IsLeaf) : op.width config = 1 := by
  rw [width, if_pos h]

/-- The width of an op that is no leaf, in terms of its inner ops. -/
theorem width_of_innerOps (h : ¬op.IsLeaf) (hops : op.innerOps = .ok ops) :
    op.width config =
      if op.kind = "parallel" then
        match Executor.concurrency config op ops.length with
        | .ok cap => sumOfLargest (max cap 1) (ops.map (width config))
        | .error _ => 0
      else ((ops.map (width config)).max?).getD 0 := by
  rw [width, if_neg h]
  split
  · next e he => cases hops.symm.trans he
  · next ops' hops' =>
    cases hops.symm.trans hops'
    rw [List.attach_map_val (f := width config)]

theorem le_max?_getD {ws : List Nat} {w : Nat} (h : w ∈ ws) : w ≤ ws.max?.getD 0 := by
  obtain ⟨m, hm⟩ : ∃ m, ws.max? = some m := by
    cases hmax : ws.max? with
    | some m => exact ⟨m, rfl⟩
    | none => exact absurd (List.max?_eq_none_iff.1 hmax) (List.ne_nil_of_mem h)
  rw [hm]
  exact (List.max?_eq_some_iff.1 hm).2 w h

/-- What runs its inner ops one after another is as wide as each of them. -/
theorem width_inner_le (hleaf : ¬op.IsLeaf) (hkind : op.kind ≠ "parallel")
    (hops : op.innerOps = .ok ops) : ∀ inner ∈ ops, inner.width config ≤ op.width config := by
  intro inner hinner
  rw [width_of_innerOps hleaf hops, if_neg hkind]
  exact le_max?_getD (List.mem_map_of_mem hinner)

/-- A parallel op is as wide as its widest branches together. -/
theorem width_of_parallel {cap : Nat} (hkind : op.kind = "parallel") (hops : op.innerOps = .ok ops)
    (hcap : Executor.concurrency config op ops.length = .ok cap) :
    op.width config = sumOfLargest (max cap 1) (ops.map (width config)) := by
  have hleaf : ¬op.IsLeaf := not_isLeaf_of_group (by rw [hkind]; decide)
  rw [width_of_innerOps hleaf hops, if_pos hkind, hcap]

end Op

/-! ## Leaves in flight -/

/-- The event of a stage, about an op that is a leaf. -/
def Mark.isOfLeaf (stage : Stage) : Mark → Bool
  | .did (.announce e) _ => e.stage = stage && e.op.IsLeaf
  | _ => false

/-- How many executions of leaves have begun and not come to their end in a trace. -/
def inFlight (t : List Mark) : Int :=
  t.countP (Mark.isOfLeaf .opPre) - t.countP (Mark.isOfLeaf .opPost)

/-- Counts the beginnings of leaves up and their ends down. -/
def Gauge.leaves : Gauge
  | .announce ⟨.opPre, op, _⟩ => if op.IsLeaf then 1 else 0
  | .announce ⟨.opPost, op, _⟩ => if op.IsLeaf then -1 else 0
  | _ => 0

theorem Gauge.leaves_suits : Gauge.leaves.Suits where
  poll := rfl
  view _ := rfl
  create _ := rfl
  bind _ _ _ := rfl
  raise _ _ := rfl
  workflowStart _ _ := rfl
  workflowDone _ _ := rfl
  opPost op h := by by_cases hleaf : op.IsLeaf <;> simp [Gauge.leaves, hleaf]

/-- What a mark adds to the number of leaves in flight. -/
theorem Mark.change_leaves (m : Mark) :
    m.change Gauge.leaves
      = (if m.isOfLeaf .opPre then 1 else 0) - (if m.isOfLeaf .opPost then 1 else 0) := by
  match m with
  | .did (.announce ⟨stage, op, h⟩) _ =>
    cases stage <;> by_cases hleaf : op.IsLeaf <;>
      simp [Mark.change, Gauge.leaves, Mark.isOfLeaf, hleaf]
  | .paused => rfl
  | .did .poll _ | .did .signal _ | .did .requestStop _ | .did (.view _) _ | .did (.bind _ _ _) _
  | .did (.unbind _ _) _ | .did (.create _) _ | .did (.consult _ _) _ | .did (.note _) _
  | .did (.raise _) _ => rfl

theorem level_leaves (t : List Mark) : Gauge.leaves.level t = inFlight t := by
  induction t with
  | nil => rfl
  | cons m t ih =>
    have hcons : Gauge.leaves.level (m :: t) = m.change Gauge.leaves + Gauge.leaves.level t := by
      simp [Gauge.level]
    rw [hcons, ih, Mark.change_leaves, inFlight, inFlight, List.countP_cons, List.countP_cons]
    by_cases hpre : m.isOfLeaf .opPre = true <;> by_cases hpost : m.isOfLeaf .opPost = true <;>
      simp [hpre, hpost] <;> omega

/-! ## Executing ops -/

/-- The action announces an event. -/
def Action.Announces (a : Action) : Prop := ∃ e, a = .announce e

theorem Gauge.leaves_of_not_announces {a : Action} (h : ¬a.Announces) : Gauge.leaves a = 0 := by
  cases a with
  | announce e => exact absurd ⟨e, rfl⟩ h
  | _ => rfl

theorem Flow.Avoids.needs_leaves {α : Type} {f : Flow α} (h : f.Avoids Action.Announces) :
    f.Needs Gauge.leaves 0 := by
  induction h with
  | done r => cases r <;> first | exact Flow.costs_ok trivial | rfl
  | starved => exact Flow.costs_starved
  | pause _ ih => exact ih ()
  | act ha _ ih =>
    rw [Flow.Needs, Flow.Costs, Flow.Stays, Gauge.leaves_of_not_announces ha]
    exact ⟨Int.le_refl 0, ih⟩

/-- The kinds of groups have the executors of this library, and what an executor of another kind
does is described by `p`. -/
structure Engine.Standard (e : Engine) (p : Flow Value → Prop) : Prop where
  sequential : e.registry.get? "sequential" = some Executor.sequential
  parallel : e.registry.get? "parallel" = some Executor.parallel
  map : e.registry.get? "map" = some Executor.map
  leaf : ∀ kind x, kind ∉ Op.groupKinds → e.registry.get? kind = some x → x.IsLeaf p

section Built

variable {M : Monitor}

theorem Registry.builtin_isLeaf (hM : M.SuitsLeaves) {client : Http.Client} (hc : client.Keeps M)
    {model : Option LanguageModel} (hm : ∀ m ∈ model, m.Keeps M) {kind : String} {x : Executor}
    (hkind : kind ∉ Op.groupKinds) (h : (kind, x) ∈ (builtin model client).entries) :
    x.IsLeaf (Flow.Keeps M) := by
  cases mem_builtin_iff.1 h with
  | sequential | parallel | map => exact absurd (by decide) hkind
  | format | join | set | extractJson | parseJson => exact Executor.reading_isLeaf hM _
  | fetch => exact Executor.fetch_isLeaf hM hc
  | prompt hmodel => exact Executor.prompt_isLeaf hM (hm _ hmodel)
  | promptForJson hmodel => exact Executor.promptForJson_isLeaf hM (hm _ hmodel)

theorem Registry.get?_builtin_group (model : Option LanguageModel) :
    (builtin model).get? "sequential" = some Executor.sequential ∧
      (builtin model).get? "parallel" = some Executor.parallel ∧
      (builtin model).get? "map" = some Executor.map :=
  ⟨get?_builtin_iff.2 .sequential, get?_builtin_iff.2 .parallel, get?_builtin_iff.2 .map⟩

/-- **An engine that is built from leaves under kinds of their own** has the groups of this library
and leaves. -/
theorem EngineBuilder.standard_build (hM : M.SuitsLeaves) (hc : Http.outside.Keeps M)
    {b : EngineBuilder} (hm : ∀ m ∈ b.model, m.Keeps M)
    (hhost : ∀ host ∈ b.executors.entries,
      host.1 ∉ Op.groupKinds ∧ host.2.IsLeaf (Flow.Keeps M)) :
    b.build.Standard (Flow.Keeps M) := by
  have hgroup : ∀ kind ∈ Op.groupKinds,
      b.build.registry.get? kind = (Registry.builtin b.model).get? kind := by
    intro kind hkind
    have hnone : b.executors.get? kind = none := by
      cases hget : b.executors.get? kind with
      | none => rfl
      | some x => exact absurd hkind (hhost _ (Record.mem_of_get? hget)).1
    refine (Record.get?_union _ _ kind).trans ?_
    rw [hnone, Option.none_or]
  obtain ⟨hsequential, hparallel, hmap⟩ := Registry.get?_builtin_group b.model
  refine ⟨?_, ?_, ?_, fun kind x hkind hx => ?_⟩
  · rw [hgroup _ (by decide), hsequential]
  · rw [hgroup _ (by decide), hparallel]
  · rw [hgroup _ (by decide), hmap]
  · rcases EngineBuilder.builtin_or_supplied hx with hbuiltin | hown
    · exact Registry.builtin_isLeaf hM hc hm hkind hbuiltin
    · exact (hhost _ hown).2

end Built

theorem Engine.Standard.mono {e : Engine} {p q : Flow Value → Prop} (he : e.Standard p)
    (h : ∀ f, p f → q f) : e.Standard q where
  sequential := he.sequential
  parallel := he.parallel
  map := he.map
  leaf kind x hkind hx := by
    obtain ⟨leaf, rfl, hleaf⟩ := he.leaf kind x hkind hx
    exact ⟨leaf, rfl, fun config op context => h _ (hleaf config op context)⟩

namespace Engine

variable {e : Engine}

/-- Ops of at most a given width are executed at that cost, if every op is at the cost of its own
width. -/
theorem affords_width {n : Nat}
    (h : ∀ op context, LoopMode.ofKind? op.kind = none →
      (e.exec n op context).Needs Gauge.leaves (op.width e.config)) (w : Nat) (context : Handle) :
    (e.dispatcher n).Affords Gauge.leaves w (fun op => op.width e.config ≤ w) context where
  body op ops hop hmode hops inner hinner := by
    obtain ⟨mode, hmode⟩ := Option.isSome_iff_exists.1 hmode
    have hkind : op.kind ≠ "parallel" := fun hkind => by
      rw [hkind] at hmode
      cases hmode
    exact (Op.width_inner_le (Op.not_isLeaf_of_loop hmode) hkind hops inner hinner).trans hop
  decodes _ _ _ _ _ := rfl
  exec op hop hmode := (h op context hmode).mono hop fun _ _ => trivial

/-- **Every op is executed at the cost of its width.** -/
theorem exec_needs_width (he : e.Standard (Flow.Avoids Action.Announces)) (n : Nat) (op : Op)
    (context : Handle) (hmode : LoopMode.ofKind? op.kind = none) :
    (e.exec n op context).Needs Gauge.leaves (op.width e.config) := by
  induction n generalizing op context with
  | zero => exact Flow.costs_starved
  | succ n ih =>
    have hquiet : ∀ fault, op.innerOps = .error fault → Gauge.leaves (.raise fault) = 0 :=
      fun _ _ => rfl
    rcases op.isLeaf_or with ⟨mode, hloop⟩ | hleaf | hkind | hkind | hkind
    · rw [hmode] at hloop
      cases hloop
    · rw [Op.width_of_isLeaf hleaf]
      refine exec_needs (v := 1) (w := 0) Gauge.leaves_suits (if_pos hleaf) fun x hx => ?_
      obtain ⟨leaf, rfl, havoids⟩ := he.leaf op.kind x hleaf.2 hx
      exact (havoids e.config op context).needs_leaves
    · have hgroup : ¬op.IsLeaf := Op.not_isLeaf_of_group (by rw [hkind]; decide)
      rw [← Nat.zero_add (op.width e.config)]
      refine exec_needs Gauge.leaves_suits (if_neg hgroup) fun x hx => ?_
      cases (hkind ▸ hx).symm.trans he.sequential
      refine Executor.sequential_needs hquiet Gauge.leaves_suits fun ops inner hops => ?_
      exact Dispatcher.runOps_needs Gauge.leaves_suits (affords_width ih _ inner)
        (Op.width_inner_le hgroup (by rw [hkind]; decide) hops)
    · have hgroup : ¬op.IsLeaf := Op.not_isLeaf_of_group (by rw [hkind]; decide)
      rw [← Nat.zero_add (op.width e.config)]
      refine exec_needs Gauge.leaves_suits (if_neg hgroup) fun x hx => ?_
      cases (hkind ▸ hx).symm.trans he.parallel
      refine Executor.parallel_needs hquiet Gauge.leaves_suits (Op.width e.config)
        fun ops cap hops hcap => ⟨fun inner _ => ?_, ?_⟩
      · exact Dispatcher.dispatch_needs Gauge.leaves_suits (affords_width ih _ context)
          (Nat.le_refl _)
      · have hwidth : op.width e.config = sumOfLargest (max cap 1) (ops.map (Op.width e.config)) :=
          Op.width_of_parallel hkind hops hcap
        rw [hwidth]
    · have hgroup : ¬op.IsLeaf := Op.not_isLeaf_of_group (by rw [hkind]; decide)
      rw [← Nat.zero_add (op.width e.config)]
      refine exec_needs Gauge.leaves_suits (if_neg hgroup) fun x hx => ?_
      cases (hkind ▸ hx).symm.trans he.map
      refine Executor.map_needs hquiet Gauge.leaves_suits fun ops inner hops => ?_
      exact Dispatcher.runOps_needs Gauge.leaves_suits (affords_width ih _ inner)
        (Op.width_inner_le hgroup (by rw [hkind]; decide) hops)

/-! ## The theorem -/

/-- **At no moment are more leaves in flight than an op is wide.** -/
theorem in_flight_le_width (he : e.Standard (Flow.Avoids Action.Announces)) (n : Nat) (op : Op)
    (context : Handle) {t : List Mark} {g : Flow Value}
    (h : ((e.dispatcher n).dispatch op context).Goes t g) : inFlight t ≤ op.width e.config := by
  have hneeds : ((e.dispatcher n).dispatch op context).Needs Gauge.leaves (op.width e.config) :=
    Dispatcher.dispatch_needs Gauge.leaves_suits
      (affords_width (fun op context => exec_needs_width he n op context) _ context) (Nat.le_refl _)
  have hle := (Flow.Stays.goes hneeds (Int.natCast_nonneg _) h).1
  rwa [Int.zero_add, level_leaves] at hle

/-- A leaf that is in flight for a while. -/
def waiting : Op := (Op.new "wait").withParam "ticks" (.nat 1)

/-- Two of three branches at a time; the second has two branches of its own. -/
def crowded : Op :=
  ((Op.new "parallel").withParam "concurrency" (.nat 2)).withOps
    [waiting, .parallel [waiting, waiting], .sequential [waiting, waiting]]

/-- The executors of this library, and one that waits. -/
def waitingEngine : Engine :=
  ({ executors := .ofList [("wait", Rehearsal.wait)] } : EngineBuilder).build

theorem waitingEngine_standard : waitingEngine.Standard (Flow.Avoids Action.Announces) := by
  have hM : (Monitor.avoiding Action.Announces).SuitsLeaves :=
    Monitor.avoiding_suitsLeaves (fun _ h => nomatch h) (fun h => nomatch h) fun _ h => nomatch h
  refine Standard.mono (EngineBuilder.standard_build hM ?_ (fun _ h => nomatch h) ?_)
    fun f hf => Flow.avoids_iff_keeps.2 hf
  · exact Http.outside_keeps hM fun _ _ => Monitor.avoiding_neutral fun h => nomatch h
  · intro host hhost
    cases List.mem_singleton.1 hhost
    refine ⟨by decide, fun config => Rehearsal.wait ⟨config, 0, fun _ _ => .starved⟩, rfl, ?_⟩
    exact fun config op context => (Flow.wait_keeps _).bind fun _ _ =>
      (Flow.keeps_view hM context).bind fun _ _ => Flow.obeys_ok trivial

/-- Three leaves are in flight at some moment, and never four. -/
theorem in_flight_le_three :
    crowded.width {} = 3 ∧
    (∃ t g, ((waitingEngine.dispatcher 20).dispatch crowded ⟨0⟩).Goes t g ∧ inFlight t = 3) ∧
    ∀ t g, ((waitingEngine.dispatcher 20).dispatch crowded ⟨0⟩).Goes t g → inFlight t ≤ 3 := by
  have hwidth : crowded.width {} = 3 := by decide +kernel
  refine ⟨hwidth, ?_, fun t g h => ?_⟩
  · have hgoes := Flow.goes_trace {} ((waitingEngine.dispatcher 20).dispatch crowded ⟨0⟩) {}
    rw [← List.take_append_drop 12 (Flow.trace _ _ _)] at hgoes
    obtain ⟨g, hgoes, -⟩ := hgoes.split
    exact ⟨_, g, hgoes, rfl⟩
  · have hle := in_flight_le_width waitingEngine_standard 20 crowded ⟨0⟩ h
    rwa [show waitingEngine.config = {} from rfl, hwidth] at hle

end Engine

end WorkflowEngine
