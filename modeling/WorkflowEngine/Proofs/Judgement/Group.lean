import WorkflowEngine.Proofs.Judgement.Runner

/-!
# What may be said of groups

`sequential` and `map` run their inner ops in contexts of their own, one run after another, and
`parallel` hands its branches to a fan-out. What else they do is what a runner does as well: they
read contexts and parameters, and raise faults. So a judgement that leads through the runs, or
through the fan-out, leads through the group.
-/

namespace WorkflowEngine

/-- Making a new context leads home, and its handle is one of those that the judgement expects for
these bindings. -/
def Judgement.Creates (J : Judgement) (home : J.State → Prop) (created : Bindings → Handle → Prop) :
    Prop := ∀ b s, home s → J.judges (fun s h => home s ∧ created b h) (Flow.create b) s

namespace Executor

variable {J : Judgement} {home asked : J.State → Prop} {created : Bindings → Handle → Prop}
  {d : Dispatcher} {op : Op} {context : Handle} (hJ : J.Walks home asked)
  (hinner : ∀ e, op.innerOps = .error e → J.Raises home e)

include hJ hinner

/-- `parallel` leads home if the fan-out of its branches does. -/
theorem parallel_returns
    (hrun : ∀ ops cap, op.innerOps = .ok ops → concurrency d.config op ops.length = .ok cap →
      J.Returns home (FanOut.run d.fuel (ops.map (d.dispatch · context)) cap fun _ => return)) :
    J.Returns home (parallel d op context) := by
  intro s hs
  refine J.bind (Judgement.Walks.ofExcept hs hinner) fun s ops hops => ?_
  have hcap : ∀ e, concurrency d.config op ops.length = .error e → J.Raises home e := fun e he =>
    hJ.raises ((concurrency_isAbout he).not_isInnerOps (by decide))
  refine J.bind (Judgement.Walks.ofExcept hops.1 hcap) fun s cap hcap => ?_
  exact J.bind (hrun ops cap hops.2 hcap.2 s hcap.1) fun _ _ hs => J.ok hs

variable (hcreate : J.Creates home created)
  (hrun : ∀ ops b inner, op.innerOps = .ok ops → created b inner →
    J.Returns home (d.runOps ops inner))

include hcreate hrun

/-- `sequential` leads home if a run of its inner ops in a new context does. -/
theorem sequential_returns : J.Returns home (sequential d op context) := by
  intro s hs
  refine J.bind (Judgement.Walks.ofExcept hs hinner) fun s ops hops => ?_
  have hcopy : J.judges (fun s inner => home s ∧ ∃ b, created b inner) (Flow.copy context) s :=
    J.bind (hJ.view context s hops.1) fun s b hs =>
      J.mono (hcreate b s hs) fun _ _ h => ⟨h.1, b, h.2⟩
  refine J.bind hcopy fun s inner hinner => ?_
  obtain ⟨hs, b, hb⟩ := hinner
  exact J.bind (hrun ops b inner hops.2 hb s hs) fun _ _ hs => J.ok hs

omit hinner in
theorem mapItems_returns {ops : List Op} (hops : op.innerOps = .ok ops) (name : String)
    (items results : List Value) : J.Returns home (mapItems d ops name context results items) := by
  intro s hs
  induction items generalizing results s with
  | nil => exact J.ok hs
  | cons item items ih =>
    refine J.bind (hJ.check hs) fun s _ hs => J.bind (hJ.view context s hs.1) fun s b hs => ?_
    refine J.bind (hcreate (itemBindings b name item) s hs) fun s inner hinner => ?_
    refine J.bind (hrun ops _ inner hops hinner.2 s hinner.1) fun s _ hs => ?_
    exact J.bind (hJ.view inner s hs) fun s b hs => ih _ s hs

theorem map_returns : J.Returns home (map d op context) := by
  intro s hs
  refine J.bind (hJ.view context s hs) fun s b hs => ?_
  have hitems : ∀ e, inputArray op b = .error e → J.Raises home e := fun e he =>
    hJ.raises ((inputArray_isAbout he).not_isInnerOps (by decide))
  have hname : ∀ e, op.textParam "itemVariable" = .error e → J.Raises home e := fun e he =>
    hJ.raises ((Op.textParam_isAbout he).not_isInnerOps (by decide))
  refine J.bind (Judgement.Walks.ofExcept hs hitems) fun s items hs => ?_
  refine J.bind (Judgement.Walks.ofExcept hs.1 hname) fun s name hs => ?_
  refine J.bind (Judgement.Walks.ofExcept hs.1 hinner) fun s ops hops => ?_
  exact J.bind (mapItems_returns hJ hcreate hrun hops.2 _ items [] s hops.1) fun _ _ hs => J.ok hs

end Executor

end WorkflowEngine
