import WorkflowEngine.Proofs.Isolation.Undisturbed

/-!
# What `map` comes to

`map` runs its inner ops once for each item, in a copy of the context that is made for the item. The
value for the item is read from the reserved name of that copy. So it has to be shown that whatever
the inner ops are, the last result is what stands there, and that nothing else comes into a copy or
out of it.

**Theorem (`Engine.maps_in_copies`).** In an undisturbed run an item comes to the last result that
the inner ops have in a context with the bindings of the copy that nobody shares, or to null if no
op is executed. If all items have results, there is one value for each, in order. Otherwise the
outcome is that of the first item without a result; the items before it have run to their ends, and
those after it have not been started. So mapping goes item by item: it takes lists one after the
other to their values one after the other, and items in another order to their values in that order.

The copies are made of what the context holds when the items are started. Where nobody else writes
into it, that is what it held at first.

The proof reads the last result off the trace of the inner ops (`Executor.output_of_runOps`), and
follows the items one by one (`Executor.itemsInTurn_of_among`).
-/

namespace WorkflowEngine

theorem World.valid_replay {env : Environment} {w : World} {p : Handle} (t : List Mark)
    (hp : w.contexts.Valid p) : (w.replay env t).contexts.Valid p := by
  induction t generalizing w with
  | nil => exact hp
  | cons m t ih =>
    cases m with
    | paused => exact ih hp
    | did a x =>
      refine ih ?_
      cases a with
      | bind _ _ _ | unbind _ _ => exact Store.valid_update.2 hp
      | create b => exact Store.valid_create.2 (.inl hp)
      | _ => exact hp

/-- A branch that has made itself one context and done nothing else. -/
def Branch.copied (b : Bindings) : Branch :=
  { store := (Store.empty.create b).2, own := [⟨0⟩] }

theorem Branch.valid_copied (b : Bindings) : (Branch.copied b).store.Valid ⟨0⟩ :=
  Store.valid_create.2 (.inr rfl)

theorem Branch.view_copied (b : Bindings) : (Branch.copied b).store.view ⟨0⟩ = b :=
  Store.view_create_self .empty b

namespace Executor

variable {e : Engine} {n : Nat} {ans : Query → Value} {ops : List Op} {name : String} {h : Handle}
  {out : Outside} {σ σ' : Branch}

/-! ## One item -/

/-- The reserved name is not bound in a copy, -/
theorem output_itemBindings (b : Bindings) (name : String) (item : Value) :
    (itemBindings b name item).output = none := by
  simp [itemBindings, Bindings.output, Record.get?_erase]

/-- and what it is bound to in the context itself does not matter. -/
theorem itemBindings_insert_output (b : Bindings) (v : Value) (name : String) (item : Value) :
    itemBindings (b.insert Bindings.outputKey v) name item = itemBindings b name item := by
  refine Record.ext_get? fun key => ?_
  by_cases hkey : key = Bindings.outputKey <;>
    simp [itemBindings, Record.get?_erase, Record.get?_insert, hkey]

/-- An item, with the bindings of which its copy is made. -/
structure ItemStart where
  bindings : Bindings
  item : Value

namespace ItemStart

variable (d : Dispatcher) (ans : Query → Value) (ops : List Op) (name : String)

/-- The run of the inner ops in the copy, with nobody else at work. -/
def run (s : ItemStart) : Outcome (List Value) × Branch :=
  (d.runOps ops ⟨0⟩).alone (.undisturbed ans) (.copied (itemBindings s.bindings name s.item))

/-- The item has a result: the last result of the inner ops, or null if there is none. -/
def Yields (s : ItemStart) (v : Value) : Prop :=
  ∃ vs, (s.run d ans ops name).1 = .ended (.ok vs) ∧ v = vs.getLast?.getD .null

theorem Yields.unique {d : Dispatcher} {s : ItemStart} {v w : Value}
    (hv : s.Yields d ans ops name v) (hw : s.Yields d ans ops name w) : v = w := by
  obtain ⟨vs, hvs, rfl⟩ := hv
  obtain ⟨ws, hws, rfl⟩ := hw
  cases hvs.symm.trans hws
  rfl

end ItemStart

/-- **What stands under the reserved name** when ops have run in a context where it was not bound:
the last result, or nothing if there is none. -/
theorem output_of_runOps {b : Bindings} (hb : b.output = none) {vs : List Value} {τ : Branch}
    (hrun : ((e.dispatcher n).runOps ops ⟨0⟩).alone out (.copied b) = (.ended (.ok vs), τ)) :
    (τ.store.view ⟨0⟩).output.getD .null = vs.getLast?.getD .null := by
  let w : World := { contexts := (Branch.copied b).store }
  have hvalid : w.contexts.Valid ⟨0⟩ := Branch.valid_copied b
  obtain ⟨t, hgoes, hreplay⟩ := Flow.goes_alone out ((e.dispatcher n).runOps ops ⟨0⟩) {}
    (w := w) (σ := .copied b) rfl
  rw [hrun] at hgoes hreplay
  dsimp only at hreplay
  rw [← hreplay]
  have hserial : ((e.dispatcher n).runOps ops ⟨0⟩).Serial Mark.IsQuiet _ _ _ [] :=
    Dispatcher.runOps_serial (fun _ => id) ⟨0⟩
  obtain ⟨legs, hlegs, hvs⟩ := hserial.goes_ok hgoes
  subst hvs
  cases hlast : legs.getLast? with
  | none =>
    obtain rfl := List.getLast?_eq_none_iff.1 hlast
    have hview : (w.replay {} t).contexts.view ⟨0⟩ = b :=
      (World.view_replay_of_quiet hlegs.own_of_mem hvalid).2.trans (Branch.view_copied b)
    simp [hview, hb]
  | some last =>
    have hcontext : last.context = ⟨0⟩ :=
      (hlegs.good_of_mem last (List.mem_of_getLast? hlast)).2.2
    have hleaves : LeavesBound t last.context Bindings.outputKey last.result :=
      hlegs.leavesBound hlast (.inl rfl)
    obtain ⟨before, after, rfl, -, hbound⟩ := hleaves
    have hat := hbound {} (w.replay {} before) (hcontext ▸ World.valid_replay before hvalid)
    rw [hcontext] at hat
    simp [Bindings.output, hat, hlast]

theorem forItem_alone (ops : List Op) (name : String) (s : ItemStart) :
    (forItem (e.dispatcher n) ops name s.item s.bindings).alone (.undisturbed ans)
        { store := .empty } =
      ((s.run (e.dispatcher n) ans ops name).1.map fun vs => vs.getLast?.getD .null,
        (s.run (e.dispatcher n) ans ops name).2) := by
  -- the copy is the first context that there is
  have hcreated : (forItem (e.dispatcher n) ops name s.item s.bindings).alone (.undisturbed ans)
      { store := .empty } = (((e.dispatcher n).runOps ops ⟨0⟩).bind fun _ =>
        (Flow.view ⟨0⟩).bind fun b => .done (.ok (b.output.getD .null))).alone (.undisturbed ans)
          (.copied (itemBindings s.bindings name s.item)) := rfl
  rw [hcreated, Flow.alone_bind, ItemStart.run]
  match hrun : ((e.dispatcher n).runOps ops ⟨0⟩).alone (.undisturbed ans)
      (.copied (itemBindings s.bindings name s.item)) with
  | (.ended (.ok vs), τ) =>
    have houtput := output_of_runOps (output_itemBindings s.bindings name s.item) hrun
    change (Outcome.ended (Except.ok ((τ.store.view ⟨0⟩).output.getD .null)), τ) = _
    rw [houtput]
    rfl
  | (.ended (.error err), τ) => rfl
  | (.starved, τ) => rfl

/-- **In an undisturbed run among others** an item comes to what its run in the copy comes to, and
does what that run does. -/
theorem forItem_among (he : e.Contained) {b : Bindings} {item : Value} {o : Outcome Value}
    {new : List Deed}
    (hrun : (forItem (e.dispatcher n) ops name item b).Among out σ o.flow σ')
    (hnew : σ'.deeds = new ++ σ.deeds) (hsteady : ∀ deed ∈ new, deed.Undisturbed ans) :
    o = ((ItemStart.mk b item).run (e.dispatcher n) ans ops name).1.map
        (fun vs => vs.getLast?.getD .null) ∧
      new = ((ItemStart.mk b item).run (e.dispatcher n) ans ops name).2.deeds := by
  have hitem := forItem_contextless (Engine.exec_contained he n) ops name item b .none
  have halone := Flow.Mirrors.asAlone hitem (τ := { store := .empty }) (.none rfl) _ _ hrun
  obtain ⟨hend, hdeeds⟩ := halone.2 o rfl
  obtain rfl := List.append_cancel_right (hnew.symm.trans hdeeds)
  have hsame := Flow.alone_undisturbed hsteady
  rw [forItem_alone ops name ⟨b, item⟩] at hsame
  rw [← hsame] at hend ⊢
  exact ⟨hend.symm, rfl⟩

/-! ## The items one after another -/

section Items

variable (d : Dispatcher) (ans : Query → Value) (ops : List Op) (name : String)

/-- What has been done when these items have been started and have run: for each a check whether to
stop, and the run in its copy. The newest stands first. -/
def itemDeeds (starts : List ItemStart) : List Deed :=
  starts.reverse.flatMap fun s => (s.run d ans ops name).2.deeds ++ [.polled false]

/-- What mapping the items comes to that are started so: either all have results, and these are the
results, or the last one that is started has none, and its outcome is that of the whole. -/
inductive ItemsMap : List Value → List ItemStart → Outcome (List Value) → Prop
  | complete {starts : List ItemStart} {results : List Value} :
      List.Forall₂ (ItemStart.Yields d ans ops name) starts results →
      ItemsMap (starts.map ItemStart.item) starts (.ended (.ok results))
  | broken {done : List ItemStart} {results : List Value} {s : ItemStart} (later : List Value) :
      List.Forall₂ (ItemStart.Yields d ans ops name) done results →
      ¬(s.run d ans ops name).1.IsOk →
      ItemsMap (done.map ItemStart.item ++ s.item :: later) (done ++ [s]) (s.run d ans ops name).1

/-- Each item was started at a moment of the run when those before it, and nothing else, had been
done and checked for a stop, and its copy was made of what the context held at that moment. -/
def StartedInTurn (h : Handle) (past : List Deed) (reaches : Branch → Prop)
    (starts : List ItemStart) : Prop :=
  ∀ done s later, starts = done ++ s :: later → ∃ τ : Branch, reaches τ ∧
    τ.deeds = .polled false :: (itemDeeds d ans ops name done ++ past) ∧
    s.bindings = τ.store.view h

variable {d ans ops name}

theorem itemDeeds_cons (s : ItemStart) (starts : List ItemStart) :
    itemDeeds d ans ops name (s :: starts) =
      itemDeeds d ans ops name starts ++ ((s.run d ans ops name).2.deeds ++ [.polled false]) := by
  simp [itemDeeds]

theorem ItemsMap.cons {s : ItemStart} {v : Value} {items : List Value} {starts : List ItemStart}
    {o : Outcome (List Value)} (hs : s.Yields d ans ops name v)
    (h : ItemsMap d ans ops name items starts o) :
    ItemsMap d ans ops name (s.item :: items) (s :: starts) (o.map (v :: ·)) := by
  cases h with
  | complete hstarts =>
    have hall : List.Forall₂ (ItemStart.Yields d ans ops name) (s :: starts) _ := .cons hs hstarts
    exact .complete hall
  | @broken done _ _ later hdone hlast =>
    rw [Outcome.map_eq_self hlast (v :: ·)]
    have hall : List.Forall₂ (ItemStart.Yields d ans ops name) (s :: done) _ := .cons hs hdone
    exact .broken later hall hlast

theorem StartedInTurn.nil {past : List Deed} (reaches : Branch → Prop) :
    StartedInTurn d ans ops name h past reaches [] := by
  intro done s later hsplit
  simp at hsplit

theorem StartedInTurn.cons {past : List Deed} {reaches reaches' : Branch → Prop} {s : ItemStart}
    {starts : List ItemStart} {τ : Branch} (hτ : reaches τ)
    (hdeeds : τ.deeds = .polled false :: past) (hs : s.bindings = τ.store.view h)
    (hlater : StartedInTurn d ans ops name h
      ((s.run d ans ops name).2.deeds ++ .polled false :: past) reaches' starts)
    (hle : ∀ υ, reaches' υ → reaches υ) :
    StartedInTurn d ans ops name h past reaches (s :: starts) := by
  intro done s' later hsplit
  cases done with
  | nil =>
    cases hsplit
    exact ⟨τ, hτ, hdeeds, hs⟩
  | cons s₀ done =>
    obtain ⟨rfl, rfl⟩ := List.cons.inj hsplit
    obtain ⟨υ, hυ, hdeeds', hs'⟩ := hlater done s' later rfl
    refine ⟨υ, hle υ hυ, ?_, hs'⟩
    simp [hdeeds', itemDeeds_cons]

/-- What mapping the items comes to in an undisturbed run in which these are started: they are
started in turn and do what they do in their copies; and if the context is one that the branch has
made, nobody changes it. -/
structure ItemsInTurn (d : Dispatcher) (ans : Query → Value) (ops : List Op) (name : String)
    (h : Handle) (σ : Branch) (reaches : Branch → Prop) (items : List Value)
    (starts : List ItemStart) (o : Outcome (List Value)) (new : List Deed) : Prop where
  maps : ItemsMap d ans ops name items starts o
  deeds : new = itemDeeds d ans ops name starts
  started : StartedInTurn d ans ops name h σ.deeds reaches starts
  kept : h ∈ σ.own → σ.store.Valid h → ∀ s ∈ starts, s.bindings = σ.store.view h

theorem ItemsInTurn.nil (reaches : Branch → Prop) :
    ItemsInTurn d ans ops name h σ reaches [] [] (.ended (.ok [])) [] where
  maps := .complete .nil
  deeds := rfl
  started := .nil reaches
  kept _ _ s hs := by cases hs

theorem ItemsInTurn.lost {reaches : Branch → Prop} {s : ItemStart} (items : List Value)
    (hstart : reaches (σ.doing (.polled false))) (hs : s.bindings = σ.store.view h)
    (hlost : ¬(s.run d ans ops name).1.IsOk) :
    ItemsInTurn d ans ops name h σ reaches (s.item :: items) [s] (s.run d ans ops name).1
      ((s.run d ans ops name).2.deeds ++ [.polled false]) where
  maps := .broken items .nil hlost
  deeds := by simp [itemDeeds]
  started := .cons hstart rfl hs (.nil fun _ => False) fun _ => False.elim
  kept _ _ s' hs' := by rw [List.mem_singleton.1 hs', hs]

theorem ItemsInTurn.next {reaches reaches' : Branch → Prop} {s : ItemStart} {v : Value} {υ : Branch}
    {items : List Value} {starts : List ItemStart} {o : Outcome (List Value)} {new : List Deed}
    (hstart : reaches (σ.doing (.polled false))) (hs : s.bindings = σ.store.view h)
    (hv : s.Yields d ans ops name v)
    (hυ : υ.deeds = (s.run d ans ops name).2.deeds ++ .polled false :: σ.deeds)
    (hspared : σ.Keeps h υ)
    (hrest : ItemsInTurn d ans ops name h υ reaches' items starts o new)
    (hle : ∀ τ, reaches' τ → reaches τ) :
    ItemsInTurn d ans ops name h σ reaches (s.item :: items) (s :: starts) (o.map (v :: ·))
      (new ++ (s.run d ans ops name).2.deeds ++ [.polled false]) where
  maps := hrest.maps.cons hv
  deeds := by rw [hrest.deeds, itemDeeds_cons, List.append_assoc]
  started := by
    have hlater := hrest.started
    rw [hυ] at hlater
    exact .cons hstart rfl hs hlater hle
  kept hown hvalid s' hs' := by
    obtain ⟨hown', hvalid', hview⟩ := hspared hown hvalid
    rcases List.mem_cons.1 hs' with rfl | hs'
    · exact hs
    · exact (hrest.kept hown' hvalid' s' hs').trans hview

end Items

/-- In an undisturbed run an item is started right after the check. -/
theorem started_of_undisturbed {d : Dispatcher} {before items : List Value} {item : Value}
    {o : Outcome (List Value)} {new : List Deed}
    (hrun : (mapItems d ops name h before (item :: items)).Among out σ o.flow σ')
    (hnew : σ'.deeds = new ++ σ.deeds) (hsteady : ∀ deed ∈ new, deed.Undisturbed ans) :
    (mapItems d ops name h before (item :: items)).Among out σ
        (itemAndRest d ops name h before item items (σ.store.view h)) (σ.doing (.polled false)) ∧
      (itemAndRest d ops name h before item items (σ.store.view h)).Among out
        (σ.doing (.polled false)) o.flow σ' := by
  rw [mapItems_cons] at hrun ⊢
  obtain ⟨hcheck, hviewed⟩ := hrun.of_check hnew hsteady
  exact ⟨hcheck.bind.trans (.act (.here _ _)), hviewed.of_act⟩

/-- **Mapping goes through the items in turn.** -/
theorem itemsInTurn_of_among (he : e.Contained) {items before : List Value}
    {o : Outcome (List Value)} {new : List Deed}
    (hrun : (mapItems (e.dispatcher n) ops name h before items).Among out σ o.flow σ')
    (hnew : σ'.deeds = new ++ σ.deeds) (hsteady : ∀ deed ∈ new, deed.Undisturbed ans) :
    ∃ starts o', o = o'.map (before.reverse ++ ·) ∧
      ItemsInTurn (e.dispatcher n) ans ops name h σ
        (fun τ => ∃ f, (mapItems (e.dispatcher n) ops name h before items).Among out σ f τ)
        items starts o' new := by
  -- On the items; each is started where the one before it has left the branch.
  induction items generalizing before σ new with
  | nil =>
    obtain ⟨rfl, rfl⟩ := Flow.Among.of_flow (o := .ended (.ok before.reverse)) hrun
    obtain rfl : new = [] := by simpa using hnew
    exact ⟨[], .ended (.ok []), by simp [Outcome.map, Except.map], .nil _⟩
  | cons item items ih =>
    obtain ⟨hstart, hstarted⟩ := started_of_undisturbed hrun hnew hsteady
    let s : ItemStart := ⟨σ.store.view h, item⟩
    rcases Flow.Among.of_bind_flow hstarted with ⟨o', hitem, hlost, huse⟩ | ⟨v, υ, hitem, hrest⟩
    · obtain ⟨later, hlater⟩ := hitem.exists_new
      obtain rfl := Branch.new_eq (hnew.symm.trans hlater)
      obtain ⟨rfl, rfl⟩ := forItem_among he hitem hlater fun deed hdeed =>
        hsteady deed (List.mem_append_left _ hdeed)
      have hrun : ¬(s.run (e.dispatcher n) ans ops name).1.IsOk :=
        fun hok => hlost (Outcome.isOk_of_map hok)
      refine ⟨[s], _, ?_, .lost items ⟨_, hstart⟩ rfl hrun⟩
      rw [huse fun _ => [], Outcome.map_map]
      exact Outcome.map_congr_of_lost hrun _ _
    · obtain ⟨later, hlater⟩ := hitem.exists_new
      obtain ⟨rest, hafter⟩ := hrest.exists_new
      obtain rfl : new = rest ++ later ++ [.polled false] := by
        apply Branch.new_eq
        rw [← hnew, hafter, hlater, List.append_assoc]
        rfl
      obtain ⟨houtcome, rfl⟩ := forItem_among (o := .ended (.ok v)) he hitem hlater
        fun deed hdeed => hsteady deed (by simp [hdeed])
      obtain ⟨starts, o', rfl, hturn⟩ := ih hrest hafter
        fun deed hdeed => hsteady deed (by simp [hdeed])
      have hcopy := forItem_contextless (Engine.exec_contained he n) ops name item
        (σ.store.view h) .none
      have hspared := Flow.Mirrors.spares hcopy hitem (k := h) fun _ _ hxy => hxy.elim
      refine ⟨s :: starts, o'.map (v :: ·), by simp [Outcome.map_map], ?_⟩
      refine .next ⟨_, hstart⟩ rfl (Outcome.map_eq_ok_iff.1 houtcome.symm) hlater hspared hturn ?_
      rintro τ ⟨f, hf⟩
      exact ⟨f, hstart.trans (hitem.bind.trans hf)⟩

/-! ## The whole run -/

/-- What a run of `map` comes to and does that finds these bindings at its start: it makes the fault
known that lies in the op or in its input, or it goes through items, which are started so. -/
def Maps (d : Dispatcher) (ans : Query → Value) (op : Op) (b : Bindings)
    (started : List Op → String → List ItemStart → Prop) (o : Outcome Value) (deeds : List Deed) :
    Prop :=
  match mapParts op b with
  | .error err => o = .ended (.error err) ∧ deeds = [.raised err]
  | .ok (items, name, ops) => ∃ starts o', o = o'.map Value.array ∧
      ItemsMap d ans ops name items starts o' ∧ deeds = itemDeeds d ans ops name starts ∧
      started ops name starts

theorem Maps.mono {d : Dispatcher} {op : Op} {b : Bindings}
    {started started' : List Op → String → List ItemStart → Prop} {o : Outcome Value}
    {deeds : List Deed} (h : Maps d ans op b started o deeds)
    (hle : ∀ ops name starts, started ops name starts → started' ops name starts) :
    Maps d ans op b started' o deeds := by
  unfold Maps at h ⊢
  split at h
  · exact h
  · obtain ⟨starts, o', ho, hmap, hdeeds, hstarted⟩ := h
    exact ⟨starts, o', ho, hmap, hdeeds, hle _ _ _ hstarted⟩

/-- The items are started in turn; and where the context is one that the branch has made, their
copies hold what it held at first. -/
def StartedAmong (d : Dispatcher) (ans : Query → Value) (op : Op) (h : Handle) (out : Outside)
    (σ : Branch) (ops : List Op) (name : String) (starts : List ItemStart) : Prop :=
  StartedInTurn d ans ops name h σ.deeds (fun τ => ∃ f, (map d op h).Among out σ f τ) starts ∧
    (h ∈ σ.own → σ.store.Valid h → ∀ s ∈ starts, s.bindings = σ.store.view h)

/-- **An undisturbed run of `map` among others.** -/
theorem maps_of_among (he : e.Contained) {op : Op} {o : Outcome Value} {new : List Deed}
    (hrun : (map (e.dispatcher n) op h).Among out σ o.flow σ')
    (hnew : σ'.deeds = new ++ σ.deeds) (hsteady : ∀ deed ∈ new, deed.Undisturbed ans) :
    Maps (e.dispatcher n) ans op (σ.store.view h) (StartedAmong (e.dispatcher n) ans op h out σ) o
      new := by
  unfold Maps StartedAmong
  rw [map_eq] at hrun ⊢
  replace hrun := hrun.of_act
  change ((Flow.ofExcept (mapParts op (σ.store.view h))).bind _).Among out σ _ σ' at hrun
  cases hparts : mapParts op (σ.store.view h) with
  | error err =>
    rw [hparts] at hrun
    obtain ⟨rfl, rfl⟩ := Flow.Among.of_flow (o := .ended (.error err)) hrun.of_act
    have hraised : new ++ σ.deeds = [.raised err] ++ σ.deeds := hnew.symm
    exact ⟨rfl, List.append_cancel_right hraised⟩
  | ok parts =>
    obtain ⟨items, name, ops⟩ := parts
    rw [hparts] at hrun
    change ((mapItems (e.dispatcher n) ops name h [] items).map Value.array).Among
      out σ _ σ' at hrun
    obtain ⟨o', hitems, rfl⟩ := hrun.of_map_flow
    obtain ⟨starts, o'', rfl, hturn⟩ := itemsInTurn_of_among he hitems hnew hsteady
    refine ⟨starts, o'', Outcome.map_map _ _ _, hturn.maps, hturn.deeds, ?_, hturn.kept⟩
    intro done s later hsplit
    obtain ⟨τ, ⟨f, hf⟩, hpast, hs⟩ := hturn.started done s later hsplit
    refine ⟨τ, ⟨f.map Value.array, .act ?_⟩, hpast, hs⟩
    change ((Flow.ofExcept (mapParts op (σ.store.view h))).bind _).Among out σ _ τ
    rw [hparts]
    exact hf.bind

/-- **An undisturbed run of `map` in a world**, where nobody else writes into the context. -/
theorem maps_of_run (he : e.Contained) {env : Environment} {w : World} {op : Op}
    (hvalid : w.contexts.Valid h)
    (hsteady : ∀ deed ∈ w.deeds env ((map (e.dispatcher n) op h).trace env w),
      deed.Undisturbed ans) :
    Maps (e.dispatcher n) ans op (w.contexts.view h)
      (fun _ _ starts => ∀ s ∈ starts, s.bindings = w.contexts.view h)
      ((map (e.dispatcher n) op h).run env w).1
      (w.deeds env ((map (e.dispatcher n) op h).trace env w)).reverse := by
  let σ : Branch := { store := w.contexts, own := [h] }
  obtain ⟨hend, hdeeds⟩ := Flow.alone_of_run (σ := σ) rfl hsteady
  have hrun := Flow.among_alone (.undisturbed ans) (f := map (e.dispatcher n) op h) (σ := σ) hend
  have hmaps := maps_of_among he hrun hdeeds fun deed hdeed =>
    hsteady deed (List.mem_reverse.1 hdeed)
  refine hmaps.mono fun ops name starts hstarted => ?_
  exact hstarted.2 (List.mem_singleton_self h) hvalid

/-- **What the run in a copy is**: what the inner ops do in any context with these bindings, if they
have it for themselves. -/
theorem ItemStart.run_of_world (he : e.Contained) {env : Environment} {w : World} {k : Handle}
    {s : ItemStart} (hvalid : w.contexts.Valid k)
    (hview : w.contexts.view k = itemBindings s.bindings name s.item)
    (hsteady : ∀ deed ∈ w.deeds env (((e.dispatcher n).runOps ops k).trace env w),
      deed.Undisturbed ans) :
    (s.run (e.dispatcher n) ans ops name).1 = (((e.dispatcher n).runOps ops k).run env w).1 ∧
      (s.run (e.dispatcher n) ans ops name).2.deeds =
        (w.deeds env (((e.dispatcher n).runOps ops k).trace env w)).reverse := by
  let ρ : Pairing := fun x y => x = k ∧ y = ⟨0⟩
  let σ : Branch := { store := w.contexts, own := [k] }
  have hmatches : Branch.Matches ρ [] σ (.copied (itemBindings s.bindings name s.item)) := by
    refine ⟨rfl, ?_, ?_, ?_, ?_⟩
    · rintro x y ⟨rfl, rfl⟩
      exact List.mem_singleton_self _
    · rintro x y ⟨rfl, rfl⟩
      exact ⟨hvalid, Branch.valid_copied _⟩
    · rintro x y ⟨rfl, rfl⟩
      exact hview.trans (Branch.view_copied _).symm
    · rintro x y x' y' ⟨rfl, rfl⟩ ⟨rfl, rfl⟩
      exact iff_of_true rfl rfl
  obtain ⟨hend, hdeeds⟩ := Flow.alone_of_run (σ := σ) rfl hsteady
  have hrun := Flow.among_alone (.undisturbed ans) (σ := σ) hend
  have hechoes := (Engine.exec_contained he n).runOps (ρ := ρ) ⟨rfl, rfl⟩ ops
  obtain ⟨hsame, hdone⟩ := (Flow.Mirrors.asAlone hechoes hmatches _ _ hrun).2 _ rfl
  exact ⟨hsame, List.append_cancel_right (hdone.symm.trans hdeeds)⟩

/-! ## Item by item -/

section Laws

variable (d : Dispatcher) (ans : Query → Value) (ops : List Op) (name : String)

/-- An undisturbed run of `map` over these items with these inner ops, in a world in which its
context holds these bindings, comes to this outcome. -/
inductive Mapping (b : Bindings) (items : List Value) : Outcome Value → Prop
  | run (env : Environment) (w : World) (op : Op) (h : Handle) : w.contexts.Valid h →
      w.contexts.view h = b → mapParts op b = .ok (items, name, ops) →
      (∀ deed ∈ w.deeds env ((map d op h).trace env w), deed.Undisturbed ans) →
      Mapping b items ((map d op h).run env w).1

/-- The item has this value if its copy is made of these bindings. -/
def Gives (b : Bindings) (item v : Value) : Prop := (ItemStart.mk b item).Yields d ans ops name v

/-- Whatever the item, its copies of these two run alike. -/
def CopiesAlike (b b' : Bindings) : Prop :=
  ∀ item, (ItemStart.mk b item).run d ans ops name = (ItemStart.mk b' item).run d ans ops name

variable {d ans ops name}

theorem CopiesAlike.gives {b b' : Bindings} (h : CopiesAlike d ans ops name b b') {item v : Value}
    (hv : Gives d ans ops name b item v) : Gives d ans ops name b' item v := by
  obtain ⟨vs, hvs, rfl⟩ := hv
  exact ⟨vs, h item ▸ hvs, rfl⟩

/-- All copies are made of the same bindings: there are results iff every item has a value. -/
theorem ItemsMap.eq_ok_iff {b : Bindings} {items : List Value} {starts : List ItemStart}
    {o : Outcome (List Value)} (h : ItemsMap d ans ops name items starts o)
    (hb : ∀ s ∈ starts, s.bindings = b) (results : List Value) :
    o = .ended (.ok results) ↔ List.Forall₂ (Gives d ans ops name b) items results := by
  have hunique : Relator.RightUnique (Gives d ans ops name b) :=
    fun _ _ _ => ItemStart.Yields.unique ans ops name
  cases h with
  | @complete _ values hstarts =>
    have hsame : (starts.map ItemStart.item).map (ItemStart.mk b) = starts := by
      rw [List.map_map]
      refine (List.map_congr_left fun s hs => ?_).trans (List.map_id starts)
      rw [Function.comp_apply, ← hb s hs]
      rfl
    rw [← hsame, List.forall₂_map_left_iff] at hstarts
    refine ⟨fun ho => ?_, fun hresults => ?_⟩
    · cases ho
      exact hstarts
    · rw [List.right_unique_forall₂' hunique hstarts hresults]
  | @broken done values s later hdone hlost =>
    refine ⟨fun ho => absurd ⟨results, ho⟩ hlost, fun hresults => ?_⟩
    have hall : ∀ item ∈ done.map ItemStart.item ++ s.item :: later,
        ∃ v, Gives d ans ops name b item v :=
      ((List.forall₂_and_left _ _).1 (hresults.imp fun _ v hv => ⟨⟨v, hv⟩, hv⟩)).1
    obtain ⟨v, vs, hvs, -⟩ := hall s.item (by simp)
    have hs : s = ⟨b, s.item⟩ := by rw [← hb s (by simp)]
    exact absurd ⟨vs, hs ▸ hvs⟩ hlost

/-- A whole run has results iff every item has a value. -/
theorem Mapping.eq_ok_iff (he : e.Contained) {b : Bindings} {items : List Value}
    {o : Outcome Value} (h : Mapping (e.dispatcher n) ans ops name b items o)
    (results : List Value) :
    o = .ended (.ok (.array results)) ↔
      List.Forall₂ (Gives (e.dispatcher n) ans ops name b) items results := by
  cases h with
  | run env w op k hvalid hview hparts hsteady =>
    have hmaps := maps_of_run he hvalid hsteady
    rw [hview] at hmaps
    unfold Maps at hmaps
    rw [hparts] at hmaps
    obtain ⟨starts, o', ho, hitems, -, hstarted⟩ := hmaps
    rw [ho, ← hitems.eq_ok_iff hstarted, Outcome.map_eq_ok_iff]
    simp

theorem Mapping.of_result? (env : Environment) (w : World) (op : Op) {items : List Value}
    {v : Value} (hvalid : w.contexts.Valid h)
    (hparts : mapParts op (w.contexts.view h) = .ok (items, name, ops))
    (hsteady : ∀ deed ∈ w.deeds env ((map d op h).trace env w), deed.Undisturbed ans)
    (hresult : ((map d op h).run env w).1.result? = some v) :
    Mapping d ans ops name (w.contexts.view h) items (.ended (.ok v)) := by
  rw [← Outcome.eq_of_result? hresult]
  exact .run env w op h hvalid rfl hparts hsteady

/-- Items in another order have their values in that order. -/
theorem gives_perm {b : Bindings} {xs ys us : List Value} (hperm : xs.Perm ys)
    (h : List.Forall₂ (Gives d ans ops name b) xs us) :
    ∃ vs, List.Forall₂ (Gives d ans ops name b) ys vs ∧ (xs.zip us).Perm (ys.zip vs) := by
  induction hperm generalizing us with
  | nil => exact ⟨us, h, .refl _⟩
  | cons x _ ih =>
    cases h with
    | cons hx h =>
      obtain ⟨vs, hvs, hzip⟩ := ih h
      exact ⟨_ :: vs, .cons hx hvs, hzip.cons _⟩
  | swap x y rest =>
    obtain _ | ⟨hy, _ | ⟨hx, h⟩⟩ := h
    exact ⟨_, .cons hx (.cons hy h), .swap _ _ _⟩
  | trans _ _ ih₁ ih₂ =>
    obtain ⟨vs, hvs, hzip⟩ := ih₁ h
    obtain ⟨ws, hws, hzip'⟩ := ih₂ hvs
    exact ⟨ws, hws, hzip.trans hzip'⟩

variable (d ans ops name)

/-- Mapping goes item by item. -/
structure MapsItemwise : Prop where
  /-- What the reserved name is bound to in the context has no part in it. -/
  output : ∀ b v, CopiesAlike d ans ops name b (b.insert Bindings.outputKey v)
  /-- Two lists, one after the other. -/
  append : ∀ {b b₁ b₂ xs ys us vs o},
    CopiesAlike d ans ops name b₁ b → CopiesAlike d ans ops name b₂ b →
    Mapping d ans ops name b₁ xs (.ended (.ok (.array us))) →
    Mapping d ans ops name b₂ ys (.ended (.ok (.array vs))) →
    Mapping d ans ops name b (xs ++ ys) o → o = .ended (.ok (.array (us ++ vs)))
  /-- The items in another order. -/
  perm : ∀ {b b₁ xs ys us o}, CopiesAlike d ans ops name b₁ b → xs.Perm ys →
    Mapping d ans ops name b₁ xs (.ended (.ok (.array us))) → Mapping d ans ops name b ys o →
    ∃ vs, o = .ended (.ok (.array vs)) ∧ vs.length = ys.length ∧ (xs.zip us).Perm (ys.zip vs)

variable {d}

theorem mapsItemwise (he : e.Contained) : MapsItemwise (e.dispatcher n) ans ops name where
  output b v item := by
    unfold ItemStart.run
    rw [itemBindings_insert_output]
  append halike₁ halike₂ hxs hys hboth := by
    have hus := ((hxs.eq_ok_iff he _).1 rfl).imp fun _ _ => halike₁.gives
    have hvs := ((hys.eq_ok_iff he _).1 rfl).imp fun _ _ => halike₂.gives
    exact (hboth.eq_ok_iff he _).2 (List.rel_append hus hvs)
  perm halike hperm hxs hys := by
    have hus := ((hxs.eq_ok_iff he _).1 rfl).imp fun _ _ => halike.gives
    obtain ⟨vs, hvs, hzip⟩ := gives_perm hperm hus
    exact ⟨vs, (hys.eq_ok_iff he _).2 hvs, hvs.length_eq.symm, hzip⟩

end Laws

end Executor

/-! ## The theorem -/

/-- **`map` maps in copies, item by item.** If the executors keep to the context that they are
handed, then in every undisturbed run, among others or in a world, `map` comes to what its items
come to in their copies, one after another, and does nothing but check whether to stop and go
through them. The run in a copy is that of the inner ops in any context with the same bindings that
nobody else uses. -/
theorem Engine.maps_in_copies {e : Engine} (he : e.Contained) (n : Nat) (ans : Query → Value) :
    (∀ op h out σ o σ' new, (Executor.map (e.dispatcher n) op h).Among out σ o.flow σ' →
      σ'.deeds = new ++ σ.deeds → (∀ deed ∈ new, deed.Undisturbed ans) →
      Executor.Maps (e.dispatcher n) ans op (σ.store.view h)
        (Executor.StartedAmong (e.dispatcher n) ans op h out σ) o new) ∧
    (∀ op h env w, w.contexts.Valid h →
      (∀ deed ∈ w.deeds env ((Executor.map (e.dispatcher n) op h).trace env w),
        deed.Undisturbed ans) →
      Executor.Maps (e.dispatcher n) ans op (w.contexts.view h)
        (fun _ _ starts => ∀ s ∈ starts, s.bindings = w.contexts.view h)
        ((Executor.map (e.dispatcher n) op h).run env w).1
        (w.deeds env ((Executor.map (e.dispatcher n) op h).trace env w)).reverse) ∧
    ∀ ops name, Executor.MapsItemwise (e.dispatcher n) ans ops name ∧
      ∀ (s : Executor.ItemStart) env w k, w.contexts.Valid k →
        w.contexts.view k = Executor.itemBindings s.bindings name s.item →
        (∀ deed ∈ w.deeds env (((e.dispatcher n).runOps ops k).trace env w),
          deed.Undisturbed ans) →
        (s.run (e.dispatcher n) ans ops name).1 = (((e.dispatcher n).runOps ops k).run env w).1 ∧
          (s.run (e.dispatcher n) ans ops name).2.deeds =
            (w.deeds env (((e.dispatcher n).runOps ops k).trace env w)).reverse :=
  ⟨fun _ _ _ _ _ _ _ hrun => Executor.maps_of_among he hrun,
    fun _ _ _ _ => Executor.maps_of_run he,
    fun ops name => ⟨Executor.mapsItemwise ans ops name he,
      fun _ _ _ _ => Executor.ItemStart.run_of_world he⟩⟩

/-- Maps the items of every item. -/
def Op.mapEach (inputKey : String) : Op :=
  .map inputKey "item" [.map "item" "x" [.format "\x7b\x7bx\x7d\x7d"]]

/-- A context with some arrays, and something under the reserved name. -/
def Bindings.ofArrays : Bindings := .ofList [
  ("_output", .nat 7),
  ("xs", .array [.array [.nat 1], .nat 2, .array []]),
  ("ys", .array [.array [.nat 1]]),
  ("zs", .array [.array [], .array [.nat 3]]),
  ("all", .array [.array [.nat 1], .array [], .array [.nat 3]])]

def World.ofArrays : World := { contexts := (Store.empty.create .ofArrays).2 }

/-- The run of `map` over one of the arrays. -/
def mapEachRun (inputKey : String) : Flow Value :=
  Executor.map (Engine.rehearsing.dispatcher 9) (.mapEach inputKey) ⟨0⟩

/-- Of three items the second is no array: the first has run, the second ends the whole, and the
third is not started. And two arrays are mapped one after the other. -/
theorem Engine.maps_in_copies_of_arrays :
    let d := Engine.rehearsing.dispatcher 9
    let ans : Query → Value := fun _ => .null
    Engine.rehearsing.Contained ∧
    Executor.Maps d ans (.mapEach "xs") .ofArrays
      (Executor.StartedAmong d ans (.mapEach "xs") ⟨0⟩ .silent (.fresh .ofArrays))
      ((mapEachRun "xs").alone .silent (.fresh .ofArrays)).1
      ((mapEachRun "xs").alone .silent (.fresh .ofArrays)).2.deeds ∧
    (Executor.Maps d ans (.mapEach "xs") .ofArrays (fun _ _ starts => ∀ s ∈ starts,
        s.bindings = .ofArrays) ((mapEachRun "xs").run {} .ofArrays).1
        (World.ofArrays.deeds {} ((mapEachRun "xs").trace {} .ofArrays)).reverse ∧
      ∃ fault, ((mapEachRun "xs").run {} .ofArrays).1 = .ended (.error fault)) ∧
    ((mapEachRun "all").run {} .ofArrays).1 =
      .ended (.ok (.array ([.array [.string "1"]] ++ [.array [], .array [.string "3"]]))) := by
  intro d ans
  have hcontained := Engine.rehearsing_contained
  obtain ⟨hamong, hworld, hlaws⟩ := Engine.maps_in_copies hcontained 9 ans
  have hvalid : World.ofArrays.contexts.Valid ⟨0⟩ := by decide
  refine ⟨hcontained, ?_, ⟨?_, ?_⟩, ?_⟩
  · refine hamong (.mapEach "xs") ⟨0⟩ .silent (.fresh .ofArrays) _ _ _
      (Flow.among_alone .silent rfl) (List.append_nil _).symm ?_
    decide +kernel
  · exact hworld (.mapEach "xs") ⟨0⟩ {} .ofArrays hvalid (by decide +kernel)
  · exact ⟨_, rfl⟩
  · let inner : List Op := [.map "item" "x" [.format "\x7b\x7bx\x7d\x7d"]]
    have hys : Executor.Mapping d ans inner "item" .ofArrays [.array [.nat 1]]
        (.ended (.ok (.array [.array [.string "1"]]))) :=
      .of_result? {} .ofArrays (.mapEach "ys") hvalid rfl (by decide +kernel) (by decide +kernel)
    have hzs : Executor.Mapping d ans inner "item" .ofArrays [.array [], .array [.nat 3]]
        (.ended (.ok (.array [.array [], .array [.string "3"]]))) :=
      .of_result? {} .ofArrays (.mapEach "zs") hvalid rfl (by decide +kernel) (by decide +kernel)
    have hall : Executor.Mapping d ans inner "item" .ofArrays
        ([.array [.nat 1]] ++ [.array [], .array [.nat 3]])
        ((mapEachRun "all").run {} .ofArrays).1 :=
      .run {} .ofArrays (.mapEach "all") ⟨0⟩ hvalid rfl rfl (by decide +kernel)
    exact (hlaws inner "item").1.append (fun _ => rfl) (fun _ => rfl) hys hzs hall

end WorkflowEngine
