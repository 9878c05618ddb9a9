import WorkflowEngine.Proofs.Address
import WorkflowEngine.Proofs.Course
import WorkflowEngine.Proofs.Library

/-!
# What is bound can be read back

An op binds its result under a name, and `map` binds each item; later ops are given the name as a
path. Here it is shown that they find what has been bound.

**Honest traces.** In a trace a look into a context may be answered with anything.
`World.Becomes` says that it is answered as in a world, which others may change at pauses.

**Looks.** An op that works on an input looks into its context before it does anything else
(`Flow.Looks`). So between the completion of an op and the first look of the next one in the list
nothing can have been changed.

**Names.** Names are bound as they are, and paths are cut at dots. So what is bound under a name
with a dot is found by no path, and the theorem (`Engine.reads_what_is_bound`) is about names
without one.
-/

namespace WorkflowEngine

/-! ## Answers of a world -/

/-- The mark changes, or may change, what the name is bound to in the context. -/
def Mark.Writes (h : Handle) (name : String) : Mark → Prop
  | .did (.bind k key _) _ => k = h ∧ key = name
  | .did (.unbind k key) _ => k = h ∧ key = name
  | _ => False

namespace World

/-- What others may do meanwhile: contexts stay, and so does what some names are bound to. -/
structure Others (kept : Handle → String → Prop) (w w' : World) : Prop where
  valid : ∀ h, w.contexts.Valid h → w'.contexts.Valid h
  same : ∀ h name, kept h name →
    (w'.contexts.view h).get? name = (w.contexts.view h).get? name

/-- The first world becomes the second while the trace is left: every action is answered as the
world has it, and at pauses others are at work. -/
inductive Becomes (env : Environment) (kept : Handle → String → Prop) :
    World → List Mark → World → Prop
  | refl (w : World) : Becomes env kept w [] w
  | did {w w' : World} {a : Action} {t : List Mark} : Becomes env kept (w.perform env a).2 t w' →
      Becomes env kept w (.did a (w.perform env a).1 :: t) w'
  | paused {w v w' : World} {t : List Mark} : Others kept w v → Becomes env kept v t w' →
      Becomes env kept w (.paused :: t) w'

variable {env : Environment} {kept : Handle → String → Prop} {w w' : World} {t u : List Mark}
  {h : Handle} {name : String}

theorem becomes_run {α : Type} (f : Flow α) (w : World) :
    Becomes env kept w (f.trace env w) (f.run env w).2 := by
  induction f generalizing w with
  | done r => exact .refl w
  | starved => exact .refl w
  | pause rest ih => exact .paused ⟨fun _ => id, fun _ _ _ => rfl⟩ (ih () w)
  | act a next ih => exact .did (ih _ _)

theorem Becomes.append {v : World} (h : Becomes env kept w t v) (h' : Becomes env kept v u w') :
    Becomes env kept w (t ++ u) w' := by
  induction h with
  | refl => exact h'
  | did _ ih => exact .did (ih h')
  | paused hothers _ ih => exact .paused hothers (ih h')

theorem Becomes.split (hbecomes : Becomes env kept w (t ++ u) w') :
    ∃ v, Becomes env kept w t v ∧ Becomes env kept v u w' := by
  induction t generalizing w with
  | nil => exact ⟨w, .refl w, hbecomes⟩
  | cons m t ih =>
    cases hbecomes with
    | did hbecomes =>
      obtain ⟨v, hv, hrest⟩ := ih hbecomes
      exact ⟨v, .did hv, hrest⟩
    | paused hothers hbecomes =>
      obtain ⟨v, hv, hrest⟩ := ih hbecomes
      exact ⟨v, .paused hothers hv, hrest⟩

theorem Becomes.view_eq {b : Bindings} (hbecomes : Becomes env kept w (.did (.view h) b :: t) w') :
    b = w.contexts.view h := by
  cases hbecomes
  rfl

theorem Becomes.tail {a : Action} {x : a.Answer}
    (hbecomes : Becomes env kept w (.did a x :: t) w') :
    ∃ v, Becomes env kept v t w' := by
  cases hbecomes with
  | did hrest => exact ⟨_, hrest⟩

theorem Becomes.of_create {b : Bindings}
    (hbecomes : Becomes env kept w (.did (.create b) h :: t) w') :
    ∃ v : World, v.contexts.Valid h ∧ v.contexts.view h = b ∧ Becomes env kept v t w' := by
  cases hbecomes with
  | did hrest => exact ⟨_, Store.valid_create.2 (.inr rfl), Store.view_create_self .., hrest⟩

theorem valid_perform (a : Action) (hh : w.contexts.Valid h) :
    (w.perform env a).2.contexts.Valid h := by
  cases a with
  | bind _ _ _ | unbind _ _ => exact Store.valid_update.2 hh
  | create b => exact Store.valid_create.2 (.inl hh)
  | _ => exact hh

theorem Becomes.valid (hbecomes : Becomes env kept w t w') (hh : w.contexts.Valid h) :
    w'.contexts.Valid h := by
  induction hbecomes with
  | refl => exact hh
  | did _ ih => exact ih (valid_perform _ hh)
  | paused hothers _ ih => exact ih (hothers.valid h hh)

/-- Without a pause the answers do not matter. -/
theorem Becomes.eq_replay (hbecomes : Becomes env kept w t w') (ht : .paused ∉ t) :
    w' = w.replay env t := by
  induction hbecomes with
  | refl => rfl
  | did _ ih => exact ih fun h => ht (List.mem_cons_of_mem _ h)
  | paused => exact absurd (List.mem_cons_self ..) ht

/-- A name stays bound as it is by all actions but those that write it. -/
theorem get?_perform {a : Action} {x : a.Answer} (ha : ¬(Mark.did a x).Writes h name)
    (hh : w.contexts.Valid h) : ((w.perform env a).2.contexts.view h).get? name =
      (w.contexts.view h).get? name := by
  have hupdate : ∀ {k : Handle} {f : Bindings → Bindings},
      (k = h → (f (w.contexts.view h)).get? name = (w.contexts.view h).get? name) →
      ((w.contexts.update k f).view h).get? name = (w.contexts.view h).get? name := by
    intro k f hf
    by_cases hk : k = h
    · subst hk
      rw [Store.view_update_self hh, hf rfl]
    · rw [Store.view_update_of_ne (Ne.symm hk)]
  cases a with
  | bind k key v =>
    refine hupdate fun hk => Record.get?_insert_of_ne fun hkey => ha ⟨hk, hkey.symm⟩
  | unbind k key =>
    refine hupdate fun hk => ?_
    rw [Record.get?_erase, if_neg fun hkey => ha ⟨hk, hkey.symm⟩]
  | create b => exact congrArg (Record.get? · name) (Store.view_create_of_valid hh b)
  | _ => rfl

/-- So it stays bound as it is, if others keep off, or have no opportunity. -/
theorem Becomes.get?_eq (hbecomes : Becomes env kept w t w') (hh : w.contexts.Valid h)
    (ht : ∀ m ∈ t, ¬m.Writes h name) (hkept : kept h name ∨ .paused ∉ t) :
    (w'.contexts.view h).get? name = (w.contexts.view h).get? name := by
  induction hbecomes with
  | refl => rfl
  | @did w w' a t _ ih =>
    refine (ih (valid_perform a hh) (fun m hm => ht m (List.mem_cons_of_mem _ hm))
      (hkept.imp_right fun hp hmem => hp (List.mem_cons_of_mem _ hmem))).trans ?_
    exact get?_perform (ht _ (List.mem_cons_self ..)) hh
  | @paused w v w' t hothers _ ih =>
    have hkept := hkept.resolve_right fun hp => hp (List.mem_cons_self ..)
    exact (ih (hothers.valid h hh) (fun m hm => ht m (List.mem_cons_of_mem _ hm))
      (.inl hkept)).trans (hothers.same h name hkept)

end World

/-- After an honest trace, what it leaves bound is bound. -/
theorem LeavesBound.get?_eq {env : Environment} {kept : Handle → String → Prop} {w w' : World}
    {t : List Mark} {p : Handle} {name : String} {v : Value} (h : LeavesBound t p name v)
    (hbecomes : World.Becomes env kept w t w') (hp : w.contexts.Valid p) :
    (w'.contexts.view p).get? name = some v := by
  obtain ⟨before, after, rfl, hpaused, hbound⟩ := h
  obtain ⟨w₁, hbefore, hafter⟩ := hbecomes.split
  rw [hafter.eq_replay hpaused]
  exact hbound env w₁ (hbefore.valid hp)

/-! ## First looks -/

/-- Neither a look into a context nor a write. -/
def Action.IsMute : Action → Prop
  | .view _ | .bind _ _ _ | .unbind _ _ => False
  | _ => True

/-- A look into a context. -/
def Mark.IsLook : Mark → Prop
  | .did (.view _) _ => True
  | _ => False

/-- Neither a look, nor a write, nor a pause. -/
def Mark.IsMute : Mark → Prop
  | .did a _ => a.IsMute
  | .paused => False

theorem Mark.IsMute.not_isLook {m : Mark} (hm : m.IsMute) : ¬m.IsLook := by
  cases m with
  | paused => exact hm.elim
  | did a x => cases a <;> first | exact hm.elim | exact id

theorem Mark.IsMute.not_writes {m : Mark} (hm : m.IsMute) (h : Handle) (name : String) :
    ¬m.Writes h name := by
  cases m with
  | paused => exact hm.elim
  | did a x => cases a <;> first | exact hm.elim | exact id

namespace Flow

variable {α β : Type} {p : Handle} {R : α → Prop} {S : β → Prop} {f : Flow α} {k : α → Flow β}

/-- The first look of the flow is at this context, and before it the flow neither pauses nor writes.
Without a look it has only such results. -/
def Looks (p : Handle) (R : α → Prop) : Flow α → Prop
  | .done (.ok a) => R a
  | .done (.error _) => True
  | .starved => True
  | .pause _ => False
  | .act a next => a = .view p ∨ a.IsMute ∧ ∀ x, (next x).Looks p R

theorem Looks.bind (h : f.Looks p R) (hk : ∀ a, R a → (k a).Looks p S) :
    (f.bind k).Looks p S := by
  induction f with
  | done r =>
    cases r with
    | ok a => exact hk a h
    | error e => trivial
  | starved => trivial
  | pause rest ih => exact h.elim
  | act a next ih => exact h.imp_right fun ⟨ha, hnext⟩ => ⟨ha, fun x => ih x (hnext x)⟩

/-- Once it has looked, it does not matter how the flow goes on. -/
theorem Looks.then (h : f.Looks p fun _ => False) : (f.bind k).Looks p S :=
  h.bind fun _ => False.elim

theorem Looks.attempt (h : f.Looks p R) :
    f.attempt.Looks p fun r => (∃ e, r = .error e) ∨ ∃ a, r = .ok a ∧ R a := by
  induction f with
  | done r =>
    cases r with
    | ok a => exact .inr ⟨a, rfl, h⟩
    | error e => exact .inl ⟨e, rfl⟩
  | starved => trivial
  | pause rest ih => exact h.elim
  | act a next ih => exact h.imp_right fun ⟨ha, hnext⟩ => ⟨ha, fun x => ih x (hnext x)⟩

theorem looks_view (p : Handle) : (Flow.view p).Looks p fun _ => False := .inl rfl

theorem looks_fail (e : Fault) : (Flow.fail e).Looks p R := .inr ⟨trivial, fun _ => trivial⟩

theorem looks_check : Flow.check.Looks p fun _ => True := by
  refine .inr ⟨trivial, fun stop => ?_⟩
  cases stop with
  | true => exact looks_fail .cancelled
  | false => trivial

theorem looks_announce (stage : Stage) (op : Op) (context : Handle) :
    (Flow.announce stage op context).Looks p fun _ => True := .inr ⟨trivial, fun _ => trivial⟩

/-- Up to its first look a flow leaves mute marks. -/
theorem Looks.goes {g : Flow α} {front back : List Mark} {h : Handle} {b : Bindings}
    (hf : f.Looks p R) (hgoes : f.Goes (front ++ .did (.view h) b :: back) g)
    (hfront : ∀ m ∈ front, ¬m.IsLook) : h = p ∧ ∀ m ∈ front, m.IsMute := by
  induction front generalizing f with
  | nil =>
    cases hgoes with
    | act x _ =>
      rcases hf with heq | ⟨hmute, -⟩
      · cases heq
        exact ⟨rfl, by simp⟩
      · exact hmute.elim
  | cons m front ih =>
    cases hgoes with
    | pause _ => exact hf.elim
    | act x hgoes =>
      obtain ⟨hm, hrest⟩ := List.forall_mem_cons.1 hfront
      rcases hf with heq | ⟨hmute, hnext⟩
      · subst heq
        exact absurd trivial hm
      · obtain ⟨hh, hmutes⟩ := ih (hnext x) hgoes hrest
        exact ⟨hh, List.forall_mem_cons.2 ⟨hmute, hmutes⟩⟩

theorem Looks.has_looked {t : List Mark} {a : α} (hf : f.Looks p R)
    (hgoes : f.Goes t (.done (.ok a))) (ha : ¬R a) :
    ∃ front b back, t = front ++ .did (.view p) b :: back ∧ ∀ m ∈ front, m.IsMute := by
  induction f generalizing t with
  | done r =>
    cases hgoes
    exact absurd hf ha
  | starved => cases hgoes
  | pause rest ih => exact hf.elim
  | act action next ih =>
    cases hgoes with
    | act x hgoes =>
      rcases hf with heq | ⟨hmute, hnext⟩
      · subst heq
        exact ⟨[], x, _, rfl, by simp⟩
      · obtain ⟨front, b, back, rfl, hfront⟩ := ih x (hnext x) hgoes
        exact ⟨_ :: front, b, back, rfl, List.forall_mem_cons.2 ⟨hmute, hfront⟩⟩

end Flow

/-! ## Ops that take an input -/

/-- The executor looks into its context, and of what it has seen it works on its input alone: the
items of the array at `inputKey`, those that `join` joins, or the text that is read. -/
inductive Executor.WorksOnInput (x : Executor) : Prop
  | items (work : Dispatcher → Op → Handle → Except Fault (List Value) → Flow Value) :
      (∀ d op p, x d op p = (Flow.view p).bind fun b => work d op p (inputArray op b)) →
      WorksOnInput x
  | joined (work : Op → Except Fault (List Value) → Flow Value) :
      (∀ d op p, x d op p = (Flow.view p).bind fun b => work op (joinItems op b)) → WorksOnInput x
  | text (work : Op → Except Fault String → Flow Value) :
      (∀ d op p, x d op p = (Flow.view p).bind fun b => work op (inputText op b)) → WorksOnInput x

namespace Executor

theorem map_worksOnInput : map.WorksOnInput :=
  .items (fun d op p input => do
    let items ← input
    let name ← op.textParam "itemVariable"
    let ops ← op.innerOps
    return .array (← mapItems d ops (name.getD "item") p [] items)) fun _ _ _ => rfl

theorem join_worksOnInput : join.WorksOnInput :=
  .joined (fun op input => Flow.ofExcept do
    let separator ← op.textParam "separator"
    let items ← input
    return .string (Value.join items (separator.getD ""))) fun _ _ _ => rfl

theorem extractJson_worksOnInput : extractJson.WorksOnInput :=
  .text (fun _ input => Flow.ofExcept do return .array (Json.fragments (← input))) fun _ _ _ => rfl

theorem parseJson_worksOnInput : parseJson.WorksOnInput :=
  .text (fun _ input => Flow.ofExcept do
    let text ← input
    (Json.parse (Text.trim text.toList)).mapError Fault.json) fun _ _ _ => rfl

end Executor

/-- The op is a loop that has something to repeat, or it works on an input. -/
def Op.TakesInput (e : Engine) (op : Op) : Prop :=
  if (LoopMode.ofKind? op.kind).isSome then op.innerOps ≠ .ok []
  else ∀ x, e.registry.get? op.kind = some x → x.WorksOnInput

/-- What comes next is such an op, or, at the end of the body of a loop, its condition. -/
def Frame.TakesInput (e : Engine) (f : Frame) : Prop :=
  match f.rest with
  | op :: _ => op.TakesInput e
  | [] => f.loop ≠ none

/-- The kinds whose ops work on what is at their `inputKey`. -/
def Op.inputKinds : List String := ["map", "join", "extractJson", "parseJSON"]

theorem Registry.worksOnInput_of_mem (model : Option LanguageModel) (client : Http.Client)
    {kind : String} (h : kind ∈ Op.inputKinds) :
    ∃ x, (builtin model client).get? kind = some x ∧ x.WorksOnInput := by
  simp only [Op.inputKinds, List.mem_cons, List.not_mem_nil, or_false] at h
  rcases h with rfl | rfl | rfl | rfl
  · exact ⟨_, get?_builtin_iff.2 .map, Executor.map_worksOnInput⟩
  · exact ⟨_, get?_builtin_iff.2 .join, Executor.join_worksOnInput⟩
  · exact ⟨_, get?_builtin_iff.2 .extractJson, Executor.extractJson_worksOnInput⟩
  · exact ⟨_, get?_builtin_iff.2 .parseJson, Executor.parseJson_worksOnInput⟩

/-- Where these kinds mean what they mean in this library, their ops take an input. -/
theorem Op.takesInput_of_mem {e : Engine} {op : Op} {model : Option LanguageModel}
    {client : Http.Client} (h : op.kind ∈ inputKinds)
    (hbuiltin : e.registry.get? op.kind = (Registry.builtin model client).get? op.kind) :
    op.TakesInput e ∧ ∃ x, e.registry.get? op.kind = some x ∧ x.WorksOnInput := by
  have hkinds : ∀ kind ∈ inputKinds, LoopMode.ofKind? kind = none := by decide
  obtain ⟨x, hx, hworks⟩ := Registry.worksOnInput_of_mem model client h
  rw [← hbuiltin] at hx
  refine ⟨?_, x, hx, hworks⟩
  rw [TakesInput, hkinds _ h]
  intro y hy
  cases hx.symm.trans hy
  exact hworks

namespace Engine

variable {e : Engine} {op : Op} {p : Handle}

theorem exec_looks (hkind : LoopMode.ofKind? op.kind = none) (hop : op.TakesInput e) (n : Nat)
    (p : Handle) : (e.exec n op p).Looks p fun _ => False := by
  cases n with
  | zero => trivial
  | succ n =>
    rw [exec]
    refine (Flow.looks_announce .opPre op p).bind fun _ _ => ?_
    rw [Op.TakesInput, hkind] at hop
    cases hx : e.registry.get? op.kind with
    | none => exact Flow.looks_fail _
    | some x =>
      have hlooks : (x ⟨e.config, n, e.exec n⟩ op p).Looks p fun _ => False := by
        cases hop x hx with
        | items _ hx | joined _ hx | text _ hx => exact hx _ op p ▸ (Flow.looks_view p).then
      exact hlooks.then

end Engine

namespace Runner

variable {e : Engine} {r : Runner} {f : Frame} {outer : List Frame}

theorem move_looks (n : Nat) (hframes : r.frames = f :: outer) (hf : f.TakesInput e) :
    (move (e.dispatcher n) r).Looks r.context fun _ => False := by
  obtain ⟨body, rest, loop⟩ := f
  cases rest with
  | nil =>
    obtain ⟨l, rfl⟩ := Option.ne_none_iff_exists'.1 hf
    rw [move_again _ r hframes]
    exact (Flow.looks_view r.context).then
  | cons op rest =>
    have hop : op.TakesInput e := hf
    cases hkind : LoopMode.ofKind? op.kind with
    | none =>
      rw [move_plain _ r hframes hkind]
      exact Flow.looks_check.bind fun _ _ => (Engine.exec_looks hkind hop n r.context).then
    | some mode =>
      cases hloop : Loop.ofOp (e.dispatcher n).config mode op with
      | error err =>
        rw [move_misread _ r hframes hkind hloop]
        exact Flow.looks_check.bind fun _ _ => Flow.looks_fail err
      | ok parts =>
        obtain ⟨l, inner⟩ := parts
        obtain ⟨own, condition, hinner, -⟩ := Loop.of_ofOp hloop
        have hne : inner ≠ [] := by
          rintro rfl
          rw [Op.TakesInput, hkind] at hop
          exact hop hinner
        rw [move_enter _ r hframes hkind hloop hne]
        exact Flow.looks_check.bind fun _ _ => (Flow.looks_view r.context).then

/-- Nothing but a step. -/
def NoStep (x : Option (Except Fault Step) × Runner) : Prop := ∀ step r', x ≠ (some (.ok step), r')

/-- **The first look of a call** is that of the op which comes next. -/
theorem next_looks (n k : Nat) (hframes : r.frames = f :: outer) (hf : f.TakesInput e) :
    (next (e.dispatcher n) k r).Looks r.context NoStep := by
  have hrunning : ∀ r : Runner, r.phase = .running → r.frames = f :: outer →
      (next (e.dispatcher n) k r).Looks r.context NoStep := by
    intro r hphase hframes
    have hadvance : (advance (e.dispatcher n) k r).Looks r.context fun _ => False := by
      cases k with
      | zero => trivial
      | succ k =>
        rw [advance_succ]
        exact (move_looks n hframes hf).then
    rw [next_of_running hphase]
    refine hadvance.attempt.bind fun x hx => ?_
    obtain ⟨err, rfl⟩ | ⟨_, -, hnever⟩ := hx
    · intro step r' heq
      cases heq
    · exact hnever.elim
  cases hphase : r.phase with
  | running => exact hrunning r hphase hframes
  | finished =>
    rw [next_of_finished hphase]
    intro step r' heq
    cases heq
  | pending =>
    rw [next_of_pending hphase]
    have hannounce : (r.announce .workflowStart).Looks r.context fun _ => True := by
      rw [announce]
      split
      · exact Flow.looks_announce .workflowStart .noop r.context
      · trivial
    exact hannounce.bind fun _ _ => hrunning { r with phase := .running } rfl hframes

end Runner

/-! ## What is found under a name -/

/-- What an op takes from `inputKey` that works on the items of an array. -/
def Executor.itemsOf (op : Op) (path : String) (v : Value) : Except Fault (List Value) :=
  match v with
  | .array items => .ok items
  | v => .error (op.invalid "inputKey" (.holdsNoArray path v))

/-- With these bindings, ops that are given the name work on the value: the items of `map` and of
`join` are its items, the text of `extractJson` and `parseJSON` is its text, and as a condition it
is as true as the value. -/
structure Bindings.Serves (b : Bindings) (name : String) (v : Value) : Prop where
  value : b.lookup name = some v
  items : ∀ op : Op, op.textParam "inputKey" = .ok (some name) →
    Executor.inputArray op b = Executor.itemsOf op name v
  joined : ∀ op : Op, op.textParam "inputKey" = .ok (some name) →
    Executor.joinItems op b = Executor.itemsOf op name v
  text : ∀ op : Op, op.textParam "inputKey" = .ok (some name) →
    Executor.inputText op b = .ok v.plain
  condition : ∀ l : Loop, l.condition = name → l.calls b = l.mode.callsFor v.truthy

namespace Bindings

variable {b : Bindings} {name : String} {v : Value}

theorem serves_of_lookup (h : b.lookup name = some v) : b.Serves name v := by
  have hitems : ∀ op : Op, op.textParam "inputKey" = .ok (some name) →
      Executor.inputArray op b = Executor.itemsOf op name v := by
    intro op hop
    simp only [Executor.inputArray, Op.requireText, hop, bind, Except.bind, pure, Except.pure, h,
      Executor.itemsOf]
    cases v <;> rfl
  refine ⟨h, hitems, fun op hop => ?_, fun op hop => Executor.inputText_of_lookup hop h, ?_⟩
  · rw [← hitems op hop, Executor.joinItems]
    cases hkey : op.param? "inputKey" with
    | some key => rfl
    | none =>
      rw [Op.textParam, hkey] at hop
      cases hop
  · rintro l rfl
    rw [Loop.calls, isTruthy, h]
    rfl

theorem serves_of_get? (hdot : '.' ∉ name.toList) (h : b.get? name = some v) : b.Serves name v :=
  serves_of_lookup ((b.lookup_of_dotless hdot).trans h)

/-- **What is bound under a name with a dot is found by no path.** -/
theorem lookup_insert_of_dotted (b : Bindings) {name : String} (hdot : '.' ∈ name.toList)
    (v : Value) (path : String) : lookup (b.insert name v) path = b.lookup path := by
  obtain ⟨first, rest, hsegments⟩ := Path.exists_segments path
  have hfirst : '.' ∉ first.toList :=
    Path.not_mem_of_mem_segments (hsegments ▸ List.mem_cons_self ..)
  have hne : first ≠ name := by
    rintro rfl
    exact hfirst hdot
  rw [lookup, lookup, hsegments]
  dsimp only
  rw [Record.get?_insert_of_ne hne]

end Bindings

/-! ## The theorem -/

/-- A runner has executed an op in a call. In the next call, for which this frame is innermost,
there has been a first look into a context. All this has left the trace. -/
def Runner.LooksNext (d : Dispatcher) (r : Runner) (step : Step) (f : Frame) (t : List Mark)
    (h : Handle) (b : Bindings) : Prop :=
  ∃ m k r' outer before front g,
    (next d m r).Goes before (.done (.ok (some (.ok step), r'))) ∧ r'.frames = f :: outer ∧
    (next d k r').Goes (front ++ [.did (.view h) b]) g ∧ (∀ m ∈ front, ¬m.IsLook) ∧
    t = before ++ (front ++ [.did (.view h) b])

/-- `map` has come to an item. It has made a context for it, and while the inner ops have run there
has been a look into that context. Since it has been made, nobody has written the item's name. All
this has left the trace. -/
def Executor.LooksAtItem (d : Dispatcher) (op : Op) (p : Handle) (name : String) (item : Value)
    (t : List Mark) (h : Handle) (b : Bindings) : Prop :=
  ∃ var ops results items k before stop seen copied front g,
    op.textParam "itemVariable" = .ok var ∧ var.getD "item" = name ∧ op.innerOps = .ok ops ∧
    (map d op p).Goes before ((mapItems d ops name p results (item :: items)).bind k) ∧
    (mapItems d ops name p results (item :: items)).Goes (.did .poll stop ::
      .did (.view p) seen :: .did (.create copied) h :: (front ++ [.did (.view h) b])) g ∧
    (∀ m ∈ front, ¬m.Writes h name) ∧
    t = before ++ (.did .poll stop :: .did (.view p) seen :: .did (.create copied) h ::
      (front ++ [.did (.view h) b]))

theorem Runner.context_of_next {d : Dispatcher} {m : Nat} {r r' : Runner} {t : List Mark}
    {item : Except Fault Step} (h : (next d m r).Goes t (.done (.ok (some item, r')))) :
    r'.context = r.context ∨ r'.phase = .finished := by
  have hrunning : ∀ (r : Runner) (t : List Mark), r.phase = .running →
      (next d m r).Goes t (.done (.ok (some item, r'))) →
      r'.context = r.context ∨ r'.phase = .finished := by
    intro r t hphase h
    exact ((next_course m hphase h).2 item r' rfl).imp_left Comes.context_eq
  cases hphase : r.phase with
  | finished =>
    rw [next_of_finished hphase] at h
    cases h
  | running => exact hrunning r t hphase h
  | pending =>
    rw [next_of_pending hphase] at h
    obtain ⟨before, after, _, rfl, -, h⟩ := h.of_bind
    exact hrunning { r with phase := .running } after rfl h

variable {e : Engine} {n : Nat} {env : Environment} {kept : Handle → String → Prop} {w w' : World}
  {t : List Mark} {h : Handle} {b : Bindings} {name : String}

/-- **The next op works on the result.** -/
theorem Runner.serves_of_looksNext {r : Runner} {step : Step} {f : Frame}
    (hlooks : LooksNext (e.dispatcher n) r step f t h b) (hf : f.TakesInput e)
    (hname : step.op.outputBinding = some name) (hdot : '.' ∉ name.toList)
    (hvalid : w.contexts.Valid r.context) (hbecomes : World.Becomes env kept w t w') :
    h = r.context ∧ b.Serves name step.result := by
  obtain ⟨m, k, r', outer, before, front, g, hstep, hframes, hnext, hfront, rfl⟩ := hlooks
  obtain ⟨w₁, hbefore, hrest⟩ := hbecomes.split
  obtain ⟨w₂, hmid, hlook⟩ := hrest.split
  -- the op has been completed in the context of the runner
  obtain ⟨u, after, rfl, hleg⟩ := next_leg hstep
  have hcontext : step.context = r.context := (hleg.good_of_mem _ (List.mem_singleton_self _)).2
  have hbound : LeavesBound (u ++ after) r.context name step.result := by
    have hlast := (hleg.leavesBound rfl (.inr hname)).prepend u
    rwa [hcontext] at hlast
  have hget := hbound.get?_eq hbefore hvalid
  rcases context_of_next hstep with hsame | hfinished
  · obtain ⟨rfl, hmute⟩ := (next_looks n k hframes hf).goes hnext hfront
    rw [hsame] at hlook ⊢
    have hquiet : (w₂.contexts.view r.context).get? name =
        (w₁.contexts.view r.context).get? name := by
      refine hmid.get?_eq (hbefore.valid hvalid) (fun m hm => (hmute m hm).not_writes _ _) (.inr ?_)
      exact hmute .paused
    refine ⟨rfl, Bindings.serves_of_get? hdot ?_⟩
    rw [hlook.view_eq, hquiet, hget]
  · rw [next_of_finished hfinished] at hnext
    have hnil := hnext.of_done.1
    simp at hnil

/-- **The ops of `map` work on the item.** -/
theorem Executor.serves_of_looksAtItem {op : Op} {p : Handle} {item : Value}
    (hlooks : LooksAtItem (e.dispatcher n) op p name item t h b) (hdot : '.' ∉ name.toList)
    (hreserved : name ≠ Bindings.outputKey) (hkept : kept h name)
    (hbecomes : World.Becomes env kept w t w') : b.Serves name item := by
  obtain ⟨_, ops, results, items, _, _, stop, seen, copied, front, g, -, -, -, -, hgoes, hfront,
    rfl⟩ := hlooks
  obtain ⟨_, -, hbecomes⟩ := hbecomes.split
  -- the context of the item is made of its bindings
  have hcopied : copied = itemBindings seen name item := by
    rw [mapItems_cons] at hgoes
    cases hgoes with
    | act _ hgoes =>
      cases stop with
      | true => cases hgoes
      | false =>
        cases hgoes with
        | act _ hgoes =>
          cases hgoes
          rfl
  have hitem : copied.get? name = some item := by
    rw [hcopied, itemBindings, Record.get?_erase, if_neg hreserved, Record.get?_insert_self]
  -- and then nobody writes the name
  obtain ⟨_, hseen⟩ := hbecomes.tail
  obtain ⟨_, hcreate⟩ := hseen.tail
  obtain ⟨w₁, hvalid, hview, hrest⟩ := hcreate.of_create
  obtain ⟨w₂, hmid, hlook⟩ := hrest.split
  refine Bindings.serves_of_get? hdot ?_
  rw [hlook.view_eq, hmid.get?_eq hvalid hfront (.inl hkept), hview, hitem]

/-- **What is bound is read back.** In a trace that is answered as in a world, whatever others do at
pauses:

* after an op whose result has been bound under a name without a dot, the next op of the list, or
  the condition of the loop at the end of its body, first looks into the context of the op and finds
  the result under the name; no step is made without that look;
* the inner ops of `map` find the item under the name that it is bound to, if the name has no dot
  and is not the reserved one, as long as it is not written again.

The built-in ops that are given an `inputKey` are such next ops, and what they find is all that they
work on. Under a name with a dot nothing is found, and an item with the reserved name is not bound
at all. -/
theorem Engine.reads_what_is_bound (e : Engine) (n : Nat) {env : Environment}
    {kept : Handle → String → Prop} {w w' : World} {t : List Mark}
    (hbecomes : World.Becomes env kept w t w') :
    (∀ r step f h b name, Runner.LooksNext (e.dispatcher n) r step f t h b → f.TakesInput e →
      step.op.outputBinding = some name → '.' ∉ name.toList → w.contexts.Valid r.context →
      h = r.context ∧ b.Serves name step.result) ∧
    (∀ k r f outer u step r', r.frames = f :: outer → f.TakesInput e →
      (Runner.next (e.dispatcher n) k r).Goes u (.done (.ok (some (.ok step), r'))) →
      ∃ front b back, u = front ++ .did (.view r.context) b :: back ∧ ∀ m ∈ front, m.IsMute) ∧
    (∀ op p name item h b, Executor.LooksAtItem (e.dispatcher n) op p name item t h b →
      '.' ∉ name.toList → name ≠ Bindings.outputKey → kept h name → b.Serves name item) ∧
    (∀ model client (op : Op), op.kind ∈ Op.inputKinds →
      e.registry.get? op.kind = (Registry.builtin model client).get? op.kind →
      op.TakesInput e ∧ ∃ x, e.registry.get? op.kind = some x ∧ x.WorksOnInput) ∧
    (∀ (b : Bindings) name v path, '.' ∈ name.toList →
      Bindings.lookup (b.insert name v) path = b.lookup path) ∧
    ∀ b item, Executor.itemBindings b Bindings.outputKey item = b.erase Bindings.outputKey := by
  refine ⟨fun r step f h b name hlooks hf hname hdot hvalid => ?_,
    fun k r f outer u step r' hframes hf hgoes => ?_,
    fun op p name item h b hlooks hdot hreserved hkept => ?_,
    fun model client op hop hbuiltin => Op.takesInput_of_mem hop hbuiltin,
    fun b name v path hdot => b.lookup_insert_of_dotted hdot v path, fun b item => ?_⟩
  · exact Runner.serves_of_looksNext hlooks hf hname hdot hvalid hbecomes
  · exact (Runner.next_looks n k hframes hf).has_looked hgoes fun hno => hno step r' rfl
  · exact Executor.serves_of_looksAtItem hlooks hdot hreserved hkept hbecomes
  · refine Record.ext_get? fun key => ?_
    by_cases hkey : key = Bindings.outputKey <;>
      simp [Executor.itemBindings, Record.get?_erase, Record.get?_insert, hkey]

/-! ## Two runs -/

/-- An array is bound to the name, and then the array with that name is joined. -/
def Op.bindThenJoin (name : String) : List Op :=
  [(Op.set (.array [.string "x", .string "y"])).output name, Op.join name "-"]

/-- JSON is read from the text with the name. -/
def Op.extractFrom (name : String) : Op :=
  (Op.new "extractJson").withParam "inputKey" (.string name)

/-- JSON is read from each text of a list. -/
def Op.extractFromEach (name : String) : Op := Op.map "texts" name [Op.extractFrom name]

/-- Bindings of a list with one text. -/
def Bindings.ofText : Bindings := .ofList [("texts", .array [.string "p"])]

/-- A world with one context. -/
def World.withContext (b : Bindings) : World := { contexts := (Store.empty.create b).2 }

/-- The array has been bound. -/
def boundStep : Step where
  index := 0
  op := (Op.set (.array [.string "x", .string "y"])).output "list"
  result := .array [.string "x", .string "y"]
  context := ⟨0⟩

/-- The array is to be joined. -/
def aboutToJoin : Frame := ⟨Op.bindThenJoin "list", [Op.join "list" "-"], none⟩

/-- The run between the two ops. -/
def boundRunner : Runner where
  topLevel := false
  context := ⟨0⟩
  frames := [aboutToJoin]
  phase := .running
  dispatched := 1

theorem aboutToJoin_takesInput : aboutToJoin.TakesInput plainEngine := by
  have hbuiltin : plainEngine.registry.get? "join" = (Registry.builtin none).get? "join" := rfl
  have htakes : (Op.join "list" "-").TakesInput plainEngine :=
    (Op.takesInput_of_mem (by decide) hbuiltin).1
  exact htakes

theorem Runner.looksNext_boundStep :
    ∃ t b w', World.Becomes {} (fun _ _ => False) (World.withContext .empty) t w' ∧
      LooksNext (plainEngine.dispatcher 9) (.start false (Op.bindThenJoin "list") ⟨0⟩) boundStep
        aboutToJoin t ⟨0⟩ b := by
  let d := plainEngine.dispatcher 9
  let bind := next d 9 (.start false (Op.bindThenJoin "list") ⟨0⟩)
  let join := next d 9 boundRunner
  let w := (bind.run {} (World.withContext .empty)).2
  have hbind : (bind.run {} (World.withContext .empty)).1.result? =
      some (some (.ok boundStep), boundRunner) := by decide +kernel
  have hjoin : (join.run {} w).1.result? =
      some (some (.ok ⟨1, Op.join "list" "-", .string "x-y", ⟨0⟩⟩),
        { boundRunner with frames := [{ aboutToJoin with rest := [] }], dispatched := 2 }) := by
    decide +kernel
  have hgoes := Flow.goes_of_result? hjoin
  obtain ⟨front, b, back, htrace, hmute⟩ :=
    (next_looks 9 9 rfl aboutToJoin_takesInput).has_looked hgoes fun hno => hno _ _ rfl
  -- the trace is cut after the look
  have hcut : join.trace {} w = (front ++ [.did (.view ⟨0⟩) b]) ++ back :=
    htrace.trans (List.append_cons front _ back)
  have hbecomes : World.Becomes {} (fun _ _ => False) (.withContext .empty)
      (bind.trace {} (.withContext .empty) ++ join.trace {} w) (join.run {} w).2 :=
    (World.becomes_run bind _).append (World.becomes_run join w)
  rw [hcut, ← List.append_assoc] at hbecomes
  rw [hcut] at hgoes
  obtain ⟨w', hprefix, -⟩ := hbecomes.split
  obtain ⟨g, hg, -⟩ := hgoes.split
  exact ⟨_, b, w', hprefix, 9, 9, boundRunner, [], _, front, g, Flow.goes_of_result? hbind, rfl, hg,
    fun m hm => (hmute m hm).not_isLook, rfl⟩

theorem Executor.looksAtItem_extractFromEach :
    ∃ t b w', World.Becomes {} (fun _ _ => True) (World.withContext .ofText) t w' ∧
      LooksAtItem (plainEngine.dispatcher 9) (Op.extractFromEach "x") ⟨0⟩ "x" (.string "p")
        t ⟨1⟩ b := by
  let d := plainEngine.dispatcher 9
  let run := map d (Op.extractFromEach "x") ⟨0⟩
  let b := itemBindings .ofText "x" (.string "p")
  let front : List Mark := [.did .poll false, .did (.announce ⟨.opPre, Op.extractFrom "x", ⟨1⟩⟩) ()]
  let item : List Mark := .did .poll false :: .did (.view ⟨0⟩) .ofText :: .did (.create b) ⟨1⟩ ::
    (front ++ [.did (.view ⟨1⟩) b])
  obtain ⟨back, htrace⟩ : ∃ back, run.trace {} (World.withContext .ofText) =
      ([.did (.view ⟨0⟩) .ofText] ++ item) ++ back := ⟨_, rfl⟩
  obtain ⟨g, hg⟩ : ∃ g, (mapItems d [Op.extractFrom "x"] "x" ⟨0⟩ [] [.string "p"]).Goes item g :=
    ⟨_, .act _ (.act _ (.act _ (.act _ (.act _ (.act _ (.here _))))))⟩
  have hbecomes : World.Becomes {} (fun _ _ => True) (.withContext .ofText) _ _ :=
    World.becomes_run run _
  rw [htrace] at hbecomes
  obtain ⟨w', hprefix, -⟩ := hbecomes.split
  refine ⟨_, b, w', hprefix, some "x", [Op.extractFrom "x"], [], [], _, [.did (.view ⟨0⟩) .ofText],
    false, .ofText, b, front, g, ?_, rfl, ?_, .act _ (.here _), hg, ?_, rfl⟩
  · decide
  · rfl
  · simp [front, Mark.Writes]

/-- `join` finds the array, and what is done for a text finds the text. -/
theorem Engine.reads_what_is_bound_of_two_runs :
    (∃ t b, Runner.LooksNext (plainEngine.dispatcher 9)
        (.start false (Op.bindThenJoin "list") ⟨0⟩) boundStep aboutToJoin t ⟨0⟩ b ∧
      b.Serves "list" (.array [.string "x", .string "y"])) ∧
    ∃ t b, Executor.LooksAtItem (plainEngine.dispatcher 9) (Op.extractFromEach "x") ⟨0⟩ "x"
        (.string "p") t ⟨1⟩ b ∧
      b.Serves "x" (.string "p") := by
  obtain ⟨t, b, _, hbecomes, hlooks⟩ := Runner.looksNext_boundStep
  obtain ⟨t', b', _, hbecomes', hlooks'⟩ := Executor.looksAtItem_extractFromEach
  obtain ⟨hnext, -⟩ := reads_what_is_bound plainEngine 9 hbecomes
  obtain ⟨-, -, hitem, -⟩ := reads_what_is_bound plainEngine 9 hbecomes'
  refine ⟨⟨t, b, hlooks, ?_⟩, t', b', hlooks', ?_⟩
  · exact (hnext _ _ _ _ b "list" hlooks aboutToJoin_takesInput rfl (by decide)
      (Store.valid_create.2 (.inr rfl))).2
  · exact hitem _ _ "x" _ _ b' hlooks' (by decide) (by decide) trivial

/-- **Not every name is read back**: an array that has been bound under a name with a dot is not
found by the op that comes next, and an item with the reserved name is not found by its ops. -/
theorem Engine.unread_names :
    let d := plainEngine.dispatcher 9
    let bindThenJoin := (d.runOps (Op.bindThenJoin "a.b") ⟨0⟩).run {} (World.withContext .empty)
    (bindThenJoin.2.contexts.view ⟨0⟩).get? "a.b" = some (.array [.string "x", .string "y"]) ∧
      bindThenJoin.1 = .ended (.error (.invalidParam "join" "inputKey" (.unbound "a.b"))) ∧
      ((d.dispatch (Op.extractFromEach "_output") ⟨0⟩).run {} (World.withContext .ofText)).1 =
        .ended (.error (.invalidParam "extractJson" "inputKey" (.unbound "_output"))) := by
  refine ⟨?_, rfl, rfl⟩
  decide +kernel

end WorkflowEngine
