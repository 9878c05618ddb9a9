import WorkflowEngine.Proofs.Interleaving.Groups
import WorkflowEngine.Proofs.Serial
import WorkflowEngine.Proofs.SteadyStop

/-!
# What is bound when an op has been dispatched

The engine completes an op with a few actions in one go: it binds the result under the op's output
binding and under the reserved name, and announces the op (`Engine.closing`). After that a runner
neither pauses nor writes until the next op is executed.

**Theorem (`Engine.dispatch_binds`).** When a dispatch has a result, the reserved name is bound to
it if any op was executed, and so is the output binding of an op that is no loop; whatever others
did while the dispatch had given up control. A step that a runner yields is bound in the same way.

A loop is no exception to the first part, but to the second it is: its own output binding is bound
by nobody (`Engine.loop_binding_unbound`).
-/

namespace WorkflowEngine

/-! ## What marks leave bound -/

namespace World

variable {env : Environment} {w : World} {p : Handle} {t : List Mark}

theorem view_replay_of_quiet (ht : ∀ m ∈ t, m.IsQuiet) (hp : w.contexts.Valid p) :
    (w.replay env t).contexts.Valid p ∧
      (w.replay env t).contexts.view p = w.contexts.view p := by
  induction t generalizing w with
  | nil => exact ⟨hp, rfl⟩
  | cons m t ih =>
    have hm := ht m (List.mem_cons_self ..)
    have hrest : ∀ m ∈ t, m.IsQuiet := fun m hm => ht m (List.mem_cons_of_mem _ hm)
    cases m with
    | paused => exact hm.elim
    | did a x =>
      have hstep : (w.perform env a).2.contexts.Valid p ∧
          (w.perform env a).2.contexts.view p = w.contexts.view p := by
        cases a with
        | announce _ | bind _ _ _ | unbind _ _ => exact hm.elim
        | create b => exact ⟨Store.valid_create.2 (.inl hp), Store.view_create_of_valid hp b⟩
        | _ => exact ⟨hp, rfl⟩
      obtain ⟨hvalid, hview⟩ := ih hrest hstep.1
      exact ⟨hvalid, hview.trans hstep.2⟩

end World

/-- After the trace the key is bound to the value in the context, whatever others did at its pauses:
it is bound by what has been done since the last pause, or since a later moment. -/
def LeavesBound (t : List Mark) (p : Handle) (key : String) (v : Value) : Prop :=
  ∃ before after, t = before ++ after ∧ .paused ∉ after ∧
    ∀ (env : Environment) (w : World), w.contexts.Valid p →
      ((w.replay env after).contexts.view p).get? key = some v

namespace LeavesBound

variable {t u : List Mark} {p : Handle} {key : String} {v : Value}

theorem prepend (h : LeavesBound t p key v) (u : List Mark) : LeavesBound (u ++ t) p key v := by
  obtain ⟨before, after, rfl, hpaused, hbound⟩ := h
  exact ⟨u ++ before, after, by simp, hpaused, hbound⟩

end LeavesBound

/-! ## How an op is completed -/

namespace Flow

variable {α : Type}

/-- The flow leaves these marks, one after another without a choice, and ends with `r`. -/
def Spells (marks : List Mark) (r : Except Fault α) (f : Flow α) : Prop :=
  ∀ t g, f.Goes t g → t <+: marks ∧ ∀ r', g = .done r' → t = marks ∧ r' = r

theorem spells_done (r : Except Fault α) : (Flow.done r).Spells [] r := by
  intro t g h
  obtain ⟨rfl, rfl⟩ := h.of_done
  refine ⟨List.prefix_rfl, fun r' hr => ?_⟩
  cases hr
  exact ⟨rfl, rfl⟩

theorem spells_act {a : Action} {next : a.Answer → Flow α} {m : Mark} {marks : List Mark}
    {r : Except Fault α} (hm : ∀ x, .did a x = m) (h : ∀ x, (next x).Spells marks r) :
    (Flow.act a next).Spells (m :: marks) r := by
  intro t g hgoes
  cases hgoes with
  | here => exact ⟨List.nil_prefix, fun r' hr => by cases hr⟩
  | act x hgoes =>
    obtain ⟨hhead, hend⟩ := h x _ g hgoes
    rw [hm x]
    refine ⟨List.cons_prefix_cons.2 ⟨rfl, hhead⟩, fun r' hr => ?_⟩
    obtain ⟨rfl, rfl⟩ := hend r' hr
    exact ⟨rfl, rfl⟩

end Flow

/-- The op is announced, before anything is done for it. -/
abbrev Mark.pre (op : Op) (p : Handle) : Mark := .did (.announce ⟨.opPre, op, p⟩) ()

/-- The op is announced, when its result has been bound. -/
abbrev Mark.post (op : Op) (p : Handle) : Mark := .did (.announce ⟨.opPost, op, p⟩) ()

namespace Engine

variable {e : Engine} {n : Nat} {op : Op} {p : Handle} {v : Value} {t : List Mark}

/-- The writes of a result. -/
def writes (op : Op) (p : Handle) (v : Value) : List Mark :=
  op.outputBinding.toList.map (fun name => .did (.bind p name v) ()) ++
    [.did (.bind p Bindings.outputKey v) ()]

/-- What is done when the executor of an op has given a result. -/
def closing (op : Op) (p : Handle) (v : Value) : List Mark := writes op p v ++ [.post op p]

/-- The end of the execution of an op. -/
def complete (op : Op) (p : Handle) (v : Value) : Flow Value :=
  (bindResult op p v).bind fun _ => (Flow.announce .opPost op p).bind fun _ => .done (.ok v)

theorem complete_spells : (complete op p v).Spells (closing op p v) (.ok v) := by
  have hrest : ((Flow.store p Bindings.outputKey v).bind fun _ =>
      (Flow.announce .opPost op p).bind fun _ => .done (.ok v)).Spells
        [.did (.bind p Bindings.outputKey v) (), .did (.announce ⟨.opPost, op, p⟩) ()]
        (.ok v) :=
    Flow.spells_act (fun _ => rfl) fun _ => Flow.spells_act (fun _ => rfl)
      fun _ => Flow.spells_done _
  unfold complete bindResult closing writes
  cases op.outputBinding with
  | none => exact hrest
  | some name => exact Flow.spells_act (fun _ => rfl) fun _ => hrest

/-- **The trace of an execution.** It begins with the announcement of the op. Either the executor is
still at work or has ended with a fault, or it has given a result, and the op is being completed. -/
theorem exec_goes {g : Flow Value} (h : (e.exec (n + 1) op p).Goes t g) :
    (t = [] ∧ ∀ r, g ≠ .done r) ∨ ∃ u, t = .pre op p :: u ∧
      ((∃ f, (e.carryOut n op p).Goes u f ∧ (∀ v, f ≠ .done (.ok v)) ∧
          g = f.bind (complete op p)) ∨
        ∃ before after v, u = before ++ after ∧ (e.carryOut n op p).Goes before (.done (.ok v)) ∧
          after <+: closing op p v ∧
          ∀ r, g = .done r → after = closing op p v ∧ r = .ok v) := by
  rw [exec_succ] at h
  cases h with
  | here => exact .inl ⟨rfl, fun r hr => by cases hr⟩
  | @act _ _ u _ _ h =>
    refine .inr ⟨u, rfl, ?_⟩
    rcases Flow.Goes.bind_cases (f := e.carryOut n op p) h with
      ⟨f, hf, hg, hne⟩ | ⟨before, after, v, rfl, hf, hclose⟩
    · exact .inl ⟨f, hf, hne, hg⟩
    · obtain ⟨hhead, hend⟩ := complete_spells after g hclose
      exact .inr ⟨before, after, v, rfl, hf, hhead, hend⟩

/-- An execution that has a result begins with the first announcement of the op and ends with its
completion. -/
theorem exec_brackets (h : (e.exec n op p).Goes t (.done (.ok v))) :
    ∃ between, t = .pre op p :: (between ++ closing op p v) := by
  cases n with
  | zero => cases h
  | succ n =>
    rcases exec_goes h with ⟨-, hne⟩ | ⟨u, rfl, ⟨f, -, hne, hg⟩ | ⟨before, after, v', rfl, -, -, hend⟩⟩
    · exact absurd rfl (hne _)
    · exact absurd hg.symm ((Flow.bind_unfinished hne).1 v)
    · obtain ⟨rfl, hv⟩ := hend _ rfl
      cases hv
      exact ⟨before, rfl⟩

theorem paused_not_mem_closing : .paused ∉ closing op p v := by
  simp [closing, writes]

theorem view_replay_writes (env : Environment) {w : World} (hp : w.contexts.Valid p)
    {key : String} (hkey : key = Bindings.outputKey ∨ op.outputBinding = some key) :
    (w.replay env (writes op p v)).contexts.Valid p ∧
      ((w.replay env (writes op p v)).contexts.view p).get? key = some v := by
  cases hname : op.outputBinding with
  | none =>
    have hstore : (w.replay env (writes op p v)).contexts =
        w.contexts.bind p Bindings.outputKey v := by
      rw [writes, hname]
      rfl
    obtain rfl | hbinding := hkey
    · rw [hstore]
      exact ⟨Store.valid_update.2 hp, by simp [Store.bind, hp]⟩
    · rw [hname] at hbinding
      cases hbinding
  | some name =>
    have hstore : (w.replay env (writes op p v)).contexts =
        (w.contexts.bind p name v).bind p Bindings.outputKey v := by
      rw [writes, hname]
      rfl
    have hvalid : (w.contexts.bind p name v).Valid p := Store.valid_update.2 hp
    rw [hstore]
    refine ⟨Store.valid_update.2 hvalid, ?_⟩
    obtain rfl | hbinding := hkey
    · simp [Store.bind, hp]
    · rw [hname] at hbinding
      cases hbinding
      simp [Store.bind, hp, Record.get?_insert]

theorem writes_bind {key : String} (hkey : key = Bindings.outputKey ∨ op.outputBinding = some key) :
    LeavesBound (writes op p v) p key v := by
  refine ⟨[], writes op p v, rfl, ?_, fun env w hp => ?_⟩
  · intro hmem
    exact paused_not_mem_closing (List.mem_append_left _ hmem)
  · exact (view_replay_writes env hp hkey).2

/-- The completion leaves the result bound until something is done that is not quiet. -/
theorem closing_binds {after : List Mark} (hafter : ∀ m ∈ after, m.IsQuiet) {key : String}
    (hkey : key = Bindings.outputKey ∨ op.outputBinding = some key) :
    LeavesBound (closing op p v ++ after) p key v := by
  refine ⟨[], closing op p v ++ after, rfl, ?_, fun env w hp => ?_⟩
  · intro hmem
    rcases List.mem_append.1 hmem with hmem | hmem
    · exact paused_not_mem_closing hmem
    · exact hafter _ hmem
  · obtain ⟨hvalid, hbound⟩ := view_replay_writes (v := v) env hp hkey
    have hposted : (w.replay env (closing op p v)).contexts =
        (w.replay env (writes op p v)).contexts := by
      rw [closing, World.replay_append]
      rfl
    rw [← hposted] at hvalid hbound
    rw [World.replay_append, (World.view_replay_of_quiet hafter hvalid).2]
    exact hbound

end Engine

/-! ## Runs -/

theorem Legs.leavesBound {e : Engine} {n : Nat} {good : Op → Handle → Prop} {t : List Mark}
    {legs : List Leg} (h : Legs Mark.IsQuiet (e.dispatcher n) good t legs) {last : Leg}
    (hlast : legs.getLast? = some last) {key : String}
    (hkey : key = Bindings.outputKey ∨ last.op.outputBinding = some key) :
    LeavesBound t last.context key last.result := by
  induction h with
  | nil => cases hlast
  | @own m t legs hm hlegs ih => exact (ih hlast).prepend [m]
  | @leg op h v u t legs _ hu hlegs ih =>
    cases hrest : legs.getLast? with
    | some last' =>
      have hsame : last' = last := by simpa [List.getLast?_cons, hrest] using hlast
      subst hsame
      exact (ih hrest).prepend u
    | none =>
      obtain rfl := List.getLast?_eq_none_iff.1 hrest
      cases hlast
      obtain ⟨between, rfl⟩ := Engine.exec_brackets hu
      rw [List.cons_append, List.append_assoc]
      exact (Engine.closing_binds hlegs.own_of_mem hkey).prepend (.pre op h :: between)

theorem Flow.Goes.of_attempt {α : Type} {f : Flow α} {t : List Mark} {r : Except Fault α}
    (h : f.attempt.Goes t (.done (.ok r))) : f.Goes t (.done r) := by
  induction f generalizing t with
  | done r' =>
    cases h
    exact .here _
  | starved => cases h
  | pause rest ih =>
    cases h with
    | pause h => exact .pause (ih () h)
  | act a next ih =>
    cases h with
    | act x h => exact .act x (ih x h)

/-- A step that a runner yields is the last thing done: an op executed in the runner's context, and
then quiet marks. -/
theorem Runner.next_leg {d : Dispatcher} {m : Nat} {r r' : Runner} {t : List Mark} {step : Step}
    (h : (next d m r).Goes t (.done (.ok (some (.ok step), r')))) :
    ∃ before after, t = before ++ after ∧ Legs Mark.IsQuiet d
      (fun o h => LoopMode.ofKind? o.kind = none ∧ h = r.context) after
      [⟨step.op, step.context, step.result⟩] := by
  have hrunning : ∀ (r : Runner) (t : List Mark), r.phase = .running →
      (next d m r).Goes t (.done (.ok (some (.ok step), r'))) →
      Legs Mark.IsQuiet d (fun o h => LoopMode.ofKind? o.kind = none ∧ h = r.context) t
        [⟨step.op, step.context, step.result⟩] := by
    intro r t hphase h
    rw [next_of_running hphase] at h
    obtain ⟨before, after, x, rfl, hadvance, hdeliver⟩ := h.of_bind
    -- every op of the runner is one of its frames
    let list := r.frames.flatMap fun f => f.body ++ f.rest
    have hframes : ∀ f ∈ r.frames, FrameGood (Op.InLine list) f := by
      intro f hf
      refine ⟨fun op hop => .here ?_, fun op hop => .here ?_⟩
      · exact List.mem_flatMap.2 ⟨f, hf, List.mem_append_left _ hop⟩
      · exact List.mem_flatMap.2 ⟨f, hf, List.mem_append_right _ hop⟩
    have hserial := (advance_serial (fun _ => id) (d := d) m [] ⟨rfl, hframes⟩).mono
      (fun _ => id) (fun _ _ h => h.2) fun _ _ => id
    cases x with
    | error err => cases hdeliver
    | ok y =>
      obtain ⟨legs, hlegs, hy⟩ := hserial.goes_ok hadvance.of_attempt
      cases hy with
      | ended _ =>
        obtain ⟨_, _, _, rfl, -, hend⟩ := hdeliver.of_bind
        cases hend
      | @step op v _ _ _ hone _ =>
        cases hdeliver
        obtain rfl : legs = [Leg.mk op r.context v] := hone
        rwa [List.append_nil]
  cases hphase : r.phase with
  | finished =>
    rw [next_of_finished hphase] at h
    cases h
  | running => exact ⟨[], t, rfl, hrunning r t hphase h⟩
  | pending =>
    rw [next_of_pending hphase] at h
    obtain ⟨before, after, _, rfl, -, h⟩ := h.of_bind
    exact ⟨before, after, rfl, hrunning { r with phase := .running } after rfl h⟩

/-- **A dispatch binds its result.** Whatever the op and the executors, and whatever others do while
the dispatch has given up control: when it has a result, that is the result of the last op executed
in it, or null; what is not quiet in its trace are executions of ops that are no loops; the reserved
name is bound to the result if any op was executed, and so is the output binding of an op that is no
loop. The steps that a runner yields are bound in the same way, and none of them is a loop. -/
theorem Engine.dispatch_binds (e : Engine) (n : Nat) (op : Op) (p : Handle) (t : List Mark)
    (v : Value) (h : ((e.dispatcher n).dispatch op p).Goes t (.done (.ok v))) :
    (∃ legs, Legs Mark.IsQuiet (e.dispatcher n)
        (fun o h => h = p ∧ LoopMode.ofKind? o.kind = none ∧ o.InLine [op]) t legs ∧
      v = (legs.getLast?.map Leg.result).getD .null ∧
      (legs ≠ [] → LeavesBound t p Bindings.outputKey v)) ∧
    (LoopMode.ofKind? op.kind = none → LeavesBound t p Bindings.outputKey v ∧
      ∀ name, op.outputBinding = some name → LeavesBound t p name v) ∧
    ∀ m r u step r', (Runner.next (e.dispatcher n) m r).Goes u (.done (.ok (some (.ok step), r'))) →
      LoopMode.ofKind? step.op.kind = none ∧ step.context = r.context ∧
      LeavesBound u r.context Bindings.outputKey step.result ∧
      ∀ name, step.op.outputBinding = some name → LeavesBound u r.context name step.result := by
  obtain ⟨legs, hlegs, hlast, hsingle⟩ := (Dispatcher.dispatch_serial (fun _ => id) op p).goes_ok h
  refine ⟨⟨legs, hlegs, hlast, fun hne => ?_⟩, fun hkind => ?_, fun m r u step r' hu => ?_⟩
  · have hsome := List.getLast?_eq_some_getLast hne
    have hcontext := (hlegs.good_of_mem _ (List.getLast_mem hne)).1
    have hbound := hlegs.leavesBound hsome (.inl rfl)
    rw [hcontext] at hbound
    rwa [hlast, List.nil_append, hsome]
  · obtain rfl : legs = [⟨op, p, v⟩] := hsingle hkind
    exact ⟨hlegs.leavesBound rfl (.inl rfl), fun name hname => hlegs.leavesBound rfl (.inr hname)⟩
  · obtain ⟨before, after, rfl, hleg⟩ := Runner.next_leg hu
    obtain ⟨hkind, hcontext⟩ := hleg.good_of_mem _ (List.mem_singleton_self _)
    rw [← hcontext]
    exact ⟨hkind, rfl, (hleg.leavesBound rfl (.inl rfl)).prepend before,
      fun name hname => (hleg.leavesBound rfl (.inr hname)).prepend before⟩

/-- The engine as it comes, with no model. -/
def plainEngine : Engine := EngineBuilder.build {}

/-- A loop that turns its condition off, and says where its result is to be bound. -/
def boundLoop : Op := (Op.repeatWhile "go" [(Op.set (.bool false)).output "go"]).output "x"

/-- A world with one context, in which a condition holds. -/
def goingWorld : World := { contexts := (Store.empty.create (.ofList [("go", .bool true)])).2 }

/-- The loop yields the result of its only pass, and the reserved name is bound to it. -/
theorem Engine.dispatch_binds_loop : ∃ t,
    ((plainEngine.dispatcher 9).dispatch boundLoop ⟨0⟩).Goes t (.done (.ok (.bool false))) ∧
      ∃ legs, Legs Mark.IsQuiet (plainEngine.dispatcher 9)
          (fun o h => h = ⟨0⟩ ∧ LoopMode.ofKind? o.kind = none ∧ o.InLine [boundLoop]) t legs ∧
        Value.bool false = (legs.getLast?.map Leg.result).getD .null ∧
        (legs ≠ [] → LeavesBound t ⟨0⟩ Bindings.outputKey (.bool false)) := by
  let f := (plainEngine.dispatcher 9).dispatch boundLoop ⟨0⟩
  have hresult : (f.run {} goingWorld).1.result? = some (.bool false) := by decide +kernel
  have hgoes := Flow.goes_of_result? hresult
  exact ⟨_, hgoes, (dispatch_binds plainEngine 9 boundLoop ⟨0⟩ _ _ hgoes).1⟩

/-- **The output binding of a loop is bound by nobody**: the dispatch of the loop has a result, and
then the name that the loop gives for it is not bound. -/
theorem Engine.loop_binding_unbound :
    let f := (plainEngine.dispatcher 9).dispatch boundLoop ⟨0⟩
    boundLoop.outputBinding = some "x" ∧
      (f.run {} goingWorld).1.result? = some (.bool false) ∧
      ((f.run {} goingWorld).2.contexts.view ⟨0⟩).get? "x" = none := by
  refine ⟨rfl, ?_, ?_⟩ <;> decide +kernel

end WorkflowEngine
