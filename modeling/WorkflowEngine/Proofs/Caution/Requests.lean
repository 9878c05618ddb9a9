import WorkflowEngine.Proofs.Caution.Engine
import WorkflowEngine.Rehearsal.Executors

/-!
# What a run still does once a stop has been requested

A stop may be requested by an executor in any branch, by the listener, or from outside while the run
has given up control. From that moment on no op is announced, and no op that asks a model or sends a
request is completed, even if the answer is there when it is taken up again
(`Engine.begins_nothing_once_stopped`). Other ops that are under way may still be completed.

**Runs** heed the caution `Engine.caution`: an op is announced only right after the question whether
to stop, and the result of an op that can be given up is announced only right after the question
whether a stop has been requested. What is known is lost with every pause and every announcement, so
whoever goes on has to ask again. Of what is bound in a run one cannot say from which op it comes,
unless the key is reserved for the results of ops that can be given up (`Workflow.Reserves`).

**Executions under way** are therefore also looked at on their own, with all that others do at their
pauses. They heed the caution `Caution.ofResults`, which speaks of whatever is bound.
-/

namespace WorkflowEngine

/-! ## Ops that can be given up -/

/-- The executor of the op is one that is given up as soon as a stop has been requested. -/
def Engine.Abortable (e : Engine) (op : Op) : Prop :=
  ∃ x, e.registry.get? op.kind = some x ∧ x.IsAbortable

/-- Of the op, of its inner ops, of the inner ops of those and so on. -/
inductive Op.Everywhere (p : Op → Prop) : Op → Prop
  | node {op : Op} : p op →
      (∀ ops, op.innerOps = .ok ops → ∀ inner ∈ ops, Everywhere p inner) → Everywhere p op

/-- What leaves have to leave to the engine: announcing events, and writing under these keys. -/
def Action.OfEngine (keys : String → Prop) (a : Action) : Prop :=
  (∃ event, a = .announce event) ∨ ∃ context key value, keys key ∧ a = .bind context key value

/-- Nothing but the results of ops that can be given up is ever bound under these keys. -/
structure Workflow.Reserves (w : Workflow) (e : Engine) (keys : String → Prop) : Prop where
  output : ¬keys Bindings.outputKey
  leaves : e.Composed fun f => f.Avoids (Action.OfEngine keys)
  ops : ∀ op ∈ w.ops, op.Everywhere fun o =>
    ∀ name, o.outputBinding = some name → keys name → e.Abortable o

/-! ## The cautions -/

/-- Ops are announced right after the question whether to stop. The results of ops that can be given
up are announced, and bound under these keys, right after the question whether a stop has been
requested. -/
def Engine.caution (e : Engine) (keys : String → Prop) : Caution where
  needsPoll a := ∃ op context, a = .announce ⟨.opPre, op, context⟩
  needsSignal a := (∃ op context, e.Abortable op ∧ a = .announce ⟨.opPost, op, context⟩) ∨
    ∃ context key value, keys key ∧ a = .bind context key value

theorem Engine.caution_suits (e : Engine) (keys : String → Prop) : (e.caution keys).Suits where
  needsPoll _ h := h
  needsSignal _ h := by
    rcases h with ⟨op, context, -, h⟩ | ⟨context, key, value, -, h⟩
    · exact .inl ⟨op, context, h⟩
    · exact .inr ⟨context, key, value, h⟩

namespace Engine

variable {e : Engine} {keys : String → Prop} {op : Op}

/-- The caution speaks only of what leaves leave to the engine. -/
theorem caution_concerns {a : Action} (h : (e.caution keys).Concerns a) : a.OfEngine keys := by
  rcases h with ⟨_, _, rfl⟩ | ⟨_, _, _, rfl⟩ | ⟨context, key, value, hkey, rfl⟩
  · exact .inl ⟨_, rfl⟩
  · exact .inl ⟨_, rfl⟩
  · exact .inr ⟨context, key, value, hkey, rfl⟩

theorem caution_pre {s : Assurance} (hs : s.poll = true) (context : Handle) :
    (e.caution keys).Allows s (.announce ⟨.opPre, op, context⟩) := by
  refine ⟨fun _ => hs, fun h => ?_⟩
  rcases h with ⟨_, _, _, h⟩ | ⟨_, _, _, _, h⟩ <;> cases h

theorem caution_post (hop : ¬e.Abortable op) (context : Handle) (s : Assurance) :
    (e.caution keys).Allows s (.announce ⟨.opPost, op, context⟩) := by
  refine Caution.allows_of_not_concerns (fun h => ?_) s
  rcases h with ⟨_, _, h⟩ | ⟨_, _, hanother, h⟩ | ⟨_, _, _, _, h⟩ <;> cases h
  exact hop hanother

theorem caution_bind {key : String} (hkey : ¬keys key) (context : Handle) (value : Value)
    (s : Assurance) : (e.caution keys).Allows s (.bind context key value) := by
  refine Caution.allows_of_not_concerns (fun h => ?_) s
  rcases h with ⟨_, _, h⟩ | ⟨_, _, _, h⟩ | ⟨_, _, _, hreserved, h⟩ <;> cases h
  exact hkey hreserved

end Engine

/-- Results are bound and announced right after the question whether a stop has been requested. -/
def Caution.ofResults : Caution where
  needsPoll _ := False
  needsSignal a := (∃ op context, a = .announce ⟨.opPost, op, context⟩) ∨
    ∃ context key value, a = .bind context key value

theorem Caution.ofResults_suits : ofResults.Suits where
  needsPoll _ h := h.elim
  needsSignal _ h := h

/-! ## The execution of an op -/

namespace Engine

variable {C : Caution} {e : Engine} {n : Nat} {op : Op} {context : Handle} {s : Assurance}

/-- The execution of an op heeds what its announcement, its executor, the binding of its result and
the announcement of that heed. -/
theorem exec_heeds {R : Assurance → Prop} (hC : C.Suits)
    (hpre : C.Allows s (.announce ⟨.opPre, op, context⟩))
    (hx : ∀ x, e.registry.get? op.kind = some x → ∀ s,
      (x (e.dispatcher n) op context).Heeds C (fun s _ => R s) s)
    (hbind : ∀ s, R s → ∀ key value, op.outputBinding = some key ∨ key = Bindings.outputKey →
      C.Allows s (.bind context key value))
    (hpost : ∀ s, R s → C.Allows s (.announce ⟨.opPost, op, context⟩)) :
    (e.exec (n + 1) op context).Heeds C (fun _ _ => True) s := by
  have hannounce : ∀ {s : Assurance} {stage : Stage}, C.Allows s (.announce ⟨stage, op, context⟩) →
      (Flow.announce stage op context).Heeds C (fun _ _ => True) s :=
    fun h => ⟨h, fun _ => trivial⟩
  refine (hannounce hpre).bind fun s _ _ => ?_
  split
  · exact Flow.fail_heeds hC _ _ s
  · next x hget =>
    refine (hx x hget s).bind fun s result hs => ?_
    have hstore : ∀ key {s : Assurance}, op.outputBinding = some key ∨ key = Bindings.outputKey →
        R s → (Flow.store context key result).Heeds C (fun s _ => R s) s :=
      fun key _ hkey hs => ⟨hbind _ hs key result hkey, fun _ => hs⟩
    have hbound : (bindResult op context result).Heeds C (fun s _ => R s) s := by
      unfold bindResult
      split
      · next name hname =>
        exact (hstore name (.inl hname) hs).bind fun s _ hs => hstore _ (.inr rfl) hs
      · exact hstore _ (.inr rfl) hs
    exact hbound.bind fun s _ hs => (hannounce (hpost s hs)).bind fun _ _ _ => trivial

/-- An op that can be given up binds its result where no stop has been requested. -/
theorem exec_heeds_of_abortable (hC : C.Suits) (hop : e.Abortable op)
    (hpre : C.Allows s (.announce ⟨.opPre, op, context⟩)) :
    (e.exec (n + 1) op context).Heeds C (fun _ _ => True) s := by
  obtain ⟨x, hget, hx⟩ := hop
  refine exec_heeds (R := fun s => s.signal = true) hC hpre (fun y hy s => ?_)
    (fun s hs key value _ => hC.allows_of_signal hs (by simp))
    fun s hs => hC.allows_of_signal hs (by simp)
  rw [hget] at hy
  cases hy
  exact hx.heeds hC op context s

/-- **Ops are executed as the caution asks**, once it has been asked whether to stop, however they
nest. -/
theorem exec_careful {keys : String → Prop} {good : Op → Prop}
    (he : e.Composed fun f => f.Avoids (Action.OfEngine keys)) (houtput : ¬keys Bindings.outputKey)
    (hinner : ∀ op ops, good op → op.innerOps = .ok ops → ∀ inner ∈ ops, good inner)
    (hgood : ∀ op name, good op → op.outputBinding = some name → keys name → e.Abortable op)
    (n : Nat) : (e.dispatcher n).Careful (e.caution keys) good := by
  have hC := e.caution_suits keys
  induction n with
  | zero => exact ⟨hinner, fun _ _ _ _ _ => trivial⟩
  | succ n ih =>
    refine ⟨hinner, fun op context hop s hs => ?_⟩
    by_cases habortable : e.Abortable op
    · exact exec_heeds_of_abortable hC habortable (caution_pre hs context)
    · have hexecutor : ∀ x, e.registry.get? op.kind = some x → ∀ s,
          (x (e.dispatcher n) op context).Heeds (e.caution keys) (fun _ _ => True) s := by
        intro x hx
        rcases he op.kind x hx with hgroup | ⟨leaf, rfl, hleaf⟩
        · exact hgroup.cautious hC ih hop context
        · exact ((hleaf e.config op context).mono fun _ => caution_concerns).cautious
      have hother : ∀ key, op.outputBinding = some key ∨ key = Bindings.outputKey → ¬keys key := by
        rintro key (hname | rfl) hreserved
        · exact habortable (hgood op key hop hname hreserved)
        · exact houtput hreserved
      exact exec_heeds (R := fun _ => True) hC (caution_pre hs context) hexecutor
        (fun s _ key value hkey => caution_bind (hother key hkey) context value s)
        fun s _ => caution_post habortable context s

/-! ## What comes after a request -/

/-- No op is announced. No result of an op that can be given up is announced, nor is one bound under
a key that is reserved for such results. -/
structure Quiet (e : Engine) (w : Workflow) (t : List Mark) : Prop where
  begins : ∀ op context x, .did (.announce ⟨.opPre, op, context⟩) x ∉ t
  completes : ∀ op context x, e.Abortable op → .did (.announce ⟨.opPost, op, context⟩) x ∉ t
  writes : ∀ keys, w.Reserves e keys → ∀ h key value x, keys key → .did (.bind h key value) x ∉ t

/-- The op is not completed: nothing is bound and no result announced, and unless nothing at all is
left to be done, the execution has no result. -/
structure Uncompleted (op : Op) (context : Handle) (t : List Mark) (rest : Flow Value) :
    Prop where
  binds : ∀ h key value x, .did (.bind h key value) x ∉ t
  announces : ∀ x, .did (.announce ⟨.opPost, op, context⟩) x ∉ t
  result : ∀ v, rest = .done (.ok v) → t = []

theorem quiet_of_careful {w : Workflow} {α : Type} {f : Flow α}
    (he : e.Composed fun f => f.Avoids fun a => ∃ event, a = .announce event)
    (hf : ∀ C good, C.Suits → (e.dispatcher n).Careful C good → (∀ op ∈ w.ops, good op) →
      f.Cautious C fun _ => True) : f.AfterRequest fun after _ => e.Quiet w after := by
  -- With no key reserved, all workflows and all leaves are as they have to be.
  have hbare : f.Cautious (e.caution fun _ => False) fun _ => True := by
    refine hf _ (fun _ => True) (e.caution_suits _) (exec_careful (he.mono fun f hf => ?_) id
      (fun _ _ _ _ _ _ => trivial) (fun _ _ _ _ h => h.elim) n) fun _ _ => trivial
    refine hf.mono fun a ha => ?_
    rcases ha with h | ⟨_, _, _, h, _⟩
    · exact h
    · exact h.elim
  have hreserved : ∀ keys, w.Reserves e keys → f.Cautious (e.caution keys) fun _ => True := by
    intro keys hw
    refine hf _ _ (e.caution_suits keys) (exec_careful hw.leaves hw.output ?_ ?_ n) hw.ops
    · rintro op ops ⟨-, hinner⟩ hops
      exact hinner ops hops
    · rintro op name ⟨hop, -⟩ hname hkey
      exact hop name hname hkey
  intro before after c d g hgo hbefore hafter
  have hsilent := (hbare .none).silent before after c d g hgo hbefore hafter
  exact {
    begins := fun op context x hm => hsilent _ x hm (.inl ⟨op, context, rfl⟩)
    completes := fun op context x hop hm => hsilent _ x hm (.inr (.inl ⟨op, context, hop, rfl⟩))
    writes := fun keys hw h key value x hkey hm =>
      (hreserved keys hw .none).silent before after c d g hgo hbefore hafter _ x hm
        (.inr (.inr ⟨h, key, value, hkey, rfl⟩)) }

/-- The last thing that the execution of an op does, if it has a result, is to announce that. -/
theorem announces_at_end {t : List Mark} {v : Value}
    (h : (e.exec n op context).Goes t (.done (.ok v))) :
    ∃ u, t = u ++ [.did (.announce ⟨.opPost, op, context⟩) ()] := by
  cases n with
  | zero => cases h
  | succ n =>
    obtain ⟨t₁, t₂, _, rfl, -, h⟩ := Flow.Goes.of_bind h
    split at h
    · cases h with
      | act x h => cases h
    · obtain ⟨t₃, t₄, result, rfl, -, h⟩ := Flow.Goes.of_bind h
      obtain ⟨t₅, t₆, _, rfl, -, h⟩ := Flow.Goes.of_bind h
      cases h with
      | act x h =>
        cases h
        exact ⟨t₁ ++ (t₃ ++ t₅), by simp⟩

/-- **An op under way is given up.** -/
theorem uncompleted_of_abortable (hop : e.Abortable op) (n : Nat) (context : Handle) :
    (e.exec n op context).AfterRequest (Uncompleted op context) := by
  intro before after c d g hgo hbefore hafter
  have hheeds : (e.exec n op context).Heeds .ofResults (fun _ _ => True) .none := by
    cases n with
    | zero => trivial
    | succ n =>
      refine exec_heeds_of_abortable Caution.ofResults_suits hop ⟨fun h => h.elim, ?_⟩
      rintro (⟨_, _, h⟩ | ⟨_, _, _, h⟩) <;> cases h
  have hsilent := hheeds.silent before after c d g hgo hbefore hafter
  have hannounces : ∀ x, .did (.announce ⟨.opPost, op, context⟩) x ∉ after :=
    fun x hm => hsilent _ x hm (.inr (.inl ⟨op, context, rfl⟩))
  refine {
    binds := fun h key value x hm => hsilent _ x hm (.inr (.inr ⟨h, key, value, rfl⟩))
    announces := hannounces
    result := fun v hv => ?_ }
  subst hv
  obtain ⟨u, hu⟩ := announces_at_end hgo
  rcases List.eq_nil_or_concat after with hnil | ⟨front, last, rfl⟩
  · exact hnil
  · rw [List.concat_eq_append, ← List.append_assoc] at hu
    have hlast := List.append_inj_right' hu rfl
    cases hlast
    exact absurd (by simp) (hannounces ())

end Engine

/-! ## Runs -/

/-- Asks a runner for some steps, one after the other, and gives up control after each. -/
def Runner.callsApart (d : Dispatcher) (n : Nat) : Nat → Runner → Flow Runner
  | 0, r => return r
  | calls + 1, r => do
    let (_, r) ← next d n r
    .pause fun _ => callsApart d n calls r

theorem Runner.callsApart_cautious {C : Caution} {good : Op → Prop} {d : Dispatcher}
    {context : Handle} (hC : C.Suits) (hd : d.Careful C good) (n calls : Nat) {r : Runner}
    (hr : Holds good context r) : (callsApart d n calls r).Cautious C fun _ => True := by
  induction calls generalizing r with
  | zero => exact Flow.cautious_ok trivial
  | succ calls ih => exact (next_cautious hC hd n hr).bind fun _ hx _ _ => ih hx _

/-- **Once a stop has been requested, no op is begun, and no op that can be given up is completed.**
In an engine made of groups and of leaves that do not have ops executed, this holds from every
moment on at which a stop has been requested: by a leaf in whatever branch, by the listener, or from
outside at a pause. It holds of runs to the end, of streams, and of calls for one step after the
other with pauses between them, whatever the workflow and the context, however ops nest, and however
leaves pause. The execution of an op that can be given up binds nothing after that moment and has no
result, even if it is taken up again with its answer there. -/
theorem Engine.begins_nothing_once_stopped {e : Engine}
    (he : e.Composed fun f => f.Avoids fun a => ∃ event, a = .announce event) (n : Nat)
    (w : Workflow) (context : Handle) :
    (w.run (e.dispatcher n) context).AfterRequest (fun after _ => e.Quiet w after) ∧
    (w.execute (e.dispatcher n) context).AfterRequest (fun after _ => e.Quiet w after) ∧
    ((w.runner context).stream (e.dispatcher n)).AfterRequest (fun after _ => e.Quiet w after) ∧
    (∀ calls, (Runner.callsApart (e.dispatcher n) n calls (w.runner context)).AfterRequest
      fun after _ => e.Quiet w after) ∧
    ∀ op context, e.Abortable op →
      (e.exec n op context).AfterRequest (Engine.Uncompleted op context) := by
  refine ⟨?_, ?_, ?_, fun calls => ?_, fun op context hop => uncompleted_of_abortable hop n context⟩
  · exact quiet_of_careful he fun C good hC hd hw => Workflow.run_cautious hC hd hw context
  · exact quiet_of_careful he fun C good hC hd hw => Workflow.execute_cautious hC hd hw context
  · exact quiet_of_careful he fun C good hC hd hw => Workflow.stream_cautious hC hd hw context
  · exact quiet_of_careful he fun C good hC hd hw =>
      Runner.callsApart_cautious hC hd n calls (Runner.holds_start hw true context)

/-! ## A branch that requests a stop -/

/-- A model that takes its time and repeats the text. -/
def LanguageModel.echo : LanguageModel := .ofPrompt fun _ text => do
  Flow.wait 1
  return text

theorem LanguageModel.echo_keeps {M : Monitor} (hM : M.SuitsLeaves) : echo.Keeps M := by
  have hreply : ∀ persona text, (echo.prompt persona text).Keeps M :=
    fun _ _ => (Flow.wait_keeps 1).bind fun _ _ => Flow.obeys_ok trivial
  exact ⟨hreply, fun persona _ _ => (hreply persona _).bind fun _ _ => Flow.keeps_ofExcept hM _⟩

/-- An engine with that model and an executor that requests a stop. -/
def Engine.withCancel : Engine :=
  ((EngineBuilder.languageModel {} .echo).executor "cancel" Rehearsal.cancel).build

/-- Asks the model. -/
def Op.hello : Op := ((Op.new "prompt").withParam "prompt" (.string "hello")).output "reply"

/-- Three branches, of which the first asks the model and the second requests a stop; and not more
than two at a time. -/
def Workflow.cancelled : Workflow where
  name := "cancelled"
  ops := [(Op.parallel [.hello, .new "cancel", .format "late"]).withParam "concurrency" (.nat 2)]

theorem Engine.withCancel_composed (keys : String → Prop) :
    withCancel.Composed fun f => f.Avoids (Action.OfEngine keys) := by
  have hM : (Monitor.avoiding (Action.OfEngine keys)).SuitsLeaves :=
    Monitor.avoiding_suitsLeaves (by simp [Action.OfEngine]) (by simp [Action.OfEngine])
      (by simp [Action.OfEngine])
  have hclient : Http.outside.Keeps (Monitor.avoiding (Action.OfEngine keys)) :=
    Http.outside_keeps hM fun _ _ => Monitor.avoiding_neutral (by simp [Action.OfEngine])
  refine Engine.Composed.mono (EngineBuilder.composed_build hM hclient ?_ ?_)
    fun _ => Flow.avoids_iff_keeps.2
  · rintro m hm
    cases hm
    exact LanguageModel.echo_keeps hM
  · intro host hhost
    have hcancel : host ∈ [("cancel", Rehearsal.cancel)] := hhost
    cases List.mem_singleton.1 hcancel
    refine ⟨fun config => Rehearsal.cancel ⟨config, 0, fun _ _ => .starved⟩, rfl, fun _ _ _ => ?_⟩
    refine (Flow.wait_keeps _).bind fun _ _ => ?_
    have hrequest : (Monitor.avoiding (Action.OfEngine keys)).Neutral .requestStop :=
      Monitor.avoiding_neutral (by simp [Action.OfEngine])
    exact (Flow.obeys_perform hrequest).bind fun _ _ => Flow.obeys_ok trivial

theorem Engine.withCancel_abortable : withCancel.Abortable .hello := by
  have hM : (Monitor.avoiding Action.stops).SuitsLeaves :=
    Monitor.avoiding_suitsLeaves (by simp [Action.stops]) (by simp [Action.stops])
      (by simp [Action.stops])
  have hecho := LanguageModel.echo_keeps hM
  refine ⟨Executor.prompt .echo, rfl, .inl ⟨.echo, ⟨?_, ?_⟩, .inl rfl⟩⟩
  · exact fun persona text => Flow.avoids_iff_keeps.2 (hecho.prompt persona text)
  · exact fun persona text schema =>
      Flow.avoids_iff_keeps.2 (hecho.promptForJson persona text schema)

theorem Workflow.cancelled_reserves :
    Workflow.cancelled.Reserves Engine.withCancel (· = "reply") where
  output := by decide
  leaves := Engine.withCancel_composed _
  ops op hop := by
    cases List.mem_singleton.1 hop
    refine .node (fun _ h => nomatch h) fun ops hops inner hinner => ?_
    obtain rfl : [Op.hello, .new "cancel", .format "late"] = ops := Except.ok.inj hops
    simp only [List.mem_cons, List.not_mem_nil, or_false] at hinner
    rcases hinner with rfl | rfl | rfl
    · exact .node (fun _ _ _ => Engine.withCancel_abortable) fun _ h => nomatch h
    · exact .node (fun _ h => nomatch h) fun _ h => nomatch h
    · exact .node (fun _ h => nomatch h) fun _ h => nomatch h

/-- Whether the mark is the announcement of an op of this kind. -/
def Mark.announces (stage : Stage) (kind : String) : Mark → Bool
  | .did (.announce e) _ => e.stage = stage && e.op.kind = kind
  | _ => false

/-- While the first branch waits for the model, the second requests a stop. It is completed itself;
but the third branch is not begun, and the reply of the model is bound nowhere. -/
theorem Engine.begins_nothing_once_stopped_by_branch :
    (withCancel.Composed fun f => f.Avoids fun a => ∃ event, a = .announce event) ∧
    withCancel.Abortable .hello ∧
    ∃ before after, (Workflow.cancelled.run (withCancel.dispatcher 9) ⟨0⟩).trace {} {} =
        before ++ after ∧
      (World.replay {} {} before).requested = true ∧
      before.any (Mark.announces .opPre "prompt") = true ∧
      after.any (Mark.announces .opPost "cancel") = true ∧
      (∀ op context x, .did (.announce ⟨.opPre, op, context⟩) x ∉ after) ∧
      ∀ h value x, .did (.bind h "reply" value) x ∉ after := by
  have hcomposed : withCancel.Composed fun f => f.Avoids fun a => ∃ event, a = .announce event :=
    (withCancel_composed fun _ => False).mono fun f hf => hf.mono fun _ => .inl
  let marks := (Workflow.cancelled.run (withCancel.dispatcher 9) ⟨0⟩).trace {} {}
  have hsplit : marks = marks.take 11 ++ marks.drop 11 := (List.take_append_drop 11 marks).symm
  have hstop : (World.replay {} {} (marks.take 11)).requested = true := by decide +kernel
  have hquiet := (Engine.begins_nothing_once_stopped hcomposed 9 Workflow.cancelled ⟨0⟩).1.trace
    hsplit hstop
  refine ⟨hcomposed, withCancel_abortable, _, _, hsplit, hstop, by decide +kernel,
    by decide +kernel, hquiet.begins, fun h value x => ?_⟩
  exact hquiet.writes _ Workflow.cancelled_reserves h _ value x rfl

end WorkflowEngine
