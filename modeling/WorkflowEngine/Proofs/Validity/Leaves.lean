import WorkflowEngine.Proofs.Gauge.Engine
import WorkflowEngine.Proofs.Monitor.Builtin

/-!
# What the faults of the built-in executors are about

The built-in executors other than the groups never look at a parameter `ops`. Their faults are about
the parameters that they read, about the answer of a model or of a server, or about a text that is
no JSON. So a gauge that counts nothing but faults of inner ops shows nothing for them
(`EngineBuilder.quiet_build`).
-/

namespace WorkflowEngine

/-! ## Outcomes -/

/-- The outcome is no fault of inner ops. -/
def NotOps {α : Type} (r : Except Fault α) : Prop := ∀ e, r = .error e → ¬e.IsInnerOps

namespace NotOps

variable {α β : Type}

theorem ok (a : α) : NotOps (.ok a) := fun _ h => nomatch h

theorem error {e : Fault} (h : ¬e.IsInnerOps) : NotOps (.error e : Except Fault α) := by
  intro e' he
  cases he
  exact h

theorem bind {r : Except Fault α} {f : α → Except Fault β} (hr : NotOps r)
    (hf : ∀ a, NotOps (f a)) : NotOps (r >>= f) := by
  cases r with
  | ok a => exact hf a
  | error e => exact error (hr e rfl)

theorem mapError {ε : Type} {r : Except ε α} {f : ε → Fault} (h : ∀ e, ¬(f e).IsInnerOps) :
    NotOps (r.mapError f) := by
  cases r with
  | ok a => exact ok a
  | error e => exact error (h e)

theorem invalid {op : Op} {name : String} {complaint : Complaint} (hname : name ≠ Op.opsKey) :
    NotOps (.error (op.invalid name complaint) : Except Fault α) :=
  error (Fault.IsAbout.not_isInnerOps (.inr ⟨_, _, rfl⟩) hname)

theorem missing {op : Op} {name : String} : NotOps (.error (op.missing name) : Except Fault α) :=
  error id

theorem textParam {op : Op} {name : String} (hname : name ≠ Op.opsKey) :
    NotOps (op.textParam name) := fun _ h => (Op.textParam_isAbout h).not_isInnerOps hname

theorem requireText {op : Op} {name : String} (hname : name ≠ Op.opsKey) :
    NotOps (op.requireText name) := fun _ h => (Op.requireText_isAbout h).not_isInnerOps hname

end NotOps

namespace Executor

variable {op : Op} {b : Bindings}

theorem inputArray_notOps : NotOps (inputArray op b) :=
  fun _ h => (inputArray_isAbout h).not_isInnerOps (by decide)

theorem inputText_notOps : NotOps (inputText op b) := by
  refine (NotOps.textParam (by decide)).bind fun path => ?_
  cases path with
  | some path =>
    dsimp only
    split
    · exact .ok _
    · exact .invalid (by decide)
  | none =>
    refine (NotOps.textParam (by decide)).bind fun template => ?_
    cases template with
    | some template => exact .ok _
    | none => exact .missing

theorem joinItems_notOps : NotOps (joinItems op b) := by
  unfold joinItems
  split
  · exact inputArray_notOps
  · split
    · exact .ok _
    · exact .invalid (by decide)
    · exact .missing

theorem responseType_notOps : NotOps (ResponseType.ofOp op) := by
  refine (NotOps.textParam (by decide)).bind fun type => ?_
  split
  · exact .ok _
  · exact .ok _
  · exact .ok _
  · exact .invalid (by decide)

theorem requestHeaders_notOps : NotOps (requestHeaders op b) := by
  unfold requestHeaders
  split
  · exact .ok _
  · split
    · exact .ok _
    · exact .invalid (by decide)

theorem request_notOps : NotOps (request op b) := by
  refine (NotOps.requireText (by decide)).bind fun url => ?_
  refine (NotOps.textParam (by decide)).bind fun method => ?_
  have hrest : NotOps (do
      let headers ← requestHeaders op b
      let r : Http.Request :=
        { method := upperCase (method.getD "GET"), url := b.resolve url, headers, body := none }
      return (op.param? "body").elim r fun v => withBody r (b.resolveValue v)) :=
    requestHeaders_notOps.bind fun headers => .ok _
  dsimp only
  split
  · exact (NotOps.invalid (by decide)).bind fun _ => hrest
  · exact hrest

theorem persona_notOps {config : Config} : NotOps (persona config op b) :=
  (NotOps.textParam (by decide)).bind fun _ => .ok _

end Executor

namespace Http

theorem successful_notOps (r : Response) : NotOps r.successful := by
  unfold Response.successful
  split
  · exact .error id
  · exact .ok _

theorem json_notOps (r : Response) : NotOps r.json := by
  unfold Response.json
  split
  · exact .error id
  · exact .mapError fun _ => id

theorem ofValue_notOps (v : Value) : NotOps (Response.ofValue v) := by
  unfold Response.ofValue
  split
  · exact .error id
  · split
    · exact .ok _
    · exact .error id
  · exact .error id

end Http

/-! ## Flows -/

/-- Of what executors do by themselves the gauge counts only faults of inner ops. -/
structure Gauge.SuitsLeaves (δ : Gauge) : Prop extends δ.Suits where
  signal : δ .signal = 0
  consult : ∀ service question, δ (.consult service question) = 0

variable {δ : Gauge}

namespace Flow

variable {α : Type} {k c : Int} {P : α → Int → Prop}

theorem needs_ofExcept (hδ : δ.Suits) {r : Except Fault α} (h : NotOps r) :
    (ofExcept r).Needs δ 0 :=
  costs_ofExcept (fun _ _ => trivial) fun e he => hδ.raise e (h e he)

theorem cancelled_quiet (hδ : δ.Suits) : δ (.raise .cancelled) = 0 :=
  hδ.raise _ id

theorem Stays.guardPauses (hδ : δ.SuitsLeaves) {f : Flow α} (h : f.Stays δ k P c) (hc : c ≤ k) :
    f.guardPauses.Stays δ k P c := by
  induction f generalizing c with
  | done r => exact h
  | starved => trivial
  | pause rest ih =>
    refine ⟨?_, fun stop => ?_⟩
    · rw [hδ.signal]
      omega
    · rw [hδ.signal, Int.add_zero]
      have hcancelled := cancelled_quiet hδ.toSuits
      cases stop with
      | true => exact ⟨by omega, fun _ => hcancelled⟩
      | false => exact ih () h hc
  | act a next ih => exact ⟨h.1, fun x => ih x (h.2 x) h.1⟩

theorem Needs.abortable (hδ : δ.SuitsLeaves) {f : Flow α} (h : f.Needs δ 0) :
    f.abortable.Needs δ 0 := by
  refine ⟨?_, fun stop => ?_⟩
  · rw [hδ.signal]
    exact Int.le_refl 0
  · rw [hδ.signal, Int.add_zero]
    cases stop with
    | true => exact costs_fail (cancelled_quiet hδ.toSuits)
    | false => exact Stays.guardPauses hδ h (Int.le_refl 0)

end Flow

/-- Nothing that the language model does is counted. -/
structure LanguageModel.IsQuiet (δ : Gauge) (m : LanguageModel) : Prop where
  prompt : ∀ persona text, (m.prompt persona text).Needs δ 0
  promptForJson : ∀ persona text schema, (m.promptForJson persona text schema).Needs δ 0

namespace Executor

theorem reading_isQuiet (hδ : δ.SuitsLeaves) {f : Op → Bindings → Except Fault Value}
    (h : ∀ op b, NotOps (f op b)) : (reading f).IsLeaf (Flow.Needs δ 0) :=
  ⟨fun config => reading f ⟨config, 0, fun _ _ => .starved⟩, rfl, fun _ op context =>
    (Flow.view_costs hδ.toSuits context).bind fun b _ =>
      Flow.needs_ofExcept hδ.toSuits (h op b)⟩

theorem prompt_isQuiet (hδ : δ.SuitsLeaves) {m : LanguageModel} (hm : m.IsQuiet δ) :
    (prompt m).IsLeaf (Flow.Needs δ 0) := by
  refine ⟨fun config => prompt m ⟨config, 0, fun _ _ => .starved⟩, rfl, fun config op context => ?_⟩
  refine (Flow.view_costs hδ.toSuits context).bind fun b _ => ?_
  refine (Flow.needs_ofExcept hδ.toSuits persona_notOps).bind fun persona _ => ?_
  refine (Flow.needs_ofExcept hδ.toSuits (.requireText (by decide))).bind fun text _ => ?_
  exact (Flow.Needs.abortable hδ (hm.prompt _ _)).bind fun _ _ => Flow.costs_ok trivial

theorem promptForJson_isQuiet (hδ : δ.SuitsLeaves) {m : LanguageModel} (hm : m.IsQuiet δ) :
    (promptForJson m).IsLeaf (Flow.Needs δ 0) := by
  refine ⟨fun config => promptForJson m ⟨config, 0, fun _ _ => .starved⟩, rfl,
    fun config op context => ?_⟩
  refine (Flow.view_costs hδ.toSuits context).bind fun b _ => ?_
  refine (Flow.needs_ofExcept hδ.toSuits persona_notOps).bind fun persona _ => ?_
  refine (Flow.needs_ofExcept hδ.toSuits (.requireText (by decide))).bind fun text _ => ?_
  split
  · exact Flow.needs_ofExcept hδ.toSuits .missing
  · exact Flow.Needs.abortable hδ (hm.promptForJson _ _ _)

theorem outside_isQuiet (hδ : δ.SuitsLeaves) (r : Http.Request) (timeoutMs : Nat) :
    (Http.outside r timeoutMs).Needs δ 0 :=
  (Flow.costs_perform (hδ.consult _ _)).bind fun _ _ =>
    Flow.needs_ofExcept hδ.toSuits (Http.ofValue_notOps _)

theorem send_isQuiet (hδ : δ.SuitsLeaves) {client : Http.Client}
    (hc : ∀ r timeoutMs, Flow.Needs δ 0 (client r timeoutMs)) (timeoutMs : Nat)
    (type : ResponseType) (r : Http.Request) : (send client timeoutMs type r).Needs δ 0 := by
  -- Whatever is made of the answer.
  have hsend : ∀ k : Http.Response → Flow Value, (∀ answer, (k answer).Needs δ 0) →
      Flow.Needs δ 0 (do
        if !r.isSendable then Flow.fail (.http .builder)
        k (← (← client r timeoutMs).successful) : Flow Value) := by
    intro k hk
    have hanswer : Flow.Needs δ 0 (do
        k (← (← client r timeoutMs).successful) : Flow Value) := by
      refine (hc r timeoutMs).bind fun answer _ => ?_
      have hsuccess : (Flow.ofExcept answer.successful).Needs δ 0 :=
        Flow.needs_ofExcept hδ.toSuits (Http.successful_notOps answer)
      exact hsuccess.bind fun answer _ => hk answer
    cases hs : r.isSendable with
    | true => exact hanswer
    | false =>
      have hfail : (Flow.fail (.http .builder) : Flow PUnit).Needs δ 0 :=
        Flow.needs_ofExcept hδ.toSuits (.error id)
      exact hfail.bind fun _ _ => hanswer
  unfold send
  refine hsend _ fun answer => ?_
  cases type with
  | json => exact Flow.needs_ofExcept hδ.toSuits (Http.json_notOps answer)
  | text => exact Flow.costs_ok trivial

theorem fetch_isQuiet (hδ : δ.SuitsLeaves) {client : Http.Client}
    (hc : ∀ r timeoutMs, Flow.Needs δ 0 (client r timeoutMs)) :
    (fetch client).IsLeaf (Flow.Needs δ 0) := by
  refine ⟨fun config => fetch client ⟨config, 0, fun _ _ => .starved⟩, rfl,
    fun config op context => ?_⟩
  refine (Flow.view_costs hδ.toSuits context).bind fun b _ => ?_
  refine (Flow.needs_ofExcept hδ.toSuits responseType_notOps).bind fun type _ => ?_
  refine (Flow.needs_ofExcept hδ.toSuits request_notOps).bind fun r _ => ?_
  exact Flow.Needs.abortable hδ (send_isQuiet hδ hc config.fetchTimeoutMs type r)

end Executor

/-! ## Engines -/

theorem Registry.builtin_isQuiet (hδ : δ.SuitsLeaves) {model : Option LanguageModel}
    (hm : ∀ m ∈ model, m.IsQuiet δ) {kind : String} {x : Executor}
    (h : (kind, x) ∈ (builtin model).entries) : x.IsGroup ∨ x.IsLeaf (Flow.Needs δ 0) := by
  cases mem_builtin_iff.1 h with
  | sequential => exact .inl (.inl rfl)
  | parallel => exact .inl (.inr (.inl rfl))
  | map => exact .inl (.inr (.inr rfl))
  | format =>
    exact .inr (Executor.reading_isQuiet hδ fun op b =>
      (NotOps.requireText (by decide)).bind fun _ => .ok _)
  | join =>
    exact .inr (Executor.reading_isQuiet hδ fun op b =>
      (NotOps.textParam (by decide)).bind fun _ => Executor.joinItems_notOps.bind fun _ => .ok _)
  | set =>
    refine .inr (Executor.reading_isQuiet hδ fun op b => ?_)
    split
    · exact .ok _
    · exact .missing
  | extractJson =>
    exact .inr (Executor.reading_isQuiet hδ fun op b =>
      Executor.inputText_notOps.bind fun _ => .ok _)
  | parseJson =>
    refine .inr (Executor.reading_isQuiet hδ fun op b => Executor.inputText_notOps.bind fun _ => ?_)
    exact .mapError fun _ => id
  | fetch => exact .inr (Executor.fetch_isQuiet hδ (Executor.outside_isQuiet hδ))
  | prompt hmodel => exact .inr (Executor.prompt_isQuiet hδ (hm _ hmodel))
  | promptForJson hmodel => exact .inr (Executor.promptForJson_isQuiet hδ (hm _ hmodel))

/-- **An engine that is built from leaves** of which nothing is counted is made of groups and such
leaves. -/
theorem EngineBuilder.quiet_build (hδ : δ.SuitsLeaves) {b : EngineBuilder}
    (hm : ∀ m ∈ b.model, m.IsQuiet δ)
    (hhost : ∀ host ∈ b.executors.entries, host.2.IsLeaf (Flow.Needs δ 0)) :
    b.build.Composed (Flow.Needs δ 0) := by
  intro kind x hx
  rcases EngineBuilder.builtin_or_supplied hx with hbuiltin | hown
  · exact Registry.builtin_isQuiet hδ hm hbuiltin
  · exact .inr (hhost _ hown)

end WorkflowEngine
