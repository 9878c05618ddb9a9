import WorkflowEngine.Proofs.Library
import WorkflowEngine.Proofs.Monitor.Engine

/-!
# What the built-in executors obey

The built-in executors other than the groups read their context, make a result out of it, and
perhaps ask a language model or send a request. So they keep within every monitor that suits the
engine, if the model and the client do; in particular they write nothing.

Main statement: `Registry.builtin_cases`, which also says which built-in kinds are groups.
-/

namespace WorkflowEngine

variable {M : Monitor}

/-- The language model keeps within the monitor. -/
structure LanguageModel.Keeps (M : Monitor) (m : LanguageModel) : Prop where
  prompt : ∀ persona text, (m.prompt persona text).Keeps M
  promptForJson : ∀ persona text schema, (m.promptForJson persona text schema).Keeps M

/-- The client keeps within the monitor. -/
def Http.Client.Keeps (M : Monitor) (client : Http.Client) : Prop :=
  ∀ r timeoutMs, Flow.Keeps M (client r timeoutMs)

/-- The language model does nothing bad. -/
structure LanguageModel.Avoids (bad : Action → Prop) (m : LanguageModel) : Prop where
  prompt : ∀ persona text, (m.prompt persona text).Avoids bad
  promptForJson : ∀ persona text schema, (m.promptForJson persona text schema).Avoids bad

/-- The client does nothing bad. -/
def Http.Client.Avoids (bad : Action → Prop) (client : Http.Client) : Prop :=
  ∀ r timeoutMs, Flow.Avoids bad (client r timeoutMs)

theorem LanguageModel.Avoids.keeps {bad : Action → Prop} {m : LanguageModel} (h : m.Avoids bad)
    (hneutral : ∀ a, ¬bad a → M.Neutral a) (hfails : ∀ e, M.fails M.live e) : m.Keeps M where
  prompt persona text := (h.prompt persona text).keeps hneutral hfails
  promptForJson persona text schema := (h.promptForJson persona text schema).keeps hneutral hfails

theorem Http.Client.Avoids.keeps {bad : Action → Prop} {client : Http.Client}
    (h : client.Avoids bad) (hneutral : ∀ a, ¬bad a → M.Neutral a)
    (hfails : ∀ e, M.fails M.live e) : client.Keeps M :=
  fun r timeoutMs => (h r timeoutMs).keeps hneutral hfails

theorem Flow.keeps_ofExcept {α : Type} (hM : M.SuitsLeaves) (r : Except Fault α) :
    (Flow.ofExcept r).Keeps M := Flow.obeys_ofExcept hM fun _ _ => trivial

theorem Http.outside_keeps (hM : M.SuitsLeaves)
    (hconsult : ∀ service question, M.Neutral (.consult service question)) : Http.outside.Keeps M :=
  fun _ _ => (Flow.obeys_perform (hconsult _ _)).bind fun _ _ => Flow.keeps_ofExcept hM _

namespace Executor

theorem reading_isLeaf (hM : M.SuitsLeaves) (f : Op → Bindings → Except Fault Value) :
    (reading f).IsLeaf (Flow.Keeps M) :=
  ⟨fun config => reading f ⟨config, 0, fun _ _ => .starved⟩, rfl, fun _ _ context =>
    (Flow.keeps_view hM context).bind fun _ _ => Flow.keeps_ofExcept hM _⟩

theorem prompt_isLeaf (hM : M.SuitsLeaves) {m : LanguageModel} (hm : m.Keeps M) :
    (prompt m).IsLeaf (Flow.Keeps M) := by
  refine ⟨fun config => prompt m ⟨config, 0, fun _ _ => .starved⟩, rfl, fun config op context => ?_⟩
  refine (Flow.keeps_view hM context).bind fun b _ => ?_
  refine (Flow.keeps_ofExcept hM (persona config op b)).bind fun persona _ => ?_
  refine (Flow.keeps_ofExcept hM (op.requireText "prompt")).bind fun text _ => ?_
  exact ((hm.prompt _ _).abortable hM).bind fun _ _ => Flow.obeys_ok trivial

theorem promptForJson_isLeaf (hM : M.SuitsLeaves) {m : LanguageModel} (hm : m.Keeps M) :
    (promptForJson m).IsLeaf (Flow.Keeps M) := by
  refine ⟨fun config => promptForJson m ⟨config, 0, fun _ _ => .starved⟩, rfl,
    fun config op context => ?_⟩
  refine (Flow.keeps_view hM context).bind fun b _ => ?_
  refine (Flow.keeps_ofExcept hM (persona config op b)).bind fun persona _ => ?_
  refine (Flow.keeps_ofExcept hM (op.requireText "prompt")).bind fun text _ => ?_
  split
  · exact Flow.obeys_fail hM _ _
  · exact (hm.promptForJson _ _ _).abortable hM

theorem send_keeps (hM : M.SuitsLeaves) {client : Http.Client} (hc : client.Keeps M)
    (timeoutMs : Nat) (type : ResponseType) (r : Http.Request) :
    (send client timeoutMs type r).Keeps M := by
  -- Whatever is made of the answer.
  have hsend : ∀ k : Http.Response → Flow Value, (∀ answer, (k answer).Keeps M) →
      Flow.Keeps M (do
        if !r.isSendable then Flow.fail (.http .builder)
        k (← (← client r timeoutMs).successful) : Flow Value) := by
    intro k hk
    have hanswer : Flow.Keeps M (do k (← (← client r timeoutMs).successful) : Flow Value) := by
      refine (hc r timeoutMs).bind fun answer _ => ?_
      exact (Flow.keeps_ofExcept hM answer.successful).bind fun answer _ => hk answer
    cases hs : r.isSendable with
    | true => exact hanswer
    | false => exact (Flow.obeys_fail hM (fun _ => True) _).bind fun _ _ => hanswer
  unfold send
  refine hsend _ fun answer => ?_
  cases type with
  | json => exact Flow.keeps_ofExcept hM answer.json
  | text => exact Flow.obeys_ok trivial

theorem fetch_isLeaf (hM : M.SuitsLeaves) {client : Http.Client} (hc : client.Keeps M) :
    (fetch client).IsLeaf (Flow.Keeps M) := by
  refine ⟨fun config => fetch client ⟨config, 0, fun _ _ => .starved⟩, rfl,
    fun config op context => ?_⟩
  refine (Flow.keeps_view hM context).bind fun b _ => ?_
  refine (Flow.keeps_ofExcept hM (ResponseType.ofOp op)).bind fun type _ => ?_
  refine (Flow.keeps_ofExcept hM (request op b)).bind fun r _ => ?_
  exact (send_keeps hM hc config.fetchTimeoutMs type r).abortable hM

end Executor

namespace Registry

/-- **The built-in executors are the groups and leaves that obey.** -/
theorem builtin_cases (hM : M.SuitsLeaves) {client : Http.Client} (hc : client.Keeps M)
    {model : Option LanguageModel} (hm : ∀ m ∈ model, m.Keeps M) {kind : String} {x : Executor}
    (h : (kind, x) ∈ (builtin model client).entries) :
    (kind = "parallel" ∧ x = Executor.parallel) ∨ x = Executor.sequential ∨ x = Executor.map ∨
      x.IsLeaf (Flow.Keeps M) := by
  cases mem_builtin_iff.1 h with
  | parallel => exact .inl ⟨rfl, rfl⟩
  | sequential => exact .inr (.inl rfl)
  | map => exact .inr (.inr (.inl rfl))
  | format | join | set | extractJson | parseJson =>
    exact .inr (.inr (.inr (Executor.reading_isLeaf hM _)))
  | fetch => exact .inr (.inr (.inr (Executor.fetch_isLeaf hM hc)))
  | prompt hmodel => exact .inr (.inr (.inr (Executor.prompt_isLeaf hM (hm _ hmodel))))
  | promptForJson hmodel =>
    exact .inr (.inr (.inr (Executor.promptForJson_isLeaf hM (hm _ hmodel))))

end Registry

/-- **An engine that is built from leaves is made of groups and leaves.** -/
theorem EngineBuilder.composed_build (hM : M.SuitsLeaves) (hc : Http.outside.Keeps M)
    {b : EngineBuilder} (hm : ∀ m ∈ b.model, m.Keeps M)
    (hhost : ∀ host ∈ b.executors.entries, host.2.IsLeaf (Flow.Keeps M)) :
    b.build.Composed (Flow.Keeps M) := by
  intro kind x hx
  rcases EngineBuilder.builtin_or_supplied hx with hbuiltin | hown
  · have hcases : (kind = "parallel" ∧ x = Executor.parallel) ∨ x = Executor.sequential ∨
        x = Executor.map ∨ x.IsLeaf (Flow.Keeps M) := Registry.builtin_cases hM hc hm hbuiltin
    rcases hcases with ⟨-, rfl⟩ | rfl | rfl | hleaf
    · exact .inl (.inr (.inl rfl))
    · exact .inl (.inl rfl)
    · exact .inl (.inr (.inr rfl))
    · exact .inr hleaf
  · exact .inr (hhost _ hown)

end WorkflowEngine
