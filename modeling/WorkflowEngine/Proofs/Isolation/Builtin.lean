import WorkflowEngine.Proofs.Isolation.Engine
import WorkflowEngine.Proofs.Library
import WorkflowEngine.Rehearsal.Executors

/-!
# The built-in executors keep to the context that they are handed

The groups do (`Isolation.Engine`), and the others read the context of their op and perhaps ask the
outside, which has nothing to do with contexts. So an engine is contained if the executors of its
host are, and if its language model uses no contexts.
-/

namespace WorkflowEngine

variable {ρ : Pairing}

/-- A flow that has nothing to do with contexts mirrors itself, whatever is paired. -/
def Flow.Contextless {α : Type} (f : Flow α) : Prop := ∀ ρ, f.Echoes ρ f

theorem Flow.Contextless.bind {α β : Type} {f : Flow α} {k : α → Flow β} (h : f.Contextless)
    (hk : ∀ a, (k a).Contextless) : (f.bind k).Contextless :=
  fun ρ => (h ρ).bind fun ρ' a _ => hk a ρ'

theorem Flow.contextless_ofExcept {α : Type} (r : Except Fault α) : (ofExcept r).Contextless :=
  fun _ => echoes_ofExcept r

/-- The language model uses no contexts. -/
structure LanguageModel.Contextless (m : LanguageModel) : Prop where
  prompt : ∀ persona text, (m.prompt persona text).Contextless
  promptForJson : ∀ persona text schema, (m.promptForJson persona text schema).Contextless

theorem Http.outside_contextless (r : Request) (timeoutMs : Nat) :
    Flow.Contextless (outside r timeoutMs) := by
  have hconsult : (Flow.consult service r.toValue).Contextless := fun _ => Flow.echoes_bare trivial
  exact hconsult.bind fun _ => Flow.contextless_ofExcept _

namespace Executor

theorem reading_contained (f : Op → Bindings → Except Fault Value) : Contained (reading f) :=
  fun _ _ _ _ _ _ hk => (Flow.echoes_view hk).bind fun _ _ _ => Flow.echoes_ofExcept _

theorem prompt_contained {m : LanguageModel} (hm : m.Contextless) : Contained (prompt m) := by
  intro d _ ρ h k op hk
  refine (Flow.echoes_view hk).bind fun _ b _ => ?_
  refine (Flow.echoes_ofExcept (persona d.config op b)).bind fun _ persona _ => ?_
  refine (Flow.echoes_ofExcept (op.requireText "prompt")).bind fun _ text _ => ?_
  exact (hm.prompt _ _ _).abortable.bind fun _ _ _ => Flow.echoes_ok _

theorem promptForJson_contained {m : LanguageModel} (hm : m.Contextless) :
    Contained (promptForJson m) := by
  intro d _ ρ h k op hk
  refine (Flow.echoes_view hk).bind fun _ b _ => ?_
  refine (Flow.echoes_ofExcept (persona d.config op b)).bind fun _ persona _ => ?_
  refine (Flow.echoes_ofExcept (op.requireText "prompt")).bind fun _ text _ => ?_
  split
  · exact Flow.echoes_fail _
  · exact (hm.promptForJson _ _ _ _).abortable

theorem send_contextless (timeoutMs : Nat) (type : ResponseType) (r : Http.Request) :
    (send Http.outside timeoutMs type r).Contextless := by
  -- Whatever is made of the answer.
  have hsend : ∀ k : Http.Response → Flow Value, (∀ answer, (k answer).Contextless) →
      Flow.Contextless (do
        if !r.isSendable then Flow.fail (.http .builder)
        k (← (← Http.outside r timeoutMs).successful) : Flow Value) := by
    intro k hk
    have hanswer : Flow.Contextless (do
        k (← (← Http.outside r timeoutMs).successful) : Flow Value) := by
      refine (Http.outside_contextless r timeoutMs).bind fun answer => ?_
      exact (Flow.contextless_ofExcept answer.successful).bind fun answer => hk answer
    cases hs : r.isSendable with
    | true => exact hanswer
    | false => exact (Flow.contextless_ofExcept (.error _)).bind fun _ => hanswer
  unfold send
  refine hsend _ fun answer => ?_
  cases type with
  | json => exact Flow.contextless_ofExcept _
  | text => exact Flow.contextless_ofExcept (.ok answer.text)

theorem fetch_contained : Contained (fetch Http.outside) := by
  intro d _ ρ h k op hk
  refine (Flow.echoes_view hk).bind fun _ b _ => ?_
  refine (Flow.echoes_ofExcept (ResponseType.ofOp op)).bind fun _ type _ => ?_
  refine (Flow.echoes_ofExcept (request op b)).bind fun _ r _ => ?_
  exact (send_contextless d.config.fetchTimeoutMs type r _).abortable

end Executor

/-! ## Registries and engines -/

theorem Registry.builtin_contained {model : Option LanguageModel}
    (hm : ∀ m ∈ model, m.Contextless) {kind : String} {x : Executor}
    (h : (kind, x) ∈ (builtin model).entries) : x.Contained := by
  cases mem_builtin_iff.1 h with
  | sequential => exact Executor.sequential_contained
  | parallel => exact Executor.parallel_contained
  | map => exact Executor.map_contained
  | format | join | set | extractJson | parseJson => exact Executor.reading_contained _
  | fetch => exact Executor.fetch_contained
  | prompt hmodel => exact Executor.prompt_contained (hm _ hmodel)
  | promptForJson hmodel => exact Executor.promptForJson_contained (hm _ hmodel)

/-- **An engine is contained if what its host supplies is.** -/
theorem EngineBuilder.contained_build {b : EngineBuilder} (hm : ∀ m ∈ b.model, m.Contextless)
    (hhost : ∀ host ∈ b.executors.entries, host.2.Contained) : b.build.Contained := by
  intro kind x hx
  rcases EngineBuilder.builtin_or_supplied hx with hbuiltin | hown
  · exact Registry.builtin_contained hm hbuiltin
  · exact hhost _ hown

/-! ## Executors for rehearsals -/

namespace Rehearsal

/-- An executor that reads its context and then writes a key of it. -/
theorem contained_of_store {key : Op → String} {value result : Op → Bindings → Value}
    {x : Executor} (hx : x = fun _ op context => do
      let b ← Flow.view context
      Flow.store context (key op) (value op b)
      return result op b) : x.Contained := by
  subst hx
  intro d _ ρ h k op hk
  refine (Flow.echoes_view hk).bind fun ρ₁ b hle => ?_
  exact (Flow.echoes_store (hle h k hk) _ _).bind fun _ _ _ => Flow.echoes_ok _

theorem remove_contained : Executor.Contained remove := by
  intro d _ ρ h k op hk
  refine (Flow.echoes_view hk).bind fun ρ₁ b hle => ?_
  exact (Flow.echoes_unbind (hle h k hk) _).bind fun _ _ _ => Flow.echoes_ok _

theorem wait_contained : Executor.Contained wait := by
  intro d _ ρ h k op hk
  refine (Flow.echoes_wait _).bind fun ρ₁ _ hle => ?_
  exact (Flow.echoes_view (hle h k hk)).bind fun _ _ _ => Flow.echoes_ok _

theorem fail_contained : Executor.Contained fail :=
  fun _ _ _ _ _ _ _ => (Flow.echoes_wait _).bind fun _ _ _ => Flow.echoes_fail _

theorem cancel_contained : Executor.Contained cancel := by
  intro d _ ρ h k op _
  have hrequest : ∀ ρ, Flow.requestStop.Echoes ρ Flow.requestStop :=
    fun _ => Flow.echoes_bare (a := .requestStop) trivial
  exact (Flow.echoes_wait _).bind fun ρ₁ _ _ => (hrequest ρ₁).bind fun _ _ _ => Flow.echoes_ok _

/-- An executor that executes an op itself is as contained as its dispatcher. -/
theorem dispatch_contained : Executor.Contained dispatch := by
  intro d hd ρ h k op hk
  unfold dispatch
  split
  · exact Flow.echoes_fail _
  · next target _ =>
    split
    · exact hd ρ h k target hk
    · exact (hd.runOps hk [target]).bind fun _ _ _ => Flow.echoes_ok _
    · exact hd.dispatch hk target

theorem executors_contained : ∀ host ∈ executors.entries, host.2.Contained := by
  intro host hhost
  have hmem := Record.mem_of_mem_ofList hhost
  simp only [List.mem_cons, List.not_mem_nil, or_false] at hmem
  rcases hmem with rfl | rfl | rfl | rfl | rfl | rfl | rfl | rfl
  · exact contained_of_store rfl
  · exact contained_of_store rfl
  · exact contained_of_store rfl
  · exact remove_contained
  · exact wait_contained
  · exact fail_contained
  · exact cancel_contained
  · exact dispatch_contained

end Rehearsal

end WorkflowEngine
