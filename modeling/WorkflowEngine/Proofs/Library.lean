import WorkflowEngine.Engine

/-!
# The executors of this library

`Registry.Builtin` lists which executor each built-in kind has, without a registry. The registry of
this library holds these and no others (`Registry.get?_builtin_iff`), so what is to be shown of
every built-in executor is shown case by case.
-/

namespace WorkflowEngine

namespace Registry

/-- The kinds of this library and their executors. Those that ask a language model are there for
every model in use. -/
inductive Builtin (client : Http.Client) (model : LanguageModel → Prop) : String → Executor → Prop
  | format : Builtin client model "format" Executor.format
  | join : Builtin client model "join" Executor.join
  | set : Builtin client model "set" Executor.set
  | sequential : Builtin client model "sequential" Executor.sequential
  | parallel : Builtin client model "parallel" Executor.parallel
  | map : Builtin client model "map" Executor.map
  | extractJson : Builtin client model "extractJson" Executor.extractJson
  | parseJson : Builtin client model "parseJSON" Executor.parseJson
  | fetch : Builtin client model "fetch" (Executor.fetch client)
  | prompt {m : LanguageModel} :
      model m → Builtin client model "prompt" (Executor.prompt m)
  | promptForJson {m : LanguageModel} :
      model m → Builtin client model "promptForJson" (Executor.promptForJson m)

variable {client : Http.Client} {model : Option LanguageModel} {kind : String} {x : Executor}

theorem Builtin.mono {p q : LanguageModel → Prop} (h : Builtin client p kind x)
    (hmodel : ∀ m, p m → q m) : Builtin client q kind x := by
  cases h with
  | prompt hm => exact .prompt (hmodel _ hm)
  | promptForJson hm => exact .promptForJson (hmodel _ hm)
  | _ => constructor

theorem mem_plain_iff :
    (kind, x) ∈ (plain client).entries ↔ Builtin client (fun _ => False) kind x := by
  rw [plain, Record.mem_ofList_iff (by simp)]
  simp only [List.mem_cons, List.not_mem_nil, or_false, Prod.mk.injEq]
  constructor
  · rintro (⟨rfl, rfl⟩ | ⟨rfl, rfl⟩ | ⟨rfl, rfl⟩ | ⟨rfl, rfl⟩ | ⟨rfl, rfl⟩ | ⟨rfl, rfl⟩ |
      ⟨rfl, rfl⟩ | ⟨rfl, rfl⟩ | ⟨rfl, rfl⟩)
    · exact .format
    · exact .join
    · exact .set
    · exact .sequential
    · exact .parallel
    · exact .map
    · exact .extractJson
    · exact .parseJson
    · exact .fetch
  · intro h
    cases h with
    | prompt h | promptForJson h => exact h.elim
    | _ => simp

theorem mem_ofModel_iff {m : LanguageModel} : (kind, x) ∈ (ofModel m).entries ↔
    kind = "prompt" ∧ x = Executor.prompt m ∨
      kind = "promptForJson" ∧ x = Executor.promptForJson m := by
  rw [ofModel, Record.mem_ofList_iff (by simp)]
  simp

theorem get?_ofModel_eq_none {m : LanguageModel} (hprompt : kind ≠ "prompt")
    (hjson : kind ≠ "promptForJson") : (ofModel m).get? kind = none := by
  refine Option.eq_none_iff_forall_ne_some.2 fun x hx => ?_
  rcases mem_ofModel_iff.1 (Record.mem_of_get? hx) with ⟨hkind, -⟩ | ⟨hkind, -⟩
  · exact hprompt hkind
  · exact hjson hkind

/-- **The registry of this library** holds the built-in executors, and no others. -/
theorem get?_builtin_iff :
    (builtin model client).get? kind = some x ↔ Builtin client (· ∈ model) kind x := by
  cases model with
  | none =>
    refine (Record.mem_entries_iff.symm.trans mem_plain_iff).trans ⟨?_, ?_⟩
    · exact fun h => h.mono fun _ => False.elim
    · exact fun h => h.mono fun _ hm => nomatch hm
  | some m =>
    refine Record.get?_union_eq_some_iff.trans ?_
    rw [← Record.mem_entries_iff, ← Record.mem_entries_iff, mem_ofModel_iff, mem_plain_iff]
    constructor
    · rintro ((⟨rfl, rfl⟩ | ⟨rfl, rfl⟩) | ⟨-, hplain⟩)
      · exact .prompt rfl
      · exact .promptForJson rfl
      · exact hplain.mono fun _ => False.elim
    · intro h
      cases h with
      | prompt hm => exact .inl (.inl ⟨rfl, by rw [Option.mem_some.1 hm]⟩)
      | promptForJson hm => exact .inl (.inr ⟨rfl, by rw [Option.mem_some.1 hm]⟩)
      -- No other kind asks a model, so none of them is hidden.
      | _ => exact .inr ⟨get?_ofModel_eq_none (by decide) (by decide), by constructor⟩

theorem mem_builtin_iff :
    (kind, x) ∈ (builtin model client).entries ↔ Builtin client (· ∈ model) kind x :=
  Record.mem_entries_iff.trans get?_builtin_iff

end Registry

/-- The executors of an engine are built in, or its host has supplied them. -/
theorem EngineBuilder.builtin_or_supplied {b : EngineBuilder} {kind : String} {x : Executor}
    (h : b.build.registry.get? kind = some x) :
    (kind, x) ∈ (Registry.builtin b.model).entries ∨ (kind, x) ∈ b.executors.entries :=
  Record.mem_of_mem_insertAll (Record.mem_of_get? h)

end WorkflowEngine
