import Mathlib.Data.Set.Card
import WorkflowEngine.Proofs.Binding
import WorkflowEngine.Proofs.Library
import WorkflowEngine.Rehearsal.Executors

/-!
# Which executor a kind resolves to

A host calls a builder any number of times, in any order, and then has the engine built. For every
kind that engine has the executor that the host has supplied last, or else the built-in one, or else
none (`EngineBuilder.Resolves`).

The calls are laid over each other at three places: one executor over the earlier ones, a registry
over the earlier ones, and all of the host's over the library, which has two kinds more if the host
has given a model. None of this shows in the result.

**Invariant (`EngineBuilder.after_iff`).** After every call, what the builder holds is what the last
call that gave anything has given. This is kept by a call if the call either replaces what is held
by what it gives, or gives nothing and leaves what is held; it is used for the executor of a kind
and for the model.
-/

namespace WorkflowEngine

/-! ## The last that was given -/

/-- The last of the calls to give anything has given `b`. -/
def Latest {α β : Type} (gives : α → β → Prop) (calls : List α) (b : β) : Prop :=
  ∃ before call after, calls = before ++ call :: after ∧ gives call b ∧
    ∀ later ∈ after, ∀ c, ¬gives later c

namespace Latest

variable {α β : Type} {gives : α → β → Prop} {calls : List α} {call : α} {b : β}

theorem not_nil : ¬Latest gives [] b := by
  rintro ⟨before, call, after, h, -⟩
  simp at h

/-- One more call gives `b`, or it gives nothing and `b` has been given before. -/
theorem concat_iff : Latest gives (calls ++ [call]) b ↔
    gives call b ∨ (∀ c, ¬gives call c) ∧ Latest gives calls b := by
  constructor
  · rintro ⟨before, last, after, heq, hlast, hafter⟩
    -- Either nothing came after the call that gave `b`, or the new call did.
    rcases List.eq_nil_or_concat after with rfl | ⟨after, final, rfl⟩
    · obtain ⟨rfl, h⟩ := List.append_inj' heq rfl
      obtain rfl : call = last := by simpa using h
      exact .inl hlast
    · have heq : calls ++ [call] = (before ++ last :: after) ++ [final] := by simpa using heq
      obtain ⟨rfl, h⟩ := List.append_inj' heq rfl
      obtain rfl : call = final := by simpa using h
      refine .inr ⟨hafter call (by simp), before, last, after, rfl, hlast, fun later hlater => ?_⟩
      exact hafter later (by simp [hlater])
  · rintro (hgives | ⟨hnone, before, last, after, rfl, hlast, hafter⟩)
    · exact ⟨calls, call, [], rfl, hgives, by simp⟩
    · refine ⟨before, last, after ++ [call], by simp, hlast, fun later hlater => ?_⟩
      rcases List.mem_append.1 hlater with h | h
      · exact hafter later h
      · exact List.mem_singleton.1 h ▸ hnone

theorem forall_not_iff : (∀ b, ¬Latest gives calls b) ↔ ∀ call ∈ calls, ∀ b, ¬gives call b := by
  induction calls using List.reverseRecOn with
  | nil => simp [not_nil]
  | append_singleton calls call ih =>
    simp only [concat_iff, not_or, not_and, forall_and, List.mem_append, List.mem_singleton,
      or_imp, forall_eq, ← ih]
    constructor
    · rintro ⟨hcall, hcalls⟩
      exact ⟨fun b => hcalls b hcall, hcall⟩
    · rintro ⟨hcalls, hcall⟩
      exact ⟨hcall, fun b _ => hcalls b⟩

end Latest

/-! ## Calls on a builder -/

namespace EngineBuilder

/-- What a host can do with a builder. -/
inductive Call where
  | executor (kind : String) (x : Executor)
  | function (kind : String) (f : Op → Handle → Flow Value)
  | allOf (r : Registry)
  | languageModel (m : LanguageModel)
  | configured (c : Config)

/-- The builder after one more call. -/
def call (b : EngineBuilder) : Call → EngineBuilder
  | .executor kind x => b.executor kind x
  | .function kind f => b.function kind f
  | .allOf r => b.allOf r
  | .languageModel m => b.languageModel m
  | .configured c => b.configured c

/-- The builder after some calls. -/
def after (calls : List Call) : EngineBuilder := calls.foldl call {}

theorem after_concat (calls : List Call) (c : Call) :
    after (calls ++ [c]) = (after calls).call c := by simp [after]

namespace Call

/-- The call supplies an executor for a kind. A registry supplies one for each of its kinds. -/
def Supplies (kind : String) : Call → Executor → Prop
  | .executor name x, y => kind = name ∧ x = y
  | .function name f, y => kind = name ∧ (fun _ => f) = y
  | .allOf r, y => (kind, y) ∈ r.entries
  | .languageModel _, _ | .configured _, _ => False

/-- The call gives a language model. -/
def GivesModel : Call → LanguageModel → Prop
  | .languageModel m, m' => m = m'
  | .executor _ _, _ | .function _ _, _ | .allOf _, _ | .configured _, _ => False

end Call

/-- The executor that a kind has after some calls: the one that the host has supplied last, or else,
if it has supplied none, the built-in one. The built-in executors that ask a model ask the one that
the host has given last. -/
inductive Resolves (calls : List Call) (kind : String) (x : Executor) : Prop
  | supplied : Latest (Call.Supplies kind) calls x → Resolves calls kind x
  | builtin : (∀ call ∈ calls, ∀ y, ¬call.Supplies kind y) →
      Registry.Builtin Http.outside (Latest Call.GivesModel calls) kind x → Resolves calls kind x

variable {b : EngineBuilder} {calls : List Call} {kind : String} {x : Executor}

/-! ## What the builder holds -/

/-- If every call replaces what the builder holds by what it gives, or gives nothing and leaves what
is held, then what is held after some calls is the last that was given. -/
theorem after_iff {β : Type} (held : EngineBuilder → Option β) {gives : Call → β → Prop}
    (hnone : held {} = none) (hcall : ∀ (b : EngineBuilder) (c : Call) (y : β),
      held (b.call c) = some y ↔ gives c y ∨ (∀ z, ¬gives c z) ∧ held b = some y) {y : β} :
    held (after calls) = some y ↔ Latest gives calls y := by
  -- From the end, as the last call is the one that decides.
  induction calls using List.reverseRecOn with
  | nil => simp [after, hnone, Latest.not_nil]
  | append_singleton calls c ih => rw [after_concat, hcall, Latest.concat_iff, ih]

theorem get?_executor_iff {name : String} {y : Executor} :
    (b.executor name y).executors.get? kind = some x ↔
      (kind = name ∧ y = x) ∨ (∀ z, ¬(kind = name ∧ y = z)) ∧ b.executors.get? kind = some x := by
  rw [executor, Record.get?_insert]
  by_cases hkind : kind = name <;> simp [hkind]

theorem get?_allOf_iff {r : Registry} : (b.allOf r).executors.get? kind = some x ↔
    (kind, x) ∈ r.entries ∨ (∀ z, (kind, z) ∉ r.entries) ∧ b.executors.get? kind = some x := by
  simp only [allOf, Record.get?_union_eq_some_iff, Record.mem_entries_iff,
    Option.eq_none_iff_forall_ne_some, ne_eq]

theorem get?_call_iff (kind : String) (b : EngineBuilder) (c : Call) (x : Executor) :
    (b.call c).executors.get? kind = some x ↔
      c.Supplies kind x ∨ (∀ z, ¬c.Supplies kind z) ∧ b.executors.get? kind = some x := by
  cases c with
  | executor name y => exact get?_executor_iff
  | function name f => exact get?_executor_iff
  | allOf r => exact get?_allOf_iff
  | languageModel m | configured c => simp [call, languageModel, configured, Call.Supplies]

theorem model_call_iff (b : EngineBuilder) (c : Call) (m : LanguageModel) :
    (b.call c).model = some m ↔
      c.GivesModel m ∨ (∀ m', ¬c.GivesModel m') ∧ b.model = some m := by
  cases c <;> simp [call, executor, function, allOf, languageModel, configured, Call.GivesModel]

/-- **The engine has for every kind the executor that the kind resolves to.** -/
theorem get?_build_iff :
    (after calls).build.registry.get? kind = some x ↔ Resolves calls kind x := by
  have hhost : ∀ y, (after calls).executors.get? kind = some y ↔
      Latest (Call.Supplies kind) calls y :=
    fun y => after_iff (·.executors.get? kind) rfl (get?_call_iff kind)
  have hmodel : (· ∈ (after calls).model) = Latest Call.GivesModel calls :=
    funext fun m => propext (after_iff (·.model) rfl model_call_iff)
  have hnone : (after calls).executors.get? kind = none ↔
      ∀ call ∈ calls, ∀ y, ¬call.Supplies kind y := by
    rw [Option.eq_none_iff_forall_ne_some, ← Latest.forall_not_iff]
    exact forall_congr' fun y => not_congr (hhost y)
  refine Record.get?_union_eq_some_iff.trans ?_
  rw [hhost, hnone, Registry.get?_builtin_iff, hmodel]
  constructor
  · rintro (h | ⟨hhost, h⟩)
    · exact .supplied h
    · exact .builtin hhost h
  · rintro (h | ⟨hhost, h⟩)
    · exact .inl h
    · exact .inr ⟨hhost, h⟩

end EngineBuilder

/-! ## What the engine does for a kind -/

/-- The number of names of a record is the number of names that are bound. -/
theorem Record.size_eq_ncard {α : Type} (r : Record α) :
    r.size = {key | ∃ value, r.get? key = some value}.ncard := by
  have hset : {key | ∃ value, r.get? key = some value} = (r.keys.toFinset : Set String) := by
    ext key
    simp [mem_keys_iff]
  have hdistinct : r.keys.Nodup := List.pairwise_map.2 r.distinct
  rw [hset, Set.ncard_coe_finset, List.toFinset_card_of_nodup hdistinct, keys, List.length_map,
    size]

namespace Engine

/-- The engine executes an op by an executor: it announces the op, runs the executor, and binds and
announces its result. -/
def ExecutesBy (e : Engine) (op : Op) (x : Executor) : Prop :=
  ∀ n context, e.exec (n + 1) op context = (Flow.announce .opPre op context).bind fun _ =>
    (x (e.dispatcher n) op context).bind (complete op context)

/-- The engine refuses an op: it announces the op and fails, and does nothing else, so that all
contexts are left as they are. -/
structure Refuses (e : Engine) (op : Op) (n : Nat) (context : Handle) (env : Environment)
    (w : World) : Prop where
  outcome : ((e.exec (n + 1) op context).run env w).1 = .ended (.error (.unknownKind op.kind))
  trace : (e.exec (n + 1) op context).trace env w =
    [.pre op context, .did (.raise (.unknownKind op.kind)) ()]
  contexts : ((e.exec (n + 1) op context).run env w).2.contexts = w.contexts

variable {e : Engine} {op : Op}

theorem executesBy_of_get? {x : Executor} (h : e.registry.get? op.kind = some x) :
    e.ExecutesBy op x := by
  intro n context
  rw [exec_succ, carryOut, h]
  rfl

theorem refuses_of_get? (h : e.registry.get? op.kind = none) (n : Nat) (context : Handle)
    (env : Environment) (w : World) : e.Refuses op n context env w := by
  have hexec : e.exec (n + 1) op context = (Flow.announce .opPre op context).bind fun _ =>
      Flow.fail (.unknownKind op.kind) := by
    rw [exec_succ, carryOut, h]
    rfl
  exact ⟨by rw [hexec]; rfl, by rw [hexec]; rfl, by rw [hexec]; rfl⟩

end Engine

/-- **Which executor a kind has.** After any calls on a builder, the engine that is built

* has for every kind the executor that the host has supplied last, or else the built-in one, and
  executes the ops of that kind by it;
* refuses the ops of a kind for which there is neither;
* and shows the kinds that have an executor, each once and in increasing order, and their number. -/
theorem EngineBuilder.latest_supplied_wins (calls : List Call) :
    (∀ kind x, (after calls).build.registry.get? kind = some x ↔ Resolves calls kind x) ∧
    (∀ op x, Resolves calls op.kind x → (after calls).build.ExecutesBy op x) ∧
    (∀ op, (¬∃ x, Resolves calls op.kind x) →
      ∀ n context env w, (after calls).build.Refuses op n context env w) ∧
    (∀ kind, kind ∈ (after calls).build.registry.keys ↔ ∃ x, Resolves calls kind x) ∧
    (after calls).build.registry.keys.Pairwise (· < ·) ∧
    (after calls).build.registry.size = {kind | ∃ x, Resolves calls kind x}.ncard := by
  refine ⟨fun kind x => get?_build_iff, fun op x h => ?_, fun op h => ?_, fun kind => ?_,
    Record.keys_increasing _, ?_⟩
  · exact Engine.executesBy_of_get? (get?_build_iff.2 h)
  · refine Engine.refuses_of_get? (Option.eq_none_iff_forall_ne_some.2 fun x hx => h ?_)
    exact ⟨x, get?_build_iff.1 hx⟩
  · simp only [Record.mem_keys_iff, get?_build_iff]
  · simp only [Record.size_eq_ncard, get?_build_iff]

/-- A model that gives the same reply to everything. -/
def LanguageModel.constant (reply : String) : LanguageModel := .ofPrompt fun _ _ => return reply

/-- A host that supplies some kinds twice, and the kind `prompt` before it gives a model. -/
def EngineBuilder.layered : List Call := [
  .allOf (.ofList [("prompt", Rehearsal.wait), ("rescan", Rehearsal.increment)]),
  .languageModel (.constant "first"),
  .function "format" fun _ _ => return .null,
  .executor "rescan" Rehearsal.less,
  .languageModel (.constant "second"),
  .allOf (.ofList [("format", Rehearsal.push)])]

theorem EngineBuilder.latest_supplied_wins_of_layered :
    (after layered).build.registry.get? "prompt" = some Rehearsal.wait ∧
    (after layered).build.registry.get? "promptForJson" =
      some (Executor.promptForJson (.constant "second")) ∧
    (after layered).build.registry.get? "format" = some Rehearsal.push ∧
    (after layered).build.ExecutesBy (.new "rescan") Rehearsal.less ∧
    (∀ n context env w, (after layered).build.Refuses (.new "nowhere") n context env w) ∧
    "join" ∈ (after layered).build.registry.keys ∧
    {kind | ∃ x, Resolves layered kind x}.ncard = 12 := by
  obtain ⟨hfound, hexecutes, hrefuses, hkeys, -, hsize⟩ := latest_supplied_wins layered
  have hhost : ∀ kind ∉ ["prompt", "rescan", "format"], ∀ call ∈ layered, ∀ y,
      ¬call.Supplies kind y := by
    simp +contextual [layered, Call.Supplies, Record.mem_ofList_iff]
  have hlibrary : ∀ {model kind x}, Registry.Builtin Http.outside model kind x →
      kind ≠ "nowhere" := by
    intro model kind x h
    cases h <;> decide
  have hnowhere : ¬∃ x, Resolves layered "nowhere" x := by
    rintro ⟨x, h | ⟨-, h⟩⟩
    · exact Latest.forall_not_iff.2 (hhost _ (by decide)) x h
    · exact hlibrary h rfl
  refine ⟨(hfound _ _).2 (.supplied ⟨[], _, _, rfl, ?_, ?_⟩), (hfound _ _).2 (.builtin ?_ ?_),
    (hfound _ _).2 (.supplied ⟨layered.take 5, _, _, rfl, ?_, ?_⟩),
    hexecutes _ _ (.supplied ⟨layered.take 3, _, _, rfl, ⟨rfl, rfl⟩, ?_⟩),
    hrefuses _ hnowhere, (hkeys _).2 ⟨_, .builtin (hhost _ (by decide)) .join⟩, ?_⟩
  · simp [Call.Supplies, Record.mem_ofList_iff]
  · simp [Call.Supplies, Record.mem_ofList_iff]
  · exact hhost _ (by decide)
  · exact .promptForJson ⟨layered.take 4, _, _, rfl, rfl, by simp [Call.GivesModel]⟩
  · simp [Call.Supplies, Record.mem_ofList_iff]
  · simp
  · simp [Call.Supplies, Record.mem_ofList_iff, Op.new]
  · exact hsize.symm.trans (by decide +kernel)

end WorkflowEngine
