import WorkflowEngine.Proofs.Library
import WorkflowEngine.Proofs.Replacement

/-!
# Null stands for a parameter that is not given

A parameter that should be a text or a number may be null, and then it counts as not given. Here
this is shown of whole runs: an op with a parameter that is null, and the same op without it, do the
same (`Engine.null_counts_as_absent`).

**Parameters that are taken as they are.** Null is a value like any other for those that are no
text and no number (`Op.rawParams`).

**An exception.** `join` looks for `inputKey` without regard to null before it turns to `items`. So
with null for `inputKey` the items of the op are not joined: it fails as if there were none.
-/

namespace WorkflowEngine

/-! ## Ops -/

namespace Op

/-- The op without a parameter. -/
def without (op : Op) (name : String) : Op := { op with params := op.params.erase name }

theorem param?_withParam (op : Op) (name key : String) (v : Value) :
    (op.withParam name v).param? key = if key = name then some v else op.param? key :=
  Record.get?_insert ..

theorem param?_without (op : Op) (name key : String) :
    (op.without name).param? key = if key = name then none else op.param? key :=
  Record.get?_erase ..

/-- The parameters that are taken as they are, null or not. -/
def rawParams : List String := ["ops", "items", "value", "schema", "headers", "body"]

example : ∀ name ∈ ["template", "inputKey", "separator", "itemVariable", "concurrency",
    "maxIterations", "condition", "text", "persona", "prompt"], name ∉ rawParams := by decide

/-- A parameter, if null counts as not given. -/
def given? (op : Op) (name : String) : Option Value :=
  match op.param? name with
  | some .null => none
  | o => o

theorem textParam_eq (op : Op) (name : String) : op.textParam name =
    match op.given? name with
    | none => .ok none
    | some (.string s) => .ok (some s)
    | some v => .error (op.invalid name (.notText v)) := by
  unfold textParam given?
  cases op.param? name with
  | none => rfl
  | some v => cases v <;> rfl

theorem natParam_eq (op : Op) (name : String) : op.natParam name =
    match op.given? name with
    | none => .ok none
    | some (.number n) =>
      match n.toNat? with
      | some k => .ok (some k)
      | none => .error (op.invalid name (.notNatural (.number n)))
    | some v => .error (op.invalid name (.notNatural v)) := by
  unfold natParam given?
  cases op.param? name with
  | none => rfl
  | some v => cases v <;> rfl

/-- The ops differ at most in parameters that are null in one of them and not given in the other,
and that are not taken as they are. -/
structure SameGiven (a b : Op) : Prop where
  kind : b.kind = a.kind
  binding : b.outputBinding = a.outputBinding
  given : ∀ name, b.given? name = a.given? name
  raw : ∀ name ∈ rawParams, b.param? name = a.param? name

theorem sameGiven_null (op : Op) {name : String} (h : name ∉ rawParams) :
    SameGiven (op.withParam name .null) (op.without name) where
  kind := rfl
  binding := rfl
  given key := by
    rw [given?, given?, param?_withParam, param?_without]
    by_cases hkey : key = name
    · simp only [if_pos hkey]
    · simp only [if_neg hkey]
  raw key hkey := by
    have hne : key ≠ name := fun heq => h (heq ▸ hkey)
    rw [param?_withParam, param?_without, if_neg hne, if_neg hne]

namespace SameGiven

variable {a b : Op}

theorem missing (h : a.SameGiven b) (name : String) : b.missing name = a.missing name := by
  rw [Op.missing, h.kind, Op.missing]

theorem invalid (h : a.SameGiven b) (name : String) (c : Complaint) :
    b.invalid name c = a.invalid name c := by
  rw [Op.invalid, h.kind, Op.invalid]

theorem textParam (h : a.SameGiven b) (name : String) : b.textParam name = a.textParam name := by
  simp only [textParam_eq, h.given, h.invalid]

theorem requireText (h : a.SameGiven b) (name : String) :
    b.requireText name = a.requireText name := by
  rw [Op.requireText, h.textParam, h.missing, Op.requireText]

theorem natParam (h : a.SameGiven b) (name : String) : b.natParam name = a.natParam name := by
  simp only [natParam_eq, h.given, h.invalid]

theorem innerOps (h : a.SameGiven b) : b.innerOps = a.innerOps := by
  unfold Op.innerOps
  rw [h.raw opsKey (by decide), h.missing]
  simp only [h.invalid]

end SameGiven

end Op

/-! ## Executors -/

/-- The executor does not tell null from a parameter that is not given, where it may be either. -/
def Executor.IgnoresNulls (x : Executor) : Prop :=
  ∀ a b : Op, a.SameGiven b → ∀ d context, x d b context = x d a context

namespace Executor

variable {a b : Op}

theorem inputArray_of_sameGiven (h : a.SameGiven b) : inputArray b = inputArray a := by
  funext bindings
  simp only [inputArray, h.requireText, h.invalid]

theorem inputText_of_sameGiven (h : a.SameGiven b) : inputText b = inputText a := by
  funext bindings
  simp only [inputText, h.textParam, h.invalid, h.missing]

theorem format_ignoresNulls : format.IgnoresNulls := by
  intro a b h d context
  simp only [format, reading, h.requireText]

theorem set_ignoresNulls : set.IgnoresNulls := by
  intro a b h d context
  simp only [set, reading, h.raw "value" (by decide), h.missing]

theorem extractJson_ignoresNulls : extractJson.IgnoresNulls := by
  intro a b h d context
  simp only [extractJson, reading, inputText_of_sameGiven h]

theorem parseJson_ignoresNulls : parseJson.IgnoresNulls := by
  intro a b h d context
  simp only [parseJson, reading, inputText_of_sameGiven h]

theorem sequential_ignoresNulls : sequential.IgnoresNulls := by
  intro a b h d context
  simp only [sequential, h.innerOps]

theorem parallel_ignoresNulls : parallel.IgnoresNulls := by
  intro a b h d context
  simp only [parallel, concurrency, h.innerOps, h.natParam]

theorem map_ignoresNulls : map.IgnoresNulls := by
  intro a b h d context
  simp only [map, inputArray_of_sameGiven h, h.textParam, h.innerOps]

theorem prompt_ignoresNulls (model : LanguageModel) : (prompt model).IgnoresNulls := by
  intro a b h d context
  simp only [prompt, persona, h.textParam, h.requireText]

theorem promptForJson_ignoresNulls (model : LanguageModel) :
    (promptForJson model).IgnoresNulls := by
  intro a b h d context
  simp only [promptForJson, persona, h.textParam, h.requireText, h.raw "schema" (by decide),
    h.missing]

theorem fetch_ignoresNulls (client : Http.Client) : (fetch client).IgnoresNulls := by
  intro a b h d context
  simp only [fetch, ResponseType.ofOp, request, requestHeaders, h.textParam, h.requireText,
    h.invalid, h.raw "headers" (by decide), h.raw "body" (by decide)]

theorem inputArray_of_not_given {op : Op} (h : op.given? "inputKey" = none) (bindings : Bindings) :
    inputArray op bindings = .error (op.missing "inputKey") := by
  simp only [inputArray, Op.requireText, Op.textParam_eq, h]
  rfl

/-- Without `items`, `join` works on `inputKey` and on nothing else. -/
theorem joinItems_of_no_items {op : Op} (h : op.param? "items" = none) :
    joinItems op = inputArray op := by
  funext bindings
  rw [joinItems]
  split
  · rfl
  · next hkey =>
    have hgiven : op.given? "inputKey" = none := by rw [Op.given?, hkey]
    rw [h, inputArray_of_not_given hgiven]

/-- `join` tells null from nothing in one case: when it has to choose between `inputKey` and
`items`. -/
theorem join_of_sameGiven (h : a.SameGiven b)
    (hchoice : a.param? "items" = none ∨ b.param? "inputKey" = a.param? "inputKey")
    (d : Dispatcher) (context : Handle) : join d b context = join d a context := by
  have hitems : joinItems b = joinItems a := by
    have hraw := h.raw "items" (by decide)
    rcases hchoice with hnone | hkey
    · rw [joinItems_of_no_items hnone, joinItems_of_no_items (hraw.trans hnone),
        inputArray_of_sameGiven h]
    · funext bindings
      simp only [joinItems, hkey, hraw, inputArray_of_sameGiven h, h.invalid, h.missing]
  simp only [join, reading, h.textParam, hitems]

/-- With null for `inputKey`, `join` does not turn to `items`. -/
theorem joinItems_null (op : Op) :
    joinItems ((op.without "inputKey").without "items") =
      joinItems (op.withParam "inputKey" .null) := by
  funext bindings
  have hkey : (op.withParam "inputKey" .null).param? "inputKey" = some .null :=
    (Op.param?_withParam ..).trans (if_pos rfl)
  have hnull : joinItems (op.withParam "inputKey" .null) bindings =
      .error (op.missing "inputKey") := by
    rw [joinItems, hkey]
    exact inputArray_of_not_given (by rw [Op.given?, hkey]) bindings
  have hitems : ((op.without "inputKey").without "items").param? "items" = none :=
    (Op.param?_without ..).trans (if_pos rfl)
  have hgiven : ((op.without "inputKey").without "items").given? "inputKey" = none := by
    simp [Op.given?, Op.param?_without]
  rw [hnull, joinItems_of_no_items hitems]
  exact inputArray_of_not_given hgiven bindings

end Executor

namespace Registry

/-- The executor is that of `join` for the kind `join`, and ignores nulls for any other kind. -/
def IgnoresNullsAt (kind : String) (x : Executor) : Prop :=
  if kind = "join" then x = Executor.join else x.IgnoresNulls

theorem builtin_ignoresNulls {model : Option LanguageModel} {client : Http.Client} {kind : String}
    {x : Executor} (h : (builtin model client).get? kind = some x) : IgnoresNullsAt kind x := by
  cases get?_builtin_iff.1 h with
  | format => exact Executor.format_ignoresNulls
  | join => exact rfl
  | set => exact Executor.set_ignoresNulls
  | sequential => exact Executor.sequential_ignoresNulls
  | parallel => exact Executor.parallel_ignoresNulls
  | map => exact Executor.map_ignoresNulls
  | extractJson => exact Executor.extractJson_ignoresNulls
  | parseJson => exact Executor.parseJson_ignoresNulls
  | fetch => exact Executor.fetch_ignoresNulls client
  | prompt => exact Executor.prompt_ignoresNulls _
  | promptForJson => exact Executor.promptForJson_ignoresNulls _

end Registry

/-! ## Engines -/

theorem Loop.ofOp_of_sameGiven {a b : Op} (h : a.SameGiven b) (config : Config) (mode : LoopMode) :
    Loop.ofOp config mode b = Loop.ofOp config mode a := by
  simp only [Loop.ofOp, h.innerOps, h.natParam, h.requireText]

namespace Engine

variable {e : Engine} {model : Option LanguageModel} {client : Http.Client} {op : Op}
  {name : String}

/-- Ops of this kind mean in the engine what they mean in this library: they are loops, or they have
the built-in executor, if any. -/
def HasBuiltin (e : Engine) (model : Option LanguageModel) (client : Http.Client)
    (kind : String) : Prop :=
  LoopMode.ofKind? kind = none → e.registry.get? kind = (Registry.builtin model client).get? kind

theorem replaces_of_sameGiven {a b : Op} (hbuiltin : e.HasBuiltin model client a.kind)
    (h : a.SameGiven b) (hjoin : a.kind = "join" →
      a.param? "items" = none ∨ b.param? "inputKey" = a.param? "inputKey") : e.Replaces a b where
  kind := h.kind
  binding := h.binding
  loop mode _ := Loop.ofOp_of_sameGiven h e.config mode
  work hkind x hx d context := by
    rw [hbuiltin hkind] at hx
    have hignores := Registry.builtin_ignoresNulls hx
    unfold Registry.IgnoresNullsAt at hignores
    split at hignores
    · next hop => exact hignores ▸ Executor.join_of_sameGiven h (hjoin hop) d context
    · exact hignores a b h d context

/-- `join` with null for `inputKey` is worked at as `join` without `inputKey` and without
`items`. -/
theorem replaces_join_null (hbuiltin : e.HasBuiltin model client op.kind) (hop : op.kind = "join") :
    e.Replaces (op.withParam "inputKey" .null) ((op.without "inputKey").without "items") where
  kind := rfl
  binding := rfl
  loop mode hkind := by
    have hnone : LoopMode.ofKind? op.kind = none := by rw [hop]; rfl
    exact absurd (hnone.symm.trans hkind) nofun
  work hkind x hx d context := by
    have hjoin : x = Executor.join := by
      have hignores := Registry.builtin_ignoresNulls ((hbuiltin hkind).symm.trans hx)
      rwa [Registry.IgnoresNullsAt, if_pos hop] at hignores
    have hseparator : ((op.without "inputKey").without "items").textParam "separator" =
        (op.withParam "inputKey" .null).textParam "separator" := by
      rw [Op.textParam_eq, Op.textParam_eq]
      simp only [Op.given?, Op.param?_without, Op.param?_withParam]
      rfl
    rw [hjoin]
    simp only [Executor.join, Executor.reading, hseparator, Executor.joinItems_null]

/-- **Null counts as not given.** Take an op whose kind means what it means in this library, and a
parameter that is a text or a number. With null for it and without it the op does the same: it ends
alike, with the same events but for the op that they show, and leaves the same behind; by itself and
in any list of ops, whatever its other parameters.

There is one exception. `join` that has `items` to join does not find them with null for `inputKey`:
then it does what it does without any of the two. -/
theorem null_counts_as_absent (hbuiltin : e.HasBuiltin model client op.kind)
    (hname : name ∉ Op.rawParams) :
    (¬(op.kind = "join" ∧ name = "inputKey" ∧ op.param? "items" ≠ none) →
      e.RunAlike (op.withParam name .null) (op.without name)) ∧
    (op.kind = "join" → e.RunAlike (op.withParam "inputKey" .null)
      ((op.without "inputKey").without "items")) := by
  refine ⟨fun hchoice => ?_, fun hop => (replaces_join_null hbuiltin hop).runAlike⟩
  have hsame := op.sameGiven_null hname
  refine Replaces.runAlike (replaces_of_sameGiven hbuiltin hsame fun hop => ?_)
  rw [Op.param?_withParam, Op.param?_withParam, Op.param?_without]
  by_cases hkey : "inputKey" = name
  · have hitems : op.param? "items" = none := by
      by_contra hgiven
      exact hchoice ⟨hop, hkey.symm, hgiven⟩
    exact .inl (by simp [← hkey, hitems])
  · exact .inr (by rw [if_neg hkey, if_neg hkey])

end Engine

/-- An op that joins items of its own. -/
def Op.joinOwn : Op := (Op.new "join").withParam "items" (.array [.string "a", .string "b"])

theorem Engine.null_counts_as_absent_of_joinOwn :
    let e := EngineBuilder.build {}
    e.RunAlike (Op.joinOwn.withParam "separator" .null) (Op.joinOwn.without "separator") ∧
    e.RunAlike (Op.joinOwn.withParam "inputKey" .null)
      ((Op.joinOwn.without "inputKey").without "items") := by
  have hbuiltin : (EngineBuilder.build {}).HasBuiltin none Http.outside Op.joinOwn.kind :=
    fun _ => rfl
  exact ⟨(null_counts_as_absent hbuiltin (by decide : "separator" ∉ Op.rawParams)).1
      fun h => absurd h.2.1 (by decide),
    (null_counts_as_absent hbuiltin (by decide : "inputKey" ∉ Op.rawParams)).2 rfl⟩

/-- **Null for `inputKey` hides the items**: without `inputKey` they are joined, and with null
for it the op fails. -/
theorem Engine.join_null_hides_items :
    let e := EngineBuilder.build {}
    let withNull := (e.dispatcher 2).dispatch (Op.joinOwn.withParam "inputKey" .null) ⟨0⟩
    let without := (e.dispatcher 2).dispatch (Op.joinOwn.without "inputKey") ⟨0⟩
    (without.run {} {}).1.result? = some (.string "ab") ∧
    (withNull.run {} {}).1 = .ended (.error (.missingParam "join" "inputKey")) ∧
    ¬e.RunAlike (Op.joinOwn.withParam "inputKey" .null) (Op.joinOwn.without "inputKey") := by
  intro e withNull without
  have hjoined : (without.run {} {}).1.result? = some (.string "ab") := by decide +kernel
  have hfails : (withNull.run {} {}).1 = .ended (.error (.missingParam "join" "inputKey")) := rfl
  refine ⟨hjoined, hfails, fun h => ?_⟩
  have hblind : Environment.Blind (Op.joinOwn.withParam "inputKey" .null)
      (Op.joinOwn.without "inputKey") {} := fun _ _ _ => rfl
  have hsame := ((h.dispatch 2 ⟨0⟩).run {} hblind {}).1
  rw [hsame, hfails] at hjoined
  cases hjoined

end WorkflowEngine
