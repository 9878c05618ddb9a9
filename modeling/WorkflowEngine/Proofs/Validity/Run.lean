import WorkflowEngine.Definition
import WorkflowEngine.Proofs.Encoding
import WorkflowEngine.Proofs.Validity
import WorkflowEngine.Proofs.Validity.Leaves
import WorkflowEngine.Rehearsal.Executors

/-!
# What validity is good for

A workflow is looked through when it is read, and its inner ops are decoded again when they are run:
by the groups, and by the runner for the body of a loop.

**Theorem (`Definition.validation_covers_runs`).** A workflow is accepted if and only if it has a
name and every op in it is proper; otherwise the first op that is not is reported. In a run of an
accepted workflow no inner ops are found that cannot be decoded: the fault for that arises only if a
leaf of the host raises it by itself.

**How the proof goes.** A gauge counts how often one such fault arises (`Gauge.of`); for a bound of
zero it says that it never does. Every op that a run comes to is valid, since the inner ops of a
valid op are (`Op.Valid.inner`), and of a valid op the fault does not arise.
-/

namespace WorkflowEngine

/-! ## Faults that never arise -/

/-- In no trace of the flow does the fault arise, and the flow does not end with it. -/
def Flow.Spares {α : Type} (fault : Fault) (f : Flow α) : Prop :=
  ∀ t g, f.Goes t g → .did (.raise fault) () ∉ t ∧ g ≠ .done (.error fault)

/-- Counts how often a fault arises. -/
def Gauge.of (fault : Fault) : Gauge
  | .raise e => if e = fault then 1 else 0
  | _ => 0

theorem Gauge.of_suitsLeaves {fault : Fault} (h : fault.IsInnerOps) :
    (Gauge.of fault).SuitsLeaves where
  poll := rfl
  view _ := rfl
  create _ := rfl
  bind _ _ _ := rfl
  raise e he := if_neg fun heq : e = fault => he (heq ▸ h)
  workflowStart _ _ := rfl
  workflowDone _ _ := rfl
  opPost _ _ := rfl
  signal := rfl
  consult _ _ := rfl

namespace Flow

variable {α : Type} {fault : Fault} {P : α → Int → Prop}

theorem Stays.spares {f : Flow α} (h : f.Stays (Gauge.of fault) 0 P 0) : f.Spares fault := by
  intro t g hgoes
  induction hgoes with
  | here f =>
    refine ⟨List.not_mem_nil, ?_⟩
    rintro rfl
    have hquiet : Gauge.of fault (.raise fault) = 0 := h
    simp [Gauge.of] at hquiet
  | pause _ ih =>
    obtain ⟨harises, hends⟩ := ih h
    exact ⟨by simpa using harises, hends⟩
  | @act a next t g x _ ih =>
    obtain ⟨hle, hnext⟩ := h
    rw [Int.zero_add] at hle hnext
    have hzero : Gauge.of fault a = 0 ∧ ∀ x, Mark.did a x ≠ .did (.raise fault) () := by
      cases a with
      | raise e =>
        by_cases he : e = fault
        · simp [Gauge.of, he] at hle
        · exact ⟨if_neg he, fun x heq => he (by cases heq; rfl)⟩
      | _ => exact ⟨rfl, fun x heq => nomatch heq⟩
    have hrest := hnext x
    rw [hzero.1] at hrest
    obtain ⟨harises, hends⟩ := ih hrest
    refine ⟨fun hmem => ?_, hends⟩
    rcases List.mem_cons.1 hmem with heq | hmem
    · exact hzero.2 x heq.symm
    · exact harises hmem

theorem Spares.needs {f : Flow α} (h : f.Spares fault) : f.Needs (Gauge.of fault) 0 := by
  induction f with
  | done r =>
    cases r with
    | ok a => exact costs_ok trivial
    | error e =>
      have hne : e ≠ fault := fun heq => (h [] _ (.here _)).2 (by rw [heq])
      exact if_neg hne
  | starved => exact costs_starved
  | pause rest ih =>
    refine ih () fun t g hgoes => ?_
    obtain ⟨harises, hends⟩ := h _ g (.pause hgoes)
    exact ⟨fun hmem => harises (List.mem_cons_of_mem _ hmem), hends⟩
  | act a next ih =>
    have hzero : Gauge.of fault a = 0 := by
      cases a with
      | raise e =>
        refine if_neg fun heq => ?_
        subst heq
        exact (h _ _ (.act () (.here _))).1 (List.mem_cons_self ..)
      | _ => rfl
    rw [Needs, Costs, Stays, hzero]
    refine ⟨Int.le_refl 0, fun x => ih x fun t g hgoes => ?_⟩
    obtain ⟨harises, hends⟩ := h _ g (.act x hgoes)
    exact ⟨fun hmem => harises (List.mem_cons_of_mem _ hmem), hends⟩

end Flow

/-! ## Valid ops -/

namespace Op

/-- The op, and all ops inside it, are proper. -/
def Valid (op : Op) : Prop := ∀ loc o, At [op] loc o → o.Proper

theorem Valid.proper {op : Op} (h : op.Valid) : op.Proper := h [0] op (.here rfl)

theorem Valid.inner {op : Op} (h : op.Valid) {ops : List Op} (hops : op.innerOps = .ok ops) :
    ∀ o ∈ ops, o.Valid := by
  intro o ho loc x hat
  obtain ⟨i, hi⟩ := List.mem_iff_getElem?.1 ho
  obtain ⟨j, rest, o', rfl, hj⟩ := hat.exists_cons
  have hzero : j = 0 := by
    have hlt := (List.getElem?_eq_some_iff.1 hj).1
    exact Nat.lt_one_iff.1 hlt
  subst hzero
  have hop : [op][0]? = some op := rfl
  exact h _ x (.inside hop hops (hat.of_singleton hi))

theorem Valid.not_isInnerOps {op : Op} (h : op.Valid) {e : Fault} (he : op.innerOps = .error e) :
    ¬e.IsInnerOps := by
  by_cases hparam : op.param? opsKey = none
  · unfold innerOps at he
    rw [hparam] at he
    cases he
    exact id
  · obtain ⟨ops, hops⟩ := h.proper.2 hparam
    rw [hops] at he
    cases he

end Op

/-! ## Runs -/

namespace Engine

variable {e : Engine} {fault : Fault}

theorem affords_valid (hfault : fault.IsInnerOps) {n : Nat}
    (h : ∀ op context, op.Valid → (e.exec n op context).Needs (Gauge.of fault) 0)
    (context : Handle) : (e.dispatcher n).Affords (Gauge.of fault) 0 Op.Valid context where
  body _ _ hop _ hops := hop.inner hops
  decodes _ e hop _ he := (Gauge.of_suitsLeaves hfault).raise e (hop.not_isInnerOps he)
  exec op hop _ := h op context hop

/-- **Valid ops are executed without the fault**, whatever they nest. -/
theorem exec_needs_valid (hfault : fault.IsInnerOps) (he : e.Composed (Flow.Spares fault)) (n : Nat)
    (op : Op) (context : Handle) (hop : op.Valid) :
    (e.exec n op context).Needs (Gauge.of fault) 0 := by
  have hδ := (Gauge.of_suitsLeaves hfault).toSuits
  induction n generalizing op context with
  | zero => exact Flow.costs_starved
  | succ n ih =>
    have hinner : ∀ fault', op.innerOps = .error fault' → Gauge.of fault (.raise fault') = 0 :=
      fun fault' h => hδ.raise fault' (hop.not_isInnerOps h)
    have hbody : ∀ ops inner, op.innerOps = .ok ops →
        ((e.dispatcher n).runOps ops inner).Needs (Gauge.of fault) 0 := fun ops inner hops =>
      Dispatcher.runOps_needs hδ (affords_valid hfault ih inner) (hop.inner hops)
    refine exec_needs (v := 0) (w := 0) hδ rfl fun x hx => ?_
    rcases he op.kind x hx with (rfl | rfl | rfl) | ⟨leaf, rfl, hleaf⟩
    · exact Executor.sequential_needs hinner hδ hbody
    · refine Executor.parallel_needs hinner hδ (fun _ => 0) fun ops cap hops _ => ⟨?_, ?_⟩
      · intro inner hmem
        exact Dispatcher.dispatch_needs hδ (affords_valid hfault ih context)
          (hop.inner hops inner hmem)
      · rw [sumOfLargest_of_zeros (by simp)]
    · exact Executor.map_needs hinner hδ hbody
    · exact (hleaf e.config op context).needs

end Engine

/-- All ops of a workflow are valid if all ops at its locations are proper. -/
theorem Workflow.valid_of_at {w : Workflow} (h : ∀ loc op, Op.At w.ops loc op → op.Proper) :
    ∀ op ∈ w.ops, op.Valid := by
  intro op hop loc x hat
  obtain ⟨i, hi⟩ := List.mem_iff_getElem?.1 hop
  obtain ⟨j, rest, o', rfl, hj⟩ := hat.exists_cons
  have hzero : j = 0 := Nat.lt_one_iff.1 (List.getElem?_eq_some_iff.1 hj).1
  subst hzero
  exact h _ x (hat.of_singleton hi)

/-- **No run of a valid workflow comes to inner ops that cannot be decoded.** -/
theorem Workflow.runs_spare {w : Workflow} (hw : w.offence? = none) {e : Engine} {fault : Fault}
    (hfault : fault.IsInnerOps) (he : e.Composed (Flow.Spares fault)) (n : Nat) (context : Handle) :
    (w.run (e.dispatcher n) context).Spares fault ∧
    (w.execute (e.dispatcher n) context).Spares fault ∧
    ((w.runner context).stream (e.dispatcher n)).Spares fault ∧
    ∀ t items, ((w.runner context).stream (e.dispatcher n)).Goes t (.done (.ok items)) →
      .error fault ∉ items := by
  have hδ := (Gauge.of_suitsLeaves hfault).toSuits
  have hvalid := w.valid_of_at (Workflow.offence?_eq_none_iff.1 hw).2
  have hd := Engine.affords_valid hfault (fun op context => e.exec_needs_valid hfault he n op context)
    context
  have hstream := w.stream_stays hδ hd hvalid
  refine ⟨(w.run_needs hδ hd hvalid).spares, (w.execute_needs hδ hd hvalid).spares,
    hstream.spares, fun t items hgoes hmem => ?_⟩
  have hquiet : Gauge.of fault (.raise fault) = 0 :=
    (hstream.goes (Int.le_refl 0) hgoes).2 fault hmem
  simp [Gauge.of] at hquiet

/-! ## The theorem -/

/-- The language model never raises the fault. -/
structure LanguageModel.Spares (fault : Fault) (m : LanguageModel) : Prop where
  prompt : ∀ persona text, (m.prompt persona text).Spares fault
  promptForJson : ∀ persona text schema, (m.promptForJson persona text schema).Spares fault

/-- An engine that is built from leaves which spare a fault is made of groups and such leaves. -/
theorem EngineBuilder.composed_spares {b : EngineBuilder} {fault : Fault}
    (hfault : fault.IsInnerOps) (hm : ∀ m ∈ b.model, m.Spares fault)
    (hhost : ∀ host ∈ b.executors.entries, host.2.IsLeaf (Flow.Spares fault)) :
    b.build.Composed (Flow.Spares fault) := by
  have hquiet : b.build.Composed (Flow.Needs (Gauge.of fault) 0) := by
    refine quiet_build (Gauge.of_suitsLeaves hfault) (fun m hmem => ?_) fun host hmem => ?_
    · exact ⟨fun persona text => ((hm m hmem).prompt persona text).needs,
        fun persona text schema => ((hm m hmem).promptForJson persona text schema).needs⟩
    · obtain ⟨leaf, hleaf, hspares⟩ := hhost host hmem
      exact ⟨leaf, hleaf, fun config op context => (hspares config op context).needs⟩
  exact hquiet.mono fun f hf => hf.spares

/-- **Validity covers what runs decode.** A workflow is accepted if and only if it has a name and
every op in it is proper, and the first op that is not is the one that is reported; and no run of an
accepted workflow, whatever the leaves of the host, meets inner ops that cannot be decoded. -/
theorem Definition.validation_covers_runs :
    (∀ w w' : Workflow, w.validate = .ok w' ↔
      w' = w ∧ w.name ≠ "" ∧ ∀ loc op, Op.At w.ops loc op → op.Proper) ∧
    (∀ (w : Workflow) (error : DefinitionError), w.validate = .error error →
      (w.name = "" ∧ error = Offence.noName.toError) ∨
      (w.name ≠ "" ∧ ∃ loc op offence, Op.At w.ops loc op ∧ op.ownOffence? loc = some offence ∧
        error = offence.toError ∧ ∀ loc' op', Op.At w.ops loc' op' → loc' < loc → op'.Proper)) ∧
    ∀ (text : String) (w : Workflow), ofJson text = .ok w ∨ ofYaml text = .ok w →
      ∀ (b : EngineBuilder) (fault : Fault), fault.IsInnerOps →
        (∀ m ∈ b.model, m.Spares fault) →
        (∀ host ∈ b.executors.entries, host.2.IsLeaf (Flow.Spares fault)) →
        ∀ n context,
          (w.run (b.build.dispatcher n) context).Spares fault ∧
          (w.execute (b.build.dispatcher n) context).Spares fault ∧
          ((w.runner context).stream (b.build.dispatcher n)).Spares fault ∧
          ∀ t items, ((w.runner context).stream (b.build.dispatcher n)).Goes t (.done (.ok items)) →
            .error fault ∉ items := by
  refine ⟨fun w w' => ?_, fun w error herror => ?_, ?_⟩
  · rw [Workflow.validate_eq_ok_iff, Workflow.offence?_eq_none_iff, and_comm]
  · obtain ⟨offence, hoffence, rfl⟩ := Workflow.validate_eq_error_iff.1 herror
    rcases Workflow.offence?_eq_some hoffence with ⟨hname, rfl⟩ | ⟨hname, loc, op, hat, hown, hfirst⟩
    · exact .inl ⟨hname, rfl⟩
    · exact .inr ⟨hname, loc, op, offence, hat, hown, rfl, hfirst⟩
  · intro text w hread b fault hfault hm hhost n context
    have hvalid : ∃ w' : Workflow, w'.validate = .ok w := by
      rcases hread with hread | hread
      · obtain ⟨w', -, hw'⟩ := Json.Draft.bind_eq_ok_iff.1 hread
        exact ⟨w', hw'⟩
      · obtain ⟨w', -, hw'⟩ := Json.Draft.bind_eq_ok_iff.1 hread
        exact ⟨w', hw'⟩
    obtain ⟨w', hw'⟩ := hvalid
    obtain ⟨hnone, rfl⟩ := Workflow.validate_eq_ok_iff.1 hw'
    exact w.runs_spare hnone hfault (EngineBuilder.composed_spares hfault hm hhost) n context

/-- A workflow with a group. -/
def grouped : Workflow := ⟨"a", none, [Op.sequential [Op.new "wait"]]⟩

def groupedText : String :=
  "[\"a\",null,[\x7b\"kind\":\"sequential\",\"ops\":[\x7b\"kind\":\"wait\"\x7d]\x7d]]"

/-- A workflow with an op without a kind inside its second op. -/
def blankInside : Workflow := ⟨"a", none, [Op.new "wait", Op.sequential [Op.new " "]]⟩

theorem grouped_validate : grouped.validate = .ok grouped :=
  Workflow.validate_eq_ok_iff.2 ⟨by decide +kernel, rfl⟩

theorem ofJson_groupedText : Definition.ofJson groupedText = .ok grouped := by
  have hread : Json.workflow groupedText.toList = .ok grouped := by cbv
  simp only [Definition.ofJson, Definition.ofJsonText, hread]
  exact grouped_validate

theorem wait_spares (fault : Fault) (hfault : fault.IsInnerOps) :
    Rehearsal.wait.IsLeaf (Flow.Spares fault) := by
  have hδ := (Gauge.of_suitsLeaves hfault).toSuits
  have hwait : ∀ n, (Flow.wait n).Needs (Gauge.of fault) 0 := by
    intro n
    induction n with
    | zero => exact Flow.costs_ok trivial
    | succ n ih => exact ih
  refine ⟨fun config => Rehearsal.wait ⟨config, 0, fun _ _ => .starved⟩, rfl, fun _ op context => ?_⟩
  have hneeds : Flow.Needs (Gauge.of fault) 0
      (Rehearsal.wait ⟨{}, 0, fun _ _ => .starved⟩ op context) :=
    (hwait _).bind fun _ _ => (Flow.view_costs hδ context).bind fun _ _ => Flow.costs_ok trivial
  exact hneeds.spares

/-- The executors of this library, and a leaf that waits. -/
def waitingHost : EngineBuilder := { executors := .ofList [("wait", Rehearsal.wait)] }

/-- A group whose inner ops were read runs without the fault for inner ops that cannot be decoded,
and a blank kind inside the second op is found there. -/
theorem Definition.validation_covers_group :
    grouped.name ≠ "" ∧
    (∀ n context, (grouped.run (waitingHost.build.dispatcher n) context).Spares
      (.invalidParam "sequential" "ops" (.ops .missingKind))) ∧
    ∃ loc op offence, Op.At blankInside.ops loc op ∧ op.ownOffence? loc = some offence ∧
      (Offence.blankKind [1, 0]).toError = offence.toError := by
  obtain ⟨haccepts, hrejects, hruns⟩ := validation_covers_runs
  have hblank : blankInside.validate = .error (Offence.blankKind [1, 0]).toError :=
    Workflow.validate_eq_error_iff.2 ⟨_, by decide +kernel, rfl⟩
  refine ⟨((haccepts grouped grouped).1 grouped_validate).2.1, fun n context => ?_, ?_⟩
  · have hinner : (Fault.invalidParam "sequential" "ops" (.ops .missingKind)).IsInnerOps := rfl
    have hmodel : ∀ m ∈ waitingHost.model,
        m.Spares (.invalidParam "sequential" "ops" (.ops .missingKind)) := fun m h => nomatch h
    refine (hruns groupedText grouped (.inl ofJson_groupedText) waitingHost _ hinner hmodel
      (fun host hhost => ?_) n context).1
    cases List.mem_singleton.1 hhost
    exact wait_spares _ hinner
  · rcases hrejects blankInside _ hblank with ⟨hname, -⟩ | ⟨-, loc, op, offence, hat, hown, heq, -⟩
    · exact absurd hname (by decide)
    · exact ⟨loc, op, offence, hat, hown, heq⟩

end WorkflowEngine
