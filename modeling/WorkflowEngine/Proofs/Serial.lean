import WorkflowEngine.Proofs.Interleaving.Frames
import WorkflowEngine.Proofs.Monitor.Engine

/-!
# Flows that have ops executed one after another

A runner does little by itself: between two ops it asks whether to stop, and reads its context to
test the condition of a loop. So do the groups that run their inner ops in order. Everything else in
their traces are the traces of the ops they have executed, whole, one after the other, and perhaps
one more that is not over.

**The judgement** (`Flow.Serial`). A flow leaves only marks of its own of a given kind, and has ops
executed one at a time, to the end; a fault of one of them ends the whole. The judgement keeps a
record of the ops executed and their results (`Leg`), which the result of the flow may depend on.

**Traces** (`Flow.Serial.goes`). At every moment the trace of such a flow is made of its own marks
and of the traces of whole executions (`Legs`), perhaps followed by the beginning of one more.

**Runners and groups.** All steps of a run are the ops executed in it, numbered in order
(`Runner.steps_serial`), and `sequential` and `map` are such flows.
-/

namespace WorkflowEngine

/-- An op that has been executed. -/
structure Leg where
  op : Op
  context : Handle
  result : Value

/-- Neither a pause, nor an announcement, nor a change of a context. -/
def Mark.IsQuiet : Mark → Prop
  | .paused => False
  | .did (.announce _) _ => False
  | .did (.bind _ _ _) _ => False
  | .did (.unbind _ _) _ => False
  | .did _ _ => True

/-! ## Flows that have no op executed -/

namespace Flow

variable {α β : Type} {own : Mark → Prop}

/-- The flow leaves only such marks, and its result satisfies `R`. -/
def Only (own : Mark → Prop) (R : α → Prop) : Flow α → Prop
  | .done (.ok a) => R a
  | .done (.error _) => True
  | .starved => True
  | .pause rest => own .paused ∧ (rest ()).Only own R
  | .act a next => ∀ x, own (.did a x) ∧ (next x).Only own R

theorem Only.bind {R : α → Prop} {S : β → Prop} {f : Flow α} {k : α → Flow β} (h : f.Only own R)
    (hk : ∀ a, R a → (k a).Only own S) : (f.bind k).Only own S := by
  induction f with
  | done r =>
    cases r with
    | ok a => exact hk a h
    | error e => trivial
  | starved => trivial
  | pause rest ih => exact ⟨h.1, ih () h.2⟩
  | act a next ih => exact fun x => ⟨(h x).1, ih x (h x).2⟩

theorem only_perform {a : Action} (h : ∀ x, own (.did a x)) :
    (perform a).Only own fun _ => True := fun x => ⟨h x, trivial⟩

/-! ## The judgement -/

/-- After these legs, the flow leaves only such marks by itself, has only such ops executed, one at
a time, and its result satisfies `P` with all legs. -/
inductive Serial (own : Mark → Prop) (d : Dispatcher) (good : Op → Handle → Prop)
    (P : List Leg → α → Prop) : List Leg → Flow α → Prop
  | ok {legs : List Leg} {a : α} : P legs a → Serial own d good P legs (.done (.ok a))
  | error (legs : List Leg) (e : Fault) : Serial own d good P legs (.done (.error e))
  | starved (legs : List Leg) : Serial own d good P legs .starved
  | pause {legs : List Leg} {rest : Unit → Flow α} : own .paused →
      Serial own d good P legs (rest ()) → Serial own d good P legs (.pause rest)
  | act {legs : List Leg} {a : Action} {next : a.Answer → Flow α} : (∀ x, own (.did a x)) →
      (∀ x, Serial own d good P legs (next x)) → Serial own d good P legs (.act a next)
  | call {legs : List Leg} {op : Op} {h : Handle} {k : Value → Flow α} : good op h →
      (∀ v, Serial own d good P (legs ++ [⟨op, h, v⟩]) (k v)) →
      Serial own d good P legs ((d.exec op h).bind k)

variable {d : Dispatcher} {good : Op → Handle → Prop} {P : List Leg → α → Prop}
  {Q : List Leg → β → Prop} {legs : List Leg}

theorem Serial.mono {own' : Mark → Prop} {good' : Op → Handle → Prop} {P' : List Leg → α → Prop}
    {f : Flow α} (h : f.Serial own d good P legs) (hown : ∀ m, own m → own' m)
    (hgood : ∀ op h, good op h → good' op h) (hP : ∀ legs a, P legs a → P' legs a) :
    f.Serial own' d good' P' legs := by
  induction h with
  | ok h => exact .ok (hP _ _ h)
  | error legs e => exact .error legs e
  | starved legs => exact .starved legs
  | pause hm _ ih => exact .pause (hown _ hm) ih
  | act hm _ ih => exact .act (fun x => hown _ (hm x)) ih
  | call hop _ ih => exact .call (hgood _ _ hop) ih

/-- Without a condition on the result it does not matter what has been executed before. -/
theorem Serial.after {f : Flow α} (h : f.Serial own d good P legs) (before : List Leg) :
    f.Serial own d good (fun _ _ => True) before := by
  induction h generalizing before with
  | ok h => exact .ok trivial
  | error legs e => exact .error before e
  | starved legs => exact .starved before
  | pause hm _ ih => exact .pause hm (ih before)
  | act hm _ ih => exact .act hm fun x => ih x before
  | call hop _ ih => exact .call hop fun v => ih v _

/-- **Sequencing.** -/
theorem Serial.bind {f : Flow α} {k : α → Flow β} (h : f.Serial own d good P legs)
    (hk : ∀ legs a, P legs a → (k a).Serial own d good Q legs) :
    (f.bind k).Serial own d good Q legs := by
  induction h with
  | ok h => exact hk _ _ h
  | error legs e => exact .error legs e
  | starved legs => exact .starved legs
  | pause hm _ ih => exact .pause hm ih
  | act hm _ ih => exact .act hm ih
  | call hop _ ih =>
    rw [bind_assoc]
    exact .call hop ih

/-- What has no op executed adds no leg. -/
theorem Only.serial {R : α → Prop} {f : Flow α} (h : f.Only own R) :
    f.Serial own d good (fun legs' a => legs' = legs ∧ R a) legs := by
  induction f with
  | done r =>
    cases r with
    | ok a => exact .ok ⟨rfl, h⟩
    | error e => exact .error legs e
  | starved => exact .starved legs
  | pause rest ih => exact .pause h.1 (ih () h.2)
  | act a next ih => exact .act (fun x => (h x).1) fun x => ih x (h x).2

/-- Flows leave such marks and have such ops executed, as a judgement on the legs. -/
abbrev serially (own : Mark → Prop) (d : Dispatcher) (good : Op → Handle → Prop) : Judgement where
  State := List Leg
  judges P f legs := f.Serial own d good P legs
  ok := .ok
  bind := Serial.bind

/-! ## Traces -/

theorem of_bind_eq_done {f : Flow α} {k : α → Flow β} {r : Except Fault β}
    (h : f.bind k = .done r) :
    (∃ a, f = .done (.ok a) ∧ k a = .done r) ∨ ∃ e, f = .done (.error e) ∧ r = .error e := by
  cases f with
  | done r' =>
    cases r' with
    | ok a => exact .inl ⟨a, rfl, h⟩
    | error e =>
      cases h
      exact .inr ⟨e, rfl, rfl⟩
  | starved => cases h
  | pause rest => cases h
  | act a next => cases h

theorem bind_unfinished {f : Flow α} {k : α → Flow β} (hne : ∀ a, f ≠ .done (.ok a)) :
    (∀ b, f.bind k ≠ .done (.ok b)) ∧
      ∀ e, f.bind k = .done (.error e) → f = .done (.error e) := by
  refine ⟨fun b hb => ?_, fun e he => ?_⟩
  · rcases of_bind_eq_done hb with ⟨a, hf, -⟩ | ⟨e, -, he⟩
    · exact hne a hf
    · cases he
  · rcases of_bind_eq_done he with ⟨a, hf, -⟩ | ⟨e', hf, hsame⟩
    · exact absurd hf (hne a)
    · cases hsame
      exact hf

/-- At every moment a sequence is in its first part, or has gone through that part and is in the
second. -/
theorem Goes.bind_cases {f : Flow α} {k : α → Flow β} {t : List Mark} {g : Flow β}
    (h : (f.bind k).Goes t g) :
    (∃ f', f.Goes t f' ∧ g = f'.bind k ∧ ∀ a, f' ≠ .done (.ok a)) ∨
      ∃ before after a, t = before ++ after ∧ f.Goes before (.done (.ok a)) ∧
        (k a).Goes after g := by
  induction f generalizing t with
  | done r =>
    cases r with
    | ok a => exact .inr ⟨[], t, a, rfl, .here _, h⟩
    | error e =>
      obtain ⟨rfl, rfl⟩ := h.of_done
      exact .inl ⟨_, .here _, rfl, by simp⟩
  | starved =>
    cases h
    exact .inl ⟨_, .here _, rfl, by simp⟩
  | pause rest ih =>
    cases h with
    | here => exact .inl ⟨_, .here _, rfl, by simp⟩
    | pause h =>
      rcases ih () h with ⟨f', hf, hg, hne⟩ | ⟨before, after, a, rfl, hf, hk⟩
      · exact .inl ⟨f', .pause hf, hg, hne⟩
      · exact .inr ⟨.paused :: before, after, a, rfl, .pause hf, hk⟩
  | act action next ih =>
    cases h with
    | here => exact .inl ⟨_, .here _, rfl, by simp⟩
    | act x h =>
      rcases ih x h with ⟨f', hf, hg, hne⟩ | ⟨before, after, a, rfl, hf, hk⟩
      · exact .inl ⟨f', .act x hf, hg, hne⟩
      · exact .inr ⟨.did action x :: before, after, a, rfl, .act x hf, hk⟩

end Flow

/-- The trace is made of such marks and of whole executions of such ops, these in order. -/
inductive Legs (own : Mark → Prop) (d : Dispatcher) (good : Op → Handle → Prop) :
    List Mark → List Leg → Prop
  | nil : Legs own d good [] []
  | own {m : Mark} {t : List Mark} {legs : List Leg} : own m → Legs own d good t legs →
      Legs own d good (m :: t) legs
  | leg {op : Op} {h : Handle} {v : Value} {u t : List Mark} {legs : List Leg} : good op h →
      (d.exec op h).Goes u (.done (.ok v)) → Legs own d good t legs →
      Legs own d good (u ++ t) (⟨op, h, v⟩ :: legs)

theorem Legs.own_of_mem {own : Mark → Prop} {d : Dispatcher} {good : Op → Handle → Prop}
    {t : List Mark} (h : Legs own d good t []) : ∀ m ∈ t, own m := by
  generalize hlegs : ([] : List Leg) = legs at h
  induction h with
  | nil => simp
  | own hm _ ih =>
    intro m hmem
    rcases List.mem_cons.1 hmem with rfl | hmem
    · exact hm
    · exact ih hlegs m hmem
  | leg => cases hlegs

theorem Legs.good_of_mem {own : Mark → Prop} {d : Dispatcher} {good : Op → Handle → Prop}
    {t : List Mark} {legs : List Leg} (h : Legs own d good t legs) :
    ∀ leg ∈ legs, good leg.op leg.context := by
  induction h with
  | nil => simp
  | own _ _ ih => exact ih
  | leg hop _ _ ih =>
    intro leg hmem
    rcases List.mem_cons.1 hmem with rfl | hmem
    · exact hop
    · exact ih leg hmem

/-- After the trace `t`, an op is being executed, or a fault has ended its execution. -/
structure Flow.UnderWay {α : Type} (own : Mark → Prop) (d : Dispatcher)
    (good : Op → Handle → Prop) (t : List Mark) (g : Flow α) (op : Op) (h : Handle)
    (before begun : List Mark) (rest : Flow Value) : Prop where
  trace_eq : t = before ++ begun
  legs : ∃ legs, Legs own d good before legs
  good : good op h
  goes : (d.exec op h).Goes begun rest
  unfinished : ∀ v, rest ≠ .done (.ok v)
  continues : ∃ k, g = rest.bind k

namespace Flow

variable {α : Type} {own : Mark → Prop} {d : Dispatcher} {good : Op → Handle → Prop}
  {P : List Leg → α → Prop} {legs : List Leg}

theorem UnderWay.mono {t u : List Mark} {g : Flow α} {op : Op} {h : Handle}
    {before begun : List Mark} {rest : Flow Value}
    (hway : g.UnderWay own d good t op h before begun rest)
    (hlegs : ∀ t legs, Legs own d good t legs → ∃ legs', Legs own d good (u ++ t) legs') :
    g.UnderWay own d good (u ++ t) op h (u ++ before) begun rest where
  trace_eq := by rw [hway.trace_eq, List.append_assoc]
  legs := by
    obtain ⟨legs, h⟩ := hway.legs
    exact hlegs _ _ h
  good := hway.good
  goes := hway.goes
  unfinished := hway.unfinished
  continues := hway.continues

/-- **What the judgement says of traces.** At every moment the trace is made of own marks and whole
executions, and then the result is as described; or one more execution is under way. -/
theorem Serial.goes {f g : Flow α} {t : List Mark} (h : f.Serial own d good P legs)
    (hgoes : f.Goes t g) :
    (∃ new, Legs own d good t new ∧ ∀ a, g = .done (.ok a) → P (legs ++ new) a) ∨
      ∃ op h before begun rest, g.UnderWay own d good t op h before begun rest := by
  induction h generalizing t with
  | @ok legs a h =>
    obtain ⟨rfl, rfl⟩ := hgoes.of_done
    refine .inl ⟨[], .nil, fun b hb => ?_⟩
    cases hb
    rwa [List.append_nil]
  | error legs e =>
    obtain ⟨rfl, rfl⟩ := hgoes.of_done
    exact .inl ⟨[], .nil, fun b hb => by cases hb⟩
  | starved legs =>
    cases hgoes
    exact .inl ⟨[], .nil, fun b hb => by cases hb⟩
  | pause hm _ ih =>
    cases hgoes with
    | here => exact .inl ⟨[], .nil, fun b hb => by cases hb⟩
    | pause hgoes =>
      rcases ih hgoes with ⟨new, hnew, hend⟩ | ⟨op, h, before, begun, rest, hway⟩
      · exact .inl ⟨new, .own hm hnew, hend⟩
      · have hlater := hway.mono (u := [.paused]) fun _ legs hl => ⟨legs, .own hm hl⟩
        exact .inr ⟨op, h, _, begun, rest, hlater⟩
  | act hm _ ih =>
    cases hgoes with
    | here => exact .inl ⟨[], .nil, fun b hb => by cases hb⟩
    | act x hgoes =>
      rcases ih x hgoes with ⟨new, hnew, hend⟩ | ⟨op, h, before, begun, rest, hway⟩
      · exact .inl ⟨new, .own (hm x) hnew, hend⟩
      · have hlater := hway.mono (u := [.did _ x]) fun _ legs hl => ⟨legs, .own (hm x) hl⟩
        exact .inr ⟨op, h, _, begun, rest, hlater⟩
  | @call legs op h k hop _ ih =>
    rcases hgoes.bind_cases with ⟨rest, hrest, hg, hne⟩ | ⟨u, after, v, rfl, hu, hgoes⟩
    · exact .inr ⟨op, h, [], t, rest, rfl, ⟨[], .nil⟩, hop, hrest, hne, k, hg⟩
    · rcases ih v hgoes with ⟨new, hnew, hend⟩ | ⟨op', h', before, begun, rest, hway⟩
      · refine .inl ⟨_, .leg hop hu hnew, fun a ha => ?_⟩
        have hp := hend a ha
        rwa [List.append_assoc] at hp
      · exact .inr ⟨op', h', _, begun, rest, hway.mono fun _ legs hl => ⟨_, .leg hop hu hl⟩⟩

/-- What has been begun has no result yet; a fault of the whole is a fault of what has been begun. -/
theorem UnderWay.outcome {t : List Mark} {g : Flow α} {op : Op} {h : Handle}
    {before begun : List Mark} {rest : Flow Value}
    (hway : g.UnderWay own d good t op h before begun rest) {r : Except Fault α}
    (hg : g = .done r) : ∃ e, r = .error e ∧ rest = .done (.error e) := by
  obtain ⟨k, hk⟩ := hway.continues
  rcases of_bind_eq_done (hk.symm.trans hg) with ⟨v, hv, -⟩ | ⟨e, he, hr⟩
  · exact absurd hv (hway.unfinished v)
  · exact ⟨e, hr, he⟩

/-- A flow that has a result has gone through whole executions. -/
theorem Serial.goes_ok {f : Flow α} {t : List Mark} {a : α} (h : f.Serial own d good P legs)
    (hgoes : f.Goes t (.done (.ok a))) : ∃ new, Legs own d good t new ∧ P (legs ++ new) a := by
  rcases h.goes hgoes with ⟨new, hnew, hend⟩ | ⟨op, h, before, begun, rest, hway⟩
  · exact ⟨new, hnew, hend a rfl⟩
  · obtain ⟨e, he, -⟩ := hway.outcome rfl
    cases he

end Flow

/-! ## What the engine does by itself -/

section Own

variable {own : Mark → Prop} (hown : ∀ m, m.IsQuiet → own m)

include hown

theorem Flow.check_only : Flow.check.Only own fun _ => True := by
  intro stop
  refine ⟨hown _ trivial, ?_⟩
  cases stop with
  | true => exact fun _ => ⟨hown _ trivial, trivial⟩
  | false => trivial

theorem Flow.fail_only {α : Type} (R : α → Prop) (e : Fault) : (Flow.fail e).Only own R :=
  fun _ => ⟨hown _ trivial, trivial⟩

theorem Flow.view_only (h : Handle) : (Flow.view h).Only own fun _ => True :=
  Flow.only_perform fun _ => hown _ trivial

theorem Flow.create_only (b : Bindings) : (Flow.create b).Only own fun _ => True :=
  Flow.only_perform fun _ => hown _ trivial

theorem Flow.serially_raises (d : Dispatcher) (good : Op → Handle → Prop)
    (home : List Leg → Prop) (e : Fault) : (serially own d good).Raises home e :=
  fun _ _ _ => (fail_only hown (fun _ => False) e).serial.mono (fun _ => id) (fun _ _ => id)
    fun _ _ h => h.2.elim

theorem Flow.serially_walks (d : Dispatcher) (good : Op → Handle → Prop)
    (home : List Leg → Prop) : (serially own d good).Walks home fun _ => True where
  starved _ := .starved _
  check hs := Judgement.mono (J := serially own d good) (check_only hown).serial
    fun _ _ h => ⟨h.1 ▸ hs, trivial⟩
  view h _ hs := Judgement.mono (J := serially own d good) (view_only hown h).serial
    fun _ _ h => h.1 ▸ hs
  raises _ := serially_raises hown d good home _

end Own

/-! ## Runners -/

/-- The op is one of the list, or of the body of a loop that is one of them, and so on. -/
inductive Op.InLine (list : List Op) : Op → Prop
  | here {op : Op} : op ∈ list → InLine list op
  | body {loop op : Op} {ops : List Op} : InLine list loop →
      (LoopMode.ofKind? loop.kind).isSome → loop.innerOps = .ok ops → op ∈ ops → InLine list op

namespace Runner

variable {own : Mark → Prop} (hown : ∀ m, m.IsQuiet → own m) {d : Dispatcher} {list : List Op}
  {p : Handle}

/-- Only ops of the list are executed, none of them a loop, and all in one context. -/
def Serves (list : List Op) (p : Handle) (op : Op) (h : Handle) : Prop :=
  op.InLine list ∧ LoopMode.ofKind? op.kind = none ∧ h = p

/-- The steps with these legs, numbered in order. -/
def numbered (legs : List Leg) : List Step :=
  legs.zipIdx.map fun p => ⟨p.2, p.1.op, p.1.result, p.1.context⟩

theorem numbered_snoc (legs : List Leg) (leg : Leg) : numbered (legs ++ [leg]) =
    numbered legs ++ [⟨legs.length, leg.op, leg.result, leg.context⟩] := by
  simp [numbered, List.zipIdx_append]

theorem numbered_results (legs : List Leg) :
    (numbered legs).map Step.result = legs.map Leg.result := by
  have hfst := congrArg (List.map Leg.result) (List.zipIdx_map_fst 0 legs)
  rw [List.map_map] at hfst
  rw [numbered, List.map_map]
  exact hfst

/-- After these legs one more op has been executed. -/
def OneMore (legs : List Leg) (p : Handle) : Op → Value → List Leg → Prop :=
  fun op v legs' => legs' = legs ++ [⟨op, p, v⟩]

include hown

theorem executes_inLine (legs : List Leg) :
    d.Executes (Flow.serially own d (Serves list p)) (· = legs) (fun _ => True) (OneMore legs p)
      (Op.InLine list) p where
  body _ _ hop hkind hops _ hinner := .body hop hkind hops hinner
  decodes _ e _ _ _ := Flow.serially_raises hown d _ _ e
  exec op s hop hkind hs _ := by
    subst hs
    rw [← Flow.bind_pure (d.exec op p)]
    exact .call ⟨hop, hkind, rfl⟩ fun v => .ok rfl

/-- An advance has at most one op executed. -/
theorem advance_serial (n : Nat) (legs : List Leg) {r : Runner} (hr : Holds (Op.InLine list) p r) :
    (advance d n r).Serial own d (Serves list p)
      (Advanced (Flow.serially own d (Serves list p)) (· = legs) (OneMore legs p) (Op.InLine list)
        r) legs :=
  advance_judged (Flow.serially_walks hown d _ _) (executes_inLine hown legs) n hr rfl

theorem stepsFrom_serial (n : Nat) {legs : List Leg} {taken : List Step}
    (htaken : taken.reverse = numbered legs) {frames : List Frame}
    (hframes : ∀ f ∈ frames, FrameGood (Op.InLine list) f) :
    (stepsFrom d taken n (underway p frames legs.length)).Serial own d (Serves list p)
      (fun legs x => x.1 = numbered legs) legs := by
  induction n generalizing legs taken frames with
  | zero => exact .starved legs
  | succ n ih =>
    rw [stepsFrom_underway, following]
    have hr : Holds (Op.InLine list) p (underway p frames legs.length) := ⟨rfl, hframes⟩
    refine (advance_serial hown n legs hr).bind fun legs' x hx => ?_
    cases hx with
    | ended hlegs =>
      subst hlegs
      exact .ok htaken
    | @step op v frames _ _ hlegs hframes =>
      obtain rfl : legs' = legs ++ [Leg.mk op p v] := hlegs
      have htaken' : (⟨legs.length, op, v, p⟩ :: taken : List Step).reverse =
          numbered (legs ++ [⟨op, p, v⟩]) := by
        rw [numbered_snoc, List.reverse_cons, htaken]
      have hlength : (legs ++ [⟨op, p, v⟩] : List Leg).length = legs.length + 1 := by simp
      have hmore := ih htaken' hframes
      rwa [hlength] at hmore

/-- **All steps of a run are the ops executed in it**, numbered in order. -/
theorem steps_serial (list : List Op) (p : Handle) :
    ((start false list p).steps d).Serial own d (Serves list p)
      (fun legs x => x.1 = numbered legs) [] := by
  rw [steps, stepsFrom_start]
  have hnumbered : ([] : List Step).reverse = numbered [] := rfl
  exact stepsFrom_serial hown d.fuel hnumbered (holds_start (fun _ => .here) false p).2

end Runner

section Runs

variable {own : Mark → Prop} (hown : ∀ m, m.IsQuiet → own m) {d : Dispatcher} {list : List Op}

include hown

theorem Dispatcher.runOps_serial (p : Handle) :
    (d.runOps list p).Serial own d (Runner.Serves list p)
      (fun legs results => results = legs.map Leg.result) [] := by
  refine (Runner.steps_serial hown list p).bind fun legs x hx => .ok ?_
  rw [hx, Runner.numbered_results]

/-- An op that may be a loop: the op itself, or the ops executed in the loop. -/
theorem Dispatcher.dispatch_serial (op : Op) (p : Handle) :
    (d.dispatch op p).Serial own d
      (fun o h => h = p ∧ LoopMode.ofKind? o.kind = none ∧ o.InLine [op])
      (fun legs v => v = (legs.getLast?.map Leg.result).getD .null ∧
        (LoopMode.ofKind? op.kind = none → legs = [⟨op, p, v⟩])) [] := by
  unfold dispatch
  split
  · next hloop =>
    have hsome : LoopMode.ofKind? op.kind ≠ none := by
      intro hnone
      simp [hnone] at hloop
    refine ((runOps_serial hown p).mono (fun _ => id) ?_ fun _ _ => id).bind fun legs results h => ?_
    · rintro o h ⟨hline, hkind, rfl⟩
      exact ⟨rfl, hkind, hline⟩
    · refine .ok ⟨?_, fun hnone => absurd hnone hsome⟩
      rw [h, List.getLast?_map]
  · next hloop =>
    have hnone : LoopMode.ofKind? op.kind = none := by simpa using hloop
    rw [← Flow.bind_pure (d.exec op p)]
    exact .call ⟨rfl, hnone, .here (by simp)⟩ fun v => .ok ⟨rfl, fun _ => rfl⟩

end Runs

/-! ## Groups -/

namespace Executor

variable {own : Mark → Prop} (hown : ∀ m, m.IsQuiet → own m) {d : Dispatcher} {op : Op}

/-- Inner ops, or ops in the bodies of loops among them, are executed. -/
def Inner (op : Op) (o : Op) (_ : Handle) : Prop :=
  ∃ ops, op.innerOps = .ok ops ∧ o.InLine ops

include hown

theorem inner_serial {ops : List Op} (hops : op.innerOps = .ok ops) (p : Handle)
    (legs : List Leg) : (d.runOps ops p).Serial own d (Inner op) (fun _ _ => True) legs := by
  have hrun : (d.runOps ops p).Serial own d (Runner.Serves ops p) _ [] :=
    Dispatcher.runOps_serial hown p
  refine (hrun.after legs).mono (fun _ => id) ?_ fun _ _ => id
  rintro o h ⟨hline, -, -⟩
  exact ⟨ops, hops, hline⟩

theorem creates_inner : (Flow.serially own d (Inner op)).Creates (fun _ => True) fun _ _ => True :=
  fun b _ _ => (Flow.create_only hown b).serial.mono (fun _ => id) (fun _ _ => id)
    fun _ _ _ => ⟨trivial, trivial⟩

theorem sequential_serial (context : Handle) :
    (sequential d op context).Serial own d (Inner op) (fun _ _ => True) [] :=
  sequential_returns (Flow.serially_walks hown d (Inner op) fun _ => True)
    (fun e _ => Flow.serially_raises hown d _ _ e) (creates_inner hown)
    (fun _ _ inner hops _ legs _ => inner_serial hown hops inner legs) [] trivial

theorem map_serial (context : Handle) :
    (map d op context).Serial own d (Inner op) (fun _ _ => True) [] :=
  map_returns (Flow.serially_walks hown d (Inner op) fun _ => True)
    (fun e _ => Flow.serially_raises hown d _ _ e) (creates_inner hown)
    (fun _ _ inner hops _ legs _ => inner_serial hown hops inner legs) [] trivial

end Executor

end WorkflowEngine
