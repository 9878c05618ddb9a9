import WorkflowEngine.Proofs.Course

/-!
# What becomes of a loop that is entered

A loop op with a body comes next (`Runner.Entry`). From then on the runner tests the condition, goes
through the body, tests the condition again, and so on, until a test ends the loop or fails.

**The invariant** (`Entry.Moment`). At every moment of a course from there, the loop has not been
tested yet; or some passes have been gone through, each of them begun by a test that called for it;
or one more has been begun, and the runner is within its body; or a test has called for none, and
the runner has gone on with what follows the loop. There are never more passes than the limit
allows. A move keeps to that (`Entry.Moment.shift`).

**Tests** (`Entry.verdict_cases`). What a test comes to depends on the bindings that it reads and on
how many passes have been gone through: the loop is over, a pass is begun, or the limit has been
reached.

**Theorem (`Entry.passes_as_called_for`).** Both together, for every loop with a body, every entry
into it and every run, with what an advance and a call of `next` make of each test.
-/

namespace WorkflowEngine

namespace Runner

/-- A loop op with a body that comes next, in the list that it stands in. -/
structure Entry (config : Config) where
  op : Op
  mode : LoopMode
  loop : Loop
  body : List Op
  kind_eq : LoopMode.ofKind? op.kind = some mode
  ofOp_eq : Loop.ofOp config mode op = .ok (loop, body)
  body_ne : body ≠ []
  /-- The list that the loop op stands in. -/
  list : List Op
  /-- What follows the loop op. -/
  rest : List Op
  /-- The loop whose body that list is. -/
  listLoop : Option Loop
  outer : List Frame

/-- A pass: the bindings that the test before it has read, and the marks that it has left. -/
structure Pass where
  seen : Bindings
  marks : List Mark

/-- The marks of passes, and of the tests before them. -/
def Pass.trace (context : Handle) (ps : List Pass) : List Mark :=
  ps.flatMap fun p => .did (.view context) p.seen :: p.marks

theorem Pass.trace_snoc (context : Handle) (ps : List Pass) (p : Pass) :
    trace context (ps ++ [p]) = trace context ps ++ .did (.view context) p.seen :: p.marks := by
  simp [trace]

namespace Entry

variable {config : Config}

/-- The stack when the loop op comes next. -/
def ahead (x : Entry config) : List Frame := ⟨x.list, x.op :: x.rest, x.listLoop⟩ :: x.outer

/-- The stack when what follows the loop comes next. -/
def after (x : Entry config) : List Frame := ⟨x.list, x.rest, x.listLoop⟩ :: x.outer

/-- The loop when a number of passes have been started. -/
def counting (x : Entry config) (n : Nat) : Loop := { x.loop with passes := n }

/-- The stack when a number of passes have been started, and this is left of the last one. -/
def amid (x : Entry config) (n : Nat) (left : List Op) : List Frame :=
  ⟨x.body, left, some (x.counting n)⟩ :: x.after

theorem counting_zero (x : Entry config) : x.counting 0 = x.loop := by
  have hzero := Loop.passes_of_ofOp x.ofOp_eq
  rw [counting, ← hzero]

/-! ## What is read of the loop op -/

/-- The loop is what its op says: its limit is its own or else the configured one, no pass has been
started, and its condition calls for a pass if its value counts as true or, for the other kind of
loop, if it does not. A path that leads nowhere does not count as true. -/
structure Settled (x : Entry config) : Prop where
  body_eq : x.op.innerOps = .ok x.body
  condition_eq : x.op.requireText "condition" = .ok x.loop.condition
  limit_eq : ∃ own, x.op.natParam "maxIterations" = .ok own ∧
    x.loop.limit = own.or config.maxLoopIterations
  passes_eq : x.loop.passes = 0
  calls_iff : ∀ b : Bindings, x.loop.calls b = true ↔
    (x.op.kind = "while" ↔ ∃ v, b.lookup x.loop.condition = some v ∧ v.truthy = true)

theorem calls_iff_kind {mode : LoopMode} {kind : String} (h : LoopMode.ofKind? kind = some mode)
    (condition : Bool) : mode.callsFor condition = true ↔ (kind = "while" ↔ condition = true) := by
  unfold LoopMode.ofKind? at h
  split at h
  · next hkind =>
    cases h
    simp [hkind, LoopMode.callsFor]
  · next hkind =>
    split at h
    · cases h
      simp [hkind, LoopMode.callsFor]
    · cases h

theorem settled (x : Entry config) : x.Settled := by
  obtain ⟨own, condition, hbody, hown, hcondition, hloop⟩ := Loop.of_ofOp x.ofOp_eq
  refine ⟨hbody, by rw [hloop]; exact hcondition, ⟨own, hown, by rw [hloop]⟩, by rw [hloop],
    fun b => ?_⟩
  have hmode : x.loop.mode = x.mode := by rw [hloop]
  rw [Loop.calls, hmode, calls_iff_kind x.kind_eq, Bindings.isTruthy, Option.any_eq_true]

/-! ## Moments -/

variable {d : Dispatcher} {context : Handle} {x : Entry d.config} {t u : List Mark}
  {fs gs : List Frame} {ps : List Pass} {seen : Bindings}

/-- A whole pass: the test before it called for it, and the body was gone through from its first op
to its last. -/
def Whole (d : Dispatcher) (context : Handle) (x : Entry d.config) (p : Pass) : Prop :=
  x.loop.calls p.seen = true ∧ GoneThrough d context x.body p.marks

/-- Whole passes, not more than the limit. -/
structure Passed (d : Dispatcher) (context : Handle) (x : Entry d.config) (ps : List Pass) :
    Prop where
  whole : ∀ p ∈ ps, x.Whole d context p
  within : ∀ limit ∈ x.loop.limit, ps.length ≤ limit

/-- Where a runner is that has come to a loop op: the marks that it has left since, and its
stack. -/
inductive Moment (d : Dispatcher) (context : Handle) (x : Entry d.config) :
    List Mark → List Frame → Prop
  /-- The loop is about to be entered. -/
  | ahead : Moment d context x [] x.ahead
  /-- After some passes the condition is about to be tested. -/
  | again {ps : List Pass} : x.Passed d context ps → ps ≠ [] →
      Moment d context x (.did .poll false :: Pass.trace context ps) (x.amid ps.length [])
  /-- A pass has been started, and is not over. -/
  | amid {ps : List Pass} {seen : Bindings} {t : List Mark} {top : List Frame} {left : List Op} :
      x.Passed d context ps → x.loop.calls seen = true →
      (∀ limit ∈ x.loop.limit, ps.length < limit) → Within d context x.body t top left →
      top ≠ [] ∨ left ≠ [] →
      Moment d context x
        (.did .poll false :: (Pass.trace context ps ++ .did (.view context) seen :: t))
        (top ++ x.amid (ps.length + 1) left)
  /-- The loop is over. -/
  | past {ps : List Pass} {seen : Bindings} {t : List Mark} {fs : List Frame} :
      x.Passed d context ps → x.loop.calls seen = false → Course d context x.after t fs →
      Moment d context x
        (.did .poll false :: (Pass.trace context ps ++ .did (.view context) seen :: t)) fs

/-- Where a test leads that does not fail. -/
theorem Moment.tested {begun : List Frame} (hps : x.Passed d context ps)
    (hbegun : (x.counting ps.length).begun x.body seen = .ok begun) :
    Moment d context x
      (.did .poll false :: (Pass.trace context ps ++ [.did (.view context) seen]))
      (begun ++ x.after) := by
  rcases Loop.begun_cases (x.counting ps.length) x.body seen with
    ⟨hcalls, hnone⟩ | ⟨hcalls, hlimit, hpass⟩ | ⟨e, herror⟩
  · rw [hnone] at hbegun
    cases hbegun
    exact .past hps hcalls (.here _)
  · rw [hpass] at hbegun
    cases hbegun
    have hstarted : Within d context ([] ++ x.body) [] [] x.body := .between .nil
    exact .amid hps hcalls hlimit hstarted (.inr x.body_ne)
  · rw [herror] at hbegun
    cases hbegun

theorem Passed.nil : x.Passed d context [] := ⟨by simp, by simp⟩

theorem Passed.snoc {p : Pass} (hps : x.Passed d context ps) (hp : x.Whole d context p)
    (hlimit : ∀ limit ∈ x.loop.limit, ps.length < limit) : x.Passed d context (ps ++ [p]) where
  whole := by
    intro q hq
    rcases List.mem_append.1 hq with hq | hq
    · exact hps.whole q hq
    · rw [List.mem_singleton.1 hq]
      exact hp
  within := by
    intro limit hmem
    rw [List.length_append]
    exact hlimit limit hmem

/-- **A move keeps to it.** -/
theorem Moment.shift (h : x.Moment d context t fs) (hshift : Shift d context fs u gs) :
    x.Moment d context (t ++ u) gs := by
  cases h with
  | ahead =>
    unfold Entry.ahead at hshift
    cases hshift with
    | pass hkind hop =>
      cases hkind.symm.trans x.kind_eq
      have hbody : [] = x.body := congrArg Prod.snd (Except.ok.inj (hop.symm.trans x.ofOp_eq))
      exact absurd hbody.symm x.body_ne
    | enter hkind hop _ hbegun =>
      cases hkind.symm.trans x.kind_eq
      cases hop.symm.trans x.ofOp_eq
      rw [← x.counting_zero] at hbegun
      exact Moment.tested .nil hbegun
    | plain hkind _ => cases hkind.symm.trans x.kind_eq
  | @again ps hps hne =>
    unfold Entry.amid at hshift
    cases hshift with
    | again hbegun =>
      have htested := Moment.tested hps hbegun
      rwa [← List.cons_append] at htested
  | @amid ps seen t top left hps hcalls hlimit hwithin hleft =>
    obtain ⟨top', left', rfl, hwithin'⟩ := hwithin.shift hshift hleft
    rw [List.cons_append, List.append_assoc, List.cons_append]
    by_cases hover : top' = [] ∧ left' = []
    · obtain ⟨rfl, rfl⟩ := hover
      have hpasses : x.Passed d context (ps ++ [⟨seen, t ++ u⟩]) :=
        hps.snoc ⟨hcalls, hwithin'.gone⟩ hlimit
      have hagain := Moment.again hpasses (by simp)
      rwa [Pass.trace_snoc, List.length_append] at hagain
    · exact .amid hps hcalls hlimit hwithin' (Classical.not_and_iff_not_or_not.1 hover)
  | past hps hcalls hcourse =>
    rw [List.cons_append, List.append_assoc, List.cons_append]
    exact .past hps hcalls (hcourse.snoc hshift)

theorem moment (h : Course d context x.ahead t fs) : x.Moment d context t fs := by
  generalize hstart : x.ahead = start at h
  induction h with
  | here =>
    subst hstart
    exact .ahead
  | snoc _ hshift ih => exact ih.shift hshift

/-! ## Tests -/

/-- Where the condition is tested next: how many passes have been gone through, and what the runner
does before the test. -/
inductive Tests (x : Entry config) : List Frame → Nat → List Mark → Prop
  | enter : Tests x x.ahead 0 [.did .poll false]
  | again (n : Nat) : Tests x (x.amid n []) n []

/-- What a test comes to that has read these bindings, after so many passes. -/
def verdict (x : Entry config) (r : Runner) (n : Nat) (seen : Bindings) : Flow Moved :=
  (Flow.ofExcept ((x.counting n).begun x.body seen)).bind fun begun =>
    .done (.ok (.onward { r with frames := begun ++ x.after }))

variable {n : Nat} {lead : List Mark} {r : Runner}

/-- The loop is over, or another pass is begun, or the limit has been reached. -/
theorem verdict_cases (x : Entry config) (r : Runner) (seen : Bindings)
    (hn : ∀ limit ∈ x.loop.limit, n ≤ limit) :
    (x.loop.calls seen = false ∧
      x.verdict r n seen = .done (.ok (.onward { r with frames := x.after }))) ∨
    (x.loop.calls seen = true ∧ x.loop.limit ≠ some n ∧
      x.verdict r n seen = .done (.ok (.onward { r with frames := x.amid (n + 1) x.body }))) ∨
    (x.loop.calls seen = true ∧ x.loop.limit = some n ∧
      x.verdict r n seen = .fail (x.loop.limitFault n)) := by
  have hcalls : (x.counting n).calls seen = x.loop.calls seen := rfl
  unfold verdict
  by_cases hcall : x.loop.calls seen = true
  · by_cases hlimit : x.loop.limit = some n
    · refine .inr (.inr ⟨hcall, hlimit, ?_⟩)
      have htest : (x.counting n).test seen = .error (x.loop.limitFault n) :=
        Loop.test_eq_error.2 ⟨hcall, n, hlimit, Nat.le_refl n, rfl⟩
      rw [Loop.begun, htest]
      rfl
    · refine .inr (.inl ⟨hcall, hlimit, ?_⟩)
      have hbelow : ∀ limit ∈ (x.counting n).limit, n < limit := fun limit hmem =>
        Nat.lt_of_le_of_ne (hn limit hmem) fun heq => hlimit (heq ▸ hmem)
      rw [Loop.begun_of_calls (hcalls.trans hcall) hbelow]
      rfl
  · have hnot : x.loop.calls seen = false := by simpa using hcall
    rw [Loop.begun_of_calls_not (hcalls.trans hnot)]
    exact .inl ⟨hnot, rfl⟩

theorem goes_nil_iff {f g : Flow Moved} : f.Goes [] g ↔ f = g := by
  constructor
  · rintro ⟨⟩
    rfl
  · rintro rfl
    exact .here f

theorem after_ne_amid (x : Entry config) (r : Runner) (n : Nat) (left : List Op) :
    ({ r with frames := x.after } : Runner) ≠ { r with frames := x.amid n left } := by
  intro h
  have hlength : x.after.length = (x.amid n left).length :=
    congrArg List.length (congrArg Runner.frames h)
  simp [amid] at hlength

/-- The loop is over exactly if the bindings call for no pass. -/
theorem verdict_after_iff (hn : ∀ limit ∈ x.loop.limit, n ≤ limit) :
    (x.verdict r n seen).Goes [] (.done (.ok (.onward { r with frames := x.after }))) ↔
      x.loop.calls seen = false := by
  rw [goes_nil_iff]
  rcases verdict_cases x r seen hn with ⟨hcalls, heq⟩ | ⟨hcalls, -, heq⟩ | ⟨hcalls, -, heq⟩ <;>
    rw [heq, hcalls]
  · simp
  · simpa using (x.after_ne_amid r (n + 1) x.body).symm
  · simp [Flow.fail]

/-- A pass is begun exactly if they call for one and the limit has not been reached. -/
theorem verdict_pass_iff (hn : ∀ limit ∈ x.loop.limit, n ≤ limit) :
    (x.verdict r n seen).Goes []
        (.done (.ok (.onward { r with frames := x.amid (n + 1) x.body }))) ↔
      x.loop.calls seen = true ∧ x.loop.limit ≠ some n := by
  rw [goes_nil_iff]
  rcases verdict_cases x r seen hn with
    ⟨hcalls, heq⟩ | ⟨hcalls, hlimit, heq⟩ | ⟨hcalls, hlimit, heq⟩ <;> rw [heq, hcalls]
  · simpa using x.after_ne_amid r (n + 1) x.body
  · simpa using hlimit
  · simp [Flow.fail, hlimit]

/-- The limit is exceeded exactly if they call for a pass after as many as it allows. -/
theorem verdict_fails_iff (hn : ∀ limit ∈ x.loop.limit, n ≤ limit) (e : Fault) :
    (x.verdict r n seen).Goes [.did (.raise e) ()] (.done (.error e)) ↔
      x.loop.calls seen = true ∧ x.loop.limit = some n ∧ e = x.loop.limitFault n := by
  rcases verdict_cases x r seen hn with
    ⟨hcalls, heq⟩ | ⟨hcalls, hlimit, heq⟩ | ⟨hcalls, hlimit, heq⟩ <;> rw [heq, hcalls]
  · simpa using fun h => nomatch h
  · simp only [true_and, hlimit, false_and, iff_false]
    exact fun h => nomatch h
  · simp only [true_and, hlimit]
    constructor
    · intro h
      cases h
      rfl
    · rintro rfl
      exact Flow.Goes.act (a := .raise (x.loop.limitFault n)) () (.here _)

/-- After its lead and the look at the bindings, the move of a test does what the test comes to. -/
theorem Tests.goes_iff (h : x.Tests fs n lead) (hr : r.frames = fs) (seen : Bindings)
    (v : List Mark) (g : Flow Moved) :
    (move d r).Goes (lead ++ .did (.view r.context) seen :: v) g ↔
      (x.verdict r n seen).Goes v g := by
  cases h with
  | enter =>
    rw [move_enter d r hr x.kind_eq x.ofOp_eq x.body_ne]
    constructor
    · intro hgoes
      cases hgoes with
      | act _ hgoes =>
        cases hgoes with
        | act _ hgoes =>
          rw [verdict, counting_zero]
          exact hgoes
    · intro hgoes
      rw [verdict, counting_zero] at hgoes
      exact goes_check (goes_view seen hgoes)
  | again =>
    rw [move_again d r hr]
    constructor
    · intro hgoes
      cases hgoes with
      | act _ hgoes => exact hgoes
    · exact goes_view seen

theorem verdict_error {e : Fault} (h : (x.verdict r n seen).Goes u (.done (.error e))) :
    u = [.did (.raise e) ()] := by
  unfold verdict at h
  cases hbegun : (x.counting n).begun x.body seen with
  | ok begun =>
    rw [hbegun] at h
    obtain ⟨-, hdone⟩ := h.of_done
    cases hdone
  | error e' =>
    rw [hbegun] at h
    cases h with
    | act _ h =>
      obtain ⟨rfl, hdone⟩ := h.of_done
      cases hdone
      rfl

/-- A test that fails has been told to stop, or has failed after it has read the bindings. -/
theorem Tests.goes_error (h : x.Tests fs n lead) (hr : r.frames = fs) {e : Fault}
    (hgoes : (move d r).Goes u (.done (.error e))) :
    u = [.did .poll true, .did (.raise .cancelled) ()] ∧ e = .cancelled ∨
      ∃ seen, u = lead ++ [.did (.view r.context) seen, .did (.raise e) ()] := by
  cases h with
  | enter =>
    rw [move_enter d r hr x.kind_eq x.ofOp_eq x.body_ne] at hgoes
    cases hgoes with
    | act stop hgoes =>
      cases stop with
      | true =>
        cases hgoes with
        | act _ hgoes =>
          obtain ⟨rfl, hdone⟩ := hgoes.of_done
          cases hdone
          exact .inl ⟨rfl, rfl⟩
      | false =>
        cases hgoes with
        | act seen hgoes =>
          rw [← x.counting_zero] at hgoes
          have htail := verdict_error hgoes
          rw [htail]
          exact .inr ⟨seen, rfl⟩
  | again =>
    rw [move_again d r hr] at hgoes
    cases hgoes with
    | act seen hgoes =>
      have htail := verdict_error hgoes
      rw [htail]
      exact .inr ⟨seen, rfl⟩

theorem Tests.goes_ok (h : x.Tests fs n lead) (hr : r.frames = fs) {m : Moved}
    (hgoes : (move d r).Goes u (.done (.ok m))) :
    ∃ seen r', u = lead ++ [.did (.view r.context) seen] ∧ m = .onward r' := by
  cases h with
  | enter =>
    rw [move_enter d r hr x.kind_eq x.ofOp_eq x.body_ne] at hgoes
    obtain ⟨v, rfl, hlook⟩ := goes_of_check hgoes
    obtain ⟨seen, v, rfl, htest⟩ := goes_of_view hlook
    obtain ⟨begun, -, hdone⟩ := goes_of_ofExcept htest
    obtain ⟨rfl, heq⟩ := hdone.of_done
    cases heq
    exact ⟨seen, _, rfl, rfl⟩
  | again =>
    rw [move_again d r hr] at hgoes
    obtain ⟨seen, v, rfl, htest⟩ := goes_of_view hgoes
    obtain ⟨begun, -, hdone⟩ := goes_of_ofExcept htest
    obtain ⟨rfl, heq⟩ := hdone.of_done
    cases heq
    exact ⟨seen, _, rfl, rfl⟩

/-- An advance fails right after the look at the bindings exactly if the test does. -/
theorem Tests.advance_error_iff (h : x.Tests fs n lead) (hr : r.frames = fs) (m : Nat) {e : Fault} :
    (advance d (m + 1) r).Goes (lead ++ [.did (.view r.context) seen, .did (.raise e) ()])
        (.done (.error e)) ↔
      (move d r).Goes (lead ++ [.did (.view r.context) seen, .did (.raise e) ()])
        (.done (.error e)) := by
  constructor
  · intro hgoes
    rw [advance_succ] at hgoes
    rcases hgoes.bind_cases with ⟨g, hmove, hg, hne⟩ | ⟨before, after, moved, heq, hmove, hrest⟩
    · rw [(Flow.bind_unfinished hne).2 e hg.symm] at hmove
      exact hmove
    · obtain ⟨seen', r', rfl, rfl⟩ := h.goes_ok hr hmove
      obtain ⟨a, y, v, rfl, hquiet⟩ := advance_error_first hrest
      have hlast : a = .raise e := by
        have htail := List.append_cancel_left (heq.trans (List.append_assoc ..))
        cases htail
        rfl
      exact absurd hlast (hquiet e)
  · exact advance_error m

/-! ## The theorem -/

/-- Calls that end with a fault: the steps that they have yielded before, and the fault. -/
def Raised (e : Fault) (g : Flow (List (Except Fault Step) × Runner)) : Prop :=
  ∃ (steps : List Step) (r : Runner), g = .done (.ok (steps.map .ok ++ [.error e], r)) ∧
    r.phase = .finished

theorem Raised.cons {e : Fault} (step : Step) {g : Flow (List (Except Fault Step) × Runner)}
    (h : Raised e g) : Raised e (g.map fun p => (.ok step :: p.1, p.2)) := by
  obtain ⟨steps, r, rfl, hphase⟩ := h
  exact ⟨step :: steps, r, rfl, hphase⟩

theorem calling_of_error {e : Fault}
    (h : ∀ r : Runner, r.frames = fs → r.context = context → (move d r).Goes u (.done (.error e))) :
    Calling d context (Raised e) fs u := by
  intro r hframes hcontext _
  refine ⟨1, 0, fun n m _ hm called => ⟨_, ⟨[], { called with phase := .finished }, rfl, rfl⟩, ?_⟩⟩
  obtain ⟨m, rfl⟩ := Nat.exists_eq_add_of_le' hm
  rw [← List.append_nil u, ← List.append_nil u]
  exact ((goes_attempt (advance_error m (h r hframes hcontext))).bind (.here _)).bind (.here _)

/-- **Passes are made as the condition calls for them.** For every loop with a body, every entry
into it, and whatever happens after: the loop is what its op says; at every moment, passes have been
made only after tests that called for them, each through the whole body, and not more than the limit
allows; and if the runner has gone on with what follows, a test has called for none. Where the
condition is tested, the bindings that are read decide: the loop is over if and only if they call
for no pass, its limit makes it fail if and only if they call for a pass and as many passes as the
limit allows have been gone through, and else a pass is begun. An advance goes on from there
accordingly, and a call of `next` yields the fault of the limit exactly then.

Every run is made of such courses, and in them an op that is no loop is run by executing it. And
every course is run: calls of `next` go along it, and where it comes to a test that fails, the last
of them yields the fault, and the runner is finished. -/
theorem passes_as_called_for (d : Dispatcher) (topLevel : Bool) (list : List Op)
    (context : Handle) :
    (∀ n t, let r := start topLevel list context
      (∀ k g, (calls d n k r).Goes t g → Begins d r t) ∧
      (∀ g, (stepsFrom d [] n r).Goes t g → Begins d r t) ∧
      ∀ g, (streamFrom d [] n r).Goes t g → Begins d r t) ∧
    (∀ t fs, Course d context [⟨list, list, none⟩] t fs →
      CallsCome d topLevel list context (fun _ => True) t) ∧
    (∀ op t, LoopMode.ofKind? op.kind = none → (RunsOp d context op t ↔
      ∃ u v, t = .did .poll false :: u ∧ (d.exec op context).Goes u (.done (.ok v)))) ∧
    ∀ x : Entry d.config, x.Settled ∧
      (∀ t fs, Course d context x.ahead t fs → x.Moment d context t fs) ∧
      ∀ fs n lead, x.Tests fs n lead → (∀ limit ∈ x.loop.limit, n ≤ limit) →
        (∀ t seen, Course d context [⟨list, list, none⟩] t fs → x.loop.calls seen = true →
          x.loop.limit = some n → CallsCome d topLevel list context (Raised (x.loop.limitFault n))
            (t ++ (lead ++ [.did (.view context) seen, .did (.raise (x.loop.limitFault n)) ()]))) ∧
        ∀ r : Runner, r.frames = fs → r.context = context →
          (∀ seen, ((move d r).Goes (lead ++ [.did (.view context) seen])
              (.done (.ok (.onward { r with frames := x.after }))) ↔
                x.loop.calls seen = false) ∧
            ((move d r).Goes (lead ++ [.did (.view context) seen])
              (.done (.ok (.onward { r with frames := x.amid (n + 1) x.body }))) ↔
                x.loop.calls seen = true ∧ x.loop.limit ≠ some n) ∧
            ∀ e, (move d r).Goes (lead ++ [.did (.view context) seen, .did (.raise e) ()])
              (.done (.error e)) ↔
                x.loop.calls seen = true ∧ x.loop.limit = some n ∧ e = x.loop.limitFault n) ∧
          (∀ u e, (move d r).Goes u (.done (.error e)) →
            u = [.did .poll true, .did (.raise .cancelled) ()] ∧ e = .cancelled ∨
              ∃ seen, u = lead ++ [.did (.view context) seen, .did (.raise e) ()]) ∧
          ∀ m seen,
            (x.loop.calls seen = false →
              (advance d (m + 1) r).Goes (lead ++ [.did (.view context) seen])
                (advance d m { r with frames := x.after })) ∧
            (x.loop.calls seen = true → x.loop.limit ≠ some n →
              (advance d (m + 1) r).Goes (lead ++ [.did (.view context) seen])
                (advance d m { r with frames := x.amid (n + 1) x.body })) ∧
            (r.phase = .running → ∀ e r',
              (next d (m + 1) r).Goes (lead ++ [.did (.view context) seen, .did (.raise e) ()])
                (.done (.ok (some (.error e), r'))) ↔
                (x.loop.calls seen = true ∧ x.loop.limit = some n ∧ e = x.loop.limitFault n) ∧
                  r' = { r with phase := .finished }) := by
  refine ⟨fun n t => begins_of_run n rfl, fun t fs h => ?_, fun op t => runsOp_plain_iff,
    fun x => ⟨x.settled, ?_, ?_⟩⟩
  · have hhere : Calling d context (fun _ => True) fs [] :=
      fun r _ _ _ => ⟨0, 0, fun _ _ _ _ _ => ⟨_, trivial, .here _⟩⟩
    have hcome := (Calling.course (fun _ _ _ => trivial) h hhere).come topLevel
    rwa [List.append_nil] at hcome
  · intro t fs h
    exact moment h
  · rintro fs n lead htests hn
    have hafter {r : Runner} (hr : r.frames = fs) (seen : Bindings) :=
      (htests.goes_iff (d := d) hr seen [] _).trans (verdict_after_iff hn)
    have hpass {r : Runner} (hr : r.frames = fs) (seen : Bindings) :=
      (htests.goes_iff (d := d) hr seen [] _).trans (verdict_pass_iff hn)
    have hfails {r : Runner} (hr : r.frames = fs) (seen : Bindings) (e : Fault) :=
      (htests.goes_iff (d := d) hr seen _ _).trans (verdict_fails_iff hn e)
    refine ⟨fun t seen hcourse hcalls hlimit => ?_, ?_⟩
    · refine (Calling.course (fun step g hg => hg.cons step) hcourse ?_).come topLevel
      refine calling_of_error fun r hr hcontext => ?_
      subst hcontext
      exact (hfails hr seen _).2 ⟨hcalls, hlimit, rfl⟩
    · rintro r hr rfl
      refine ⟨fun seen => ⟨hafter hr seen, hpass hr seen, hfails hr seen⟩,
        fun u e h => htests.goes_error hr h, fun m seen => ⟨fun hcalls => ?_, fun hcalls hlimit => ?_,
          fun hphase e r' => ?_⟩⟩
      · exact advance_onward m ((hafter hr seen).2 hcalls)
      · exact advance_onward m ((hpass hr seen).2 ⟨hcalls, hlimit⟩)
      · rw [next_error_iff hphase, htests.advance_error_iff hr m]
        exact and_congr_left' (hfails hr seen e)

/-- The fault that a call of `next` has yielded, if it is one. -/
def fault? : Except Fault Step → Option Fault
  | .ok _ => none
  | .error e => some e

/-- A loop that may make one pass, in a loop that goes on as long as it does. -/
def onePass : Op :=
  (Op.repeatWhile "go" [.set .null]).withParam "maxIterations" (.nat 1)

/-- The inner loop is about to be entered, in the first pass of the outer one. -/
def onePassEntry : Entry {} where
  op := onePass
  mode := .asLongAs
  loop := ⟨.asLongAs, "go", some 1, 0⟩
  body := [.set .null]
  kind_eq := rfl
  ofOp_eq := rfl
  body_ne := by simp
  list := [onePass]
  rest := []
  listLoop := some ⟨.asLongAs, "go", none, 1⟩
  outer := [⟨[.repeatWhile "go" [onePass]], [], none⟩]

/-- In the first pass of the outer loop the inner one is entered, makes its pass, and then fails: the
second call of `next` yields the fault. -/
theorem passes_as_called_for_of_onePass :
    let d := plainEngine.dispatcher 1
    let list := [Op.repeatWhile "go" [onePass]]
    let b := goingWorld.contexts.view ⟨0⟩
    let set := (d.exec (.set .null) ⟨0⟩).trace {} goingWorld
    let pass := [.did .poll false, .did (.view ⟨0⟩) b] ++ .did .poll false :: set
    let failing : List Mark := [.did (.view ⟨0⟩) b, .did (.raise (.loopLimit "while" "go" 1)) ()]
    let r : Runner := ⟨true, ⟨0⟩, onePassEntry.amid 1 [], .running, 1⟩
    let f := calls d 9 2 (start true list ⟨0⟩)
    onePassEntry.Settled ∧
      onePassEntry.Moment d ⟨0⟩ pass (onePassEntry.amid 1 []) ∧
      (next d 9 r).Goes failing
        (.done (.ok (some (.error (.loopLimit "while" "go" 1)), { r with phase := .finished }))) ∧
      CallsCome d true list ⟨0⟩ (Raised (.loopLimit "while" "go" 1))
        ([.did .poll false, .did (.view ⟨0⟩) b] ++ pass ++ failing) ∧
      Begins d (start true list ⟨0⟩) (f.trace {} goingWorld) ∧
      (f.run {} goingWorld).1.result?.map (fun p => p.1.map fault?) =
        some [none, some (.loopLimit "while" "go" 1)] := by
  intro d list b set pass failing r f
  obtain ⟨hruns, -, -, hentries⟩ := passes_as_called_for d true list ⟨0⟩
  obtain ⟨hsettled, hmoment, htests⟩ := hentries onePassEntry
  have hcalls : onePassEntry.loop.calls b = true := by decide +kernel
  have hset : (d.exec (.set .null) ⟨0⟩).Goes set (.done (.ok .null)) :=
    Flow.goes_of_result? (by decide +kernel)
  have hinner : Course d ⟨0⟩ onePassEntry.ahead pass (onePassEntry.amid 1 []) := by
    have hbegun : Loop.begun onePassEntry.loop [.set .null] b = _ :=
      Loop.begun_of_calls hcalls (by rintro _ ⟨⟩; decide)
    have henter : Shift d ⟨0⟩ onePassEntry.ahead [.did .poll false, .did (.view ⟨0⟩) b]
        (onePassEntry.amid 1 [.set .null]) :=
      .enter onePassEntry.kind_eq onePassEntry.ofOp_eq onePassEntry.body_ne hbegun
    exact (Course.single henter).snoc (.plain rfl hset)
  have houter : Course d ⟨0⟩ [⟨list, list, none⟩] [.did .poll false, .did (.view ⟨0⟩) b]
      onePassEntry.ahead := by
    have hop : Loop.ofOp d.config .asLongAs (.repeatWhile "go" [onePass]) =
        .ok (⟨.asLongAs, "go", none, 0⟩, [onePass]) := rfl
    have hbegun : Loop.begun ⟨.asLongAs, "go", none, 0⟩ [onePass] b = _ :=
      Loop.begun_of_calls hcalls nofun
    exact .single (.enter rfl hop (by simp) hbegun)
  have hlimit : ∀ limit ∈ onePassEntry.loop.limit, 1 ≤ limit := by
    rintro _ ⟨⟩
    exact Nat.le_refl 1
  obtain ⟨hraised, hmoves⟩ := htests _ 1 [] (.again 1) hlimit
  obtain ⟨-, -, hgoes⟩ := hmoves r rfl rfl
  refine ⟨hsettled, hmoment _ _ hinner, ?_, ?_, (hruns 9 _).1 2 _ (Flow.goes_trace {} f goingWorld),
    ?_⟩
  · exact ((hgoes 8 b).2.2 rfl _ _).2 ⟨⟨hcalls, rfl, rfl⟩, rfl⟩
  · exact hraised _ b (houter.trans hinner) hcalls rfl
  · decide +kernel

end Entry

end Runner

end WorkflowEngine
