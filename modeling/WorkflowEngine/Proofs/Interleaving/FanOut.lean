import WorkflowEngine.FanOut
import WorkflowEngine.Proofs.Interleaving.Turns
import WorkflowEngine.Proofs.Judgement.FanOut

/-!
# Fan-outs of parts that are apart

**Main statement (`Interleaving.run_settles`).** If each task of a fan-out settles in a turf of
its own, and these turfs are apart from each other, then the fan-out settles in a turf in which
they all are, and of each result and the contexts at the end holds what the task makes true. It
does not matter how many workers there are, or in which order the tasks come to their ends.

Between two turns every task either is *live*, that is, claimed or waiting, and then ready to go on
in its turf, or it has left its result in its slot (`Parties`). A turn of a worker keeps this
(`Going.advance`). As long as not all workers are finished, a round takes one pause at least from
those that the live tasks may still make, so there is an end to the rounds.
-/

namespace WorkflowEngine

/-! ## Budgets of several tasks -/

namespace Budget

/-- The budgets of the first `n` tasks together. -/
def total (need : Nat → Budget) : Nat → Budget
  | 0 => some 0
  | n + 1 => (need n).add (total need n)

theorem total_congr {need need' : Nat → Budget} {n : Nat} (h : ∀ i < n, need i = need' i) :
    total need n = total need' n := by
  induction n with
  | zero => rfl
  | succ n ih =>
    rw [total, total, h n (Nat.lt_succ_self n), ih fun i hi => h i (Nat.lt_succ_of_lt hi)]

theorem le_total {need : Nat → Budget} {n i : Nat} (hi : i < n) : (need i).Le (total need n) := by
  induction n with
  | zero => cases hi
  | succ n ih =>
    rcases Nat.lt_succ_iff_lt_or_eq.1 hi with hlt | rfl
    · exact (ih hlt).trans (le_add_left _ _)
    · exact le_add_right _ _

theorem spends_total {need : Nat → Budget} {n i : Nat} {m : Budget} (hi : i < n)
    (h : (need i).Spends m) : (total need n).Spends (total (setAt need i m) n) := by
  induction n with
  | zero => cases hi
  | succ n ih =>
    rw [total, total]
    by_cases hn : n = i
    · subst hn
      have hrest : total (setAt need n m) n = total need n :=
        total_congr fun j hj => setAt_of_ne need (Nat.ne_of_lt hj) m
      rw [setAt_self, hrest]
      exact spends_add h _
    · have hlt : i < n := Nat.lt_of_le_of_ne (Nat.le_of_lt_succ hi) (Ne.symm hn)
      rw [setAt_of_ne need hn, add_comm, add_comm (need n)]
      exact spends_add (ih hlt) _

theorem total_succ_front (need : Nat → Budget) (n : Nat) :
    total need (n + 1) = (need 0).add (total (fun i => need (i + 1)) n) := by
  induction n with
  | zero => rfl
  | succ n ih =>
    rw [total, ih]
    exact add_left_comm _ _ _

theorem Less.exists_spends {m n : Budget} (h : m.Less n) : ∃ n', n.Spends n' ∧ m.Le n' := h

end Budget

/-- Does flows one after another. -/
def Flow.inTurn {α : Type} : List (Flow α) → Flow (List α)
  | [] => return []
  | f :: fs => do
    let a ← f
    let as ← inTurn fs
    return a :: as

namespace Interleaving

open FanOut (Worker Board Report liveTasks round rounds start workerCount run)

variable {α : Type} {ans : Query → Value} {Q : Nat → α → Store → Prop} {base turf : Nat → Turf}
  {need : Nat → Budget} {n : Nat} {M : Budget} {live : List (Flow α × Nat)}
  {slots : List (Option α)} {T : Turf} {s s' : Store}

/-! ## The tasks between two turns -/

/-- Live tasks are ready to go on in their turfs, and the others have left their results. -/
structure Parties (ans : Query → Value) (Q : Nat → α → Store → Prop) (base turf : Nat → Turf)
    (need : Nat → Budget) (n : Nat) (live : List (Flow α × Nat)) (slots : List (Option α))
    (T : Turf) (s : Store) : Prop where
  turfs : Turfs base turf T s
  ready : ∀ f i, (f, i) ∈ live → f.Ready ans (fun _ => Q i) (need i) (turf i) s
  nodup : (live.map Prod.snd).Nodup
  known : ∀ i ∈ live.map Prod.snd, i < n
  length : slots.length = n
  kept : ∀ i < n, i ∈ live.map Prod.snd ∨ ∃ a, slots[i]? = some (some a) ∧ Q i a s

/-- The tasks that are live settle within a budget. -/
def Going (ans : Query → Value) (Q : Nat → α → Store → Prop) (base : Nat → Turf) (n : Nat)
    (M : Budget) (live : List (Flow α × Nat)) (slots : List (Option α)) (T : Turf) (s : Store) :
    Prop :=
  ∃ turf need, Parties ans Q base turf need n live slots T s ∧ (Budget.total need n).Le M

theorem Going.perm {live' : List (Flow α × Nat)} (h : Going ans Q base n M live slots T s)
    (hperm : live.Perm live') : Going ans Q base n M live' slots T s := by
  obtain ⟨turf, need, hparties, hle⟩ := h
  have hindices := hperm.map Prod.snd
  refine ⟨turf, need, { hparties with
    ready := fun f i hf => hparties.ready f i (hperm.mem_iff.2 hf)
    nodup := hindices.nodup_iff.1 hparties.nodup
    known := fun i hi => hparties.known i (hindices.mem_iff.2 hi)
    kept := fun i hi => (hparties.kept i hi).imp_left hindices.mem_iff.1 }, hle⟩

/-- What a task makes true may only speak of what others leave as it is. -/
def Stable (Q : Nat → α → Store → Prop) (base : Nat → Turf) : Prop :=
  ∀ i a s s', (base i).Rely s s' → Q i a s → Q i a s'

/-- What others do while all tasks pause makes no difference. -/
theorem Going.rely (hQ : Stable Q base) (h : Going ans Q base n M live slots T s)
    (hs : T.Rely s s') : Going ans Q base n M live slots T s' := by
  obtain ⟨turf, need, hparties, hle⟩ := h
  have hturf : ∀ i, (turf i).Rely s s' := fun i => (hparties.turfs.inside i).rely hs
  refine ⟨turf, need, { hparties with
    turfs := hparties.turfs.rely hs
    ready := fun f i hf => (hparties.ready f i hf).rely (hturf i)
    kept := fun i hi => ?_ }, hle⟩
  refine (hparties.kept i hi).imp_right fun ⟨a, ha, hq⟩ => ⟨a, ha, ?_⟩
  exact hQ i a s s' ((hparties.turfs.base i).rely (hturf i)) hq

namespace Parties

variable {f : Flow α} {i : Nat} {T' t' : Turf}

theorem rest_ready (h : Parties ans Q base turf need n ((f, i) :: live) slots T s)
    (hacts : (turf i).Acts s t' s') :
    ∀ g j, (g, j) ∈ live → j ≠ i ∧ g.Ready ans (fun _ => Q j) (need j) (turf j) s' := by
  intro g j hg
  have hne : j ≠ i := by
    rintro rfl
    exact (List.nodup_cons.1 h.nodup).1 (List.mem_map.2 ⟨(g, j), hg, rfl⟩)
  exact ⟨hne, (h.ready g j (List.mem_cons_of_mem _ hg)).rely (h.turfs.rely_of_ne hacts hne)⟩

/-- What other tasks have made true, after something that one of them has done. -/
theorem rest_kept (hQ : Stable Q base)
    (h : Parties ans Q base turf need n ((f, i) :: live) slots T s)
    (hacts : (turf i).Acts s t' s') {j : Nat} (hj : j < n) (hne : j ≠ i) :
    j ∈ live.map Prod.snd ∨ ∃ a, slots[j]? = some (some a) ∧ Q j a s' := by
  rcases h.kept j hj with hlive | ⟨a, ha, hq⟩
  · exact .inl ((List.mem_cons.1 hlive).resolve_left hne)
  · exact .inr ⟨a, ha, hQ j a s s' ((h.turfs.base j).rely (h.turfs.rely_of_ne hacts hne)) hq⟩

/-- A live task has come to a pause. -/
theorem suspend (hQ : Stable Q base)
    (h : Parties ans Q base turf need n ((f, i) :: live) slots T s) (hT : T.Inside T')
    (ht' : t'.Inside T') (hacts : (turf i).Acts s t' s') {rest : Flow α} {m : Budget}
    (hrest : rest.Ready ans (fun _ => Q i) m t' s') :
    Parties ans Q base (setAt turf i t') (setAt need i m) n ((rest, i) :: live) slots T' s' where
  turfs := h.turfs.act hacts ht' hT
  ready g j hg := by
    rcases List.mem_cons.1 hg with heq | hg
    · obtain ⟨rfl, rfl⟩ := Prod.mk.inj heq
      rw [setAt_self, setAt_self]
      exact hrest
    · obtain ⟨hne, hready⟩ := h.rest_ready hacts g j hg
      rw [setAt_of_ne need hne, setAt_of_ne turf hne]
      exact hready
  nodup := h.nodup
  known := h.known
  length := h.length
  kept j hj := by
    by_cases hji : j = i
    · exact .inl (List.mem_cons.2 (.inl hji))
    · exact (h.rest_kept hQ hacts hj hji).imp_left (List.mem_cons_of_mem _)

/-- A live task has left its result. -/
theorem settle (hQ : Stable Q base)
    (h : Parties ans Q base turf need n ((f, i) :: live) slots T s) (hT : T.Inside T')
    (ht' : t'.Inside T') (hacts : (turf i).Acts s t' s') {a : α} (ha : Q i a s') :
    Parties ans Q base (setAt turf i t') need n live (slots.set i (some a)) T' s' where
  turfs := h.turfs.act hacts ht' hT
  ready g j hg := by
    obtain ⟨hne, hready⟩ := h.rest_ready hacts g j hg
    rw [setAt_of_ne turf hne]
    exact hready
  nodup := (List.nodup_cons.1 h.nodup).2
  known j hj := h.known j (List.mem_cons_of_mem _ hj)
  length := by rw [List.length_set, h.length]
  kept j hj := by
    by_cases hji : j = i
    · subst hji
      exact .inr ⟨a, List.getElem?_set_self (by rw [h.length]; exact hj), ha⟩
    · rw [List.getElem?_set_ne (Ne.symm hji)]
      exact h.rest_kept hQ hacts hj hji

end Parties

/-- **A stretch of a live task.** If it comes to a pause, that pause is one of those to come. -/
theorem Going.advance (hQ : Stable Q base) {f : Flow α} {i : Nat}
    (h : Going ans Q base n M ((f, i) :: live) slots T s) :
    f.advance.Settles ans (fun T' x s' =>
      match x with
      | .suspended rest =>
        ∃ M', M.Spends M' ∧ Going ans Q base n M' ((rest, i) :: live) slots T' s'
      | .settled a => Going ans Q base n M live (slots.set i (some a)) T' s') M.bare T s := by
  obtain ⟨turf, need, hparties, hle⟩ := h
  have hi : i < n := hparties.known i (List.mem_cons_self ..)
  have hsettles := (hparties.ready f i (List.mem_cons_self ..)).now
  have hneed : (need i).bare.Le M.bare := ((Budget.le_total hi).trans hle).bare
  refine ((hsettles.advance (hparties.turfs.inside i)).mono fun T' x s' hx => ?_).budget hneed
  obtain ⟨hT, t', ht', hacts, hcomes⟩ := hx
  cases x with
  | suspended rest =>
    obtain ⟨m, hm, hrest⟩ := hcomes
    obtain ⟨M', hM, hle'⟩ := hle.spends (Budget.spends_total hi hm)
    exact ⟨M', hM, _, _, hparties.suspend hQ hT ht' hacts hrest, hle'⟩
  | settled a => exact ⟨_, need, hparties.settle hQ hT ht' hacts hcomes, hle⟩

/-! ## Turns and rounds -/

/-- Nothing is told of tasks that have ended. -/
def silent : Report := fun _ => return

/-- Flows settle without a pause, as a judgement on the turf and the contexts. -/
abbrev settling (ans : Query → Value) (M : Budget) : Judgement where
  State := Turf × Store
  judges P f p := f.Settles ans (fun T a s => P (T, s) a) M.bare p.1 p.2
  ok h := h
  bind h hk := h.bind_bare fun T a s _ ha => hk (T, s) a ha

/-- The middle of a round. If a worker is finished, then no task waits, and if one that has had its
turn is not, then there is a pause less to come. -/
structure Midway (ans : Query → Value) (Q : Nat → α → Store → Prop) (base : Nat → Turf) (n : Nat)
    (M : Budget) (p : Turf × Store) (done ahead : List (Worker α)) (b : Board α) : Prop where
  waiting : b.waiting = [] ∨ ∀ w ∈ done ++ ahead, w.isFinished = false
  going : ∃ M', M'.Le M ∧ (done.all Worker.isFinished = false → M'.Less M) ∧
    Going ans Q base n M' (liveTasks (done ++ ahead) b) b.tally.slots p.1 p.2

variable {p : Turf × Store} {done ahead : List (Worker α)} {b : Board α} {M' : Budget}

/-- **One stretch of a task**, which another worker may have had in its hands. -/
theorem stretched_midway (hQ : Stable Q base) {w : Worker α} {f : Flow α} {i : Nat}
    (hwaiting : b.waiting = [] ∨ ∀ v ∈ done ++ w :: ahead, v.isFinished = false)
    (hle : M'.Le M) (hless : done.all Worker.isFinished = false → M'.Less M)
    (h : Going ans Q base n M' ((f, i) :: liveTasks (done ++ ahead) b) b.tally.slots p.1 p.2) :
    (settling ans M).judges (FanOut.AfterStretch (settling ans M) silent (Midway ans Q base n M)
      done ahead i b) f.advance p := by
  refine ((h.advance hQ).budget hle.bare).mono fun T x s hx => ?_
  cases x with
  | suspended rest =>
    obtain ⟨M'', hspends, hgoing⟩ := hx
    have hmade : M''.Less M := Budget.Less.trans_le ⟨M'', hspends, .refl M''⟩ hle
    refine ⟨hwaiting.imp_right fun h => FanOut.forall_mem_turned h rfl, M'', hmade.le,
      fun _ => hmade, ?_⟩
    rw [List.append_assoc]
    exact hgoing.perm (FanOut.live_busy i rest).symm
  | settled a =>
    refine ⟨trivial, hwaiting.imp_right fun h => FanOut.forall_mem_replaced h rfl, M', hle, hless,
      ?_⟩
    rw [FanOut.live_idle]
    exact hx

theorem all_finished_turned :
    (done ++ [Worker.finished]).all Worker.isFinished = done.all Worker.isFinished := by
  rw [List.all_append]
  exact Bool.and_true _

theorem midway_kept (hQ : Stable Q base) :
    FanOut.Kept (settling ans M) silent (Midway ans Q base n M) where
  claim {p done ahead task i waiting tally} hs := by
    obtain ⟨M', hle, hless, hgoing⟩ := hs.going
    rw [FanOut.live_idle] at hgoing
    have hnone := hs.waiting.resolve_left (List.cons_ne_nil _ _)
    exact ⟨trivial, stretched_midway hQ (.inr hnone) hle hless
      (hgoing.perm (FanOut.live_waiting (task, i) waiting tally))⟩
  resume {p done ahead i rest b} hs := by
    obtain ⟨M', hle, hless, hgoing⟩ := hs.going
    exact stretched_midway hQ hs.waiting hle hless (hgoing.perm (FanOut.live_busy i rest))
  nothing {p done ahead tally} hs := by
    obtain ⟨M', hle, hless, hgoing⟩ := hs.going
    rw [FanOut.live_idle] at hgoing
    refine ⟨trivial, .inl rfl, M', hle, fun hdone => hless (all_finished_turned ▸ hdone), ?_⟩
    rw [List.append_assoc, List.singleton_append, FanOut.live_finished]
    exact hgoing
  finished {p done ahead b} hs := by
    obtain ⟨M', hle, hless, hgoing⟩ := hs.going
    have hwaiting : b.waiting = [] := hs.waiting.resolve_right fun hnone =>
      nomatch hnone .finished (by simp)
    refine ⟨.inl hwaiting, M', hle, fun hdone => hless (all_finished_turned ▸ hdone), ?_⟩
    rw [List.append_assoc]
    exact hgoing

/-- Every task has left a result, of which what it makes true holds. -/
def Filled (Q : Nat → α → Store → Prop) (n : Nat) (slots : List (Option α)) (s : Store) : Prop :=
  slots.length = n ∧ ∀ i < n, ∃ a, slots[i]? = some (some a) ∧ Q i a s

theorem Going.filled (h : Going ans Q base n M [] slots T s) : Filled Q n slots s := by
  obtain ⟨turf, need, hparties, -⟩ := h
  exact ⟨hparties.length, fun i hi => (hparties.kept i hi).resolve_left List.not_mem_nil⟩

/-- **All rounds.** -/
theorem rounds_settles (hQ : Stable Q base) (fuel : Nat) {ws : List (Worker α)} {b : Board α}
    (hne : ws ≠ []) (hfuel : ∀ k, M = some k → k < fuel)
    (h : Midway ans Q base n M (T, s) [] ws b) :
    (rounds silent fuel ws b).Settles ans (fun _ slots s' => Filled Q n slots s') M T s := by
  induction fuel generalizing M ws b T s with
  | zero =>
    cases M with
    | none => exact rfl
    | some k => exact absurd (hfuel k rfl) (Nat.not_lt_zero k)
  | succ fuel ih =>
    have hround : (round silent ws b).Settles ans (fun T' p s' => p.1.length = ws.length ∧
        Midway ans Q base n M (T', s') ([] ++ p.1) [] p.2) M.bare T s :=
      FanOut.round_judged (midway_kept hQ) h
    refine hround.bind_first fun T' p s' _ hp => ?_
    show Flow.Settles ans _ (if p.1.all Worker.isFinished then return p.2.tally.slots
      else .pause fun _ => rounds silent fuel p.1 p.2) M T' s'
    obtain ⟨hlength, hwaiting, M', hle, hless, hgoing⟩ := hp
    rw [List.nil_append, List.append_nil] at hwaiting hgoing
    have hsome : p.1 ≠ [] := fun hnil =>
      hne (List.length_eq_zero_iff.1 (by rw [← hlength, hnil]; rfl))
    cases hall : p.1.all Worker.isFinished with
    | true =>
      rw [if_pos rfl]
      obtain ⟨w, hw⟩ := List.exists_mem_of_ne_nil _ hsome
      have hnone : p.2.waiting = [] := hwaiting.resolve_right fun hnot => by
        have hfinished := List.all_eq_true.1 hall w hw
        rw [hnot w hw] at hfinished
        cases hfinished
      rw [FanOut.live_of_finished hall, hnone] at hgoing
      exact hgoing.filled
    | false =>
      rw [if_neg (by decide)]
      obtain ⟨m, hm, hle'⟩ := (hless hall).exists_spends
      have hleft : ∀ k, m = some k → k < fuel := by
        rintro k rfl
        cases hm with
        | one k => exact Nat.lt_of_succ_lt_succ (hfuel _ rfl)
      refine ⟨m, hm, fun s'' hs => ih hsome hleft ⟨hwaiting, M', hle', fun hdone => ?_, ?_⟩⟩
      · cases hdone
      · exact hgoing.rely hQ hs

/-! ## The whole -/

/-- Each result is one of which what its task makes true holds. -/
def Fulfilled (Q : Nat → α → Store → Prop) (n : Nat) (results : List α) (s : Store) : Prop :=
  results.length = n ∧ ∀ i a, results[i]? = some a → Q i a s

theorem Filled.exists_results (h : Filled Q n slots s) :
    ∃ results, slots.mapM id = some results ∧ Fulfilled Q n results s := by
  obtain ⟨hlength, hall⟩ := h
  obtain ⟨f, hf⟩ := Classical.skolem.1 fun i : Fin n => hall i.1 i.2
  have hslots : slots = (List.ofFn f).map some := by
    refine List.ext_getElem (by simp [hlength]) fun i h1 h2 => ?_
    have hi : i < n := by rwa [hlength] at h1
    have hslot := (hf ⟨i, hi⟩).1
    rw [List.getElem?_eq_getElem h1, Option.some.injEq] at hslot
    simpa using hslot
  refine ⟨List.ofFn f, ?_, by simp, fun i a ha => ?_⟩
  · rw [hslots]
    exact FanOut.mapM_id_eq_some_iff.2 rfl
  · obtain ⟨hi, rfl⟩ := List.getElem?_eq_some_iff.1 ha
    have hin : i < n := by simpa using hi
    simpa using (hf ⟨i, hin⟩).2

theorem going_start {tasks : List (Flow α)} (hturfs : Turfs base base T s)
    (h : ∀ i (f : Flow α), tasks[i]? = some f → f.Ready ans (fun _ => Q i) (need i) (base i) s) :
    Going ans Q base tasks.length (Budget.total need tasks.length) tasks.zipIdx
      (List.replicate tasks.length none) T s := by
  have hindices : tasks.zipIdx.map Prod.snd = List.range tasks.length := by
    rw [List.range_eq_range', ← List.zipIdx_map_snd 0 tasks]
  refine ⟨base, need, ⟨hturfs, ?_, ?_, ?_, by simp, ?_⟩, .refl _⟩
  · intro f i hf
    exact h i f (List.mem_zipIdx_iff_getElem?.1 hf)
  · rw [hindices]
    exact List.nodup_range
  · intro i hi
    rw [hindices] at hi
    exact List.mem_range.1 hi
  · intro i hi
    rw [hindices]
    exact .inl (List.mem_range.2 hi)

/-- **A fan-out of tasks that are apart.** -/
theorem run_settles (fuel cap : Nat) (hQ : Stable Q base) {tasks : List (Flow α)}
    (hturfs : Turfs base base T s) (hM : (Budget.total need tasks.length).Le M)
    (hfuel : ∀ k, M = some k → k < fuel)
    (h : ∀ i (f : Flow α), tasks[i]? = some f → f.Ready ans (fun _ => Q i) (need i) (base i) s) :
    (run fuel tasks cap silent).Settles ans
      (fun _ results s' => Fulfilled Q tasks.length results s') M T s := by
  cases tasks with
  | nil =>
    refine ⟨rfl, fun i a ha => ?_⟩
    cases ha
  | cons task tasks =>
  cases tasks with
  | nil =>
    have htask := ((h 0 task rfl).now.inside (hturfs.inside 0)).budget
      ((Budget.le_total (n := 1) Nat.zero_lt_one).trans hM)
    refine ⟨trivial, htask.bind_last fun T' a s' _ hx => ?_⟩
    obtain ⟨-, -, hq⟩ := hx
    refine ⟨trivial, rfl, fun i b hb => ?_⟩
    cases i with
    | zero => exact Option.some.inj hb ▸ hq
    | succ i => cases hb
  | cons other tasks =>
    have hcount : workerCount cap (task :: other :: tasks).length ≠ 0 := by
      simp only [workerCount, List.length_cons]
      omega
    have hsome : (start (task :: other :: tasks) cap).1 ≠ [] := fun hnil =>
      hcount (by simpa [start] using congrArg List.length hnil)
    have hbegun : Midway ans Q base (task :: other :: tasks).length M (T, s) []
        (start (task :: other :: tasks) cap).1 (start (task :: other :: tasks) cap).2 := by
      refine ⟨.inr fun w hw => ?_, _, hM, fun hdone => ?_, ?_⟩
      · rw [List.eq_of_mem_replicate hw]
        rfl
      · cases hdone
      · rw [List.nil_append, FanOut.live_start]
        exact going_start hturfs h
    have hrounds := rounds_settles hQ fuel hsome hfuel hbegun
    refine ⟨trivial, hrounds.bind_last fun T' slots s' _ hfilled => ?_⟩
    obtain ⟨results, hresults, hfulfilled⟩ := hfilled.exists_results
    rw [hresults]
    exact hfulfilled

/-! ## One after another -/

/-- What is not written by the first of these flows is not written by a sequence of them, either. -/
def Spares (base : Nat → Turf) (T : Turf) (s s' : Store) : Prop :=
  ∀ u : Turf, u.Inside T → (∀ i h key, (base i).own h key → ¬u.dep h key) → u.Rely s s'

/-- **Tasks that are apart, one after another.** -/
theorem inTurn_settles (hQ : Stable Q base) {tasks : List (Flow α)} (hturfs : Turfs base base T s)
    (h : ∀ i (f : Flow α), tasks[i]? = some f → f.Ready ans (fun _ => Q i) (need i) (base i) s) :
    (Flow.inTurn tasks).Settles ans (fun _ results s' =>
      Fulfilled Q tasks.length results s' ∧ Spares base T s s') (Budget.total need tasks.length)
      T s := by
  induction tasks generalizing Q base need T s with
  | nil => exact ⟨⟨rfl, fun i a ha => nomatch ha⟩, fun u _ _ => .refl u s⟩
  | cons task tasks ih =>
    -- While the first task is done, nobody writes what another relies on.
    have hframed : (⟨T.dep, (base 0).own⟩ : Turf).Inside T := ⟨fun _ _ => id, (hturfs.inside 0).own⟩
    have hsmall : (base 0).Inside ⟨T.dep, (base 0).own⟩ := ⟨(hturfs.inside 0).dep, fun _ _ => id⟩
    rw [List.length_cons, Budget.total_succ_front]
    refine (((h 0 task rfl).now.inside hsmall).framed hframed).bind fun T' a s' hT hx => ?_
    obtain ⟨⟨-, -, -, -, hq⟩, hT', hkeeps⟩ := hx
    have hrely : ∀ u : Turf, u.Inside T → (∀ h key, (base 0).own h key → ¬u.dep h key) →
        u.Rely s s' := fun u hu hapart => ⟨hkeeps.valid, fun c key hc hdep =>
      hkeeps.same c key hc (hu.dep c key hdep) fun hown => hapart c key hown hdep⟩
    have hother : ∀ i, (base (i + 1)).Rely s s' := fun i =>
      hrely _ (hturfs.inside _) (hturfs.apart 0 (i + 1) (Nat.succ_ne_zero i).symm)
    have hturfs' : Turfs (fun i => base (i + 1)) (fun i => base (i + 1)) T' s' :=
      { base := fun i => .refl _
        inside := fun i => (hturfs.inside (i + 1)).trans hT
        fits := fun i c key hk => hkeeps.valid c (hturfs.fits (i + 1) c key hk)
        apart := fun i j hij => hturfs.apart (i + 1) (j + 1) fun heq => hij (Nat.succ.inj heq) }
    have hready : ∀ i (f : Flow α), tasks[i]? = some f →
        f.Ready ans (fun _ => Q (i + 1)) (need (i + 1)) (base (i + 1)) s' :=
      fun i f hf => (h (i + 1) f hf).rely (hother i)
    have hrest := ih (Q := fun i => Q (i + 1)) (fun i => hQ (i + 1)) hturfs' hready
    refine hrest.bind_last fun T'' as s'' _ hy => ?_
    obtain ⟨⟨hlength, hall⟩, hspares⟩ := hy
    refine ⟨⟨congrArg (· + 1) hlength, fun i b hb => ?_⟩, fun u hu hapart => ?_⟩
    · cases i with
      | zero =>
        have hfirst := hspares (base 0) ((hturfs.inside 0).trans hT) fun i =>
          hturfs.apart (i + 1) 0 (Nat.succ_ne_zero i)
        cases hb
        exact hQ 0 a s' s'' hfirst hq
      | succ i => exact hall i b hb
    · exact (hrely u hu (hapart 0)).trans
        (hspares u (hu.trans hT) fun i => hapart (i + 1))

end Interleaving

end WorkflowEngine
