import WorkflowEngine.Proofs.Interleaving.Groups
import WorkflowEngine.Proofs.Isolation.Engine
import WorkflowEngine.Proofs.Isolation.Hosting
import WorkflowEngine.Proofs.Judgement.FanOut

/-!
# The branches of a group run among others

A fan-out is a host of each of its tasks, if the others use nothing but contexts that are known.
Between two turns the guest is among the live tasks, which are claimed or waiting, or it has left
its result in its slot (`FanOut.Hosted`).

**Theorem (`Executor.parallel_among`).** When a group comes to its results, each of its branches has
run as `Flow.Among` says, from the contexts of some moment of the group's run on, and its result is
that of the group in its place. The same holds of the executor alone, without the announcements of
the op and the binding of its result (`Engine.branch_among`).
-/

namespace WorkflowEngine

namespace Flow

variable {α : Type} {K : Known}

/-- The result, if the flow has come to one. -/
def Stretch.result? : Stretch α → Option α
  | .settled a => some a
  | .suspended _ => none

theorem uses_check : check.Uses K := ⟨.none, check, nofun, echoes_check⟩

theorem uses_ofExcept (r : Except Fault α) : (ofExcept r).Uses K :=
  ⟨.none, ofExcept r, nofun, echoes_ofExcept r⟩

theorem hosts_guest {Q : Known → Stretch α → α → Prop} {f : Flow α}
    (h : ∀ a, Q K (.settled a) a) : f.Hosts Q K (.suspended f) := by
  have hwhole : (f.bind fun a => .done (.ok a)).Hosts Q K (.suspended f) :=
    .whole fun a => .ok (h a)
  rwa [bind_pure] at hwhole

/-- Flows are hosts, as a judgement on what is known and on what the guest has come to. -/
abbrev hosting (α : Type) : Judgement where
  State := Known × Stretch α
  judges P f p := f.Hosts (fun K s b => P (K, s) b) p.1 p.2
  ok h := .ok h
  bind h hk := h.bind fun K s b hb => hk (K, s) b hb

end Flow

namespace FanOut

variable {α : Type} {report : Report} {i : Nat} {K K' : Known} {s s' : Flow.Stretch α}
  {live : List (Flow α × Nat)} {slots : List (Option α)}

/-- The guest is the live task at `i`, unless it has left its result in its slot; the other live
tasks use nothing but known contexts. -/
structure Hosted (i : Nat) (K : Known) (s : Flow.Stretch α) (live : List (Flow α × Nat))
    (slots : List (Option α)) : Prop where
  nodup : (live.map Prod.snd).Nodup
  others : ∀ f j, (f, j) ∈ live → j ≠ i → f.Uses K
  guest : ∀ f, (f, i) ∈ live ↔ s = .suspended f
  slot : slots[i]? = some s.result?

namespace Hosted

/-- Where a task stands among the live ones makes no difference. -/
theorem perm {live' : List (Flow α × Nat)} (h : Hosted i K s live slots)
    (hperm : live.Perm live') : Hosted i K s live' slots where
  nodup := (hperm.map _).nodup_iff.1 h.nodup
  others f j hf := h.others f j (hperm.mem_iff.2 hf)
  guest f := hperm.mem_iff.symm.trans (h.guest f)
  slot := h.slot

theorem mono (h : Hosted i K s live slots) (hle : K.Le K') : Hosted i K' s live slots :=
  { h with others := fun f j hf hj => (h.others f j hf hj).mono hle }

variable {f rest : Flow α} {j : Nat}

theorem ne_of_mem (h : Hosted i K s ((f, j) :: live) slots) {g : Flow α} {k : Nat}
    (hg : (g, k) ∈ live) : k ≠ j := by
  rintro rfl
  exact (List.nodup_cons.1 h.nodup).1 (List.mem_map.2 ⟨(g, k), hg, rfl⟩)

/-- A task has come to a pause: if it is the guest, then that is where the guest is. -/
theorem suspend (h : Hosted i K s ((f, j) :: live) slots)
    (hguest : j = i → s' = .suspended rest) (hother : j ≠ i → s' = s ∧ rest.Uses K) :
    Hosted i K s' ((rest, j) :: live) slots where
  nodup := h.nodup
  others g k hg hk := by
    rcases List.mem_cons.1 hg with heq | hg
    · obtain ⟨rfl, rfl⟩ := Prod.mk.inj heq
      exact (hother hk).2
    · exact h.others g k (List.mem_cons_of_mem _ hg) hk
  guest g := by
    by_cases hj : j = i
    · subst hj
      have hrest : (g, j) ∉ live := fun hg => h.ne_of_mem hg rfl
      simp [hguest rfl, hrest, eq_comm]
    · rw [(hother hj).1, ← h.guest g]
      simp [Ne.symm hj]
  slot := by
    by_cases hj : j = i
    · subst hj
      have hs : s = .suspended f := (h.guest f).1 (List.mem_cons_self ..)
      rw [hguest rfl, h.slot, hs]
      rfl
    · rw [(hother hj).1, h.slot]

/-- A task has left its result: if it is the guest, then that is where the guest is. -/
theorem settle (h : Hosted i K s ((f, j) :: live) slots) {a : α}
    (hguest : j = i → s' = .settled a) (hother : j ≠ i → s' = s) :
    Hosted i K s' live (slots.set j (some a)) where
  nodup := (List.nodup_cons.1 h.nodup).2
  others g k hg := h.others g k (List.mem_cons_of_mem _ hg)
  guest g := by
    by_cases hj : j = i
    · subst hj
      have hrest : (g, j) ∉ live := fun hg => h.ne_of_mem hg rfl
      simp [hguest rfl, hrest]
    · rw [hother hj, ← h.guest g]
      simp [Ne.symm hj]
  slot := by
    by_cases hj : j = i
    · subst hj
      obtain ⟨hlt, -⟩ := List.getElem?_eq_some_iff.1 h.slot
      rw [hguest rfl, List.getElem?_set_self hlt]
      rfl
    · rw [hother hj, List.getElem?_set_ne hj]
      exact h.slot

/-- **A stretch of a live task**, be it the guest or another. -/
theorem advance (h : Hosted i K s ((f, j) :: live) slots) :
    f.advance.Hosts (fun K' s' x =>
      match x with
      | .suspended rest => Hosted i K' s' ((rest, j) :: live) slots
      | .settled a => Hosted i K' s' live (slots.set j (some a))) K s := by
  by_cases hj : j = i
  · subst hj
    obtain rfl : s = .suspended f := (h.guest f).1 (List.mem_cons_self ..)
    rw [← Flow.bind_pure f.advance]
    refine .stretch fun x => .ok ?_
    cases x with
    | suspended rest => exact h.suspend (fun _ => rfl) (absurd rfl)
    | settled a => exact h.settle (fun _ => rfl) (absurd rfl)
  · have hf : f.Uses K := h.others f j (List.mem_cons_self ..) hj
    refine hf.advance_hosts.mono fun K' s' x hx => ?_
    obtain ⟨hle, rfl, hrest⟩ := hx
    cases x with
    | suspended rest =>
      exact (h.mono hle).suspend (fun heq => absurd heq hj) fun _ => ⟨rfl, hrest rest rfl⟩
    | settled a => exact (h.mono hle).settle (fun heq => absurd heq hj) fun _ => rfl

end Hosted

/-! ## Turns and rounds -/

/-- The guest and the others in the middle of a round. -/
def RoundHosted (i : Nat) (p : Known × Flow.Stretch α) (done ahead : List (Worker α))
    (b : Board α) : Prop := Hosted i p.1 p.2 (liveTasks (done ++ ahead) b) b.tally.slots

variable {p : Known × Flow.Stretch α} {done ahead : List (Worker α)} {b : Board α}

theorem check_hosts {R : Known × Flow.Stretch α → Prop}
    (h : ∀ K', p.1.Le K' → R (K', p.2)) :
    (Flow.hosting α).judges (fun q _ => R q) Flow.check p := by
  refine Flow.Hosts.mono Flow.uses_check.hosts fun K' s' _ hs => ?_
  obtain ⟨hle, rfl⟩ := hs
  exact h K' hle

variable (hr : ∀ p K, (report p).Uses K)

include hr

theorem settle_hosts {tally : Tally α} {j : Nat} {a : α}
    (h : Hosted i K s live (tally.slots.set j (some a))) :
    (tally.settle report j a).Hosts (fun K' s' t => Hosted i K' s' live t.slots) K s := by
  refine Flow.uses_check.hosts.bind fun K₁ s₁ _ ⟨hle₁, hs₁⟩ => ?_
  refine (hr _ K₁).hosts.bind fun K₂ s₂ _ ⟨hle₂, hs₂⟩ => .ok ?_
  subst hs₁ hs₂
  exact (h.mono hle₁).mono hle₂

/-- **One stretch** of a live task, be it the guest or another. -/
theorem stretched_hosted {f : Flow α} {j : Nat}
    (h : Hosted i p.1 p.2 ((f, j) :: liveTasks (done ++ ahead) b) b.tally.slots) :
    (Flow.hosting α).judges (AfterStretch (Flow.hosting α) report (RoundHosted i) done ahead j b)
      f.advance p := by
  refine Flow.Hosts.mono h.advance fun K' s' x hx => ?_
  cases x with
  | suspended rest =>
    show Hosted i K' s' (liveTasks ((done ++ [.busy j rest]) ++ ahead) b) b.tally.slots
    rw [List.append_assoc, List.singleton_append]
    exact hx.perm (live_busy j rest).symm
  | settled a =>
    refine Flow.Hosts.mono (settle_hosts hr hx) fun K'' s'' tally htally => ?_
    show Hosted i K'' s'' (liveTasks (done ++ .idle :: ahead) _) tally.slots
    rw [live_idle]
    exact htally

theorem hosted_kept : Kept (Flow.hosting α) report (RoundHosted (α := α) i) where
  claim {p done ahead task j waiting tally} hs := by
    have hfree : Hosted i p.1 p.2 ((task, j) :: liveTasks (done ++ ahead) ⟨waiting, tally⟩)
        tally.slots := by
      rw [RoundHosted, live_idle] at hs
      exact hs.perm (live_waiting (task, j) waiting tally)
    exact (Flow.hosting α).bind (check_hosts fun K' hle => hfree.mono hle)
      fun q _ hq => stretched_hosted hr hq
  resume {p done ahead j rest b} hs := stretched_hosted hr (hs.perm (live_busy j rest))
  nothing {p done ahead tally} hs := by
    refine check_hosts fun K' hle => ?_
    rw [RoundHosted, live_idle] at hs
    rw [RoundHosted, List.append_assoc, List.singleton_append, live_finished]
    exact hs.mono hle
  finished {p done ahead b} hs := by
    rw [RoundHosted, List.append_assoc]
    exact hs

omit hr in
theorem hosted_outlasts : Outlasts (Flow.hosting α) (fun _ => RoundHosted (α := α) i)
    (fun p slots => ∃ live, Hosted i p.1 p.2 live slots) where
  starved _ := .starved
  ended hs _ := ⟨_, hs⟩
  pause {n p ws b rest} hs _ h := by
    refine .pause (h p ?_)
    rw [RoundHosted, List.append_nil] at hs
    exact hs

/-! ## The whole -/

omit hr in
theorem hosted_start {tasks : List (Flow α)} {f : Flow α} (hf : tasks[i]? = some f)
    (hothers : ∀ (g : Flow α) j, tasks[j]? = some g → j ≠ i → g.Uses K) :
    Hosted i K (.suspended f) tasks.zipIdx (List.replicate tasks.length none) where
  nodup := by
    rw [List.zipIdx_map_snd]
    exact List.nodup_range'
  others g j hg := hothers g j (List.mem_zipIdx_iff_getElem?.1 hg)
  guest g := by
    rw [List.mem_zipIdx_iff_getElem?, hf]
    simp
  slot := by
    obtain ⟨hlt, -⟩ := List.getElem?_eq_some_iff.1 hf
    simp [hlt, Flow.Stretch.result?]

omit hr in
theorem Hosted.settled {results : List α} (h : Hosted i K s live (results.map some)) :
    ∃ a, s = .settled a ∧ results[i]? = some a := by
  have hslot := h.slot
  rw [List.getElem?_map] at hslot
  cases s with
  | suspended rest => simp [Flow.Stretch.result?] at hslot
  | settled a =>
    refine ⟨a, rfl, ?_⟩
    simpa [Flow.Stretch.result?] using hslot

/-- **A fan-out hosts each of its tasks**: when it comes to its results, the task has come to its
own, which is one of them. -/
theorem run_hosts {tasks : List (Flow α)} {f : Flow α} (hf : tasks[i]? = some f)
    (hothers : ∀ (g : Flow α) j, tasks[j]? = some g → j ≠ i → g.Uses K) (fuel cap : Nat) :
    (run fuel tasks cap report).Hosts (fun _ s results => ∃ a, s = .settled a ∧
      results[i]? = some a) K (.suspended f) := by
  refine run_judged (J := Flow.hosting α) (s := (K, .suspended f)) (I := fun _ => RoundHosted i)
    (P := fun p results => ∃ a, p.2 = .settled a ∧ results[i]? = some a) (fun _ => hosted_kept hr)
    hosted_outlasts fuel cap (fun htasks => ?_) (fun task htasks => ?_) (fun _ => ?_)
    (fun _ _ hslots => ?_) (fun _ _ _ _ => .act trivial fun _ => .error _)
  · rw [htasks] at hf
    cases hf
  · -- A single task is the guest.
    subst htasks
    cases i with
    | succ i => cases hf
    | zero =>
    cases hf
    refine Flow.uses_check.hosts.bind fun K₁ s₁ _ ⟨_, hs₁⟩ => ?_
    subst hs₁
    refine Flow.hosts_guest fun a => ?_
    refine Flow.uses_check.hosts.bind fun K₂ s₂ _ ⟨_, hs₂⟩ => ?_
    refine (hr _ K₂).hosts.bind fun K₃ s₃ _ ⟨_, hs₃⟩ => .ok ?_
    subst hs₂ hs₃
    exact ⟨a, rfl, rfl⟩
  · refine check_hosts fun K' hle => ?_
    rw [RoundHosted, List.nil_append, live_start]
    exact (hosted_start hf hothers).mono hle
  · obtain ⟨live, hhosted⟩ := hslots
    exact hhosted.settled

end FanOut

/-! ## Groups -/

namespace Executor

variable {d : Dispatcher} {op : Op} {ops : List Op} {h : Handle}

/-- A group hosts each of its branches. -/
theorem parallel_hosts (hd : d.Contained) (hops : op.innerOps = .ok ops) {i : Nat} {inner : Op}
    (hi : ops[i]? = some inner) :
    (parallel d op h).Hosts (fun _ s v => ∃ a results, s = .settled a ∧ v = .array results ∧
      results[i]? = some a) (· = h) (.suspended (d.dispatch inner h)) := by
  have huses : ∀ K : Known, K h → ∀ inner : Op, (d.dispatch inner h).Uses K := fun K hK inner =>
    ⟨fun x y => x = h ∧ y = h, _, fun x _ hx => hx.1 ▸ hK, hd.dispatch ⟨rfl, rfl⟩ inner⟩
  unfold parallel
  rw [hops]
  refine (Flow.uses_ofExcept (concurrency d.config op ops.length)).hosts.bind ?_
  intro K₁ s₁ cap ⟨hle, hs₁⟩
  subst hs₁
  have hbranch : (ops.map (d.dispatch · h))[i]? = some (d.dispatch inner h) := by simp [hi]
  have hothers : ∀ (g : Flow Value) j, (ops.map (d.dispatch · h))[j]? = some g → j ≠ i →
      g.Uses K₁ := by
    intro g j hg _
    rw [List.getElem?_map, Option.map_eq_some_iff] at hg
    obtain ⟨other, -, rfl⟩ := hg
    exact huses K₁ (hle h rfl) other
  have hreport : ∀ (p : Progress) (K : Known), (return : Flow Unit).Uses K := fun _ _ =>
    ⟨.none, _, nofun, Flow.echoes_ok ()⟩
  refine (FanOut.run_hosts hreport hbranch hothers d.fuel cap).bind fun K₂ s₂ results hresults => ?_
  obtain ⟨a, hs, ha⟩ := hresults
  exact .ok ⟨a, results, hs, rfl, ha⟩

end Executor

/-- From some moment of a run on, with the contexts as they are then, the flow has run among others
to this result. What it has done until then, but for pauses, the run has done. -/
def Flow.RanDuring {α : Type} (moment : Branch → Prop) (σ' : Branch) (f : Flow α) (a : α) : Prop :=
  ∃ out τ past υ, moment τ ∧ f.Among out { store := τ.store, deeds := past } (.done (.ok a)) υ ∧
    (υ.deeds.filter (· ≠ .paused)).Sublist σ'.deeds

section Runs

variable {group op : Op} {ops : List Op} {h : Handle} {i : Nat} {out : Outside} {σ σ' : Branch}
  {v : Value}

/-- The moments of a run of a group. -/
def Executor.MomentOf (d : Dispatcher) (group : Op) (h : Handle) (out : Outside) (σ τ : Branch) :
    Prop := ∃ g, (parallel d group h).Among out σ g τ

/-- **The branches of a group run among others**, and their results are those of the group. -/
theorem Executor.parallel_among {d : Dispatcher} (hd : d.Contained)
    (hrun : (parallel d group h).Among out σ (.done (.ok v)) σ') (hops : group.innerOps = .ok ops)
    (hvalid : σ.store.Valid h) (hi : ops[i]? = some op) :
    ∃ results a, v = .array results ∧ results[i]? = some a ∧
      (d.dispatch op h).RanDuring (MomentOf d group h out σ) σ' a := by
  have hknown : σ.Holds (· = h) := fun x hx => hx ▸ hvalid
  have hmoment : ∀ g τ, (parallel d group h).Among out σ g τ → MomentOf d group h out σ τ :=
    fun g _ hg => ⟨g, hg⟩
  obtain ⟨K, s, hresult, hstands⟩ :=
    (parallel_hosts hd hops hi).among hknown (.inl rfl) hmoment hrun
  obtain ⟨a, results, rfl, rfl, ha⟩ := hresult
  refine ⟨results, a, rfl, ha, ?_⟩
  rcases hstands with hnone | ⟨τ, υ, hmoment, hbranch, hapart⟩
  · cases hnone
  · obtain ⟨out', hbranch⟩ := hbranch.exists_among
    exact ⟨out', τ, [], υ, hmoment, hbranch, hapart.deeds⟩

variable {e : Engine} {n : Nat}

/-- An op that an engine has executed among others has been carried out among others. -/
theorem Engine.carryOut_ranDuring {moment : Branch → Prop} {a : Value}
    (hran : (e.exec (n + 1) op h).RanDuring moment σ' a) :
    (e.carryOut n op h).RanDuring moment σ' a := by
  obtain ⟨out, τ, past, υ, hmoment, hrun, hdeeds⟩ := hran
  rw [exec_succ] at hrun
  rcases hrun.of_bind with ⟨e, he, -⟩ | ⟨_, υ₀, hannounced, hrest⟩
  · cases he
  rcases hrest.of_bind with ⟨e, he, -⟩ | ⟨result, υ₁, hcarried, hbound⟩
  · cases he
  have hlater := hbound.deeds_suffix
  rcases hbound.of_bind with ⟨e, he, -⟩ | ⟨_, υ₂, -, hends⟩
  · cases he
  -- Both announcements are single actions.
  cases hends with
  | act hends =>
  cases hends
  cases hannounced with
  | act hannounced =>
  cases hannounced
  exact ⟨out, τ, _, υ₁, hmoment, hcarried, (hlater.sublist.filter _).trans hdeeds⟩

/-- **In a group of an engine the executor of each branch runs among others** from some moment of
the group's run on, and comes to the result that the group has in its place. -/
theorem Engine.branch_among (he : e.Contained) {x : Executor}
    (hrun : (Executor.parallel (e.dispatcher (n + 1)) group h).Among out σ (.done (.ok v)) σ')
    (hops : group.innerOps = .ok ops) (hvalid : σ.store.Valid h) (hi : ops[i]? = some op)
    (hloop : LoopMode.ofKind? op.kind = none) (hx : e.registry.get? op.kind = some x) :
    ∃ results a, v = .array results ∧ results[i]? = some a ∧ (x (e.dispatcher n) op h).RanDuring
      (Executor.MomentOf (e.dispatcher (n + 1)) group h out σ) σ' a := by
  obtain ⟨results, a, hv, ha, hran⟩ :=
    Executor.parallel_among (e.exec_contained he (n + 1)) hrun hops hvalid hi
  refine ⟨results, a, hv, ha, ?_⟩
  have hdispatch : (e.dispatcher (n + 1)).dispatch op h = e.exec (n + 1) op h := by
    simp [Dispatcher.dispatch, hloop, dispatcher]
  have hcarry : e.carryOut n op h = x (e.dispatcher n) op h := by simp [carryOut, hx]
  rw [hdispatch] at hran
  rw [← hcarry]
  exact carryOut_ranDuring hran

end Runs

end WorkflowEngine
