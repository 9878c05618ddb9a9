import WorkflowEngine.Proofs.FanOut.Rule
import WorkflowEngine.Proofs.Judgement.FanOut

/-!
# Fan-outs follow their rule

In the middle of a round the books are kept, the workers that have had their turn have a task in
their hands or are finished, and the others can go on (`FanOut.Midway`). Whatever a worker does in
its turn keeps to that (`FanOut.midway_kept`), and so do the pauses between the rounds.

The number of rounds is bounded, so a fan-out may be cut off. But in a round after which all wait,
every task that is then in flight has paused once more. So a fan-out with more rounds than its tasks
pause is not cut off (`FanOut.run_follows`).
-/

namespace WorkflowEngine

namespace FanOut

variable {α : Type} {jobs : List (Job α)} {workers : Nat} {t : List Mark} {flying : List Nat}
  {r : Reporter} {starves : Prop}

/-- Flows follow the rule, as a judgement on the trace. -/
abbrev abiding (jobs : List (Job α)) (workers : Nat) (starves : Prop) : Judgement where
  State := List Mark
  judges P f t := f.Follows (rule jobs workers) (Flow.Ending (Fails jobs) starves P) t
  ok h := h
  bind := Flow.Follows.bind

/-! ## Workers and what they have in their hands -/

/-- The tasks that workers have in their hands. -/
def allFlying (ws : List (Worker α)) : List Nat := ws.flatMap Worker.flying

@[simp] theorem allFlying_nil : allFlying ([] : List (Worker α)) = [] := rfl

@[simp] theorem allFlying_cons (w : Worker α) (ws : List (Worker α)) :
    allFlying (w :: ws) = w.flying ++ allFlying ws := rfl

theorem Worker.length_flying_le (w : Worker α) : w.flying.length ≤ 1 := by
  cases w <;> simp [flying]

theorem length_allFlying_le (ws : List (Worker α)) : (allFlying ws).length ≤ ws.length := by
  induction ws with
  | nil => exact Nat.le_refl _
  | cons w ws ih =>
    have hw := w.length_flying_le
    simp only [allFlying_cons, List.length_append, List.length_cons]
    omega

theorem allFlying_middle (done ahead : List (Worker α)) (w : Worker α) :
    (allFlying (done ++ w :: ahead)).Perm (w.flying ++ allFlying (done ++ ahead)) := by
  simp only [allFlying, List.flatMap_append, List.flatMap_cons]
  exact List.perm_append_comm_assoc ..

/-- When no worker is idle, the workers have as many tasks in their hands as there are. -/
theorem length_allFlying_of_busy {ws : List (Worker α)}
    (h : ∀ w ∈ ws, ∃ i rest, w = .busy i rest) : (allFlying ws).length = ws.length := by
  induction ws with
  | nil => rfl
  | cons w ws ih =>
    obtain ⟨i, rest, rfl⟩ := h w (List.mem_cons_self ..)
    have hws := ih fun v hv => h v (List.mem_cons_of_mem _ hv)
    simp only [allFlying_cons, Worker.flying, List.length_append, List.length_cons,
      List.length_nil, hws]
    omega

theorem allFlying_of_finished {ws : List (Worker α)} (h : ws.all Worker.isFinished) :
    allFlying ws = [] := by
  refine List.flatMap_eq_nil_iff.2 fun w hw => ?_
  have hf := List.all_eq_true.1 h w hw
  cases w with
  | finished => rfl
  | idle => cases hf
  | busy i rest => cases hf

theorem owe_middle {done ahead : List (Worker α)} {w : Worker α} {n : Nat} :
    Owe jobs (done ++ w :: ahead) n ↔
      ∃ m k, n = m + k ∧ w.Owes jobs m ∧ Owe jobs (done ++ ahead) k := by
  induction done generalizing n with
  | nil =>
    constructor
    · intro h
      cases h with
      | cons hw hrest => exact ⟨_, _, rfl, hw, hrest⟩
    · rintro ⟨m, k, rfl, hw, hrest⟩
      exact .cons hw hrest
  | cons v done ih =>
    constructor
    · intro h
      cases h with
      | cons hv hrest =>
        obtain ⟨m, k, rfl, hw, hothers⟩ := ih.1 hrest
        exact ⟨m, _, Nat.add_left_comm .., hw, .cons hv hothers⟩
    · rintro ⟨m, k, rfl, hw, hothers⟩
      cases hothers with
      | cons hv hrest =>
        rw [Nat.add_left_comm]
        exact .cons hv (ih.2 ⟨m, _, rfl, hw, hrest⟩)

/-! ## The middle of a round -/

/-- The workers but for the one whose turn it is. Those that have had their turn have a task in
their hands, or found that no task is left; of the others, those that are finished found so, and
those that have a task are resumed after a pause. -/
structure Others (jobs : List (Job α)) (workers : Nat) (t : List Mark)
    (done ahead : List (Worker α)) (waiting : List (Flow α × Nat)) (pauses : Nat) : Prop where
  count : (done ++ ahead).length + 1 = workers
  busy_or : ∀ w ∈ done, (∃ i rest, w = .busy i rest) ∨ (w = .finished ∧ waiting = [])
  none_left : ∀ w ∈ ahead, w.isFinished → waiting = []
  paused : ∀ w ∈ ahead, w.flying ≠ [] → .paused ∈ t
  owe : Owe jobs (done ++ ahead) pauses

/-- The books are kept, and so many pauses are to come at most, counting those that the workers
have made in this round. -/
structure Midway (jobs : List (Job α)) (workers fuel load : Nat) (t : List Mark)
    (done ahead : List (Worker α)) (b : Board α) : Prop where
  books : Books jobs (Log.of t) (allFlying (done ++ ahead)) b
  count : (done ++ ahead).length = workers
  some_worker : 0 < workers
  busy_or : ∀ w ∈ done, (∃ i rest, w = .busy i rest) ∨ (w = .finished ∧ b.waiting = [])
  none_left : ∀ w ∈ ahead, w.isFinished → b.waiting = []
  paused : ∀ w ∈ ahead, w.flying ≠ [] → .paused ∈ t
  owe : ∃ n, Owe jobs (done ++ ahead) n ∧
    fuel + n + (allFlying done).length + unclaimed jobs (Log.of t) ≤ load
  asked : (done ++ ahead).all Worker.isFinished → Asked t

variable {fuel load k m n : Nat} {done ahead : List (Worker α)} {w : Worker α} {b : Board α}
  {waiting : List (Flow α × Nat)}

theorem Midway.split (h : Midway jobs workers fuel load t done (w :: ahead) b) :
    ∃ m k, Books jobs (Log.of t) (w.flying ++ allFlying (done ++ ahead)) b ∧ w.Owes jobs m ∧
      Others jobs workers t done ahead b.waiting k ∧
      fuel + (m + k) + (allFlying done).length + unclaimed jobs (Log.of t) ≤ load := by
  obtain ⟨_, howe, hload⟩ := h.owe
  obtain ⟨m, k, rfl, hw, hothers⟩ := owe_middle.1 howe
  refine ⟨m, k, h.books.perm (allFlying_middle done ahead w), hw, ?_, hload⟩
  refine ⟨?_, h.busy_or, (List.forall_mem_cons.1 h.none_left).2, (List.forall_mem_cons.1 h.paused).2,
    hothers⟩
  have hcount := h.count
  simp only [List.length_append, List.length_cons] at hcount ⊢
  omega

namespace Others

theorem free (h : Others jobs workers t done ahead waiting k) :
    (allFlying (done ++ ahead)).length < workers := by
  have hle := length_allFlying_le (done ++ ahead)
  have hcount := h.count
  omega

theorem later {t' : List Mark} (h : Others jobs workers t done ahead waiting k) (ht : t <+: t') :
    Others jobs workers t' done ahead waiting k :=
  { h with paused := fun w hw hflying => ht.subset (h.paused w hw hflying) }

/-- While tasks are left, nobody has found that none is. -/
theorem claimed {task : Flow α × Nat}
    (h : Others jobs workers t done ahead (task :: waiting) k) :
    Others jobs workers t done ahead waiting k :=
  { h with
    busy_or := fun w hw => .inl ((h.busy_or w hw).resolve_right fun hf => nomatch hf.2)
    none_left := fun w hw hf => nomatch h.none_left w hw hf }

/-- The worker goes over to those that have had their turn. -/
theorem turned (h : Others jobs workers t done ahead b.waiting k)
    (hbooks : Books jobs (Log.of t) (w.flying ++ allFlying (done ++ ahead)) b)
    (hbusy : (∃ i rest, w = .busy i rest) ∨ (w = .finished ∧ b.waiting = []))
    (howes : w.Owes jobs m) (hload : fuel + (m + k) + (allFlying done).length + w.flying.length +
      unclaimed jobs (Log.of t) ≤ load)
    (hasked : w.isFinished → (done ++ ahead).all Worker.isFinished → Asked t) :
    Midway jobs workers fuel load t (done ++ [w]) ahead b := by
  have hsame : done ++ [w] ++ ahead = done ++ w :: ahead := List.append_assoc ..
  have hcount := h.count
  refine ⟨?_, ?_, by omega, ?_, h.none_left, h.paused, ⟨m + k, ?_, ?_⟩, fun hall => ?_⟩
  · rw [hsame]
    exact hbooks.perm (allFlying_middle done ahead w).symm
  · simp only [List.length_append, List.length_singleton] at hcount ⊢
    omega
  · exact List.forall_mem_append.2 ⟨h.busy_or, by simpa using hbusy⟩
  · rw [hsame]
    exact owe_middle.2 ⟨m, k, rfl, howes, h.owe⟩
  · simp only [allFlying, List.flatMap_append, List.flatMap_cons, List.flatMap_nil,
      List.append_nil, List.length_append] at hload ⊢
    omega
  · simp only [List.all_append, List.all_cons, List.all_nil, Bool.and_eq_true] at hall
    exact hasked hall.1.2.1 (by simp [hall.1.1, hall.2])

theorem idle (h : Others jobs workers t done ahead b.waiting k)
    (hbooks : Books jobs (Log.of t) (allFlying (done ++ ahead)) b)
    (hload : fuel + k + (allFlying done).length + unclaimed jobs (Log.of t) ≤ load) :
    Midway jobs workers fuel load t done (.idle :: ahead) b := by
  have hcount := h.count
  refine ⟨hbooks.perm (allFlying_middle done ahead .idle).symm, ?_, by omega, h.busy_or,
    List.forall_mem_cons.2 ⟨(fun hf => nomatch hf), h.none_left⟩,
    List.forall_mem_cons.2 ⟨fun hf => absurd rfl hf, h.paused⟩, ⟨k, ?_, hload⟩, fun hall => ?_⟩
  · simp only [List.length_append, List.length_cons] at hcount ⊢
    omega
  · exact owe_middle.2 ⟨0, k, (Nat.zero_add k).symm, trivial, h.owe⟩
  · simp [Worker.isFinished] at hall

end Others

/-! ## Turns -/

theorem unclaimed_congr {l m : Log} (h : l.starts = m.starts) :
    unclaimed jobs l = unclaimed jobs m := by
  unfold unclaimed
  rw [h]

theorem unclaimed_start {l : Log} {i : Nat} {job : Job α} (hi : i = l.starts.length)
    (hjob : jobs[i]? = some job) :
    unclaimed jobs l = job.pauses + unclaimed jobs (l ++ [.start i]) := by
  have hdrop : jobs.drop l.starts.length = job :: jobs.drop (l.starts.length + 1) := by
    obtain ⟨hlt, hget⟩ := List.getElem?_eq_some_iff.1 hjob
    subst hi
    rw [← hget]
    exact List.drop_eq_getElem_cons hlt
  simp [unclaimed, Job.allPauses, hdrop]

theorem flow_follows {i : Nat} {job : Job α} {waiting : List (Flow α × Nat)} {tally : Tally α}
    (hbooks : Books jobs (Log.of t) flying ⟨(job.flow i, i) :: waiting, tally⟩)
    (hjob : jobs[i]? = some job) (hfree : flying.length < workers) (hasked : Asked t) :
    (job.flow i).advance.Follows (rule jobs workers)
      (Flow.Ending (Fails jobs) False
        (Stretched jobs (Log.of t ++ [.start i]) i job.pauses)) t := by
  have hi : i = (Log.of t).starts.length := hbooks.claimed.1
  have hpermits : Permits jobs workers t (.start i) := by
    have hcount := hbooks.count
    refine ⟨hi, (List.getElem?_eq_some_iff.1 hjob).1, ?_, hbooks.finished, hasked⟩
    omega
  intro x
  refine ⟨rule_entry hpermits x, ?_⟩
  have hlog : Log.of (t ++ [.did (.note (Entry.start i).toValue) x]) =
      Log.of t ++ [.start i] := by
    rw [Log.of_append, Log.of_entry]
  have hstart : Books jobs (Log.of (t ++ [.did (.note (Entry.start i).toValue) x])) (i :: flying)
      ⟨waiting, tally⟩ := by
    rw [hlog]
    exact hbooks.start
  rw [← hlog]
  exact closing_follows hstart hjob job.tame fun hall =>
    .inl (hall job (List.mem_of_getElem? hjob))

/-- **One stretch** of a task. If it pauses, that was one of the pauses to come. -/
theorem stretched_midway {f : Flow (Flow.Stretch α)} {i : Nat} {l : Log}
    (hf : f.Follows (rule jobs workers) (Flow.Ending (Fails jobs) False (Stretched jobs l i n)) t)
    (hbooks : Books jobs l (i :: allFlying (done ++ ahead)) b)
    (hothers : Others jobs workers t done ahead b.waiting k)
    (hload : fuel + (n + k) + (allFlying done).length + unclaimed jobs l ≤ load) :
    (abiding jobs workers starves).judges (AfterStretch (abiding jobs workers starves) r.report
      (Midway jobs workers fuel load) done ahead i b) f t := by
  refine hf.extending.weaken False.elim fun t' x hx => ?_
  obtain ⟨hbegun, hx⟩ := hx
  have hothers := hothers.later hbegun
  cases x with
  | suspended rest =>
    obtain ⟨rfl, m, hm, howes⟩ := hx
    refine hothers.turned (w := .busy i rest) hbooks (.inl ⟨i, rest, rfl⟩) howes ?_
      fun hf => nomatch hf
    simp only [Worker.flying, List.length_singleton]
    omega
  | settled v =>
    obtain ⟨hlog, job, hjob, hv⟩ := hx
    refine (settle_follows hbooks hjob hv hlog).extending.weaken False.elim fun t'' tally ht => ?_
    obtain ⟨hbegun, hstarts, hbooks⟩ := ht
    refine Others.idle (b := ⟨b.waiting, tally⟩) (hothers.later hbegun) hbooks ?_
    rw [unclaimed_congr hstarts]
    omega

theorem midway_kept :
    Kept (abiding jobs workers starves) r.report (Midway jobs workers fuel load) where
  claim {t done ahead task i waiting tally} hs := by
    obtain ⟨m, k, hbooks, -, hothers, hload⟩ := hs.split
    have hbooks : Books jobs (Log.of t) (allFlying (done ++ ahead)) ⟨(task, i) :: waiting, tally⟩ :=
      hbooks
    obtain ⟨hi, job, hjob, rfl⟩ := hbooks.claimed
    refine check_follows.bind fun t₁ _ ht₁ => ?_
    have hlog : Log.of t₁ = Log.of t := by simp [ht₁]
    have hasked : Asked t₁ := by simp [ht₁, Asked]
    have hprefix : t <+: t₁ := ht₁ ▸ List.prefix_append t _
    have hlater := hothers.claimed.later hprefix
    rw [← hlog] at hbooks hi hload
    have hstart : Books jobs (Log.of t₁ ++ [.start i]) (i :: allFlying (done ++ ahead))
        ⟨waiting, tally⟩ := hbooks.start
    refine stretched_midway (flow_follows hbooks hjob hothers.free hasked) hstart hlater ?_
    have hleft := unclaimed_start hi hjob
    omega
  resume {t done ahead i rest b} hs := by
    obtain ⟨m, k, hbooks, ⟨job, body, hjob, hbody, rfl⟩, hothers, hload⟩ := hs.split
    have hmem : .paused ∈ t := hs.paused _ (List.mem_cons_self ..) (by simp [Worker.flying])
    exact stretched_midway (closing_follows hbooks hjob hbody fun _ => .inr hmem) hbooks hothers
      hload
  nothing {t done ahead tally} hs := by
    obtain ⟨m, k, hbooks, -, hothers, hload⟩ := hs.split
    refine check_follows.weaken id fun t' _ ht' => ?_
    have hlog : Log.of t' = Log.of t := by simp [ht']
    have hprefix : t <+: t' := ht' ▸ List.prefix_append t _
    have hlater := hothers.later hprefix
    rw [← hlog] at hbooks hload
    refine hlater.turned (w := .finished) (m := 0) hbooks (.inr ⟨rfl, rfl⟩) trivial ?_
      fun _ _ => by simp [ht', Asked]
    simp only [Worker.flying, List.length_nil]
    omega
  finished {t done ahead b} hs := by
    obtain ⟨m, k, hbooks, -, hothers, hload⟩ := hs.split
    have hnone := hs.none_left .finished (List.mem_cons_self ..) rfl
    refine hothers.turned (w := .finished) (m := 0) hbooks (.inr ⟨rfl, hnone⟩) trivial ?_
      fun _ hall => hs.asked ?_
    · simp only [Worker.flying, List.length_nil]
      omega
    · simpa [Worker.isFinished] using hall

/-! ## From round to round -/

/-- All tasks have settled, with these values. -/
structure Results (jobs : List (Job α)) (t : List Mark) (vs : List α) : Prop where
  values : jobs.map Job.outcome = vs.map .ok
  starts : (Log.of t).starts.length = jobs.length
  settled : (Log.of t).settled = jobs.length
  /-- Workers find that no task is left after they have asked whether to stop. -/
  asked : 2 ≤ jobs.length → Asked t

/-- After a round in which not all workers have finished, all may wait. -/
theorem Midway.mayPause (h : Midway jobs workers fuel load t done [] b) :
    MayPause jobs workers t := by
  have hbooks := h.books
  have hlength := h.count
  rw [List.append_nil] at hbooks hlength
  have hcount := hbooks.count
  have hstarted := hbooks.started
  have hflying : (Log.of t).inFlight = (allFlying done).length := by
    unfold Log.inFlight
    omega
  refine ⟨hbooks.finished, ?_⟩
  rw [hflying]
  by_cases hnone : b.waiting = []
  · have hall := hbooks.all_started hnone
    have hle := length_allFlying_le done
    omega
  · have hall : (allFlying done).length = done.length := length_allFlying_of_busy fun w hw =>
      (h.busy_or w hw).resolve_right fun hf => hnone hf.2
    omega

/-- A worker that has not finished has a task in its hands. -/
theorem Midway.flying_pos (h : Midway jobs workers fuel load t done [] b)
    (hall : done.all Worker.isFinished = false) : 1 ≤ (allFlying done).length := by
  obtain ⟨w, hw, hf⟩ := List.all_eq_false.1 hall
  rcases h.busy_or w hw with ⟨i, rest, rfl⟩ | ⟨rfl, -⟩
  · have hmem : i ∈ allFlying done :=
      List.mem_flatMap.2 ⟨_, hw, List.mem_singleton_self i⟩
    exact List.length_pos_of_mem hmem
  · exact absurd rfl hf

/-- When all workers have finished, all tasks have settled. -/
theorem Midway.results (h : Midway jobs workers fuel load t done [] b)
    (hall : done.all Worker.isFinished = true) :
    ∃ vs : List α, b.tally.slots = vs.map some ∧ Results jobs t vs := by
  have hnone : b.waiting = [] := by
    have hlength := h.count
    have hpos := h.some_worker
    rw [List.append_nil] at hlength
    obtain ⟨w, hw⟩ := List.exists_mem_of_length_pos (hlength ▸ hpos)
    rcases h.busy_or w hw with ⟨i, rest, rfl⟩ | hfinished
    · exact nomatch List.all_eq_true.1 hall _ hw
    · exact hfinished.2
  have hbooks := h.books
  rw [List.append_nil, allFlying_of_finished hall] at hbooks
  obtain ⟨hstarts, hsettled, vs, hvalues, hslots⟩ := hbooks.values hnone
  refine ⟨vs, hslots, hvalues, hstarts, hsettled, fun _ => h.asked ?_⟩
  rwa [List.append_nil]

/-- **Rounds follow the rule**, until all tasks have settled or the whole fails. They are cut off
only if there are fewer of them than pauses. -/
theorem midway_outlasts : Outlasts (abiding jobs workers (fuel ≤ load))
    (fun n => Midway jobs workers fuel (load + n))
    fun t slots => ∃ vs : List α, slots = vs.map some ∧ Results jobs t vs where
  starved hs := by
    obtain ⟨n, -, hle⟩ := hs.owe
    show fuel ≤ load
    omega
  ended hs hall := hs.results hall
  pause {n t ws b rest} hs hall h := by
    have hpos := hs.flying_pos hall
    obtain ⟨m, howe, hle⟩ := hs.owe
    have hlog : Log.of (t ++ [.paused]) = Log.of t := by simp
    refine ⟨hs.mayPause, h _ ⟨?_, ?_, hs.some_worker, by simp, fun w hw hf => ?_, fun _ _ _ => ?_,
      ⟨m, ?_, ?_⟩, fun hfinished => ?_⟩⟩
    · simpa [hlog] using hs.books
    · simpa using hs.count
    · rcases hs.busy_or w hw with ⟨i, rest, rfl⟩ | hnone
      · cases hf
      · exact hnone.2
    · exact List.mem_append_right _ (List.mem_singleton_self _)
    · simpa using howe
    · rw [hlog]
      simp only [allFlying_nil, List.length_nil]
      omega
    · rw [List.nil_append, hall] at hfinished
      cases hfinished

/-! ## Fan-outs -/

theorem books_start (jobs : List (Job α)) (cap : Nat) :
    Books jobs [] [] (start (Job.flows jobs) cap).2 where
  waiting := rfl
  starts := rfl
  started := Nat.zero_le _
  slots := by simp [start]
  settled := rfl
  finished := rfl
  count := rfl
  nodup := .nil
  aloft _ h := nomatch h
  known _ h := nomatch h
  kept _ h := nomatch h

theorem allFlying_start (tasks : List (Flow α)) (cap : Nat) :
    allFlying (start tasks cap).1 = [] := by
  refine List.flatMap_eq_nil_iff.2 fun w hw => ?_
  rw [List.eq_of_mem_replicate hw]
  rfl

theorem owe_idle (n : Nat) : Owe jobs (List.replicate n Worker.idle) 0 := by
  induction n with
  | zero => exact .nil
  | succ n ih =>
    have hidle : (Worker.idle : Worker α).Owes jobs 0 := trivial
    rw [List.replicate_succ]
    exact .cons hidle ih

/-- The end of the only job, over all its pauses. -/
theorem only_follows {job : Job α} {n : Nat} {body : Flow Unit} {b : Board α}
    (hbooks : Books [job] (Log.of t) [0] b) (hbody : body.Tame n)
    (hpaused : job.body.Suspends → body.Suspends ∨ .paused ∈ t) :
    (job.closing 0 body).Follows (rule [job] 1) (Flow.Ending (Fails [job]) False fun t' v =>
      Log.of t' = Log.of t ++ [.finish 0] ∧ job.outcome = .ok v) t := by
  induction n using Nat.strongRecOn generalizing t body with
  | ind n ih =>
    have hstretch : (job.closing 0 body).advance.Follows (rule [job] 1) _ t :=
      closing_follows hbooks rfl hbody fun hall => hpaused (hall job (List.mem_singleton_self job))
    rw [← Flow.advance_resume (job.closing 0 body)]
    refine hstretch.bind fun t₁ s hs => ?_
    cases s with
    | settled v =>
      obtain ⟨hlog, job', hjob', hv⟩ := hs
      cases hjob'
      exact ⟨hlog, hv⟩
    | suspended rest =>
      obtain ⟨hlog, m, hm, job', body', hjob', hbody', rfl⟩ := hs
      cases hjob'
      have hpause : MayPause [job] 1 t₁ := by
        have hcount := hbooks.count
        have hstarted := hbooks.started
        unfold MayPause Log.inFlight
        rw [hlog]
        refine ⟨hbooks.finished, ?_⟩
        simp only [List.length_cons, List.length_nil] at hcount hstarted ⊢
        omega
      have hlog' : Log.of (t₁ ++ [.paused]) = Log.of t := by simp [hlog]
      have hnext := ih m hm (t := t₁ ++ [.paused]) (by rwa [hlog']) hbody' fun _ =>
        .inr (List.mem_append_right _ (List.mem_singleton_self _))
      rw [hlog'] at hnext
      exact ⟨hpause, hnext⟩

theorem single_follows (job : Job α) : (abiding [job] 1 starves).judges
    (fun t v => (abiding [job] 1 starves).judges (fun t _ => Results [job] t [v])
      ((⟨[none], 0⟩ : Tally α).settle r.report 0 v) t)
    (Flow.check.bind fun _ => job.flow 0) [] := by
  refine check_follows.bind fun t₁ _ ht₁ => ?_
  subst ht₁
  have hasked : Asked ([] ++ [.did .poll false]) := rfl
  have hbooks : Books [job] (Log.of ([] ++ [.did .poll false])) []
      (start (Job.flows [job]) 1).2 := books_start [job] 1
  have hpermits : Permits [job] 1 ([] ++ [.did .poll false]) (.start 0) :=
    ⟨rfl, Nat.zero_lt_succ _, Nat.zero_lt_succ _, rfl, hasked⟩
  intro x
  refine ⟨rule_entry hpermits x, ?_⟩
  have hlog : Log.of ([] ++ [.did .poll false] ++ [.did (.note (Entry.start 0).toValue) x]) =
      [.start 0] := by
    rw [Log.of_append, Log.of_entry]
    rfl
  have hstart : Books [job] [.start 0] [0] _ := hbooks.start
  rw [← hlog] at hstart
  refine (only_follows hstart job.tame .inl).weaken False.elim fun t₂ v ht₂ => ?_
  obtain ⟨hfinish, hv⟩ := ht₂
  rw [hlog] at hfinish
  refine (settle_follows (l := [.start 0]) hbooks.start rfl hv hfinish).weaken False.elim
    fun t₃ tally ht₃ => ?_
  obtain ⟨hstarts, hbooks'⟩ := ht₃
  have hcount := hbooks'.count
  rw [hstarts] at hcount
  refine ⟨by simp [hv], by rw [hstarts]; rfl, ?_, ?_⟩
  · simpa using hcount
  · intro h
    simp at h

/-- **Every fan-out follows the rule.** In the end all tasks have settled or the whole has failed,
unless it has been cut off; and it is cut off only if it has fewer rounds than its tasks pause. -/
theorem run_follows (fuel : Nat) (jobs : List (Job α)) (cap : Nat) (r : Reporter) :
    (run fuel (Job.flows jobs) cap r.report).Follows (rule jobs (workerCount cap jobs.length))
      (Flow.Ending (Fails jobs) (fuel ≤ Job.allPauses jobs) (Results jobs)) [] := by
  have hlength := Job.length_flows jobs
  refine run_judged (J := abiding jobs (workerCount cap jobs.length) (fuel ≤ Job.allPauses jobs))
    (fun _ => midway_kept) midway_outlasts fuel cap (fun hnone => ?_) (fun task hone => ?_)
    (fun htwo => ?_) (fun t vs hvs => ?_) (fun t slots hslots hunfilled => ?_)
  · rw [hnone] at hlength
    obtain rfl := List.length_eq_zero_iff.1 hlength.symm
    exact ⟨rfl, rfl, rfl, by simp⟩
  · rw [hone] at hlength
    obtain ⟨job, rfl⟩ := List.length_eq_one_iff.1 hlength.symm
    obtain rfl : job.flow 0 = task := List.singleton_inj.1 hone
    have hworkers : workerCount cap [job].length = 1 := by
      simp only [workerCount, List.length_singleton]
      omega
    rw [hworkers]
    exact single_follows job
  · refine check_follows.weaken id fun t₁ _ ht₁ => ?_
    have hlog : Log.of t₁ = [] := by
      rw [ht₁]
      rfl
    have hcount : (start (Job.flows jobs) cap).1.length = workerCount cap jobs.length := by
      simp [start]
    refine ⟨?_, by simpa using hcount, ?_, by simp, fun w hw hf => ?_, fun w hw hf => ?_,
      ⟨0, owe_idle _, ?_⟩, fun _ => by simp [ht₁, Asked]⟩
    · rw [hlog, List.nil_append, allFlying_start]
      exact books_start jobs cap
    · unfold workerCount
      omega
    · rw [List.eq_of_mem_replicate hw] at hf
      cases hf
    · rw [List.eq_of_mem_replicate hw] at hf
      exact absurd rfl hf
    · rw [hlog]
      show fuel + 0 + 0 + Job.allPauses jobs ≤ Job.allPauses jobs + fuel
      omega
  · obtain ⟨vs', hsame, hresults⟩ := hvs
    obtain rfl : vs = vs' := List.map_inj_right (fun _ _ => Option.some.inj) |>.1 hsame
    exact hresults
  · obtain ⟨vs, hvs, -⟩ := hslots
    exact absurd hvs (hunfilled vs)

end FanOut

end WorkflowEngine
