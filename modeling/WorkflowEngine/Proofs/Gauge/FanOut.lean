import WorkflowEngine.Proofs.Gauge
import WorkflowEngine.Proofs.Judgement.FanOut

/-!
# What a fan-out costs

Tasks that take turns hold the count above zero between their turns, each by as much as its own
count stands at. So a fan-out needs room for all that its workers have in hand at a time.

**Theorem (`FanOut.run_costs`).** If every task has a cost, then a fan-out with a given cap costs no
more than the dearest of the tasks together, as many of them as the cap says.

**How the proof goes.** A worker in the middle of a task *stands* at a count within the cost of that
task (`Worker.Stands`). A stretch of one task moves its own count only, and the other workers
together hold what they stand at (`stretched_standing`). The tasks in hand and those nobody has
claimed are different tasks at every moment, and there are no more in hand than workers
(`Standing`); that bounds the whole by the sum of the largest costs (`sum_le_sumOfLargest`).
-/

namespace WorkflowEngine

/-! ## The largest of several numbers -/

/-- The sum of the `c` largest of some numbers, or of all if there are fewer. -/
def sumOfLargest (c : Nat) (ws : List Nat) : Nat := ((ws.insertionSort (· ≥ ·)).take c).sum

theorem sum_le_take_of_sublist {l s : List Nat} {c : Nat} (hl : l.Pairwise (· ≥ ·))
    (hs : s.Sublist l) (hlen : s.length ≤ c) : s.sum ≤ (l.take c).sum := by
  induction l generalizing s c with
  | nil =>
    rw [List.sublist_nil.1 hs]
    exact Nat.zero_le _
  | cons a l ih =>
    obtain ⟨hle, hrest⟩ := List.pairwise_cons.1 hl
    match s, c with
    | [], c => exact Nat.zero_le _
    | x :: s, c + 1 =>
      have hx : x ≤ a := by
        rcases List.mem_cons.1 (hs.subset (List.mem_cons_self ..)) with rfl | hx
        · exact Nat.le_refl _
        · exact hle x hx
      have htail : s.Sublist l := by
        cases hs with
        | cons _ hs => exact (List.sublist_cons_self x s).trans hs
        | cons_cons _ hs => exact hs
      have hsum := ih hrest htail (Nat.le_of_succ_le_succ hlen)
      rw [List.take_succ_cons, List.sum_cons, List.sum_cons]
      omega

/-- No `c` of the numbers have a larger sum. -/
theorem sum_le_sumOfLargest_of_subperm {s ws : List Nat} {c : Nat} (h : s.Subperm ws)
    (hlen : s.length ≤ c) : s.sum ≤ sumOfLargest c ws := by
  obtain ⟨s', hperm, hsub⟩ := h.trans (List.perm_insertionSort (· ≥ ·) ws).symm.subperm
  rw [← hperm.sum_nat]
  refine sum_le_take_of_sublist (List.pairwise_insertionSort _ _) hsub ?_
  rwa [hperm.length_eq]

theorem sum_le_sumOfLargest {ws places : List Nat} {c : Nat} (hnodup : places.Nodup)
    (hlt : ∀ i ∈ places, i < ws.length) (hlen : places.length ≤ c) :
    (places.map (ws.getD · 0)).sum ≤ sumOfLargest c ws := by
  obtain ⟨places', hperm, hsub⟩ : places.Subperm (List.range ws.length) :=
    List.subperm_of_subset hnodup fun i hi => List.mem_range.2 (hlt i hi)
  have hall : (List.range ws.length).map (ws.getD · 0) = ws := by
    refine List.ext_getElem (by simp) fun i h₁ h₂ => ?_
    simp [h₂]
  have hmap : (places'.map (ws.getD · 0)).Sublist ws := by
    have hsub := hsub.map (ws.getD · 0)
    rwa [hall] at hsub
  exact sum_le_sumOfLargest_of_subperm ⟨_, hperm.map _, hmap⟩ (by simpa using hlen)

theorem sumOfLargest_of_zeros {ws : List Nat} (h : ∀ w ∈ ws, w = 0) (c : Nat) :
    sumOfLargest c ws = 0 := by
  refine List.sum_eq_zero_iff_forall_eq_nat.2 fun w hw => h w ?_
  exact (List.mem_insertionSort _).1 (List.mem_of_mem_take hw)

namespace FanOut

variable {α : Type} {δ : Gauge} {report : Report} {cost : Nat → Nat} {k : Int}

/-! ## What is in hand -/

/-- The tasks that nobody has claimed have their costs. -/
def Unclaimed (δ : Gauge) (cost : Nat → Nat) (waiting : List (Flow α × Nat)) : Prop :=
  ∀ task ∈ waiting, task.1.Needs δ (cost task.2)

/-- The count that the worker's task stands at. -/
def Worker.Stands (δ : Gauge) (cost : Nat → Nat) : Worker α → Int → Prop
  | .busy index rest, c =>
    c ≤ cost index ∧ rest.Stays δ (cost index) (Flow.Level (fun _ => True) 0) c
  | _, c => c = 0

/-- The task that the worker has in hand. -/
def Worker.inHand : Worker α → List Nat
  | .busy index _ => [index]
  | _ => []

/-- The tasks of a list. -/
def places (waiting : List (Flow α × Nat)) : List Nat := waiting.map (·.2)

/-- The counts that the workers' tasks stand at add up to `c`. -/
def Stand (δ : Gauge) (cost : Nat → Nat) : List (Worker α) → Int → Prop
  | [], c => c = 0
  | w :: ws, c => ∃ a, w.Stands δ cost a ∧ Stand δ cost ws (c - a)

/-- The tasks that workers have in hand. -/
def inHand (ws : List (Worker α)) : List Nat := ws.flatMap Worker.inHand

theorem Worker.Stands.le {w : Worker α} {c : Int} (h : w.Stands δ cost c) :
    c ≤ ((w.inHand.map cost).sum : Nat) := by
  cases w with
  | busy index rest =>
    simp only [inHand, List.map_cons, List.map_nil, List.sum_cons, List.sum_nil, Nat.add_zero]
    exact h.1
  | _ =>
    obtain rfl : c = 0 := h
    exact Int.natCast_nonneg _

theorem Stand.le {ws : List (Worker α)} {c : Int} (h : Stand δ cost ws c) :
    c ≤ (((inHand ws).map cost).sum : Nat) := by
  induction ws generalizing c with
  | nil =>
    obtain rfl : c = 0 := h
    exact Int.natCast_nonneg _
  | cons w ws ih =>
    obtain ⟨a, ha, hws⟩ := h
    have hfirst := ha.le
    have hrest := ih hws
    simp only [inHand, List.flatMap_cons, List.map_append, List.sum_append] at hrest ⊢
    omega

theorem length_inHand_le (ws : List (Worker α)) : (inHand ws).length ≤ ws.length := by
  induction ws with
  | nil => exact Nat.le_refl 0
  | cons w ws ih =>
    have hw : w.inHand.length ≤ 1 := by cases w <;> simp [Worker.inHand]
    simp only [inHand, List.flatMap_cons, List.length_append, List.length_cons] at ih ⊢
    omega

/-- No task twice, and none but the first `total`. -/
def Distinct (total : Nat) (l : List Nat) : Prop := l.Nodup ∧ ∀ i ∈ l, i < total

theorem Distinct.of_subperm {total : Nat} {l l' : List Nat} (h : Distinct total l)
    (hl : l'.Subperm l) : Distinct total l' := by
  obtain ⟨m, hperm, hsub⟩ := hl
  refine ⟨hperm.nodup_iff.1 (h.1.sublist hsub), fun i hi => h.2 i ?_⟩
  exact hsub.subset (hperm.mem_iff.2 hi)

theorem Distinct.of_sublist {total : Nat} {l l' : List Nat} (h : Distinct total l)
    (hl : l'.Sublist l) : Distinct total l' := h.of_subperm hl.subperm

theorem Distinct.of_perm {total : Nat} {l l' : List Nat} (h : Distinct total l)
    (hl : l'.Perm l) : Distinct total l' := h.of_subperm hl.subperm

/-- The room is enough for any `m` of the tasks. -/
def Fits (cost : Nat → Nat) (total m : Nat) (k : Int) : Prop :=
  ∀ l, Distinct total l → l.length ≤ m → ((l.map cost).sum : Nat) ≤ k

theorem stand_middle {done ahead : List (Worker α)} {w : Worker α} {c : Int} :
    Stand δ cost (done ++ w :: ahead) c ↔
      ∃ a, w.Stands δ cost a ∧ Stand δ cost (done ++ ahead) (c - a) := by
  induction done generalizing c with
  | nil => rfl
  | cons v done ih =>
    have hcomm : ∀ a b, c - a - b = c - b - a := fun a b => by omega
    simp only [List.cons_append, Stand, ih]
    constructor
    · rintro ⟨a, ha, b, hb, hrest⟩
      exact ⟨b, hb, a, ha, hcomm a b ▸ hrest⟩
    · rintro ⟨b, hb, a, ha, hrest⟩
      exact ⟨a, ha, b, hb, hcomm b a ▸ hrest⟩

theorem inHand_middle (done ahead : List (Worker α)) (w : Worker α) :
    (inHand (done ++ w :: ahead)).Perm (w.inHand ++ inHand (done ++ ahead)) := by
  simp only [inHand, List.flatMap_append, List.flatMap_cons]
  exact List.perm_append_comm_assoc ..

/-! ## Steps -/

/-- The invariant: there are no more than `m` workers, what they stand at adds up to the count, and
the tasks in hand and those nobody has claimed are different ones. -/
structure Standing (δ : Gauge) (cost : Nat → Nat) (total m : Nat) (c : Int)
    (done ahead : List (Worker α)) (b : Board α) : Prop where
  stand : Stand δ cost (done ++ ahead) c
  few : (done ++ ahead).length ≤ m
  unclaimed : Unclaimed δ cost b.waiting
  distinct : Distinct total (inHand (done ++ ahead) ++ places b.waiting)

variable {total m : Nat} {done ahead : List (Worker α)} {w : Worker α} {b : Board α} {c a : Int}

/-- What one worker stands at, apart from what the others hold. -/
theorem Standing.split (h : Standing δ cost total m c done (w :: ahead) b) :
    ∃ a, w.Stands δ cost a ∧ Stand δ cost (done ++ ahead) (c - a) ∧ (done ++ ahead).length < m ∧
      Distinct total (w.inHand ++ (inHand (done ++ ahead) ++ places b.waiting)) := by
  obtain ⟨a, hw, hothers⟩ := stand_middle.1 h.stand
  refine ⟨a, hw, hothers, ?_, h.distinct.of_perm ?_⟩
  · have hfew := h.few
    simp only [List.length_append, List.length_cons] at hfew ⊢
    omega
  · rw [← List.append_assoc]
    exact ((inHand_middle done ahead w).append_right _).symm

/-- The worker goes over to those that have had their turn. -/
theorem Standing.turned (hw : w.Stands δ cost a) (hothers : Stand δ cost (done ++ ahead) (c - a))
    (hfew : (done ++ ahead).length < m) (hb : Unclaimed δ cost b.waiting)
    (hdistinct : Distinct total (w.inHand ++ (inHand (done ++ ahead) ++ places b.waiting))) :
    Standing δ cost total m c (done ++ [w]) ahead b := by
  have hsame : done ++ [w] ++ ahead = done ++ w :: ahead := List.append_assoc ..
  refine ⟨?_, ?_, hb, hdistinct.of_perm ?_⟩
  · rw [hsame]
    exact stand_middle.2 ⟨a, hw, hothers⟩
  · simp only [List.length_append, List.length_singleton] at hfew ⊢
    omega
  · rw [hsame, ← List.append_assoc]
    exact (inHand_middle done ahead w).append_right _

theorem Standing.idle (hothers : Stand δ cost (done ++ ahead) c)
    (hfew : (done ++ ahead).length < m) (hb : Unclaimed δ cost b.waiting)
    (hdistinct : Distinct total (inHand (done ++ ahead) ++ places b.waiting)) :
    Standing δ cost total m c done (.idle :: ahead) b := by
  refine ⟨stand_middle.2 ⟨0, rfl, by rwa [Int.sub_zero]⟩, ?_, hb, hdistinct.of_perm ?_⟩
  · simp only [List.length_append, List.length_cons] at hfew ⊢
    omega
  · exact (inHand_middle done ahead .idle).append_right _

/-- While the others hold what they stand at, there is room for any one task that they do not have
in hand. -/
theorem room (hfits : Fits cost total m k) (hothers : Stand δ cost (done ++ ahead) c)
    (hfew : (done ++ ahead).length < m) {index : Nat} {rest : List Nat}
    (hdistinct : Distinct total (index :: (inHand (done ++ ahead) ++ rest))) :
    c ≤ k ∧ c + cost index ≤ k := by
  have hle := hothers.le
  have hcount := length_inHand_le (done ++ ahead)
  have hone : Distinct total (index :: inHand (done ++ ahead)) :=
    hdistinct.of_sublist ((List.sublist_append_left ..).cons_cons index)
  have hroom := hfits _ hone (by rw [List.length_cons]; omega)
  rw [List.map_cons, List.sum_cons] at hroom
  omega

theorem settle_costs (hδ : δ.Suits) (hr : ∀ p, (report p).Needs δ 0) (t : Tally α)
    (index : Nat) (a : α) : (t.settle report index a).Needs δ 0 :=
  (Flow.check_costs hδ).bind fun _ _ => (hr _).bind fun _ _ => Flow.costs_ok trivial

/-- **One stretch** moves the count of one task, while the others hold theirs. -/
theorem stretched_standing (hδ : δ.Suits) (hr : ∀ p, (report p).Needs δ 0)
    (hfits : Fits cost total m k) {index : Nat} {f : Flow α} (ha : a ≤ cost index)
    (hf : f.Stays δ (cost index) (Flow.Level (fun _ => True) 0) a)
    (hothers : Stand δ cost (done ++ ahead) c) (hfew : (done ++ ahead).length < m)
    (hb : Unclaimed δ cost b.waiting)
    (hdistinct : Distinct total (index :: (inHand (done ++ ahead) ++ places b.waiting))) :
    (δ.judgement k).judges
      (AfterStretch (δ.judgement k) report (Standing δ cost total m) done ahead index b)
      f.advance (a + c) := by
  obtain ⟨hc, hroom⟩ := room hfits hothers hfew hdistinct
  refine ((hf.advance ha).shift c).mono (by omega) fun x c' hx => ?_
  cases x with
  | suspended rest =>
    exact .turned (a := c' - c) (w := .busy index rest) hx
      (by rwa [Int.sub_sub_self]) hfew hb hdistinct
  | settled a =>
    have hzero : c' - c = 0 := hx.1
    obtain rfl : c' = c := by omega
    refine ((settle_costs hδ hr b.tally index a).lift (by simpa using hc)).mono (Int.le_refl _)
      fun t c' ht => ?_
    obtain ⟨rfl, -⟩ := ht
    exact .idle hothers hfew hb (hdistinct.of_sublist (List.sublist_cons_self ..))

theorem standing_kept (hδ : δ.Suits) (hr : ∀ p, (report p).Needs δ 0)
    (hfits : Fits cost total m k) :
    Kept (δ.judgement k) report (Standing (α := α) δ cost total m) where
  claim {s done ahead task index waiting tally} hs := by
    obtain ⟨a, hidle, hothers, hfew, hdistinct⟩ := hs.split
    obtain rfl : a = 0 := hidle
    rw [Int.sub_zero] at hothers
    obtain ⟨htask, hrest⟩ := List.forall_mem_cons.1 hs.unclaimed
    have hmoved : Distinct total (index :: (inHand (done ++ ahead) ++ places waiting)) :=
      hdistinct.of_perm List.perm_middle.symm
    obtain ⟨hc, -⟩ := room hfits hothers hfew hmoved
    refine ((Flow.check_costs hδ).lift (w := 0) (by simpa using hc)).bind fun _ c hc => ?_
    obtain ⟨rfl, -⟩ := hc
    have hstretch := stretched_standing hδ hr hfits (b := ⟨waiting, tally⟩)
      (Int.natCast_nonneg _) htask hothers hfew hrest hmoved
    rwa [Int.zero_add] at hstretch
  resume {s done ahead index rest b} hs := by
    obtain ⟨a, ⟨hle, hrest⟩, hothers, hfew, hdistinct⟩ := hs.split
    have hstretch :=
      stretched_standing hδ hr hfits hle hrest hothers hfew hs.unclaimed hdistinct
    rwa [Int.add_comm, Int.sub_add_cancel] at hstretch
  nothing {s done ahead tally} hs := by
    obtain ⟨a, hidle, hothers, hfew, hdistinct⟩ := hs.split
    obtain rfl : a = 0 := hidle
    have hroom := hfits _ (hs.distinct.of_sublist (List.sublist_append_left ..))
      (Nat.le_trans (length_inHand_le _) hs.few)
    have hc : s ≤ k := Int.le_trans hs.stand.le hroom
    refine ((Flow.check_costs hδ).lift (w := 0) (by simpa using hc)).mono (Int.le_refl _)
      fun _ c hc => ?_
    obtain ⟨rfl, -⟩ := hc
    exact .turned (w := .finished) rfl hothers hfew hs.unclaimed hdistinct
  finished hs := by
    obtain ⟨a, hfinished, hothers, hfew, hdistinct⟩ := hs.split
    exact .turned hfinished hothers hfew hs.unclaimed hdistinct

theorem Stand.eq_zero {ws : List (Worker α)} {c : Int} (h : Stand δ cost ws c)
    (hfinished : ws.all Worker.isFinished = true) : c = 0 := by
  induction ws generalizing c with
  | nil => exact h
  | cons w ws ih =>
    obtain ⟨a, hw, hws⟩ := h
    rw [List.all_cons, Bool.and_eq_true] at hfinished
    have hrest := ih hws hfinished.2
    cases w with
    | finished =>
      have ha : a = 0 := hw
      omega
    | _ => exact absurd hfinished.1 (by simp [Worker.isFinished])

theorem standing_outlasts :
    Outlasts (δ.judgement k) (fun _ => Standing (α := α) δ cost total m) (fun c _ => c = 0) where
  starved _ := trivial
  ended hs hall := by
    refine hs.stand.eq_zero ?_
    rwa [List.append_nil]
  pause hs _ h := h _ ⟨by simpa using hs.stand, by simpa using hs.few, hs.unclaimed,
    by simpa using hs.distinct⟩

/-! ## The theorem -/

theorem standing_start {tasks : List (Flow α)}
    (h : ∀ (i : Nat) (task : Flow α), tasks[i]? = some task → task.Needs δ (cost i)) (cap : Nat) :
    Standing δ cost tasks.length (max cap 1) 0 [] (start tasks cap).1 (start tasks cap).2 := by
  have hidle : ∀ n, Stand δ cost (List.replicate n (.idle : Worker α)) 0 := by
    intro n
    induction n with
    | zero => rfl
    | succ n ih => exact ⟨0, rfl, ih⟩
  have hhands : ∀ n, inHand (List.replicate n (.idle : Worker α)) = [] := by
    intro n
    simp [inHand, Worker.inHand]
  refine ⟨hidle _, ?_, fun task ht => ?_, ?_⟩
  · simp only [start, List.nil_append, List.length_replicate, workerCount]
    exact Nat.min_le_left ..
  · exact h _ _ (List.mem_zipIdx_iff_getElem?.1 ht)
  · have hplaces : places tasks.zipIdx = List.range tasks.length := by
      rw [places, List.zipIdx_map_snd, List.range_eq_range']
    simp only [start, hhands, hplaces, List.nil_append]
    exact ⟨List.nodup_range, fun i hi => List.mem_range.1 hi⟩

/-- **A fan-out costs no more than the dearest of its tasks together**, as many of them as may run
at a time. -/
theorem run_costs (hδ : δ.Suits) (hr : ∀ p, (report p).Needs δ 0)
    {tasks : List (Flow α)} {costs : List Nat} (hlength : costs.length = tasks.length)
    (h : ∀ (i : Nat) (task : Flow α), tasks[i]? = some task → task.Needs δ (costs.getD i 0))
    (fuel cap : Nat) :
    (run fuel tasks cap report).Needs δ (sumOfLargest (max cap 1) costs) := by
  have hfits : Fits (costs.getD · 0) tasks.length (max cap 1) (sumOfLargest (max cap 1) costs) :=
    fun l hl hlen => Int.ofNat_le.2 (sum_le_sumOfLargest hl.1 (hlength ▸ hl.2) hlen)
  refine run_judged (J := δ.judgement _) (fun _ => standing_kept hδ hr hfits) standing_outlasts
    fuel cap (fun _ => ⟨rfl, trivial⟩) (fun task htasks => ?_) (fun _ => ?_)
    (fun _ _ hs => ⟨hs, trivial⟩) fun c _ hs _ => ?_
  · subst htasks
    have hone := hfits [0] ⟨List.nodup_singleton 0, by simp⟩ (by simp)
    have htask : task.Needs δ (sumOfLargest (max cap 1) costs) :=
      (h 0 task rfl).mono (by simpa using hone) fun _ _ => trivial
    refine Flow.Stays.mono ((Flow.check_costs hδ).bind fun _ _ => htask) (Int.le_refl _)
      fun a c hc => ?_
    obtain ⟨rfl, -⟩ := hc
    exact (settle_costs hδ hr _ 0 a).mono (Nat.zero_le _) fun _ _ => trivial
  · refine Flow.Stays.mono (Flow.check_costs hδ) (Int.le_refl _) fun _ c hc => ?_
    obtain ⟨rfl, -⟩ := hc
    exact standing_start h cap
  · obtain rfl : c = 0 := hs
    exact Flow.costs_fail (hδ.raise _ id)

end FanOut

end WorkflowEngine
