import WorkflowEngine.Proofs.Drivers
import WorkflowEngine.Proofs.FanOut.Traces
import WorkflowEngine.Proofs.Width

/-!
# Announcements of ops

Every execution announces its op before anything else is done for it, and once more when the result
has been bound. So wherever an op is announced as completed in a trace, an execution of it is all
there: it begins with the first announcement, and it ends here with the writes of its result and the
second one (`Engine.Completed`). Nothing but announcements of ops is left by executions and by
nested runs (`Engine.exec_orderly`), and no more ops are announced as completed than as begun
(`Engine.posts_le_pres`).

That a trace is orderly in this sense is a trait: it is handed on from the branches of a parallel op
to the whole, since the completion of an op has no pause in it. The count is a gauge.

The executors of the engine may be what they like, as long as they announce nothing by themselves
and have ops executed one at a time (`Executor.InTurn`); `parallel` is the only exception.
-/

namespace WorkflowEngine

/-! ## Engines that work in turn -/

/-- The executor announces nothing by itself, and it has ops executed one at a time, such as `inner`
says. -/
def Executor.InTurn (inner : Op → Op → Handle → Prop) (x : Executor) : Prop :=
  ∀ d op p, (x d op p).Serial Mark.IsSilent d (inner op) (fun _ _ => True) []

/-- All executors of the engine are of this kind, but for `parallel`. -/
def Engine.InTurn (inner : Op → Op → Handle → Prop) (e : Engine) : Prop :=
  ∀ kind x, e.registry.get? kind = some x → x = Executor.parallel ∨ x.InTurn inner

/-- What announces nothing has no op executed. -/
theorem Flow.Avoids.only {α : Type} {f : Flow α} (h : f.Avoids Action.Announces) :
    f.Only Mark.IsSilent fun _ => True := by
  induction h with
  | done r => cases r <;> trivial
  | starved => trivial
  | pause _ ih => exact ⟨trivial, ih ()⟩
  | @act a _ ha _ ih =>
    intro x
    refine ⟨?_, ih x⟩
    cases a with
    | announce e => exact ha ⟨e, rfl⟩
    | _ => trivial

theorem Executor.IsLeaf.inTurn {x : Executor} (h : x.IsLeaf (Flow.Avoids Action.Announces))
    (inner : Op → Op → Handle → Prop) : x.InTurn inner := by
  obtain ⟨leaf, rfl, hleaf⟩ := h
  intro d op p
  show (leaf d.config op p).Serial Mark.IsSilent d (inner op) _ []
  exact (hleaf d.config op p).only.serial.mono (fun _ => id) (fun _ _ => id) fun _ _ _ => trivial

theorem Engine.Composed.inTurn {e : Engine} (he : e.Composed (Flow.Avoids Action.Announces)) :
    e.InTurn Executor.Inner := by
  intro kind x hx
  have hquiet : ∀ m : Mark, m.IsQuiet → m.IsSilent := fun _ => Mark.IsQuiet.isSilent
  rcases he kind x hx with (rfl | rfl | rfl) | hleaf
  · exact .inr fun d op p => Executor.sequential_serial hquiet p
  · exact .inl rfl
  · exact .inr fun d op p => Executor.map_serial hquiet p
  · exact .inr (hleaf.inTurn _)

/-! ## Completions -/

/-- Ops are announced, as begun or as completed, and nothing else is. -/
def Mark.OnlyOps (t : List Mark) : Prop :=
  ∀ ev, .did (.announce ev) () ∈ t → ev.stage = .opPre ∨ ev.stage = .opPost

namespace Engine

variable {e : Engine} {n : Nat} {op : Op} {p : Handle} {v : Value} {t u : List Mark}

theorem bindResult_goes : (bindResult op p v).Goes (writes op p v) (.done (.ok ())) := by
  unfold bindResult writes
  have hlast := Flow.goes_perform (.bind p Bindings.outputKey v) ()
  cases op.outputBinding with
  | none => exact hlast
  | some name => exact (Flow.goes_perform (.bind p name v) ()).bind hlast

theorem complete_goes : (complete op p v).Goes (closing op p v) (.done (.ok v)) := by
  have hpost : ((Flow.announce .opPost op p).bind fun _ => .done (.ok v)).Goes [.post op p]
      (.done (.ok v)) :=
    Flow.Goes.bind (Flow.goes_perform (.announce ⟨.opPost, op, p⟩) ()) (.here _)
  exact bindResult_goes.bind hpost

theorem exec_completes (h : (e.carryOut n op p).Goes t (.done (.ok v))) :
    (e.exec (n + 1) op p).Goes (.pre op p :: (t ++ closing op p v)) (.done (.ok v)) := by
  rw [exec_succ]
  have hpre := Flow.goes_perform (.announce ⟨.opPre, op, p⟩) ()
  exact hpre.bind (h.bind complete_goes)

/-- An execution of the op in the context has come to a result; all of it is in the trace, which
ends with the completion of the op. -/
def Completed (e : Engine) (t : List Mark) (op : Op) (p : Handle) : Prop :=
  ∃ n u v, (e.exec n op p).Goes u (.done (.ok v)) ∧ u.Sublist t ∧ closing op p v <:+ t

/-- Only ops are announced, and where an op is announced as completed, an execution of it is. -/
def Orderly (e : Engine) (t : List Mark) : Prop :=
  ∀ before ev after, t = before ++ .did (.announce ev) () :: after →
    ev.stage = .opPre ∨
      ev.stage = .opPost ∧ e.Completed (before ++ [.did (.announce ev) ()]) ev.op ev.context

theorem Completed.after (h : e.Completed u op p) (t : List Mark) : e.Completed (t ++ u) op p := by
  obtain ⟨n, s, v, hs, hsub, hclosing⟩ := h
  exact ⟨n, s, v, hs, hsub.trans (List.sublist_append_right t u),
    hclosing.trans (List.suffix_append t u)⟩

/-- A completion has no pause in it, so it has been done since the last one. -/
theorem suffix_of_paused {s w : List Mark} (h : s <:+ u ++ .paused :: w)
    (hs : Mark.paused ∉ s) : s <:+ w := by
  have hrest : Mark.paused :: w <:+ u ++ .paused :: w := List.suffix_append u _
  rcases List.suffix_or_suffix_of_suffix h hrest with hshort | hlong
  · rcases List.suffix_cons_iff.1 hshort with rfl | hw
    · exact absurd (List.mem_cons_self ..) hs
    · exact hw
  · exact absurd (hlong.subset (List.mem_cons_self ..)) hs

theorem Completed.resumed {w : List Mark} (h : e.Completed (u ++ .paused :: w) op p)
    (hsub : (u ++ [Mark.paused]).Sublist t) : e.Completed (t ++ w) op p := by
  obtain ⟨n, s, v, hs, hs', hclosing⟩ := h
  have hsplit : u ++ .paused :: w = (u ++ [.paused]) ++ w := by simp
  refine ⟨n, s, v, hs, hs'.trans ?_, ?_⟩
  · rw [hsplit]
    exact hsub.append (List.Sublist.refl w)
  · exact (suffix_of_paused hclosing paused_not_mem_closing).trans (List.suffix_append t w)

theorem orderly_trait (e : Engine) : Trait e.Orderly where
  nil before ev after h := by simp at h
  silent m hm before ev after h := by
    obtain ⟨-, rfl⟩ := Mark.eq_of_singleton h
    exact hm.elim
  append t w ht hw before ev after h := by
    rcases Mark.append_eq_cons h with ⟨rest, ht'⟩ | ⟨front, rfl, hw'⟩
    · exact ht before ev rest ht'
    · rcases hw front ev after hw' with hpre | ⟨hpost, hcompleted⟩
      · exact .inl hpre
      · refine .inr ⟨hpost, ?_⟩
        rw [List.append_assoc]
        exact hcompleted.after t
  resume t u w ht hsub hw before ev after h := by
    rcases Mark.append_eq_cons h with ⟨rest, ht'⟩ | ⟨front, rfl, hw'⟩
    · exact ht before ev rest ht'
    · have hsplit : u ++ .paused :: w =
          (u ++ .paused :: front) ++ .did (.announce ev) () :: after := by
        rw [hw', List.append_assoc]
        rfl
      rcases hw _ ev after hsplit with hpre | ⟨hpost, hcompleted⟩
      · exact .inl hpre
      · refine .inr ⟨hpost, ?_⟩
        rw [List.append_assoc] at hcompleted ⊢
        exact hcompleted.resumed hsub

theorem Orderly.onlyOps (h : e.Orderly t) : Mark.OnlyOps t := by
  intro ev hev
  obtain ⟨before, after, ht⟩ := List.append_of_mem hev
  rcases h before ev after ht with hpre | ⟨hpost, -⟩
  · exact .inl hpre
  · exact .inr hpost

theorem orderly_pre : e.Orderly [.pre op p] := by
  intro before ev after h
  obtain ⟨-, hmark⟩ := Mark.eq_of_singleton h
  cases hmark
  exact .inl rfl

theorem silent_of_mem_writes {m : Mark} (h : m ∈ writes op p v) : m.IsSilent := by
  unfold writes at h
  rcases List.mem_append.1 h with h | h
  · obtain ⟨name, -, rfl⟩ := List.mem_map.1 h
    trivial
  · rw [List.mem_singleton.1 h]
    trivial

/-- What an execution adds to what its executor does. -/
theorem orderly_exec (hu : ∀ u f, (e.carryOut n op p).Goes u f → e.Orderly u) :
    (e.exec (n + 1) op p).Leaves e.Orderly := by
  have hP := e.orderly_trait
  intro t g h
  rcases exec_goes h with ⟨rfl, -⟩ | ⟨u, rfl, ⟨f, hf, -, -⟩ | ⟨before, after, v, rfl, hf, hafter, -⟩⟩
  · exact hP.nil
  · exact hP.append [_] u orderly_pre (hu u f hf)
  · have hbefore : e.Orderly (.pre op p :: before) :=
      hP.append [_] before orderly_pre (hu before _ hf)
    rcases List.prefix_concat_iff.1 hafter with rfl | hafter
    · -- the op is completed, and this is the last thing done
      have hwrites : e.Orderly (.pre op p :: before ++ writes op p v) :=
        hP.append _ _ hbefore (hP.of_silent fun _ => silent_of_mem_writes)
      intro front ev rest hfront
      have hsplit : (.pre op p :: before ++ writes op p v) ++ [.post op p] =
          front ++ .did (.announce ev) () :: rest := by
        rw [← hfront]
        simp
      rcases Mark.append_eq_cons hsplit with ⟨rest, hfront⟩ | ⟨last, rfl, hlast⟩
      · exact hwrites front ev rest hfront
      · obtain ⟨rfl, hmark⟩ := Mark.eq_of_singleton hlast
        cases hmark
        have hall : .pre op p :: (before ++ closing op p v) =
            .pre op p :: before ++ writes op p v ++ [] ++ [.post op p] := by simp [closing]
        refine .inr ⟨rfl, n + 1, _, v, exec_completes hf, ?_, .pre op p :: before, ?_⟩
        · exact hall ▸ List.Sublist.refl _
        · exact hall
    · have hsilent : e.Orderly after :=
        hP.of_silent fun m hm => silent_of_mem_writes (hafter.subset hm)
      exact hP.append (_ :: before) after hbefore hsilent

variable {inner : Op → Op → Handle → Prop}

/-- **Executions leave orderly traces**, whatever they nest. -/
theorem exec_orderly (he : e.InTurn inner) (n : Nat) (op : Op) (p : Handle) :
    (e.exec n op p).Leaves e.Orderly := by
  have hP := e.orderly_trait
  induction n generalizing op p with
  | zero =>
    intro t g h
    cases h
    exact hP.nil
  | succ n ih =>
    refine orderly_exec fun u f hf => ?_
    unfold carryOut at hf
    split at hf
    · have hfail : (Flow.fail (.unknownKind op.kind) : Flow Value).Only Mark.IsQuiet fun _ => True :=
        Flow.fail_only (fun _ => id) _ _
      exact (hfail.extends hP hP.nil u f hf).1
    · next x hx =>
      rcases he op.kind x hx with rfl | hturn
      · have hdispatch : ∀ o, ((e.dispatcher n).dispatch o p).Leaves e.Orderly := fun o =>
          (Dispatcher.dispatch_serial (fun _ => id) o p).leaves hP (fun _ => Mark.IsQuiet.isSilent)
            fun o q _ => ih o q
        exact Executor.parallel_leaves hP hdispatch u f hf
      · exact (hturn (e.dispatcher n) op p).leaves hP (fun _ => id) (fun o q _ => ih o q) u f hf

theorem runOps_orderly (he : e.InTurn inner) (n k : Nat) (ops : List Op) (p : Handle) :
    (((e.dispatcher n).upTo k).runOps ops p).Leaves e.Orderly :=
  (Dispatcher.runOps_serial (fun _ => id) p).leaves e.orderly_trait (fun _ => Mark.IsQuiet.isSilent)
    fun o q _ => exec_orderly he n o q

theorem dispatch_orderly (he : e.InTurn inner) (n k : Nat) (op : Op) (p : Handle) :
    (((e.dispatcher n).upTo k).dispatch op p).Leaves e.Orderly :=
  (Dispatcher.dispatch_serial (fun _ => id) op p).leaves e.orderly_trait
    (fun _ => Mark.IsQuiet.isSilent) fun o q _ => exec_orderly he n o q

/-- When the op is announced as completed after `before`, an execution of it in the context has come
to a result. All that the execution has done is there, from its first announcement to the writes of
the result, and the result is bound under the reserved name and under the op's output binding. -/
def Closes (e : Engine) (before : List Mark) (op : Op) (p : Handle) : Prop :=
  ∃ n between v, (e.exec n op p).Goes (.pre op p :: (between ++ closing op p v)) (.done (.ok v)) ∧
    (.pre op p :: (between ++ writes op p v)).Sublist before ∧
    LeavesBound before p Bindings.outputKey v ∧
    ∀ name, op.outputBinding = some name → LeavesBound before p name v

theorem Completed.closes {before : List Mark} (h : e.Completed (before ++ [.post op p]) op p) :
    e.Closes before op p := by
  obtain ⟨n, u, v, hu, hsub, z, hz⟩ := h
  obtain ⟨between, rfl⟩ := exec_brackets hu
  have hbefore : before = z ++ writes op p v := by
    rw [closing, ← List.append_assoc] at hz
    exact (List.append_cancel_right hz).symm
  have hbound : ∀ key, key = Bindings.outputKey ∨ op.outputBinding = some key →
      LeavesBound before p key v := by
    intro key hkey
    rw [hbefore]
    exact (writes_bind hkey).prepend z
  refine ⟨n, between, v, hu, ?_, hbound _ (.inl rfl), fun name hname => hbound name (.inr hname)⟩
  rw [closing, ← List.append_assoc, ← List.cons_append] at hsub
  exact (List.append_sublist_append_right _).1 hsub

theorem Orderly.closes {before after : List Mark} (h : e.Orderly t)
    (ht : t = before ++ .post op p :: after) : e.Closes before op p := by
  rcases h before ⟨.opPost, op, p⟩ after ht with hpre | ⟨-, hcompleted⟩
  · cases hpre
  · exact hcompleted.closes

theorem Closes.after {before : List Mark} (h : e.Closes before op p) (t : List Mark) :
    e.Closes (t ++ before) op p := by
  obtain ⟨n, between, v, hexec, hsub, hreserved, hname⟩ := h
  exact ⟨n, between, v, hexec, hsub.trans (List.sublist_append_right t before),
    hreserved.prepend t, fun name hbinding => (hname name hbinding).prepend t⟩

end Engine

/-! ## No more completions than beginnings -/

/-- The mark announces this very event. -/
def Mark.signals (ev : Event) : Mark → Bool
  | .did (.announce ev') _ => ev' = ev
  | _ => false

/-- Counts how often an op is completed in a context, and takes off how often it is begun. -/
def Gauge.completed (op : Op) (p : Handle) : Gauge
  | .announce ev => (if ev = ⟨.opPost, op, p⟩ then 1 else 0) - if ev = ⟨.opPre, op, p⟩ then 1 else 0
  | _ => 0

theorem Gauge.completed_suits (op : Op) (p : Handle) : (Gauge.completed op p).Suits where
  poll := rfl
  view _ := rfl
  create _ := rfl
  bind _ _ _ := rfl
  raise _ _ := rfl
  workflowStart _ _ := by simp [Gauge.completed]
  workflowDone _ _ := by simp [Gauge.completed]
  opPost o q := by by_cases hsame : o = op ∧ q = p <;> simp [Gauge.completed, hsame]

theorem Gauge.completed_of_silent (op : Op) (p : Handle) {a : Action}
    (h : ∀ x, Mark.IsSilent (.did a x)) : Gauge.completed op p a = 0 := by
  cases a with
  | announce ev => exact (h ()).elim
  | _ => rfl

theorem Gauge.level_completed (op : Op) (p : Handle) (t : List Mark) :
    (Gauge.completed op p).level t =
      t.countP (Mark.signals ⟨.opPost, op, p⟩) - t.countP (Mark.signals ⟨.opPre, op, p⟩) := by
  induction t with
  | nil => rfl
  | cons m t ih =>
    have hcons : (Gauge.completed op p).level (m :: t) =
        m.change (Gauge.completed op p) + (Gauge.completed op p).level t := by
      simp [Gauge.level]
    rw [hcons, ih, List.countP_cons, List.countP_cons]
    cases m with
    | paused => simp [Mark.change, Mark.signals]
    | did a x =>
      cases a with
      | announce ev =>
        by_cases hpost : ev = ⟨.opPost, op, p⟩ <;> by_cases hpre : ev = ⟨.opPre, op, p⟩ <;>
          simp [Mark.change, Mark.signals, Gauge.completed, hpost, hpre] <;> omega
      | _ => simp [Mark.change, Mark.signals, Gauge.completed]

section Counts

variable {δ : Gauge} (hsilent : ∀ a, (∀ x, Mark.IsSilent (.did a x)) → δ a = 0)
  (hδ : δ.Suits) (hpre : ∀ op p, δ (.announce ⟨.opPre, op, p⟩) ≤ 0)

include hsilent

/-- What has ops executed one at a time needs no more than each of them. -/
theorem Flow.Serial.needs {α : Type} {d : Dispatcher} {good : Op → Handle → Prop}
    {R : List Leg → α → Prop} {legs : List Leg} {f : Flow α}
    (h : f.Serial Mark.IsSilent d good R legs)
    (hcall : ∀ op p, good op p → (d.exec op p).Needs δ 0) : f.Needs δ 0 := by
  induction h with
  | ok _ => exact Flow.costs_ok trivial
  | error _ e => exact hsilent _ fun _ => trivial
  | starved => exact Flow.costs_starved
  | pause _ _ ih => exact ih
  | act hm _ ih =>
    rw [Flow.Needs, Flow.Costs, Flow.Stays, hsilent _ hm]
    exact ⟨Int.le_refl 0, ih⟩
  | call hop _ ih => exact (hcall _ _ hop).bind fun v _ => ih v

include hδ hpre

omit hsilent in
/-- An execution takes off at its beginning what it adds at its end. -/
theorem Engine.exec_needs_of_carryOut {e : Engine} {n : Nat} {op : Op} {p : Handle}
    (h : (e.carryOut n op p).Needs δ 0) : (e.exec (n + 1) op p).Needs δ 0 := by
  have hbegun := hpre op p
  have hpost := hδ.opPost op p
  rw [exec_succ]
  refine ⟨by omega, fun _ => ?_⟩
  rw [Int.zero_add]
  show Flow.Stays δ _ _ ((e.carryOut n op p).bind (complete op p)) (δ (.announce ⟨.opPre, op, p⟩))
  refine Flow.Stays.bind (h.lift (by omega)) fun v c hc => ?_
  obtain ⟨rfl, -⟩ := hc
  have hbound : (bindResult op p v).Needs δ 0 := by
    unfold bindResult
    split
    · exact (Flow.costs_perform (hδ.bind ..)).bind fun _ _ => Flow.costs_perform (hδ.bind ..)
    · exact Flow.costs_perform (hδ.bind ..)
  refine (hbound.lift (by omega)).bind fun _ c hc => ?_
  obtain ⟨rfl, -⟩ := hc
  refine ⟨by omega, fun _ => ⟨by omega, trivial⟩⟩

theorem Engine.exec_needs_nothing {inner : Op → Op → Handle → Prop} {e : Engine}
    (he : e.InTurn inner) (n : Nat) (op : Op) (p : Handle) : (e.exec n op p).Needs δ 0 := by
  have hraise : ∀ e, δ (.raise e) = 0 := fun e => hsilent _ fun _ => trivial
  induction n generalizing op p with
  | zero => exact Flow.costs_starved
  | succ n ih =>
    refine exec_needs_of_carryOut hδ hpre ?_
    unfold carryOut
    split
    · exact Flow.costs_fail (hraise _)
    · next x hx =>
      rcases he op.kind x hx with rfl | hturn
      · have hall : (e.dispatcher n).Affords δ 0 (fun _ => True) p :=
          ⟨fun _ _ _ _ _ _ _ => trivial, fun _ e _ _ _ => hraise e, fun o _ _ => ih o p⟩
        refine Executor.parallel_needs (fun e _ => hraise e) hδ (fun _ => 0) fun ops cap _ _ => ?_
        refine ⟨fun o _ => Dispatcher.dispatch_needs hδ hall trivial, ?_⟩
        rw [sumOfLargest_of_zeros (by simp)]
      · exact (hturn (e.dispatcher n) op p).needs hsilent fun o q _ => ih o q

end Counts

/-- **Ops are completed no more often than begun**, at every moment of a run. -/
theorem Engine.posts_le_pres {inner : Op → Op → Handle → Prop} {e : Engine} (he : e.InTurn inner)
    {m n : Nat} {w : Workflow} {p : Handle} {t : List Mark} {g : Flow Execution}
    (h : (w.execute ((e.dispatcher m).upTo n) p).Goes t g) (op : Op) (q : Handle) :
    t.countP (Mark.signals ⟨.opPost, op, q⟩) ≤ t.countP (Mark.signals ⟨.opPre, op, q⟩) := by
  have hδ := Gauge.completed_suits op q
  have hsilent : ∀ a, (∀ x, Mark.IsSilent (.did a x)) → Gauge.completed op q a = 0 :=
    fun a => Gauge.completed_of_silent op q
  have hpre : ∀ o r, Gauge.completed op q (.announce ⟨.opPre, o, r⟩) ≤ 0 := by
    intro o r
    by_cases hsame : o = op ∧ r = q <;> simp [Gauge.completed, hsame]
  have hall : ((e.dispatcher m).upTo n).Affords (Gauge.completed op q) 0 (fun _ => True) p :=
    ⟨fun _ _ _ _ _ _ _ => trivial, fun _ e _ _ _ => hsilent _ fun _ => trivial,
      fun o _ _ => exec_needs_nothing hsilent hδ hpre he m o p⟩
  have hneeds : (w.execute ((e.dispatcher m).upTo n) p).Needs (Gauge.completed op q) 0 :=
    Workflow.execute_needs hδ hall fun _ _ => trivial
  obtain ⟨hle, -⟩ := Flow.Stays.goes hneeds (Int.le_refl 0) h
  rw [Int.zero_add, Gauge.level_completed] at hle
  omega

end WorkflowEngine
