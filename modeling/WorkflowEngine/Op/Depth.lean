import WorkflowEngine.Op

/-!
# How deep ops are nested

The inner ops of an op are encoded in its parameters, so nothing in the type `Op` says that
following them from op to op comes to an end. It does: an op is nested less deep than the op it is
an inner op of. Functions that follow inner ops recurse on `Op.depth`.

Main statement: `Op.depth_lt_of_mem_innerOps`.
-/

namespace WorkflowEngine

namespace Value

mutual

/-- How deep the arrays and objects of a value are nested. -/
def depth : Value → Nat
  | .array items => depthItems items + 1
  | .object fields => depthFields fields + 1
  | _ => 0

def depthItems : List Value → Nat
  | [] => 0
  | v :: vs => max (depth v) (depthItems vs)

def depthFields : List (String × Value) → Nat
  | [] => 0
  | (_, v) :: fs => max (depth v) (depthFields fs)

end

theorem depth_le_depthItems {v : Value} {vs : List Value} (h : v ∈ vs) :
    v.depth ≤ depthItems vs := by
  induction vs with
  | nil => simp at h
  | cons w ws ih =>
    simp only [depthItems]
    rcases List.mem_cons.1 h with rfl | h
    · exact Nat.le_max_left ..
    · exact Nat.le_trans (ih h) (Nat.le_max_right ..)

theorem depth_le_depthFields {e : String × Value} {fs : List (String × Value)} (h : e ∈ fs) :
    e.2.depth ≤ depthFields fs := by
  induction fs with
  | nil => simp at h
  | cons f rest ih =>
    obtain ⟨k, w⟩ := f
    simp only [depthFields]
    rcases List.mem_cons.1 h with rfl | h
    · exact Nat.le_max_left ..
    · exact Nat.le_trans (ih h) (Nat.le_max_right ..)

/-- Fewer fields are nested no deeper. -/
theorem depthFields_le {fs gs : List (String × Value)} (h : ∀ e ∈ fs, e ∈ gs) :
    depthFields fs ≤ depthFields gs := by
  induction fs with
  | nil => exact Nat.zero_le _
  | cons f rest ih =>
    obtain ⟨k, v⟩ := f
    simp only [depthFields]
    exact Nat.max_le.2 ⟨depth_le_depthFields (h _ (List.mem_cons_self ..)),
      ih fun e he => h e (List.mem_cons_of_mem _ he)⟩

end Value

namespace Op

/-- How deep the parameters of an op are nested. -/
def depth (op : Op) : Nat := Value.depthFields op.params.entries

/-- A decoded op is nested less deep than its encoding. -/
theorem depth_lt_of_decode {v : Value} {op : Op} (h : decode v = .ok op) : op.depth < v.depth := by
  cases v with
  | object fields =>
    simp only [decode, bind, Except.bind, pure, Except.pure, throw, throwThe, MonadExceptOf.throw]
      at h
    split at h
    · simp at h
    · split at h
      · simp at h
      · split at h
        · simp only [Except.ok.injEq] at h
          subst h
          simp only [depth, Value.depth]
          exact Nat.lt_succ_of_le (Value.depthFields_le fun e he =>
            Record.mem_of_mem_ofList (Record.mem_of_mem_erase (Record.mem_of_mem_erase he)))
        · simp at h
  | _ => simp [decode, throw, throwThe, MonadExceptOf.throw] at h

theorem exists_of_mem_decodeItems {vs : List Value} {ops : List Op} {op : Op}
    (h : decodeItems vs = .ok ops) (hm : op ∈ ops) : ∃ v ∈ vs, decode v = .ok op := by
  induction vs generalizing ops with
  | nil =>
    simp only [decodeItems, Except.ok.injEq] at h
    simp [← h] at hm
  | cons v vs ih =>
    simp only [decodeItems, bind, Except.bind, pure, Except.pure] at h
    split at h
    · simp at h
    · next o ho =>
      split at h
      · simp at h
      · next rest hrest =>
        simp only [Except.ok.injEq] at h
        subst h
        rcases List.mem_cons.1 hm with rfl | hm
        · exact ⟨v, List.mem_cons_self .., ho⟩
        · obtain ⟨w, hw, hd⟩ := ih hrest hm
          exact ⟨w, List.mem_cons_of_mem _ hw, hd⟩

/-- **An inner op is nested less deep than the op it is in.** -/
theorem depth_lt_of_mem_innerOps {op inner : Op} {ops : List Op} (h : op.innerOps = .ok ops)
    (hm : inner ∈ ops) : inner.depth < op.depth := by
  simp only [innerOps] at h
  split at h
  · simp at h
  · next v hv =>
    have hlist : decodeList v = .ok ops := by
      cases hd : decodeList v with
      | ok inner =>
        rw [hd] at h
        exact congrArg Except.ok (Except.ok.inj h)
      | error e =>
        rw [hd] at h
        cases h
    cases v with
    | array items =>
      obtain ⟨w, hw, hd⟩ := exists_of_mem_decodeItems hlist hm
      have h1 := depth_lt_of_decode hd
      have h2 := Value.depth_le_depthItems hw
      have h3 := Value.depth_le_depthFields (Record.mem_of_get? hv)
      simp only [Value.depth] at h3
      simp only [depth] at h1 ⊢
      omega
    | _ => simp [decodeList, throw, throwThe, MonadExceptOf.throw] at hlist

end Op

end WorkflowEngine
