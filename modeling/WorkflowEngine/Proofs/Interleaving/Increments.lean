import WorkflowEngine.Proofs.Interleaving.Reached
import WorkflowEngine.Rehearsal.Executors

/-!
# Increments that take their time

An engine whose leaves are increments, each of which counts up what one key is bound to, and
pauses before it does so. These leaves are scripts (`Rehearsal.counting_performs`); how long they
pause makes no difference to the scripts, when pauses are left out (`Rehearsal.calm_lateScript`).
Ops that are made of increments of different keys are apart (`Op.Counts.apart_pair`).
-/

namespace WorkflowEngine

/-! ## Waiting -/

namespace Flow

theorem within_wait (h : Handle) (n : Nat) : (wait n).within h = wait n := by
  induction n with
  | zero => rfl
  | succ n ih => exact congrArg Flow.pause (funext fun _ => ih)

theorem touches_wait {reads writes : String → Prop} (n : Nat) :
    (wait n).Touches reads writes := by
  induction n with
  | zero => trivial
  | succ n ih => exact ih

theorem calm_wait_bind {α : Type} (n : Nat) (k : Unit → Flow α) :
    ((wait n).bind k).calm = (k ()).calm := by
  induction n with
  | zero => rfl
  | succ n ih => exact ih

end Flow

/-! ## Ops made of increments -/

namespace Op

variable {reads writes : Op → String → Prop} {ops : List Op} {op o : Op}

/-- An op that counts up what a key is bound to. -/
def increment (key : String) : Op := (new "increment").withParam "key" (.string key)

/-- The key that an increment reads and writes. -/
def counted (op : Op) (key : String) : Prop := Rehearsal.textOr op "key" "n" = key

theorem isLeaf_of_increment (h : op.kind = "increment") : op.IsLeaf := by
  unfold IsLeaf
  rw [h]
  decide

/-- The keys that an increment touches. -/
def keysOfIncrement (op : Op) : List String :=
  Rehearsal.textOr op "key" "n" :: op.outputBinding.toList

theorem Uses.mem_keysOfIncrement {key : String} (hkind : op.kind = "increment")
    (h : op.Uses counted counted key) : key ∈ op.keysOfIncrement := by
  have hleaf := isLeaf_of_increment hkind
  have hcounted : op.counted key → key ∈ op.keysOfIncrement := by
    rintro rfl
    exact List.mem_cons_self ..
  rcases h with hread | ⟨hbind, hne⟩
  · exact hcounted (hread.of_isLeaf hleaf)
  · rcases hbind.of_isLeaf hleaf with houtput | hname | hkey
    · exact absurd houtput hne
    · exact List.mem_cons_of_mem _ (Option.mem_toList.2 hname)
    · exact hcounted hkey

/-- Increments, and parallel ops whose branches are increments. -/
inductive Counts : Op → List String → Prop
  | one {op : Op} : op.kind = "increment" → Counts op op.keysOfIncrement
  | all {op : Op} {ops : List Op} : op.kind = "parallel" → op.outputBinding = none →
      op.innerOps = .ok ops → (∀ inner ∈ ops, inner.kind = "increment") →
      Counts op (ops.flatMap keysOfIncrement)

namespace Counts

variable {keys : List String} (h : op.Counts keys)

include h

theorem kind_of_leaf (hheld : op.Holds o) (hleaf : o.IsLeaf) : o.kind = "increment" := by
  cases h with
  | one hkind => rw [hheld.eq_of_isLeaf (isLeaf_of_increment hkind), hkind]
  | all hkind _ hops hall =>
    rcases hheld.eq_or_inner hops with rfl | ⟨inner, hinner, hheld⟩
    · exact absurd hleaf (not_isLeaf_of_group (by rw [hkind]; decide))
    · rw [hheld.eq_of_isLeaf (isLeaf_of_increment (hall inner hinner)), hall inner hinner]

theorem mem_of_uses {key : String} (huse : op.Uses counted counted key) : key ∈ keys := by
  cases h with
  | one hkind => exact huse.mem_keysOfIncrement hkind
  | all hkind hnone hops hall =>
    rcases huse with hread | ⟨hbind, hne⟩
    · obtain ⟨inner, hinner, hread⟩ := hread.of_parallel hkind hops
      exact List.mem_flatMap.2
        ⟨inner, hinner, Uses.mem_keysOfIncrement (hall inner hinner) (.inl hread)⟩
    · rcases hbind.of_parallel hkind hops with houtput | hname | ⟨inner, hinner, hbind⟩
      · exact absurd houtput hne
      · rw [hnone] at hname
        cases hname
      · exact List.mem_flatMap.2
          ⟨inner, hinner, Uses.mem_keysOfIncrement (hall inner hinner) (.inr ⟨hbind, hne⟩)⟩

theorem apart_pair {op' : Op} {keys' : List String} (h' : op'.Counts keys')
    (houtput : Bindings.outputKey ∉ keys ++ keys') (hdisjoint : ∀ key ∈ keys, key ∉ keys') :
    ∃ R W, Apart counted counted [op, op'] R W := by
  refine ⟨_, _, .of_uses (fun o ho hread => houtput ?_) ?_⟩
  · simp only [List.mem_cons, List.not_mem_nil, or_false] at ho
    rcases ho with rfl | rfl
    · exact List.mem_append_left _ (h.mem_of_uses (.inl hread))
    · exact List.mem_append_right _ (h'.mem_of_uses (.inl hread))
  · exact List.pairwise_pair.2 fun key huse huse' =>
      hdisjoint key (h.mem_of_uses huse) (h'.mem_of_uses huse')

end Counts

end Op

/-! ## Late increments -/

namespace Rehearsal

/-- `increment`, after some pauses. -/
def late (pauses : Op → Nat) : Executor := fun d op context => do
  Flow.wait (pauses op)
  increment d op context

/-- What a late increment does, in whatever context. -/
def lateScript (pauses : Op → Nat) (op : Op) : Flow Value :=
  late pauses ⟨{}, 0, fun _ _ => .starved⟩ op ⟨0⟩

theorem calm_lateScript (pauses : Op → Nat) (op : Op) :
    (lateScript pauses op).calm = (increment ⟨{}, 0, fun _ _ => .starved⟩ op ⟨0⟩).calm :=
  Flow.calm_wait_bind _ _

/-- An engine with late increments. -/
def counting (pauses : Op → Nat) : Engine :=
  (EngineBuilder.executor {} "increment" (late pauses)).build

theorem counting_registry (pauses : Op → Nat) (kind : String) :
    (counting pauses).registry.get? kind = if kind = "increment" then some (late pauses) else
      (Registry.plain Http.outside).get? kind := Record.get?_insert _ _ _ _

theorem late_touches (pauses : Op → Nat) (op : Op) :
    (lateScript pauses op).Touches op.counted op.counted := by
  refine (Flow.touches_wait _).bind fun _ => ?_
  refine Flow.touches_view (fun b c h => ?_) fun b => ⟨rfl, trivial⟩
  have hkey : b.get? (textOr op "key" "n") = c.get? (textOr op "key" "n") := h _ rfl
  rw [hkey]

theorem counting_performs (pauses : Op → Nat) {scripted : Op → Prop}
    (hscripted : ∀ op, scripted op → op.kind = "increment") :
    (counting pauses).Performs Op.counted Op.counted scripted (lateScript pauses) where
  sequential := by simp [counting_registry, Registry.plain, Record.ofList, Record.insertAll,
    Record.get?_insert]
  parallel := by simp [counting_registry, Registry.plain, Record.ofList, Record.insertAll,
    Record.get?_insert]
  map := by simp [counting_registry, Registry.plain, Record.ofList, Record.insertAll,
    Record.get?_insert]
  leaf op n context _ hop := by
    have hregistry := counting_registry pauses "increment"
    rw [Engine.Performs.carryOut_of_kind _ hregistry (hscripted op hop)]
    refine Eq.trans ?_ (Flow.within_bind context _ _).symm
    rw [Flow.within_wait]
    rfl
  touches op _ _ := late_touches pauses op

end Rehearsal

end WorkflowEngine
