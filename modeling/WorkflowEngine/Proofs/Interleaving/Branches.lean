import WorkflowEngine.Proofs.Interleaving.FanOut
import WorkflowEngine.Proofs.Interleaving.Groups

/-!
# The branches of a parallel op

**Main statement (`Interleaving.branches_settle`).** Branches that are apart, in one context, come
to what each of them comes to alone, from the bindings before; and what they leave, put together
key by key, is what is bound then. This is so for the fan-out by which a parallel op executes
them, and for any other flow that leaves them apart, such as one after another.

A branch relies on the keys that it reads and on those that it writes, the reserved name excepted.
It writes what it may, and so no other branch disturbs it.
-/

namespace WorkflowEngine

/-! ## Putting bindings together -/

namespace Record

variable {α : Type}

/-- The record that binds those names of a list that have a value. -/
def tabulate (f : String → Option α) : List String → Record α
  | [] => empty
  | key :: keys => (f key).elim (tabulate f keys) ((tabulate f keys).insert key ·)

theorem get?_tabulate (f : String → Option α) (keys : List String) (key : String) :
    (tabulate f keys).get? key = if key ∈ keys then f key else none := by
  induction keys with
  | nil => rfl
  | cons k keys ih =>
    rw [tabulate]
    cases hk : f k with
    | none =>
      rw [Option.elim_none, ih]
      by_cases heq : key = k
      · subst heq
        simp [hk]
      · simp [heq]
    | some v =>
      rw [Option.elim_some, get?_insert, ih]
      by_cases heq : key = k
      · subst heq
        simp [hk]
      · simp [heq]

theorem get?_eq_none_of_not_mem_keys {r : Record α} {key : String} (h : key ∉ r.keys) :
    r.get? key = none :=
  Option.eq_none_iff_forall_ne_some.2 fun value hvalue => h (mem_keys_iff.2 ⟨value, hvalue⟩)

end Record

variable {reads writes : Op → String → Prop} {scripted : Op → Prop} {ops : List Op}
  {R W : Nat → String → Prop}

/-- Of branches that are apart only one may bind a key, the reserved name excepted. -/
theorem Op.Apart.index_eq (h : Op.Apart reads writes ops R W) {i j : Nat} {o o' : Op} {key : String}
    (ho : ops[i]? = some o) (ho' : ops[j]? = some o') (hkey : o.MayBind writes key)
    (hkey' : o'.MayBind writes key) (hne : key ≠ Bindings.outputKey) : i = j := by
  by_cases hij : i = j
  · exact hij
  · have hi := (h.write i o key ho hkey).resolve_right hne
    have hj := (h.write j o' key ho' hkey').resolve_right hne
    exact absurd hi (h.apart i j key hij hj).2

/-- What branches leave can be put together. -/
theorem Op.Apart.exists_merges (h : Op.Apart reads writes ops R W) (ends : Nat → Bindings)
    (b : Bindings) : ∃ c, Merges (Op.MayBind writes) ops ends b c := by
  -- The index of the branch that may bind a key, if there is one.
  have howner : ∀ key, ∃ i, ∀ (j : Nat) (o : Op), ops[j]? = some o → o.MayBind writes key →
      key ≠ Bindings.outputKey → j = i := by
    intro key
    by_cases hex : ∃ (i : Nat) (o : Op), ops[i]? = some o ∧ o.MayBind writes key
    · obtain ⟨i, o, ho, hkey⟩ := hex
      exact ⟨i, fun j o' ho' hkey' hne => h.index_eq ho' ho hkey' hkey hne⟩
    · exact ⟨0, fun j o ho hkey _ => absurd ⟨j, o, ho, hkey⟩ hex⟩
  obtain ⟨owner, howner⟩ := Classical.skolem.1 howner
  let f : String → Option Value := fun key =>
    open Classical in
    if ∃ o ∈ ops, o.MayBind writes key then (ends (owner key)).get? key else b.get? key
  let keys := b.keys ++ (List.range ops.length).flatMap fun i => (ends i).keys
  refine ⟨.tabulate f keys, ?_, ?_⟩
  · intro i o key ho hkey hne
    have hi : i = owner key := howner key i o ho hkey hne
    have hf : f key = (ends i).get? key := by
      rw [hi]
      exact if_pos ⟨o, List.mem_of_getElem? ho, hkey⟩
    rw [Record.get?_tabulate, hf]
    by_cases hmem : key ∈ keys
    · rw [if_pos hmem]
    · have hnone : key ∉ (ends i).keys := fun hk => hmem (List.mem_append_right _
        (List.mem_flatMap.2 ⟨i, List.mem_range.2 (List.getElem?_eq_some_iff.1 ho).1, hk⟩))
      rw [if_neg hmem, Record.get?_eq_none_of_not_mem_keys hnone]
  · intro key hkey _
    have hf : f key = b.get? key := if_neg fun ⟨o, ho, hk⟩ => hkey o ho hk
    rw [Record.get?_tabulate, hf]
    by_cases hmem : key ∈ keys
    · rw [if_pos hmem]
    · have hnone : key ∉ b.keys := fun hk => hmem (List.mem_append_left _ hk)
      rw [if_neg hmem, Record.get?_eq_none_of_not_mem_keys hnone]

namespace Interleaving

variable {ans : Query → Value} {M : Budget} {t : Turf} {s : Store} {p : Handle}
  {known may : String → Prop} {alone : Bool} {b : Bindings} {op : Op}

/-! ## The turfs of branches -/

/-- What a branch relies on, and what it may write. -/
def branchTurf (reads writes : Op → String → Prop) (p : Handle) (ops : List Op) (i : Nat) : Turf :=
  ⟨fun h key => h = p ∧ ∃ o, ops[i]? = some o ∧ o.Uses reads writes key,
    fun h key => h = p ∧ ∃ o, ops[i]? = some o ∧ o.MayBind writes key⟩

/-- The turf of all branches together. -/
def branchesTurf (writes : Op → String → Prop) (p : Handle) (ops : List Op) (t : Turf) : Turf :=
  ⟨t.dep, fun h key => h = p ∧ ∃ o ∈ ops, o.MayBind writes key⟩

/-- What is known of a branch's keys. -/
def knownOfBranch (reads writes : Op → String → Prop) (known : String → Prop) (o : Op)
    (key : String) : Prop := known key ∧ o.Uses reads writes key

section

variable (hhome : Home p known t s b) (hgrants : t.Grants p alone may)
  (hop : op.Fits reads writes scripted alone known may) (hkind : op.kind = "parallel")
  (hops : op.innerOps = .ok ops)

include hop hkind hops

theorem apart_branches : ∃ R W, Op.Apart reads writes ops R W :=
  hop.tame.raceFree op ops (.self op) hkind hops

theorem may_of_branch {o : Op} (ho : o ∈ ops) {key : String} (hkey : o.MayBind writes key) :
    may key := hop.write key (.inner (.inl hkind) hops ho hkey)

include hgrants

theorem branchesTurf_inside : (branchesTurf writes p ops t).Inside t := by
  refine ⟨fun _ _ => id, ?_⟩
  rintro h key ⟨rfl, o, ho, hkey⟩
  exact (hgrants key (may_of_branch hop hkind hops ho hkey)).1

include hhome

theorem branchTurf_inside (i : Nat) :
    (branchTurf reads writes p ops i).Inside (branchesTurf writes p ops t) := by
  refine ⟨?_, ?_⟩
  · rintro h key ⟨rfl, o, ho, hread | ⟨hkey, hne⟩⟩
    · have hmem := List.mem_of_getElem? ho
      exact hhome.dep key (hop.read key (.branch hkind hops hmem hread))
    · have hmay := may_of_branch hop hkind hops (List.mem_of_getElem? ho) hkey
      exact (hgrants key hmay).2 (.inr hne)
  · rintro h key ⟨rfl, o, ho, hkey⟩
    exact ⟨rfl, o, List.mem_of_getElem? ho, hkey⟩

/-- **The turfs of branches are apart.** -/
theorem turfs_branches : Turfs (branchTurf reads writes p ops) (branchTurf reads writes p ops)
    (branchesTurf writes p ops t) s where
  base i := .refl _
  inside := branchTurf_inside hhome hgrants hop hkind hops
  fits i := by
    rintro h key (⟨rfl, -⟩ | ⟨rfl, -⟩) <;> exact hhome.valid
  apart i j hij := by
    rintro h key ⟨-, o, ho, hkey⟩ ⟨-, o', ho', huse⟩
    obtain ⟨R, W, hapart⟩ := apart_branches hop hkind hops
    rcases huse with hread | ⟨hkey', hne⟩
    · have hread' := hapart.read j o' key ho' hread
      rcases hapart.write i o key ho hkey with hW | rfl
      · exact (hapart.apart j i key (Ne.symm hij) hW).1 hread'
      · exact hapart.output j hread'
    · exact hij (hapart.index_eq ho ho' hkey hkey' hne)

end

/-! ## What branches leave -/

/-- Each branch has come to what it comes to alone, and what they leave has been put together. -/
def Joined (writes : Op → String → Prop) (ops : List Op) (b : Bindings)
    (P : Nat → Value → Bindings → Prop) (vs : List Value) (c : Bindings) : Prop :=
  vs.length = ops.length ∧ ∃ ends, (∀ i v, vs[i]? = some v → P i v (ends i)) ∧
    Merges (Op.MayBind writes) ops ends b c

/-- What is known after the branches. -/
def knownOfBranches (known : String → Prop) (ops : List Op) (key : String) : Prop :=
  key ≠ Bindings.outputKey ∧ (known key ∨ ∃ o ∈ ops, o.Binds key)

/-- What a branch makes true: at its end its keys are bound as if it had been alone. -/
def branchEnd (reads writes : Op → String → Prop) (p : Handle) (known : String → Prop)
    (ops : List Op) (P : Nat → Value → Bindings → Prop) (i : Nat) (v : Value) (s : Store) : Prop :=
  ∃ c, P i v c ∧ ∀ o, ops[i]? = some o →
    Home p (o.knownAfter false (knownOfBranch reads writes known o))
      (branchTurf reads writes p ops i) s c

theorem stable_branchEnd (P : Nat → Value → Bindings → Prop) :
    Stable (branchEnd reads writes p known ops P) (branchTurf reads writes p ops) :=
  fun _ _ _ _ hs ⟨c, hc, hall⟩ => ⟨c, hc, fun o ho => (hall o ho).rely hs⟩

section

variable {P : Nat → Value → Bindings → Prop} {i : Nat} {o : Op} {s' : Store} {vs : List Value}
  {ends : Nat → Bindings} {c : Bindings} {key : String}

/-- A branch that does as it should wherever nobody else writes its keys may do so in its turf. -/
theorem ready_branch {f : Flow Value} {m : Budget} (hhome : Home p known t s b)
    (ho : ops[i]? = some o)
    (hbranch : ∀ u s', Home p (knownOfBranch reads writes known o) u s' b →
      u.Grants p false (o.MayBind writes) →
      f.Settles ans (At p (o.knownAfter false (knownOfBranch reads writes known o)) (P i)) m u s') :
    f.Ready ans (fun _ => branchEnd reads writes p known ops P i) m
      (branchTurf reads writes p ops i) s := by
  intro s' hs
  have hstart : Home p (knownOfBranch reads writes known o) (branchTurf reads writes p ops i) s b :=
    ⟨hhome.valid, fun key hk => ⟨rfl, o, ho, hk.2⟩, hhome.same.mono fun key hk => hk.1⟩
  have hgrant : (branchTurf reads writes p ops i).Grants p false (o.MayBind writes) :=
    fun key hk => ⟨⟨rfl, o, ho, hk⟩, fun hstays =>
      ⟨rfl, o, ho, .inr ⟨hk, hstays.resolve_left Bool.false_ne_true⟩⟩⟩
  refine (hbranch _ s' (hstart.rely hs) hgrant).mono fun u v s'' hx => ?_
  obtain ⟨c, hc, hend⟩ := hx
  refine ⟨c, hc, fun o' ho' => ?_⟩
  cases ho.symm.trans ho'
  refine ⟨hend.valid, fun key hk => ⟨rfl, o, ho, ?_⟩, hend.same⟩
  rcases hk with hk | ⟨hbinds, hstays⟩
  · exact hk.2
  · exact .inr ⟨hbinds.mayBind, hstays.resolve_left Bool.false_ne_true⟩

theorem exists_ends (b : Bindings)
    (h : ∀ i v, vs[i]? = some v → branchEnd reads writes p known ops P i v s) :
    ∃ ends : Nat → Bindings, ∀ i v, vs[i]? = some v → P i v (ends i) ∧ ∀ o, ops[i]? = some o →
      Home p (o.knownAfter false (knownOfBranch reads writes known o))
        (branchTurf reads writes p ops i) s (ends i) := by
  have hends : ∀ i, ∃ c, ∀ v, vs[i]? = some v → P i v c ∧ ∀ o, ops[i]? = some o →
      Home p (o.knownAfter false (knownOfBranch reads writes known o))
        (branchTurf reads writes p ops i) s c := by
    intro i
    cases hv : vs[i]? with
    | none => exact ⟨b, fun v hv' => nomatch hv'⟩
    | some v =>
      obtain ⟨c, hc⟩ := h i v hv
      exact ⟨c, fun v' hv' => Option.some.inj hv' ▸ hc⟩
  exact Classical.skolem.1 hends

/-- A key that a branch may bind is bound as that branch has left it. -/
theorem same_of_branch {R W : Nat → String → Prop} (hapart : Op.Apart reads writes ops R W)
    (hmerges : Merges (Op.MayBind writes) ops ends b c) (ho : ops[i]? = some o)
    (hkey : o.MayBind writes key)
    (hend : Home p (o.knownAfter false (knownOfBranch reads writes known o))
      (branchTurf reads writes p ops i) s' (ends i)) (hk : knownOfBranches known ops key) :
    (s'.view p).get? key = c.get? key := by
  obtain ⟨hne, hk⟩ := hk
  rw [hmerges.bound i o key ho hkey hne]
  refine hend.same key ?_
  rcases hk with hk | ⟨o', ho', hbinds⟩
  · exact .inl ⟨hk, .inr ⟨hkey, hne⟩⟩
  · obtain ⟨j, hj⟩ := List.mem_iff_getElem?.1 ho'
    cases hapart.index_eq ho hj hkey hbinds.mayBind hne
    cases ho.symm.trans hj
    exact .inr ⟨hbinds, .inr hne⟩

/-- A key that no branch may bind is bound as before. -/
theorem same_of_rest (hhome : Home p known t s b)
    (hkeeps : (branchesTurf writes p ops t).Keeps s s')
    (hmerges : Merges (Op.MayBind writes) ops ends b c) (hnone : ∀ o ∈ ops, ¬o.MayBind writes key)
    (hk : knownOfBranches known ops key) : (s'.view p).get? key = c.get? key := by
  obtain ⟨hne, hk⟩ := hk
  have hknown : known key := hk.resolve_right fun ⟨o, ho, hbinds⟩ => hnone o ho hbinds.mayBind
  rw [hmerges.rest key hnone hne, hkeeps.same p key hhome.valid (hhome.dep key hknown)
    fun ⟨_, o, ho, hkey⟩ => hnone o ho hkey]
  exact hhome.same key hknown

end

/-- **Branches that are apart.** The flow may be any that leaves them apart. -/
theorem branches_settle {P : Nat → Value → Bindings → Prop} {need : Nat → Budget}
    {task : Op → Flow Value} {flow : Flow (List Value)} (hhome : Home p known t s b)
    (hgrants : t.Grants p alone may) (hop : op.Fits reads writes scripted alone known may)
    (hkind : op.kind = "parallel") (hops : op.innerOps = .ok ops)
    (hbranch : ∀ i o u s', ops[i]? = some o →
      Home p (knownOfBranch reads writes known o) u s' b → u.Grants p false (o.MayBind writes) →
      (task o).Settles ans
        (At p (o.knownAfter false (knownOfBranch reads writes known o)) (P i)) (need i) u s')
    (hflow : ∀ (Q : Nat → Value → Store → Prop) base T, Stable Q base → Turfs base base T s →
      (∀ i (f : Flow Value), (ops.map task)[i]? = some f →
        f.Ready ans (fun _ => Q i) (need i) (base i) s) →
      flow.Settles ans (fun _ vs s' => Fulfilled Q ops.length vs s') M T s) :
    flow.Settles ans (At p (knownOfBranches known ops) (Joined writes ops b P)) M t s := by
  have hready : ∀ i (f : Flow Value), (ops.map task)[i]? = some f →
      f.Ready ans (fun _ => branchEnd reads writes p known ops P i) (need i)
        (branchTurf reads writes p ops i) s := by
    intro i f hf
    obtain ⟨o, ho, rfl⟩ := Option.map_eq_some_iff.1 (List.getElem?_map .. ▸ hf)
    exact ready_branch hhome ho fun u s' => hbranch i o u s' ho
  have hsettles := hflow _ _ _ (stable_branchEnd P)
    (turfs_branches hhome hgrants hop hkind hops) hready
  refine (hsettles.framed (branchesTurf_inside hgrants hop hkind hops)).mono fun u vs s' hx => ?_
  obtain ⟨⟨-, -, hlength, hall⟩, hu, hkeeps⟩ := hx
  obtain ⟨R, W, hapart⟩ := apart_branches hop hkind hops
  obtain ⟨ends, hends⟩ := exists_ends b hall
  obtain ⟨c, hmerges⟩ := hapart.exists_merges ends b
  refine ⟨c, ⟨hlength, ends, fun i v hv => (hends i v hv).1, hmerges⟩,
    hkeeps.valid p hhome.valid, ?_, ?_⟩
  · rintro key ⟨hne, hk | ⟨o, ho, hbinds⟩⟩
    · exact hu.dep p key (hhome.dep key hk)
    · have hmay := may_of_branch hop hkind hops ho hbinds.mayBind
      exact hu.dep p key ((hgrants key hmay).2 (.inr hne))
  · intro key hk
    by_cases hex : ∃ o ∈ ops, o.MayBind writes key
    · obtain ⟨o, ho, hkey⟩ := hex
      obtain ⟨i, hi⟩ := List.mem_iff_getElem?.1 ho
      have hlt : i < vs.length := by
        rw [hlength]
        exact (List.getElem?_eq_some_iff.1 hi).1
      have hend := (hends i vs[i] (List.getElem?_eq_getElem hlt)).2 o hi
      exact same_of_branch hapart hmerges hi hkey hend hk
    · exact same_of_rest hhome hkeeps hmerges (fun o ho hkey => hex ⟨o, ho, hkey⟩) hk

end Interleaving

end WorkflowEngine
