import WorkflowEngine.Definition.Validity

/-!
# What is valid

`Op.offence?` goes through the ops of a workflow in one recursion and stops at the first offence.
This file says what it finds without that recursion. `Op.At ops location op` says that following the
indices of a location through the inner ops leads to an op, and `Op.Proper` says of one op, whatever
is inside it, that its kind is not blank and that its inner ops, if it has any, can be decoded.

**Theorem (`Workflow.offence?_eq_none_iff`, `Workflow.offence?_eq_some`).** A workflow has no offence
if and only if it has a name and the ops at all its locations are proper. Otherwise the offence
found is that of the first op which is not proper, in the order of the locations: that is the order
of the texts of a book, an op before what is inside it and this before the next op.

**How the proof goes.** The recursion is on how deep ops are nested. `Op.First` says of a list of
ops that what is found in it is its first offence; it holds of a list if it holds of the inner ops
of every op in it (`Op.first_of_inner`).
-/

namespace WorkflowEngine

namespace Op

/-! ## Single ops -/

/-- The kind is not blank, and the inner ops can be decoded, if there are any. -/
def Proper (op : Op) : Prop :=
  isBlankKind op.kind = false ∧ (op.param? opsKey ≠ none → ∃ ops, op.innerOps = .ok ops)

/-- What is wrong with an op itself: its kind, and otherwise its inner ops. -/
def ownOffence? (op : Op) (location : Location) : Option Offence :=
  if isBlankKind op.kind then some (.blankKind location)
  else if (op.param? opsKey).isNone then none
  else
    match op.innerOps with
    | .error fault => some (.badOps location op.kind fault)
    | .ok _ => none

theorem ownOffence?_eq_none_iff {op : Op} {location : Location} :
    op.ownOffence? location = none ↔ op.Proper := by
  unfold ownOffence? Proper
  by_cases hkind : isBlankKind op.kind = true
  · simp [hkind]
  · by_cases hparam : op.param? opsKey = none
    · simp [hkind, hparam]
    · cases hops : op.innerOps <;> simp [hkind, hparam]

theorem param?_ne_none_of_innerOps {op : Op} {ops : List Op} (h : op.innerOps = .ok ops) :
    op.param? opsKey ≠ none := by
  intro hnone
  unfold innerOps at h
  rw [hnone] at h
  cases h

/-! ## Locations -/

/-- The location leads from a list of ops to an op. -/
inductive At : List Op → Location → Op → Prop
  | here {ops : List Op} {i : Nat} {op : Op} : ops[i]? = some op → At ops [i] op
  | inside {ops inner : List Op} {i : Nat} {op o : Op} {location : Location} :
      ops[i]? = some op → op.innerOps = .ok inner → At inner location o →
      At ops (i :: location) o

/-- A location starts with the index of an op of the list. -/
theorem At.cases_cons {ops : List Op} {i : Nat} {location : Location} {op o : Op}
    (h : At ops (i :: location) o) (hop : ops[i]? = some op) :
    (location = [] ∧ o = op) ∨ ∃ inner, op.innerOps = .ok inner ∧ At inner location o := by
  cases h with
  | here h =>
    cases hop.symm.trans h
    exact .inl ⟨rfl, rfl⟩
  | inside h hinner hat =>
    cases hop.symm.trans h
    exact .inr ⟨_, hinner, hat⟩

theorem At.exists_cons {ops : List Op} {location : Location} {o : Op} (h : At ops location o) :
    ∃ i rest op, location = i :: rest ∧ ops[i]? = some op := by
  cases h with
  | here h => exact ⟨_, _, _, rfl, h⟩
  | inside h _ _ => exact ⟨_, _, _, rfl, h⟩

theorem At.of_singleton {ops : List Op} {i : Nat} {location : Location} {op o : Op}
    (h : At [op] (0 :: location) o) (hop : ops[i]? = some op) : At ops (i :: location) o := by
  rcases h.cases_cons rfl with ⟨rfl, rfl⟩ | ⟨inner, hinner, hat⟩
  · exact .here hop
  · exact .inside hop hinner hat

/-! ## The first offence -/

/-- What is found in a list of ops. -/
def listOffence? (ops : List Op) (location : Location) : Option Offence :=
  ops.zipIdx.findSome? fun p => p.1.offence? (location ++ [p.2])

/-- What is found in an op: what is wrong with itself, and otherwise what is found inside it. -/
theorem offence?_eq_or (op : Op) (location : Location) :
    op.offence? location = (op.ownOffence? location).or
      (match op.innerOps with
        | .error _ => none
        | .ok inner => listOffence? inner location) := by
  rw [offence?, ownOffence?]
  by_cases hkind : isBlankKind op.kind = true
  · simp [hkind]
  · by_cases hparam : op.param? opsKey = none
    · have hops : ∃ fault, op.innerOps = .error fault := by
        cases hops : op.innerOps with
        | error fault => exact ⟨fault, rfl⟩
        | ok inner => exact absurd hparam (param?_ne_none_of_innerOps hops)
      obtain ⟨fault, hops⟩ := hops
      simp [hkind, hparam, hops]
    · have hsome : (op.param? opsKey).isNone = false := by
        cases hvalue : op.param? opsKey with
        | none => exact absurd hvalue hparam
        | some v => rfl
      rw [if_neg hkind, if_neg (by simp [hsome]), if_neg hkind, if_neg (by simp [hsome])]
      split
      · next fault hops => simp [hops]
      · next inner hops =>
        simp only [hops, Option.none_or, listOffence?]
        have hzip : inner.zipIdx = inner.attach.zipIdx.map fun p => (p.1.1, p.2) := by
          have hmap : (inner.attach.map Subtype.val).zipIdx
              = inner.attach.zipIdx.map fun p => (p.1.1, p.2) := List.zipIdx_map
          rwa [List.attach_map_subtype_val] at hmap
        rw [hzip, List.findSome?_map]
        rfl

/-- What is found in a list of ops is its first offence. -/
structure First (ops : List Op) : Prop where
  none : ∀ location, listOffence? ops location = none → ∀ loc o, At ops loc o → o.Proper
  some : ∀ location offence, listOffence? ops location = some offence →
    ∃ loc o, At ops loc o ∧ o.ownOffence? (location ++ loc) = some offence ∧
      ∀ loc' o', At ops loc' o' → loc' < loc → o'.Proper

theorem mem_of_index_lt {ops : List Op} {before after : List (Op × Nat)} {op o : Op} {i j : Nat}
    (hzip : ops.zipIdx = before ++ (op, i) :: after) (hj : ops[j]? = Option.some o) (hlt : j < i) :
    (o, j) ∈ before := by
  have hincreasing : (before ++ (op, i) :: after).Pairwise (fun p q => p.2 < q.2) := by
    rw [← hzip, ← List.pairwise_map, List.zipIdx_map_snd]
    exact List.pairwise_lt_range'
  have hmem : (o, j) ∈ before ++ (op, i) :: after := hzip ▸ List.mem_zipIdx_iff_getElem?.2 hj
  obtain ⟨-, hafter, -⟩ := List.pairwise_append.1 hincreasing
  rcases List.mem_append.1 hmem with hbefore | hmem
  · exact hbefore
  · rcases List.mem_cons.1 hmem with heq | hmem
    · cases heq
      exact absurd hlt (Nat.lt_irrefl _)
    · exact absurd hlt (Nat.lt_asymm ((List.pairwise_cons.1 hafter).1 _ hmem))

/-- If nothing is found in an op, then nothing is wrong at any place in it. -/
theorem proper_of_clear {ops : List Op}
    (h : ∀ op ∈ ops, ∀ inner, op.innerOps = .ok inner → First inner) {location : Location} {i : Nat}
    {op : Op} (hi : ops[i]? = some op) (hnone : op.offence? location = none) {rest : Location}
    {o : Op} (hat : At ops (i :: rest) o) : o.Proper := by
  rw [offence?_eq_or, Option.or_eq_none_iff] at hnone
  rcases hat.cases_cons hi with ⟨rfl, rfl⟩ | ⟨inner, hinner, hat⟩
  · exact ownOffence?_eq_none_iff.1 hnone.1
  · have hinside := hnone.2
    rw [hinner] at hinside
    exact (h op (List.mem_of_getElem? hi) inner hinner).none _ hinside rest o hat

/-- What is so of the inner ops of every op of a list is so of the list. -/
theorem first_of_inner {ops : List Op}
    (h : ∀ op ∈ ops, ∀ inner, op.innerOps = .ok inner → First inner) : First ops := by
  constructor
  · intro location hnone loc o hat
    obtain ⟨i, rest, op, rfl, hi⟩ := hat.exists_cons
    have hop : op.offence? (location ++ [i]) = Option.none :=
      List.findSome?_eq_none_iff.1 hnone (op, i) (List.mem_zipIdx_iff_getElem?.2 hi)
    exact proper_of_clear h hi hop hat
  · intro location offence hsome
    obtain ⟨before, ⟨op, i⟩, after, hzip, hop, hbefore⟩ := List.findSome?_eq_some_iff.1 hsome
    have hmem : (op, i) ∈ ops.zipIdx := by simp [hzip]
    have hi : ops[i]? = Option.some op := List.mem_zipIdx_iff_getElem?.1 hmem
    -- The ops before the one in which something is found.
    have hearlier : ∀ j, j < i → ∀ rest o, At ops (j :: rest) o → o.Proper := by
      intro j hj rest o hat
      obtain ⟨_, _, op', hcons, hj'⟩ := hat.exists_cons
      cases hcons
      exact proper_of_clear h hj' (hbefore _ (mem_of_index_lt hzip hj' hj)) hat
    rw [offence?_eq_or] at hop
    cases hown : op.ownOffence? (location ++ [i]) with
    | some own =>
      rw [hown, Option.some_or] at hop
      cases hop
      refine ⟨[i], op, .here hi, hown, fun loc' o' hat hlt => ?_⟩
      obtain ⟨j, rest, op', rfl, hj⟩ := hat.exists_cons
      rcases List.cons_lt_cons_iff.1 hlt with hlt | ⟨-, hlt⟩
      · exact hearlier j hlt rest o' hat
      · exact absurd hlt (List.not_lt_nil _)
    | none =>
      rw [hown, Option.none_or] at hop
      cases hinner : op.innerOps with
      | error fault =>
        rw [hinner] at hop
        cases hop
      | ok inner =>
        rw [hinner] at hop
        obtain ⟨loc, o, hat, hoffence, hbefore'⟩ :=
          (h op (List.mem_of_getElem? hi) inner hinner).some _ _ hop
        rw [List.append_assoc] at hoffence
        refine ⟨i :: loc, o, .inside hi hinner hat, hoffence, fun loc' o' hat' hlt => ?_⟩
        obtain ⟨j, rest, op', rfl, hj⟩ := hat'.exists_cons
        rcases List.cons_lt_cons_iff.1 hlt with hindex | ⟨rfl, hrest⟩
        · exact hearlier j hindex rest o' hat'
        · rcases hat'.cases_cons hi with ⟨-, rfl⟩ | ⟨inner', hinner', hinside⟩
          · exact ownOffence?_eq_none_iff.1 hown
          · cases hinner.symm.trans hinner'
            exact hbefore' rest o' hinside hrest

/-- **What is found in a list of ops is its first offence.** -/
theorem first (ops : List Op) : First ops := by
  have hdepth : ∀ n, ∀ op : Op, op.depth < n → ∀ inner, op.innerOps = .ok inner → First inner := by
    intro n
    induction n with
    | zero => exact fun op hlt => absurd hlt (Nat.not_lt_zero _)
    | succ n ih =>
      intro op hlt inner hinner
      refine first_of_inner fun o ho => ih o ?_
      exact Nat.lt_of_lt_of_le (depth_lt_of_mem_innerOps hinner ho) (Nat.le_of_lt_succ hlt)
  exact first_of_inner fun op _ => hdepth (op.depth + 1) op (Nat.lt_succ_self _)

end Op

/-! ## Workflows -/

namespace Workflow

variable {w : Workflow}

theorem offence?_eq_list (h : w.name ≠ "") : w.offence? = Op.listOffence? w.ops [] := by
  have hname : w.name.isEmpty = false := by simpa using h
  rw [offence?, hname]
  rfl

/-- **A workflow is valid** if and only if it has a name and all ops in it are proper. -/
theorem offence?_eq_none_iff :
    w.offence? = none ↔ w.name ≠ "" ∧ ∀ loc op, Op.At w.ops loc op → op.Proper := by
  by_cases hname : w.name = ""
  · simp [offence?, hname]
  · rw [offence?_eq_list hname]
    refine ⟨fun h => ⟨hname, (Op.first w.ops).none [] h⟩, fun h => ?_⟩
    cases hfound : Op.listOffence? w.ops [] with
    | none => rfl
    | some offence =>
      obtain ⟨loc, op, hat, hoffence, -⟩ := (Op.first w.ops).some [] offence hfound
      rw [Op.ownOffence?_eq_none_iff.2 (h.2 loc op hat)] at hoffence
      cases hoffence

/-- **The offence of a workflow** is that it has no name, or that of the first op that is not
proper. -/
theorem offence?_eq_some {offence : Offence} (h : w.offence? = some offence) :
    (w.name = "" ∧ offence = .noName) ∨
    (w.name ≠ "" ∧ ∃ loc op, Op.At w.ops loc op ∧ op.ownOffence? loc = some offence ∧
      ∀ loc' op', Op.At w.ops loc' op' → loc' < loc → op'.Proper) := by
  by_cases hname : w.name = ""
  · have hnone : w.offence? = some .noName := by simp [offence?, hname]
    exact .inl ⟨hname, Option.some.inj (h.symm.trans hnone)⟩
  · rw [offence?_eq_list hname] at h
    exact .inr ⟨hname, (Op.first w.ops).some [] offence h⟩

/-- What is accepted is what was given, and it has no offence. -/
theorem validate_eq_ok_iff {w' : Workflow} :
    w.validate = .ok w' ↔ w.offence? = none ∧ w' = w := by
  unfold validate
  cases w.offence? <;> simp [eq_comm]

theorem validate_eq_error_iff {error : DefinitionError} :
    w.validate = .error error ↔ ∃ offence, w.offence? = some offence ∧ error = offence.toError := by
  unfold validate
  cases w.offence? <;> simp [eq_comm]

end Workflow

end WorkflowEngine
