import WorkflowEngine.Path
import WorkflowEngine.Runner

/-!
# The keys that an op reads and writes

An op tree is made of loops, of groups and of other ops, its leaves. Of a leaf it is given which
keys of its context it reads and writes. From that follows what a whole tree may read and write in
the context in which it is executed (`Op.MayRead`, `Op.MayBind`). A group that works in a copy of
its context reads no key there that one of its ops has bound before; and so with the body of a
loop, but where others work in the context at the same time, the reserved name does not stay as it
was bound.

Ops are *apart* (`Op.Apart`) if none of them reads or writes what another writes, the reserved name
excepted, which all of them write and none of them may read.
-/

namespace WorkflowEngine

namespace Path

/-- The name with which a path begins. -/
def head? (path : String) : Option String := (segments path).head?

end Path

/-- What a path leads to depends on what its first name is bound to. -/
theorem Bindings.lookup_congr {b c : Bindings} {path : String}
    (h : ∀ key, Path.head? path = some key → b.get? key = c.get? key) :
    b.lookup path = c.lookup path := by
  unfold lookup
  cases hpath : Path.segments path with
  | nil => rfl
  | cons key rest =>
    have hhead : Path.head? path = some key := by rw [Path.head?, hpath]; rfl
    show (b.get? key).bind _ = (c.get? key).bind _
    rw [h key hhead]

namespace Op

/-- The kinds of groups. -/
def groupKinds : List String := ["sequential", "parallel", "map"]

/-- Neither a loop nor of a kind of groups. -/
def IsLeaf (op : Op) : Prop := LoopMode.ofKind? op.kind = none ∧ op.kind ∉ groupKinds

instance (op : Op) : Decidable op.IsLeaf := by unfold IsLeaf; infer_instance

theorem isLeaf_or (op : Op) : (∃ mode, LoopMode.ofKind? op.kind = some mode) ∨ op.IsLeaf ∨
    op.kind = "sequential" ∨ op.kind = "parallel" ∨ op.kind = "map" := by
  cases hmode : LoopMode.ofKind? op.kind with
  | some mode => exact .inl ⟨mode, rfl⟩
  | none =>
    by_cases hkind : op.kind ∈ groupKinds
    · exact .inr (.inr (by simpa [groupKinds] using hkind))
    · exact .inr (.inl ⟨hmode, hkind⟩)

/-! ## Keys -/

/-- The keys that are bound in the context of an op whenever the op has come to a result. -/
inductive Binds : Op → String → Prop
  | output {op : Op} : LoopMode.ofKind? op.kind = none → Binds op Bindings.outputKey
  | binding {op : Op} {name : String} :
      LoopMode.ofKind? op.kind = none → op.outputBinding = some name → Binds op name
  | branch {op inner : Op} {ops : List Op} {key : String} :
      op.kind = "parallel" → op.innerOps = .ok ops → inner ∈ ops → Binds inner key → Binds op key

/-- Whether a key stays as it is bound: always, in a context in which nobody else works. -/
def Stays (alone : Bool) (key : String) : Prop := alone = true ∨ key ≠ Bindings.outputKey

section

variable (reads writes : Op → String → Prop)

/-- The keys that an op may bind or unbind in its context, if these are those of its leaves. -/
inductive MayBind : Op → String → Prop
  | output {op : Op} : LoopMode.ofKind? op.kind = none → MayBind op Bindings.outputKey
  | binding {op : Op} {name : String} :
      LoopMode.ofKind? op.kind = none → op.outputBinding = some name → MayBind op name
  | leaf {op : Op} {key : String} : op.IsLeaf → writes op key → MayBind op key
  | inner {op inner : Op} {ops : List Op} {key : String} :
      op.kind = "parallel" ∨ (LoopMode.ofKind? op.kind).isSome → op.innerOps = .ok ops →
      inner ∈ ops → MayBind inner key → MayBind op key

/-- The keys of its context that an op may read, if these are those of its leaves, alone in the
context or not. -/
inductive MayRead : Bool → Op → String → Prop
  | leaf {alone : Bool} {op : Op} {key : String} : op.IsLeaf → reads op key → MayRead alone op key
  | condition {alone : Bool} {op : Op} {mode : LoopMode} {path key : String} :
      LoopMode.ofKind? op.kind = some mode → op.requireText "condition" = .ok path →
      Path.head? path = some key → MayRead alone op key
  | body {alone : Bool} {op inner : Op} {mode : LoopMode} {before after : List Op} {key : String} :
      LoopMode.ofKind? op.kind = some mode → op.innerOps = .ok (before ++ inner :: after) →
      MayRead alone inner key → (∀ o ∈ before, o.Binds key → ¬Stays alone key) →
      MayRead alone op key
  | branch {alone : Bool} {op inner : Op} {ops : List Op} {key : String} :
      op.kind = "parallel" → op.innerOps = .ok ops → inner ∈ ops → MayRead false inner key →
      MayRead alone op key
  | sequence {alone : Bool} {op inner : Op} {before after : List Op} {key : String} :
      op.kind = "sequential" → op.innerOps = .ok (before ++ inner :: after) →
      MayRead true inner key → (∀ o ∈ before, o.Binds key → ¬Stays true key) → MayRead alone op key
  | input {alone : Bool} {op : Op} {path key : String} :
      op.kind = "map" → op.requireText "inputKey" = .ok path → Path.head? path = some key →
      MayRead alone op key
  /-- What is bound in each copy before the first of its ops is not read from the context. -/
  | item {alone : Bool} {op inner : Op} {name : Option String} {before after : List Op}
      {key : String} :
      op.kind = "map" → op.textParam "itemVariable" = .ok name →
      op.innerOps = .ok (before ++ inner :: after) → MayRead true inner key →
      (∀ o ∈ before, o.Binds key → ¬Stays true key) → key ≠ Bindings.outputKey →
      key ≠ name.getD "item" → MayRead alone op key

/-- The keys that ops may read when they are executed one after another. -/
def ListReads (alone : Bool) (ops : List Op) (key : String) : Prop :=
  ∃ before inner after, ops = before ++ inner :: after ∧ MayRead reads alone inner key ∧
    ∀ o ∈ before, o.Binds key → ¬Stays alone key

/-- The `i`-th op reads only keys in `R i` and writes only keys in `W i` and the reserved name, and
no key that one of them writes is read or written by another. -/
structure Apart (ops : List Op) (R W : Nat → String → Prop) : Prop where
  read : ∀ i op key, ops[i]? = some op → MayRead reads false op key → R i key
  write : ∀ i op key, ops[i]? = some op → MayBind writes op key → W i key ∨ key = Bindings.outputKey
  output : ∀ i, ¬R i Bindings.outputKey
  apart : ∀ i j key, i ≠ j → W j key → ¬R i key ∧ ¬W i key

/-- The keys on which an op relies in a context in which others work, too. -/
def Uses (op : Op) (key : String) : Prop :=
  MayRead reads false op key ∨ (MayBind writes op key ∧ key ≠ Bindings.outputKey)

/-- The ops of which an op tree is made. -/
inductive Holds : Op → Op → Prop
  | self (op : Op) : Holds op op
  | inner {op inner o : Op} {ops : List Op} :
      ¬op.IsLeaf → op.innerOps = .ok ops → inner ∈ ops → Holds inner o → Holds op o

/-- The branches of every parallel op in an op tree are apart. -/
def RaceFree (op : Op) : Prop :=
  ∀ o ops, Holds op o → o.kind = "parallel" → o.innerOps = .ok ops →
    ∃ R W, Apart reads writes ops R W

/-! ## Ops that fit into a context -/

variable (scripted : Op → Prop)

/-- The leaves of an op tree are executed by scripts, and the branches in it are apart. -/
structure Tame (op : Op) : Prop where
  scripted : ∀ o, Holds op o → o.IsLeaf → scripted o
  raceFree : RaceFree reads writes op

/-- An op that does no harm: it reads only what is known, and writes only what it may. -/
structure Fits (alone : Bool) (known may : String → Prop) (op : Op) : Prop where
  read : ∀ key, MayRead reads alone op key → known key
  write : ∀ key, MayBind writes op key → may key
  tame : Tame reads writes scripted op

/-- Ops that do no harm when they are executed one after another. -/
structure ListFits (alone : Bool) (known may : String → Prop) (ops : List Op) : Prop where
  read : ∀ key, ListReads reads alone ops key → known key
  write : ∀ op ∈ ops, ∀ key, MayBind writes op key → may key
  tame : ∀ op ∈ ops, Tame reads writes scripted op

end

/-- What is known after an op. -/
def knownAfter (alone : Bool) (known : String → Prop) (op : Op) (key : String) : Prop :=
  known key ∨ (op.Binds key ∧ Stays alone key)

variable {reads writes : Op → String → Prop} {scripted : Op → Prop} {alone : Bool}
  {known may : String → Prop} {op : Op} {ops : List Op}

theorem kind_parallel_loop (h : op.kind = "parallel") : LoopMode.ofKind? op.kind = none := by
  rw [h]
  rfl

/-- What an op binds it may bind. -/
theorem Binds.mayBind {key : String} (h : op.Binds key) : MayBind writes op key := by
  induction h with
  | output hloop => exact .output hloop
  | binding hloop hname => exact .binding hloop hname
  | branch hkind hops hinner _ ih => exact .inner (.inl hkind) hops hinner ih

theorem not_binds_of_loop {mode : LoopMode} {key : String}
    (hmode : LoopMode.ofKind? op.kind = some mode) : ¬op.Binds key := by
  intro h
  cases h with
  | output hloop => rw [hmode] at hloop; cases hloop
  | binding hloop _ => rw [hmode] at hloop; cases hloop
  | branch hkind _ _ _ =>
    rw [kind_parallel_loop hkind] at hmode
    cases hmode

theorem Tame.inner {inner : Op} (h : Tame reads writes scripted op) (hleaf : ¬op.IsLeaf)
    (hops : op.innerOps = .ok ops) (hinner : inner ∈ ops) : Tame reads writes scripted inner where
  scripted o ho := h.scripted o (.inner hleaf hops hinner ho)
  raceFree o os ho := h.raceFree o os (.inner hleaf hops hinner ho)

theorem not_isLeaf_of_group (h : op.kind ∈ groupKinds) : ¬op.IsLeaf := fun hleaf => hleaf.2 h

theorem not_isLeaf_of_loop {mode : LoopMode} (h : LoopMode.ofKind? op.kind = some mode) :
    ¬op.IsLeaf := fun hleaf => by
  rw [hleaf.1] at h
  cases h

/-! ## What ops of a kind read and write -/

theorem MayRead.of_isLeaf {key : String} (h : MayRead reads alone op key) (hleaf : op.IsLeaf) :
    reads op key := by
  have hgroup : ∀ kind ∈ groupKinds, op.kind ≠ kind := fun kind hkind heq =>
    hleaf.2 (heq ▸ hkind)
  cases h with
  | leaf _ h => exact h
  | condition hmode _ _ => exact absurd hleaf (not_isLeaf_of_loop hmode)
  | body hmode _ _ _ => exact absurd hleaf (not_isLeaf_of_loop hmode)
  | branch hkind _ _ _ => exact absurd hkind (hgroup _ (by decide))
  | sequence hkind _ _ _ => exact absurd hkind (hgroup _ (by decide))
  | input hkind _ _ => exact absurd hkind (hgroup _ (by decide))
  | item hkind _ _ _ _ _ _ => exact absurd hkind (hgroup _ (by decide))

theorem MayBind.of_isLeaf {key : String} (h : MayBind writes op key) (hleaf : op.IsLeaf) :
    key = Bindings.outputKey ∨ op.outputBinding = some key ∨ writes op key := by
  cases h with
  | output _ => exact .inl rfl
  | binding _ hname => exact .inr (.inl hname)
  | leaf _ h => exact .inr (.inr h)
  | inner hkind _ _ _ =>
    rcases hkind with hkind | hmode
    · exact absurd hleaf (not_isLeaf_of_group (by rw [hkind]; decide))
    · rw [hleaf.1] at hmode
      cases hmode

theorem MayRead.of_parallel {key : String} (h : MayRead reads alone op key)
    (hkind : op.kind = "parallel") (hops : op.innerOps = .ok ops) :
    ∃ inner ∈ ops, MayRead reads false inner key := by
  have hmode : ∀ mode, LoopMode.ofKind? op.kind ≠ some mode := by simp [kind_parallel_loop hkind]
  cases h with
  | leaf hleaf _ => exact absurd hleaf (not_isLeaf_of_group (by rw [hkind]; decide))
  | condition h _ _ => exact absurd h (hmode _)
  | body h _ _ _ => exact absurd h (hmode _)
  | branch _ hops' hinner h =>
    cases hops.symm.trans hops'
    exact ⟨_, hinner, h⟩
  | sequence h _ _ _ => exact absurd (hkind.symm.trans h) (by decide)
  | input h _ _ => exact absurd (hkind.symm.trans h) (by decide)
  | item h _ _ _ _ _ _ => exact absurd (hkind.symm.trans h) (by decide)

theorem MayBind.of_parallel {key : String} (h : MayBind writes op key)
    (hkind : op.kind = "parallel") (hops : op.innerOps = .ok ops) :
    key = Bindings.outputKey ∨ op.outputBinding = some key ∨
      ∃ inner ∈ ops, MayBind writes inner key := by
  cases h with
  | output _ => exact .inl rfl
  | binding _ hname => exact .inr (.inl hname)
  | leaf hleaf _ => exact absurd hleaf (not_isLeaf_of_group (by rw [hkind]; decide))
  | inner _ hops' hinner h =>
    cases hops.symm.trans hops'
    exact .inr (.inr ⟨_, hinner, h⟩)

/-- Ops of which no two use the same key are apart. -/
theorem Apart.of_uses (houtput : ∀ op ∈ ops, ¬MayRead reads false op Bindings.outputKey)
    (hdisjoint : ops.Pairwise fun o o' =>
      ∀ key, Uses reads writes o key → ¬Uses reads writes o' key) :
    Apart reads writes ops (fun i key => ∃ o, ops[i]? = some o ∧ Uses reads writes o key)
      (fun i key => ∃ o, ops[i]? = some o ∧ Uses reads writes o key) where
  read i op key hop hread := ⟨op, hop, .inl hread⟩
  write i op key hop hbind := by
    by_cases hkey : key = Bindings.outputKey
    · exact .inr hkey
    · exact .inl ⟨op, hop, .inr ⟨hbind, hkey⟩⟩
  output := by
    rintro i ⟨o, ho, hread | ⟨-, hne⟩⟩
    · exact houtput o (List.mem_of_getElem? ho) hread
    · exact hne rfl
  apart := by
    rintro i j key hij ⟨o', ho', huse'⟩
    suffices hnot : ¬∃ o, ops[i]? = some o ∧ Uses reads writes o key from ⟨hnot, hnot⟩
    rintro ⟨o, ho, huse⟩
    obtain ⟨hi, rfl⟩ := List.getElem?_eq_some_iff.1 ho
    obtain ⟨hj, rfl⟩ := List.getElem?_eq_some_iff.1 ho'
    rcases Nat.lt_or_gt_of_ne hij with hlt | hlt
    · exact List.pairwise_iff_getElem.1 hdisjoint i j hi hj hlt key huse huse'
    · exact List.pairwise_iff_getElem.1 hdisjoint j i hj hi hlt key huse' huse

theorem Holds.eq_of_isLeaf {o : Op} (h : op.Holds o) (hleaf : op.IsLeaf) : o = op := by
  cases h with
  | self => rfl
  | inner hnot _ _ _ => exact absurd hleaf hnot

theorem Holds.eq_or_inner {o : Op} (h : op.Holds o) (hops : op.innerOps = .ok ops) :
    o = op ∨ ∃ inner ∈ ops, inner.Holds o := by
  cases h with
  | self => exact .inl rfl
  | inner _ hops' hinner h =>
    cases hops.symm.trans hops'
    exact .inr ⟨_, hinner, h⟩

theorem RaceFree.of_isLeaf (hleaf : op.IsLeaf) : RaceFree reads writes op := by
  intro o os hheld hkind _
  rw [hheld.eq_of_isLeaf hleaf] at hkind
  exact absurd hleaf (not_isLeaf_of_group (by rw [hkind]; decide))

/-- Branches that are apart and free of races make a parallel op that is so. -/
theorem RaceFree.of_apart {R W : Nat → String → Prop} (hops : op.innerOps = .ok ops)
    (hapart : Apart reads writes ops R W) (hinner : ∀ inner ∈ ops, RaceFree reads writes inner) :
    RaceFree reads writes op := by
  intro o os hheld hkind hos
  rcases hheld.eq_or_inner hops with rfl | ⟨inner, hmem, hheld⟩
  · cases hops.symm.trans hos
    exact ⟨R, W, hapart⟩
  · exact hinner inner hmem o os hheld hkind hos

namespace ListFits

theorem mono {more : String → Prop} (h : ListFits reads writes scripted alone known may ops)
    (hle : ∀ key, known key → more key) : ListFits reads writes scripted alone more may ops :=
  { h with read := fun key hk => hle key (h.read key hk) }

theorem head {rest : List Op} (h : ListFits reads writes scripted alone known may (op :: rest)) :
    Fits reads writes scripted alone known may op where
  read key hk := h.read key ⟨[], op, rest, rfl, hk, fun _ ho => nomatch ho⟩
  write := h.write op (List.mem_cons_self ..)
  tame := h.tame op (List.mem_cons_self ..)

theorem tail {rest : List Op} (h : ListFits reads writes scripted alone known may (op :: rest)) :
    ListFits reads writes scripted alone (op.knownAfter alone known) may rest where
  read key hk := by
    obtain ⟨before, inner, after, rfl, hread, hbound⟩ := hk
    by_cases hop : op.Binds key ∧ Stays alone key
    · exact .inr hop
    · refine .inl (h.read key
        ⟨op :: before, inner, after, rfl, hread, fun o ho hbinds hstays => ?_⟩)
      rcases List.mem_cons.1 ho with rfl | ho
      · exact hop ⟨hbinds, hstays⟩
      · exact hbound o ho hbinds hstays
  write o ho := h.write o (List.mem_cons_of_mem _ ho)
  tame o ho := h.tame o (List.mem_cons_of_mem _ ho)

theorem tail_of_loop {rest : List Op} {mode : LoopMode}
    (h : ListFits reads writes scripted alone known may (op :: rest))
    (hmode : LoopMode.ofKind? op.kind = some mode) :
    ListFits reads writes scripted alone known may rest :=
  h.tail.mono fun _ hk => hk.resolve_right fun hbinds => not_binds_of_loop hmode hbinds.1

end ListFits

theorem Fits.singleton (h : Fits reads writes scripted alone known may op) :
    ListFits reads writes scripted alone known may [op] where
  read key hk := by
    obtain ⟨before, inner, after, heq, hread, -⟩ := hk
    cases before with
    | nil =>
      obtain ⟨rfl, -⟩ := List.cons.inj heq
      exact h.read key hread
    | cons o before =>
      have hlength := congrArg List.length heq
      simp at hlength
  write o ho := by
    rw [List.mem_singleton.1 ho]
    exact h.write
  tame o ho := by
    rw [List.mem_singleton.1 ho]
    exact h.tame

namespace Fits

theorem body {mode : LoopMode} (h : Fits reads writes scripted alone known may op)
    (hmode : LoopMode.ofKind? op.kind = some mode) (hops : op.innerOps = .ok ops) :
    ListFits reads writes scripted alone known may ops where
  read key hk := by
    obtain ⟨before, inner, after, rfl, hread, hbound⟩ := hk
    exact h.read key (.body hmode hops hread hbound)
  write o ho key hk := h.write key (.inner (.inr (by rw [hmode]; rfl)) hops ho hk)
  tame o ho := h.tame.inner (not_isLeaf_of_loop hmode) hops ho

/-- The ops of `sequential` have a context of their own, in which they may do what they like. -/
theorem sequence (h : Fits reads writes scripted alone known may op)
    (hkind : op.kind = "sequential") (hops : op.innerOps = .ok ops) :
    ListFits reads writes scripted true known (fun _ => True) ops where
  read key hk := by
    obtain ⟨before, inner, after, rfl, hread, hbound⟩ := hk
    exact h.read key (.sequence hkind hops hread hbound)
  write _ _ _ _ := trivial
  tame o ho :=
    h.tame.inner (not_isLeaf_of_group (by rw [hkind]; decide)) hops ho

/-- The ops of `map` have a context of their own for each item, and there they know the item. -/
theorem item {name : Option String} (h : Fits reads writes scripted alone known may op)
    (hkind : op.kind = "map") (hname : op.textParam "itemVariable" = .ok name)
    (hops : op.innerOps = .ok ops) :
    ListFits reads writes scripted true
      (fun key => (known key ∨ key = name.getD "item") ∨ key = Bindings.outputKey) (fun _ => True)
      ops where
  read key hk := by
    obtain ⟨before, inner, after, rfl, hread, hbound⟩ := hk
    by_cases hitem : key = name.getD "item"
    · exact .inl (.inr hitem)
    · by_cases houtput : key = Bindings.outputKey
      · exact .inr houtput
      · exact .inl (.inl (h.read key (.item hkind hname hops hread hbound houtput hitem)))
  write _ _ _ _ := trivial
  tame o ho :=
    h.tame.inner (not_isLeaf_of_group (by rw [hkind]; decide)) hops ho

/-- A branch knows only keys that no other branch writes. -/
theorem branch (h : Fits reads writes scripted alone known may op) (hkind : op.kind = "parallel")
    (hops : op.innerOps = .ok ops) {o : Op} (ho : o ∈ ops) :
    Fits reads writes scripted false (fun key => known key ∧ Uses reads writes o key)
      (MayBind writes o) o where
  read key hk := ⟨h.read key (.branch hkind hops ho hk), .inl hk⟩
  write _ := id
  tame := h.tame.inner (not_isLeaf_of_group (by rw [hkind]; decide)) hops ho

end Fits

end Op

end WorkflowEngine
