import WorkflowEngine.Proofs.Interleaving

/-!
# Taking turns

What a flow does between two of its pauses it does alone, and it can be said at once: bindings that
it may not write stay as they are, and its turf grows only by contexts that were not there before
(`Turf.Acts`). So flows with turfs apart from each other do not disturb one another when they take
turns: after a turn of one of them, the others are as ready to go on as before (`Turfs.act`).
-/

namespace WorkflowEngine

namespace Turf

variable {t t' u : Turf} {s s' : Store}

/-! ## What a flow has done by itself -/

/-- The contexts that a turf speaks of are there. -/
def Fits (t : Turf) (s : Store) : Prop := ∀ h key, t.dep h key ∨ t.own h key → s.Valid h

/-- Only bindings that may be written have changed, and the turf has grown by new contexts. -/
structure Acts (t : Turf) (s : Store) (t' : Turf) (s' : Store) : Prop where
  inside : t.Inside t'
  valid : ∀ h, s.Valid h → s'.Valid h
  same : ∀ h key, s.Valid h → ¬t.own h key → (s'.view h).get? key = (s.view h).get? key
  dep : ∀ h key, t'.dep h key → t.dep h key ∨ (¬s.Valid h ∧ s'.Valid h)
  own : ∀ h key, t'.own h key → t.own h key ∨ (¬s.Valid h ∧ s'.Valid h)

theorem Acts.refl (t : Turf) (s : Store) : t.Acts s t s :=
  ⟨.refl t, fun _ => id, fun _ _ _ _ => rfl, fun _ _ => .inl, fun _ _ => .inl⟩

theorem Acts.trans {t'' : Turf} {s'' : Store} (h : t.Acts s t' s') (h' : t'.Acts s' t'' s'') :
    t.Acts s t'' s'' where
  inside := h.inside.trans h'.inside
  valid k hk := h'.valid k (h.valid k hk)
  same k key hk hown := by
    have hown' : ¬t'.own k key := fun hk' =>
      (h.own k key hk').elim hown fun hnew => hnew.1 hk
    rw [h'.same k key (h.valid k hk) hown', h.same k key hk hown]
  dep k key hdep := by
    rcases h'.dep k key hdep with hdep | ⟨hnew, hthere⟩
    · exact (h.dep k key hdep).imp_right fun hnew => ⟨hnew.1, h'.valid k hnew.2⟩
    · exact .inr ⟨fun hk => hnew (h.valid k hk), hthere⟩
  own k key hown := by
    rcases h'.own k key hown with hown | ⟨hnew, hthere⟩
    · exact (h.own k key hown).imp_right fun hnew => ⟨hnew.1, h'.valid k hnew.2⟩
    · exact .inr ⟨fun hk => hnew (h.valid k hk), hthere⟩

theorem Acts.fits (h : t.Acts s t' s') (ht : t.Fits s) : t'.Fits s' := by
  intro k key hk
  rcases hk with hdep | hown
  · exact (h.dep k key hdep).elim (fun hd => h.valid k (ht k key (.inl hd))) And.right
  · exact (h.own k key hown).elim (fun ho => h.valid k (ht k key (.inr ho))) And.right

/-- Others are not disturbed in what they rely on. -/
theorem Acts.rely (h : t.Acts s t' s') (hapart : ∀ k key, t.own k key → ¬u.dep k key) :
    u.Rely s s' where
  valid := h.valid
  same k key hk hdep := h.same k key hk fun hown => hapart k key hown hdep

theorem acts_update {h : Handle} {key : String} (hown : t.own h key) {f : Bindings → Bindings}
    (hf : ∀ b k, k ≠ key → (f b).get? k = b.get? k) : t.Acts s t (s.update h f) where
  inside := .refl t
  valid _ := Store.valid_update.2
  same k k' hk hnot := by
    by_cases heq : k = h
    · subst heq
      rw [Store.view_update_self hk]
      refine hf _ _ fun hkey => hnot ?_
      rw [hkey]
      exact hown
    · rw [Store.view_update_of_ne heq]
  dep _ _ := .inl
  own _ _ := .inl

/-- What an action does that is allowed. -/
theorem acts_perform (ans : Query → Value) {a : Action} (ha : t.Allows a) :
    t.Acts s (t.after a (s.perform ans a).1) (s.perform ans a).2 := by
  cases a with
  | bind h key value => exact acts_update ha fun b k hne => Record.get?_insert_of_ne hne
  | unbind h key =>
    refine acts_update ha fun b k hne => ?_
    rw [Record.get?_erase, if_neg hne]
  | create b =>
    have hnew : ∀ k : Handle, k = (s.create b).1 → ¬s.Valid k ∧ (s.create b).2.Valid k := by
      rintro k rfl
      exact ⟨Store.not_valid_create, Store.valid_create.2 (.inr rfl)⟩
    refine ⟨t.inside_adding _, fun _ hk => Store.valid_create.2 (.inl hk), ?_, ?_, ?_⟩
    · intro k key hk _
      exact congrArg (·.get? key) (Store.view_create_of_valid hk b)
    · exact fun k _ hdep => hdep.symm.imp_right (hnew k)
    · exact fun k _ hown => hown.symm.imp_right (hnew k)
  | _ => exact .refl t s

end Turf

/-! ## Several turfs -/

/-- The same for each flow but one. -/
def setAt {β : Type} (f : Nat → β) (i : Nat) (b : β) : Nat → β := fun j => if j = i then b else f j

theorem setAt_self {β : Type} (f : Nat → β) (i : Nat) (b : β) : setAt f i b i = b := if_pos rfl

theorem setAt_of_ne {β : Type} (f : Nat → β) {i j : Nat} (h : j ≠ i) (b : β) :
    setAt f i b j = f j := if_neg h

/-- Turfs of several flows, apart from each other, inside the turf of the whole. -/
structure Turfs (base turf : Nat → Turf) (T : Turf) (s : Store) : Prop where
  base : ∀ i, (base i).Inside (turf i)
  inside : ∀ i, (turf i).Inside T
  fits : ∀ i, (turf i).Fits s
  apart : ∀ i j, i ≠ j → ∀ h key, (turf i).own h key → ¬(turf j).dep h key

namespace Turfs

variable {base turf : Nat → Turf} {T T' t' : Turf} {s s' : Store}

theorem rely (h : Turfs base turf T s) (hrely : T.Rely s s') : Turfs base turf T s' :=
  { h with fits := fun i k key hk => hrely.valid k (h.fits i k key hk) }

theorem rely_of_ne (h : Turfs base turf T s) {i j : Nat} (hacts : (turf i).Acts s t' s')
    (hne : j ≠ i) : (turf j).Rely s s' :=
  hacts.rely (h.apart i j (Ne.symm hne))

/-- **After a turn the turfs are apart as before.** What is new in one of them was not there, so it
is in none of the others. -/
theorem act (h : Turfs base turf T s) {i : Nat} (hacts : (turf i).Acts s t' s')
    (ht' : t'.Inside T') (hT : T.Inside T') : Turfs base (setAt turf i t') T' s' where
  base j := by
    by_cases hj : j = i
    · subst hj
      rw [setAt_self]
      exact (h.base j).trans hacts.inside
    · rw [setAt_of_ne turf hj]
      exact h.base j
  inside j := by
    by_cases hj : j = i
    · subst hj
      rw [setAt_self]
      exact ht'
    · rw [setAt_of_ne turf hj]
      exact (h.inside j).trans hT
  fits j := by
    by_cases hj : j = i
    · subst hj
      rw [setAt_self]
      exact hacts.fits (h.fits j)
    · rw [setAt_of_ne turf hj]
      exact fun k key hk => hacts.valid k (h.fits j k key hk)
  apart j k hjk := by
    by_cases hj : j = i
    · subst hj
      have hk : k ≠ j := Ne.symm hjk
      rw [setAt_self, setAt_of_ne turf hk]
      intro c key hown hdep
      rcases hacts.own c key hown with hown | ⟨hnew, -⟩
      · exact h.apart j k hjk c key hown hdep
      · exact hnew (h.fits k c key (.inl hdep))
    · by_cases hk : k = i
      · subst hk
        rw [setAt_self, setAt_of_ne turf hj]
        intro c key hown hdep
        rcases hacts.dep c key hdep with hdep | ⟨hnew, -⟩
        · exact h.apart j k hjk c key hown hdep
        · exact hnew (h.fits j c key (.inr hown))
      · rw [setAt_of_ne turf hj, setAt_of_ne turf hk]
        exact h.apart j k hjk

end Turfs

/-! ## Stretches -/

namespace Budget

/-- A budget without pauses. -/
def bare : Budget → Budget
  | none => none
  | some _ => some 0

/-- At least one pause less. -/
def Less (m n : Budget) : Prop := ∃ n', n.Spends n' ∧ m.Le n'

variable {m n : Budget}

@[simp] theorem bare_add_bare (m : Budget) : m.bare.add m.bare = m.bare := by cases m <;> rfl

theorem Le.bare (h : m.Le n) : m.bare.Le n.bare := by
  cases h with
  | unlimited => exact .unlimited _
  | some _ => exact .some (Nat.le_refl 0)

theorem Le.trans {k : Budget} (h : m.Le n) (h' : n.Le k) : m.Le k := by
  cases h' with
  | unlimited => exact .unlimited _
  | some h' =>
    cases h with
    | some h => exact .some (Nat.le_trans h h')

theorem Spends.le {n' : Budget} (h : n.Spends n') : n'.Le n := by
  cases h with
  | unlimited => exact .unlimited _
  | one k => exact .some (Nat.le_succ k)

theorem Less.le (h : m.Less n) : m.Le n := by
  obtain ⟨n', hn, hle⟩ := h
  exact hle.trans hn.le

theorem add_comm (m n : Budget) : m.add n = n.add m := by
  cases m <;> cases n <;> simp [add, Nat.add_comm]

theorem add_left_comm (m n k : Budget) : m.add (n.add k) = n.add (m.add k) := by
  cases m <;> cases n <;> cases k <;> simp [add, Nat.add_left_comm]

theorem le_add_right (m n : Budget) : m.Le (m.add n) := by
  rw [add_comm]
  exact le_add_left n m

theorem bare_add (m : Budget) : m.bare.add m = m := by
  cases m with
  | none => rfl
  | some k => exact congrArg some (Nat.zero_add k)

theorem add_bare (m : Budget) : m.add m.bare = m := by rw [add_comm, bare_add]

theorem Less.trans_le {k : Budget} (h : m.Less n) (h' : n.Le k) : m.Less k := by
  obtain ⟨n', hn, hle⟩ := h
  obtain ⟨k', hk, hle'⟩ := h'.spends hn
  exact ⟨k', hk, hle.trans hle'⟩

end Budget

namespace Flow

variable {α β : Type} {ans : Query → Value} {Q : Turf → α → Store → Prop} {f : Flow α}
  {m n : Budget} {t T : Turf} {s s' : Store}

/-- Whatever others do first, the flow settles. -/
def Ready (ans : Query → Value) (Q : Turf → α → Store → Prop) (f : Flow α) (m : Budget) (t : Turf)
    (s : Store) : Prop := ∀ s', t.Rely s s' → f.Settles ans Q m t s'

theorem Ready.rely (h : f.Ready ans Q m t s) (hs : t.Rely s s') : f.Ready ans Q m t s' :=
  fun _ hs' => h _ (hs.trans hs')

theorem Ready.now (h : f.Ready ans Q m t s) : f.Settles ans Q m t s := h s (.refl t s)

/-- What comes of a stretch of a flow: a result, or a flow that is ready and has paused once. -/
def Comes (ans : Query → Value) (Q : Turf → α → Store → Prop) (m : Budget) (t : Turf) (s : Store) :
    Stretch α → Prop
  | .settled a => Q t a s
  | .suspended rest => ∃ m', m.Spends m' ∧ rest.Ready ans Q m' t s

/-- **A stretch of a flow.** It is done alone, in a turf inside that of the whole. -/
theorem Settles.advance (h : f.Settles ans Q m t s) (hle : t.Inside T) :
    f.advance.Settles ans (fun T' x s' => T.Inside T' ∧ ∃ t', t'.Inside T' ∧ t.Acts s t' s' ∧
      Comes ans Q m t' s' x) m.bare T s := by
  induction f generalizing t T s with
  | done r =>
    cases r with
    | ok a => exact ⟨.refl T, t, hle, .refl t s, h⟩
    | error e =>
      have hm : m = none := h
      rw [hm]
      exact rfl
  | starved =>
    have hm : m = none := h
    rw [hm]
    exact rfl
  | pause rest _ => exact ⟨.refl T, t, hle, .refl t s, h⟩
  | act a next ih =>
    refine ⟨hle.allows h.1, (ih _ h.2 (hle.after a _)).mono fun T' x s' hx => ?_⟩
    obtain ⟨hT, t', ht', hacts, hcomes⟩ := hx
    exact ⟨(T.inside_after a _).trans hT, t', ht', (Turf.acts_perform ans h.1).trans hacts, hcomes⟩

theorem Settles.bind_bare {R : Turf → β → Store → Prop} {k : α → Flow β}
    (h : f.Settles ans Q m.bare t s)
    (hk : ∀ u a s', t.Inside u → Q u a s' → (k a).Settles ans R m.bare u s') :
    (f.bind k).Settles ans R m.bare t s := by
  have hbind := h.bind hk
  rwa [Budget.bare_add_bare] at hbind

/-- Sequencing with a first part that does not pause. -/
theorem Settles.bind_first {R : Turf → β → Store → Prop} {k : α → Flow β}
    (h : f.Settles ans Q m.bare t s)
    (hk : ∀ u a s', t.Inside u → Q u a s' → (k a).Settles ans R m u s') :
    (f.bind k).Settles ans R m t s := by
  have hbind := h.bind hk
  rwa [Budget.bare_add] at hbind

/-- Sequencing with a last part that does not pause. -/
theorem Settles.bind_last {R : Turf → β → Store → Prop} {k : α → Flow β}
    (h : f.Settles ans Q m t s)
    (hk : ∀ u a s', t.Inside u → Q u a s' → (k a).Settles ans R m.bare u s') :
    (f.bind k).Settles ans R m t s := by
  have hbind := h.bind hk
  rwa [Budget.add_bare] at hbind

end Flow

/-! ## What a flow leaves as it is -/

/-- What is relied on and may not be written stays as it is. -/
structure Turf.Keeps (t : Turf) (s s' : Store) : Prop where
  valid : ∀ h, s.Valid h → s'.Valid h
  same : ∀ h key, s.Valid h → t.dep h key → ¬t.own h key →
    (s'.view h).get? key = (s.view h).get? key

variable {α : Type} {ans : Query → Value} {Q : Turf → α → Store → Prop} {f : Flow α} {m : Budget}
  {t t' : Turf} {s : Store}

/-- **Frames.** Neither the flow nor others write what it only relies on. -/
theorem Flow.Settles.keeps (h : f.Settles ans Q m t s) :
    f.Settles ans (fun u a s' => Q u a s' ∧ t.Inside u ∧ t.Keeps s s') m t s := by
  suffices hall : ∀ u s', t.Inside u → (∀ c key, s.Valid c → u.own c key → t.own c key) →
      t.Keeps s s' → f.Settles ans Q m u s' →
      f.Settles ans (fun u a s' => Q u a s' ∧ t.Inside u ∧ t.Keeps s s') m u s' from
    hall t s (.refl t) (fun _ _ _ => id) ⟨fun _ => id, fun _ _ _ _ _ => rfl⟩ h
  clear h
  intro u s' hu hown hkeeps h
  induction f generalizing m u s' with
  | done r =>
    cases r with
    | ok a => exact ⟨h, hu, hkeeps⟩
    | error e => exact h
  | starved => exact h
  | pause rest ih =>
    obtain ⟨m', hm, hrest⟩ := h
    refine ⟨m', hm, fun s'' hs => ih () u s'' hu hown ⟨?_, ?_⟩ (hrest s'' hs)⟩
    · exact fun c hc => hs.valid c (hkeeps.valid c hc)
    · intro c key hc hdep hnot
      rw [hs.same c key (hkeeps.valid c hc) (hu.dep c key hdep), hkeeps.same c key hc hdep hnot]
  | act a next ih =>
    have hacts := Turf.acts_perform ans (s := s') h.1
    refine ⟨h.1, ih _ _ _ (hu.trans hacts.inside) ?_ ⟨?_, ?_⟩ h.2⟩
    · intro c key hc hnew
      refine hown c key hc ((hacts.own c key hnew).resolve_right fun hn => ?_)
      exact hn.1 (hkeeps.valid c hc)
    · exact fun c hc => hacts.valid c (hkeeps.valid c hc)
    · intro c key hc hdep hnot
      rw [hacts.same c key (hkeeps.valid c hc) fun ho => hnot (hown c key hc ho),
        hkeeps.same c key hc hdep hnot]

/-- A flow that settles in a smaller turf keeps what it only relies on there. -/
theorem Flow.Settles.framed (h : f.Settles ans Q m t s) (ht : t.Inside t') :
    f.Settles ans (fun u a s' => (∃ v, v.Inside u ∧ Q v a s') ∧ t.Inside u ∧ t.Keeps s s') m t' s :=
  (h.keeps.inside ht).mono fun _ _ _ ⟨v, hv, hq, hinside, hkeeps⟩ =>
    ⟨⟨v, hv, hq⟩, hinside.trans hv, hkeeps⟩

end WorkflowEngine
