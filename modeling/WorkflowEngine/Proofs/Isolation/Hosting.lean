import WorkflowEngine.Proofs.Conduct
import WorkflowEngine.Proofs.Isolation.Mirrors

/-!
# Flows that host another

A fan-out takes its tasks on stretch by stretch, and does other things in between. Seen from one of
the tasks, its *guest*, it is a host: what the host does by itself, and what the other tasks do, is
what others do to the guest. That they leave alone what the guest has made is proved here and not
assumed: a host uses none but the contexts that it knows (`Known`), and those that its guest makes
are not among them.

**Main statement (`Flow.Hosts.among`).** When a host that runs among others comes to its end, its
guest has run as `Flow.Among` says, from the contexts of some moment of the host's run on, up to
where the host says that it is.
-/

namespace WorkflowEngine

/-! ## Runs that any outside answers

What the outside answers may depend on what a flow has done so far, and a guest has not done all
that its host has. So the outside of a guest is not that of its host: it is put together from the
answers that the guest had on its way.
-/

/-- The second outside answers as the first does after these deeds. -/
structure Outside.AgreesAt (out out' : Outside) (deeds : List Deed) : Prop where
  poll : out'.poll deeds = out.poll deeds
  signal : out'.signal deeds = out.signal deeds
  answer : out'.answer deeds = out.answer deeds

/-- The outside that answers ever after as it does after these deeds. -/
def Outside.frozen (out : Outside) (deeds : List Deed) : Outside :=
  ⟨fun _ => out.poll deeds, fun _ => out.signal deeds, fun _ => out.answer deeds⟩

/-- Answers as `first` does after these deeds and as `out` does after all others. -/
def Outside.startingWith (out first : Outside) (deeds : List Deed) : Outside where
  poll ds := if ds = deeds then first.poll ds else out.poll ds
  signal ds := if ds = deeds then first.signal ds else out.signal ds
  answer ds := if ds = deeds then first.answer ds else out.answer ds

theorem Outside.startingWith_self (out first : Outside) (deeds : List Deed) :
    first.AgreesAt (out.startingWith first deeds) deeds :=
  ⟨if_pos rfl, if_pos rfl, if_pos rfl⟩

theorem Outside.startingWith_later (out first : Outside) {deeds later : List Deed}
    (h : deeds.length < later.length) : out.AgreesAt (out.startingWith first deeds) later := by
  have hne : later ≠ deeds := fun heq => by simp [heq] at h
  exact ⟨if_neg hne, if_neg hne, if_neg hne⟩

theorem Branch.perform_congr {out out' : Outside} {σ : Branch} (h : out.AgreesAt out' σ.deeds)
    (a : Action) : σ.perform out' a = σ.perform out a := by
  cases a with
  | poll => simp only [perform, h.poll]
  | signal => simp only [perform, h.signal]
  | consult service question => simp only [perform, h.answer]
  | _ => rfl

namespace Flow

variable {α β : Type} {out out' : Outside} {σ σ' : Branch} {f g : Flow α}

/-- Only what the outside answers from now on counts. -/
theorem Among.congr (h : f.Among out σ g σ')
    (hout : ∀ deeds, σ.deeds.length ≤ deeds.length → out.AgreesAt out' deeds) :
    f.Among out' σ g σ' := by
  induction h with
  | here => exact .here _ _
  | pause store hstore _ ih =>
    refine .pause store hstore (ih fun deeds hdeeds => hout deeds ?_)
    exact Nat.le_of_succ_le hdeeds
  | @act a next σ g σ' _ ih =>
    have hsame := Branch.perform_congr (hout σ.deeds (Nat.le_refl _)) a
    apply Among.act
    rw [hsame]
    apply ih
    intro deeds hdeeds
    exact hout deeds (Nat.le_trans (σ.deeds_suffix_perform out a).length_le hdeeds)

/-- Among others, and each action is answered as some outside would answer it. -/
inductive AmongAny : Flow α → Branch → Flow α → Branch → Prop
  | here (f : Flow α) (σ : Branch) : AmongAny f σ f σ
  | pause {rest : Unit → Flow α} {σ : Branch} {g : Flow α} {σ' : Branch} (store : Store) :
      σ.Meddled store → AmongAny (rest ()) (σ.resumed store) g σ' →
      AmongAny (.pause rest) σ g σ'
  | act {a : Action} {next : a.Answer → Flow α} {σ : Branch} {g : Flow α} {σ' : Branch}
      (out : Outside) : AmongAny (next (σ.perform out a).1) (σ.perform out a).2 g σ' →
      AmongAny (.act a next) σ g σ'

theorem AmongAny.trans {k : Flow α} {υ : Branch} (h : f.AmongAny σ g σ') (h' : g.AmongAny σ' k υ) :
    f.AmongAny σ k υ := by
  induction h with
  | here => exact h'
  | pause store hstore _ ih => exact .pause store hstore (ih h')
  | act out _ ih => exact .act out (ih h')

/-- One outside answers all of it, since no two questions come after the same deeds. -/
theorem AmongAny.exists_among (h : f.AmongAny σ g σ') : ∃ out, f.Among out σ g σ' := by
  induction h with
  | here f σ => exact ⟨⟨fun _ => false, fun _ => false, fun _ _ _ => .null⟩, .here f σ⟩
  | pause store hstore _ ih =>
    obtain ⟨out, hout⟩ := ih
    exact ⟨out, .pause store hstore hout⟩
  | @act a next σ g σ' first _ ih =>
    obtain ⟨out, hout⟩ := ih
    -- What is asked is seen, so that all that comes later comes after more deeds.
    have hfirst := Branch.perform_congr (out.startingWith_self first σ.deeds) a
    cases a with
    | poll | signal | consult _ _ =>
      refine ⟨out.startingWith first σ.deeds, .act ?_⟩
      rw [hfirst]
      apply hout.congr
      intro deeds hdeeds
      exact out.startingWith_later first hdeeds
    | _ => exact ⟨out, .act hout⟩

end Flow

/-! ## What a flow knows -/

/-- The contexts that a flow may use. -/
abbrev Known := Handle → Prop

/-- What is known stays known. -/
def Known.Le (K K' : Known) : Prop := ∀ h, K h → K' h

/-- A context that is made is known from then on. -/
def Known.after (K : Known) : (a : Action) → a.Answer → Known
  | .create _, x => fun h => h = x ∨ K h
  | _, _ => K

/-- Whether an action uses nothing but known contexts. -/
def Action.Within (K : Known) : Action → Prop
  | .announce e => K e.context
  | .view h | .bind h _ _ | .unbind h _ => K h
  | .poll | .signal | .requestStop | .create _ | .consult _ _ | .note _ | .raise _ => True

/-- The flow uses nothing but known contexts and those that it makes. -/
def Flow.Uses {α : Type} (K : Known) (f : Flow α) : Prop :=
  ∃ (ρ : Pairing) (g : Flow α), (∀ h k, ρ h k → K h) ∧ f.Echoes ρ g

/-! ## Hosts -/

/-- The flow takes on its guest by a stretch now and then, or runs it to its end, and otherwise uses
nothing but known contexts. If it comes to a result, then `Q` holds of what is known then, of what
its guest has come to and of the result. -/
inductive Flow.Hosts {α β : Type} (Q : Known → Stretch α → β → Prop) :
    Known → Stretch α → Flow β → Prop
  | ok {K : Known} {s : Stretch α} {b : β} : Q K s b → Hosts Q K s (.done (.ok b))
  | error {K : Known} {s : Stretch α} (e : Fault) : Hosts Q K s (.done (.error e))
  | starved {K : Known} {s : Stretch α} : Hosts Q K s .starved
  | pause {K : Known} {s : Stretch α} {rest : Unit → Flow β} :
      Hosts Q K s (rest ()) → Hosts Q K s (.pause rest)
  | act {K : Known} {s : Stretch α} {a : Action} {next : a.Answer → Flow β} :
      a.Within K → (∀ x, Hosts Q (K.after a x) s (next x)) → Hosts Q K s (.act a next)
  /-- The guest is taken on by a stretch. -/
  | stretch {K : Known} {f : Flow α} {k : Stretch α → Flow β} :
      (∀ s, Hosts Q K s (k s)) → Hosts Q K (.suspended f) (f.advance.bind k)
  /-- The guest is run to its end, through all its pauses. -/
  | whole {K : Known} {f : Flow α} {k : α → Flow β} :
      (∀ a, Hosts Q K (.settled a) (k a)) → Hosts Q K (.suspended f) (f.bind k)

namespace Flow

variable {α β γ : Type} {K : Known} {s : Stretch α}

theorem Hosts.mono {Q Q' : Known → Stretch α → β → Prop} {f : Flow β} (h : f.Hosts Q K s)
    (hQ : ∀ K s b, Q K s b → Q' K s b) : f.Hosts Q' K s := by
  induction h with
  | ok h => exact .ok (hQ _ _ _ h)
  | error e => exact .error e
  | starved => exact .starved
  | pause _ ih => exact .pause ih
  | act ha _ ih => exact .act ha ih
  | stretch _ ih => exact .stretch ih
  | whole _ ih => exact .whole ih

theorem Hosts.bind {P : Known → Stretch α → β → Prop} {Q : Known → Stretch α → γ → Prop}
    {f : Flow β} {k : β → Flow γ} (h : f.Hosts P K s)
    (hk : ∀ K' s' b, P K' s' b → (k b).Hosts Q K' s') : (f.bind k).Hosts Q K s := by
  induction h with
  | ok h => exact hk _ _ _ h
  | error e => exact .error e
  | starved => exact .starved
  | pause _ ih => exact .pause ih
  | act ha _ ih => exact .act ha ih
  | stretch _ ih =>
    rw [bind_assoc]
    exact .stretch ih
  | whole _ ih =>
    rw [bind_assoc]
    exact .whole ih

/-- A flow that uses nothing but known contexts leaves the guest as it is. -/
theorem Mirrors.hosts {Q : Pairing → β → γ → Prop} {ρ : Pairing} {f : Flow β} {g : Flow γ}
    (h : f.Mirrors Q ρ g) (hρ : ∀ x y, ρ x y → K x) :
    f.Hosts (fun K' s' b => K.Le K' ∧ s' = s ∧ ∃ ρ' c, (∀ x y, ρ' x y → K' x) ∧ Q ρ' b c) K s := by
  induction h generalizing K with
  | ok h => exact .ok ⟨fun _ => id, rfl, _, _, hρ, h⟩
  | error e => exact .error e
  | starved => exact .starved
  | pause _ ih => exact .pause (ih hρ)
  | @bare ρ a next next' ha _ ih =>
    cases a with
    | announce _ | view _ | bind _ _ _ | unbind _ _ | create _ => exact ha.elim
    | _ => exact .act trivial fun x => ih x hρ
  | announce hh _ ih => exact .act (hρ _ _ hh) fun _ => ih hρ
  | view hh _ ih => exact .act (hρ _ _ hh) fun b => ih b hρ
  | write hh _ ih => exact .act (hρ _ _ hh) fun _ => ih hρ
  | erase hh _ ih => exact .act (hρ _ _ hh) fun _ => ih hρ
  | create _ ih =>
    -- With which context the new one is paired makes no difference.
    refine .act trivial fun x => (ih x x fun y z hyz => ?_).mono fun K' s' b hpost => ?_
    · exact hyz.imp And.left (hρ y z)
    · obtain ⟨hle, hrest⟩ := hpost
      exact ⟨fun y hy => hle y (.inr hy), hrest⟩

theorem Uses.mono {K' : Known} {f : Flow β} (h : f.Uses K) (hle : K.Le K') : f.Uses K' := by
  obtain ⟨ρ, g, hρ, hfg⟩ := h
  exact ⟨ρ, g, fun x y hxy => hle x (hρ x y hxy), hfg⟩

theorem Uses.hosts {f : Flow β} (h : f.Uses K) : f.Hosts (fun K' s' _ => K.Le K' ∧ s' = s) K s := by
  obtain ⟨ρ, g, hρ, hfg⟩ := h
  exact (Mirrors.hosts hfg hρ).mono fun K' s' b hpost => ⟨hpost.1, hpost.2.1⟩

/-- What is left of another flow after a stretch uses what is known then. -/
theorem Uses.advance_hosts {f : Flow β} (h : f.Uses K) :
    f.advance.Hosts (fun K' s' x => K.Le K' ∧ s' = s ∧
      ∀ rest, x = .suspended rest → rest.Uses K') K s := by
  obtain ⟨ρ, g, hρ, hfg⟩ := h
  refine (Mirrors.hosts (Echoes.advance hfg) hρ).mono fun K' s' x hpost => ?_
  obtain ⟨hle, hs, ρ', y, hρ', hxy⟩ := hpost
  refine ⟨hle, hs, fun rest hx => ?_⟩
  subst hx
  cases hxy with
  | suspended hrest => exact ⟨ρ', _, hρ', hrest⟩

end Flow

/-! ## Hosts and guests in a run -/

namespace Branch

/-- The branch of a guest and that of its host: the host has made what the guest has made, and has
left it as it is, for it is none of the contexts that are known. What the guest has done, but for
its pauses, is among what the host has done. -/
structure Apart (K : Known) (υ σ : Branch) : Prop where
  size : υ.store.cells.size ≤ σ.store.cells.size
  own : ∀ h ∈ υ.own, h ∈ σ.own ∧ σ.store.Valid h ∧ ¬K h
  view : ∀ h ∈ υ.own, σ.store.view h = υ.store.view h
  deeds : (υ.deeds.filter (· ≠ .paused)).Sublist σ.deeds

variable {K : Known} {υ σ : Branch} {out : Outside}

/-- What is known is there. -/
def Holds (σ : Branch) (K : Known) : Prop := ∀ h, K h → σ.store.Valid h

theorem Holds.resumed (h : σ.Holds K) {store : Store} (hstore : σ.Meddled store) :
    (σ.resumed store).Holds K := fun x hx => Nat.lt_of_lt_of_le (h x hx) hstore.1

theorem Holds.perform (h : σ.Holds K) (a : Action) :
    (σ.perform out a).2.Holds (K.after a (σ.perform out a).1) := by
  intro x hx
  cases a with
  | create b =>
    apply Store.valid_create.2
    rcases hx with rfl | hx
    · exact .inr rfl
    · exact .inl (h x hx)
  | bind k key value | unbind k key => exact Store.valid_update.2 (h x hx)
  | _ => exact h x hx

theorem Apart.of_store (hstore : υ.store = σ.store)
    (hown : ∀ h ∈ υ.own, h ∈ σ.own ∧ σ.store.Valid h ∧ ¬K h)
    (hdeeds : (υ.deeds.filter (· ≠ .paused)).Sublist σ.deeds) : υ.Apart K σ where
  size := hstore ▸ Nat.le_refl _
  own := hown
  view h _ := by rw [hstore]
  deeds := hdeeds

theorem Apart.doing (h : υ.Apart K σ) (deed : Deed) : υ.Apart K (σ.doing deed) :=
  ⟨h.size, h.own, h.view, h.deeds.cons _⟩

/-- Others are at work while the host pauses. -/
theorem Apart.resumed (h : υ.Apart K σ) {store : Store} (hstore : σ.Meddled store) :
    υ.Apart K (σ.resumed store) where
  size := Nat.le_trans h.size hstore.1
  own x hx := by
    obtain ⟨hown, hvalid, hunknown⟩ := h.own x hx
    exact ⟨hown, Nat.lt_of_lt_of_le hvalid hstore.1, hunknown⟩
  view x hx := (hstore.2 x (h.own x hx).1).trans (h.view x hx)
  deeds := h.deeds.cons _

/-- The host writes into a context that is known. -/
theorem Apart.update (h : υ.Apart K σ) {x : Handle} (hx : K x) (f : Bindings → Bindings) :
    υ.Apart K { σ with store := σ.store.update x f } where
  size := by simpa [Store.update] using h.size
  own y hy := by simpa using h.own y hy
  view y hy := by
    have hne : y ≠ x := fun heq => (h.own y hy).2.2 (heq ▸ hx)
    exact (Store.view_update_of_ne hne f).trans (h.view y hy)
  deeds := h.deeds

/-- The host makes a context, which is known from then on. -/
theorem Apart.create (h : υ.Apart K σ) (b : Bindings) :
    υ.Apart (fun x => x = (σ.store.create b).1 ∨ K x)
      { σ with store := (σ.store.create b).2, own := (σ.store.create b).1 :: σ.own } where
  size := by simpa [Store.create] using Nat.le_succ_of_le h.size
  own x hx := by
    obtain ⟨hown, hvalid, hunknown⟩ := h.own x hx
    refine ⟨List.mem_cons_of_mem _ hown, Store.valid_create.2 (.inl hvalid), ?_⟩
    rintro (rfl | hknown)
    · exact Store.not_valid_create hvalid
    · exact hunknown hknown
  view x hx := (Store.view_create_of_valid (h.own x hx).2.1 b).trans (h.view x hx)
  deeds := h.deeds

theorem Apart.perform (h : υ.Apart K σ) {a : Action} (ha : a.Within K) :
    υ.Apart (K.after a (σ.perform out a).1) (σ.perform out a).2 := by
  cases a with
  | view _ => exact h
  | bind _ _ _ | unbind _ _ => exact h.update ha _
  | create b => exact h.create b
  | _ => exact h.doing _

/-- The guest is taken on again: it finds the contexts as they are. -/
theorem Apart.takeOn (h : υ.Apart K σ) :
    υ.Meddled σ.store ∧ (υ.resumed σ.store).Apart K σ := by
  refine ⟨⟨h.size, h.view⟩, .of_store rfl h.own ?_⟩
  simpa [Branch.resumed, Branch.doing] using h.deeds

theorem Apart.resumed_both (h : υ.Apart K σ) (hstore : υ.store = σ.store) {store : Store}
    (hmeddled : σ.Meddled store) :
    υ.Meddled store ∧ (υ.resumed store).Apart K (σ.resumed store) := by
  obtain ⟨hsize, hview⟩ := hmeddled
  refine ⟨⟨hstore ▸ hsize, fun x hx => ?_⟩, .of_store rfl (fun x hx => ?_) ?_⟩
  · rw [hstore]
    exact hview x (h.own x hx).1
  · obtain ⟨hown, hvalid, hunknown⟩ := h.own x hx
    exact ⟨hown, Nat.lt_of_lt_of_le hvalid hsize, hunknown⟩
  · simpa [Branch.resumed, Branch.doing] using h.deeds.cons _

theorem Apart.doing_both (h : υ.Apart K σ) (deed : Deed) :
    (υ.doing deed).Apart K (σ.doing deed) := by
  refine ⟨h.size, h.own, h.view, ?_⟩
  simp only [Branch.doing, List.filter_cons]
  split
  · exact h.deeds.cons_cons _
  · exact h.deeds.cons _

/-- The guest does something, and the host with it. -/
theorem Apart.together (h : υ.Apart K σ) (hstore : υ.store = σ.store) (hknown : σ.Holds K)
    (a : Action) :
    (υ.perform (out.frozen σ.deeds) a).1 = (σ.perform out a).1 ∧
      (υ.perform (out.frozen σ.deeds) a).2.store = (σ.perform out a).2.store ∧
      (υ.perform (out.frozen σ.deeds) a).2.Apart K (σ.perform out a).2 := by
  cases a with
  | poll | signal | requestStop | consult _ _ | note _ | raise _ =>
    exact ⟨rfl, hstore, h.doing_both _⟩
  | announce e =>
    refine ⟨rfl, hstore, ?_⟩
    simp only [Branch.perform, hstore]
    exact h.doing_both _
  | view x => exact ⟨congrArg (·.view x) hstore, hstore, h⟩
  | bind x key value | unbind x key =>
    simp only [Branch.perform, hstore, true_and]
    refine .of_store rfl (fun y hy => ?_) h.deeds
    obtain ⟨hown, hvalid, hunknown⟩ := h.own y hy
    exact ⟨hown, Store.valid_update.2 hvalid, hunknown⟩
  | create b =>
    simp only [Branch.perform, hstore, true_and]
    refine .of_store rfl (fun y hy => ?_) h.deeds
    rcases List.mem_cons.1 hy with rfl | hy
    · refine ⟨List.mem_cons_self, Store.valid_create.2 (.inr rfl), fun hnew => ?_⟩
      exact Store.not_valid_create (hknown _ hnew)
    · obtain ⟨hown, hvalid, hunknown⟩ := h.own y hy
      exact ⟨List.mem_cons_of_mem _ hown, Store.valid_create.2 (.inl hvalid), hunknown⟩

theorem Holds.guest (h : σ.Holds K) (a : Action) : (σ.perform out a).2.Holds K := by
  intro x hx
  cases a with
  | create b => exact Store.valid_create.2 (.inl (h x hx))
  | bind k key value | unbind k key => exact Store.valid_update.2 (h x hx)
  | _ => exact h x hx

end Branch

namespace Flow

variable {α β : Type} {K : Known} {υ σ σ' : Branch} {out : Outside}

/-- A stretch of a flow is a run of it up to its next pause or its end. -/
theorem Among.of_advance {f : Flow α} {s : Stretch α}
    (h : f.advance.Among out σ (.done (.ok s)) σ') : f.Among out σ s.resume σ' := by
  have hresume := h.bind (k := Stretch.resume)
  rw [advance_resume] at hresume
  exact hresume

/-- **The host takes its guest on.** What it does then is what the guest does. -/
theorem Among.alongside {f g : Flow α} (h : f.Among out σ g σ') (hknown : σ.Holds K)
    (hapart : υ.Apart K σ) (hstore : υ.store = σ.store) :
    ∃ υ', f.AmongAny υ g υ' ∧ υ'.Apart K σ' ∧ σ'.Holds K := by
  induction h generalizing υ with
  | here f σ => exact ⟨υ, .here _ _, hapart, hknown⟩
  | pause store hmeddled _ ih =>
    obtain ⟨hmeddled', hapart'⟩ := hapart.resumed_both hstore hmeddled
    obtain ⟨υ', hrun, hend⟩ := ih (hknown.resumed hmeddled) hapart' rfl
    exact ⟨υ', .pause store hmeddled' hrun, hend⟩
  | @act a next σ g σ' _ ih =>
    obtain ⟨hanswer, hstore', hapart'⟩ := hapart.together hstore hknown a
    obtain ⟨υ', hrun, hend⟩ := ih (hknown.guest a) hapart' hstore'
    exact ⟨υ', .act _ (hanswer ▸ hrun), hend⟩

/-- Where the guest `f` of a host stands: it has not begun yet, or it has run among others, from the
contexts of some moment on, up to where it is now. -/
def Standing (f : Flow α) (moment : Branch → Prop) (K : Known) (s : Stretch α) (σ : Branch) :
    Prop :=
  s = .suspended f ∨ ∃ τ υ, moment τ ∧ f.AmongAny { store := τ.store } s.resume υ ∧ υ.Apart K σ

theorem Standing.takeOn {f rest : Flow α} {s : Stretch α} {moment : Branch → Prop}
    (h : Standing f moment K (.suspended rest) σ) (hnow : moment σ) (hknown : σ.Holds K)
    (hrun : rest.Among out σ s.resume σ') : Standing f moment K s σ' ∧ σ'.Holds K := by
  rcases h with heq | ⟨τ, υ, hmoment, hsofar, hapart⟩
  · cases heq
    have hfresh : Branch.Apart K { store := σ.store } σ := .of_store rfl (by simp) (by simp)
    obtain ⟨υ, hbegun, hapart, hknown'⟩ := hrun.alongside hknown hfresh rfl
    exact ⟨.inr ⟨σ, υ, hnow, hbegun, hapart⟩, hknown'⟩
  · obtain ⟨hmeddled, hresumed⟩ := hapart.takeOn
    obtain ⟨υ', hfurther, hapart', hknown'⟩ := hrun.alongside hknown hresumed rfl
    exact ⟨.inr ⟨τ, υ', hmoment, hsofar.trans (.pause _ hmeddled hfurther), hapart'⟩, hknown'⟩

/-- What the host does by itself leaves its guest where it stands. -/
theorem Standing.imp {f : Flow α} {s : Stretch α} {moment : Branch → Prop} {K' : Known}
    (h : Standing f moment K s σ) (hapart : ∀ υ : Branch, υ.Apart K σ → υ.Apart K' σ') :
    Standing f moment K' s σ' :=
  h.imp_right fun ⟨τ, υ, hmoment, hsofar, h⟩ => ⟨τ, υ, hmoment, hsofar, hapart υ h⟩

/-- **What a host comes to.** When it comes to a result, its guest has run among others from some
moment of the run on. -/
theorem Hosts.among {Q : Known → Stretch α → β → Prop} {f : Flow α} {s : Stretch α} {g : Flow β}
    {b : β} {moment : Branch → Prop} (hhost : g.Hosts Q K s) (hknown : σ.Holds K)
    (hs : Standing f moment K s σ) (hmoment : ∀ g' τ, g.Among out σ g' τ → moment τ)
    (hrun : g.Among out σ (.done (.ok b)) σ') :
    ∃ K' s', Q K' s' b ∧ Standing f moment K' s' σ' := by
  -- On how the flow is a host; every case keeps where the guest stands.
  induction hhost generalizing σ with
  | ok h =>
    cases hrun
    exact ⟨_, _, h, hs⟩
  | error e => cases hrun
  | starved => cases hrun
  | pause _ ih =>
    cases hrun with
    | pause store hstore hrun =>
      refine ih (hknown.resumed hstore) ?_ (fun g' τ h => hmoment g' τ (.pause store hstore h)) hrun
      exact hs.imp fun υ h => h.resumed hstore
  | act ha _ ih =>
    cases hrun with
    | act hrun =>
      refine ih _ (hknown.perform _) ?_ (fun g' τ h => hmoment g' τ (.act h)) hrun
      exact hs.imp fun υ h => h.perform ha
  | stretch _ ih =>
    rcases hrun.of_bind with ⟨e, he, -⟩ | ⟨s, τ, hstretch, hlater⟩
    · cases he
    obtain ⟨hstands, hknown'⟩ := hs.takeOn (hmoment _ _ (.here _ _)) hknown hstretch.of_advance
    exact ih s hknown' hstands (fun g' τ' h => hmoment g' τ' (hstretch.bind.trans h)) hlater
  | whole _ ih =>
    rcases hrun.of_bind with ⟨e, he, -⟩ | ⟨a, τ, hguest, hlater⟩
    · cases he
    obtain ⟨hstands, hknown'⟩ :=
      hs.takeOn (s := .settled a) (hmoment _ _ (.here _ _)) hknown hguest
    exact ih a hknown' hstands (fun g' τ' h => hmoment g' τ' (hguest.bind.trans h)) hlater

end Flow

end WorkflowEngine
