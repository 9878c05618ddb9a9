import WorkflowEngine.Proofs.Reading.Steps

/-!
# Flows that are not stopped, up to a number of pauses

Two ways of doing the same may ask at different times whether to stop. As long as they are told to
go on, that is the only difference. `Flow.unstopped` is a flow that is always told to go on: the
question is answered with no and left out.

Where the rounds of a fan-out are counted, a flow is cut off by its pauses. `Flow.cut n` is a flow
that is cut off after its pause number `n + 1`. A family of flows *reaches* another if all its flows
are below flows of the other, however many pauses they are given (`Flow.Reaches`). Families that
reach each other cannot be told apart (`Flow.Agree.of_reaches`), since there are finitely many
pauses in what has been done at any moment.
-/

namespace WorkflowEngine

namespace Flow

variable {α β γ : Type}

/-! ## Always told to go on -/

/-- Every question whether to stop is answered with no, and left out. -/
def unstopped : Flow α → Flow α
  | .done r => .done r
  | .starved => .starved
  | .pause rest => .pause fun u => (rest u).unstopped
  | .act .poll next => (next false).unstopped
  | .act a next => .act a fun x => (next x).unstopped

theorem unstopped_act {a : Action} (ha : a ≠ .poll) (next : a.Answer → Flow α) :
    (act a next).unstopped = act a fun x => (next x).unstopped := by
  cases a with
  | poll => exact absurd rfl ha
  | _ => rfl

theorem unstopped_bind (f : Flow α) (k : α → Flow β) :
    (f.bind k).unstopped = f.unstopped.bind fun a => (k a).unstopped := by
  induction f with
  | done r => cases r <;> rfl
  | starved => rfl
  | pause rest ih => exact congrArg Flow.pause (funext ih)
  | act a next ih =>
    by_cases ha : a = .poll
    · subst ha
      exact ih false
    · rw [bind, unstopped_act ha, unstopped_act ha]
      exact congrArg (act a) (funext ih)

theorem unstopped_map (f : Flow α) (g : α → β) : (f.map g).unstopped = f.unstopped.map g :=
  unstopped_bind f _

theorem unstopped_check (k : Unit → Flow α) : (check.bind k).unstopped = (k ()).unstopped := rfl

theorem Below.unstopped {f g : Flow α} (h : f.Below g) : f.unstopped.Below g.unstopped := by
  induction h with
  | starved g => exact .starved _
  | done r => exact .done r
  | pause _ ih => exact .pause ih
  | @act a _ _ _ ih =>
    by_cases ha : a = .poll
    · subst ha
      exact ih false
    · rw [unstopped_act ha, unstopped_act ha]
      exact .act ih

/-! ## Cut off by the pauses -/

/-- Cut off after so many further pauses and one more. -/
def cut : Nat → Flow α → Flow α
  | _, .done r => .done r
  | _, .starved => .starved
  | 0, .pause _ => .pause fun _ => .starved
  | n + 1, .pause rest => .pause fun u => (rest u).cut n
  | n, .act a next => .act a fun x => (next x).cut n

theorem cut_below (n : Nat) (f : Flow α) : (f.cut n).Below f := by
  induction f generalizing n with
  | done r => cases n <;> exact .done r
  | starved => cases n <;> exact .starved _
  | pause rest ih =>
    cases n with
    | zero => exact .pause (.starved _)
    | succ n => exact .pause (ih () n)
  | act a next ih => cases n <;> exact .act fun x => ih x _

theorem Below.cut {f g : Flow α} (h : f.Below g) (n : Nat) : (f.cut n).Below (g.cut n) := by
  induction h generalizing n with
  | starved g => cases n <;> exact .starved _
  | done r => cases n <;> exact .done r
  | pause _ ih =>
    cases n with
    | zero => exact .refl _
    | succ n => exact .pause (ih n)
  | act _ ih => cases n <;> exact .act fun x => ih x _

theorem cut_cut (n : Nat) (f : Flow α) : (f.cut n).cut n = f.cut n := by
  induction f generalizing n with
  | done r => cases n <;> rfl
  | starved => cases n <;> rfl
  | pause rest ih =>
    cases n with
    | zero => rfl
    | succ n => exact congrArg Flow.pause (funext fun u => ih u n)
  | act a next ih => cases n <;> exact congrArg (Flow.act a) (funext fun x => ih x _)

theorem cut_below_cut {m n : Nat} (hmn : m ≤ n) (f : Flow α) : (f.cut m).Below (f.cut n) := by
  induction f generalizing m n with
  | done r => cases m <;> cases n <;> exact .done r
  | starved => cases m <;> exact .starved _
  | pause rest ih =>
    cases m with
    | zero => cases n <;> exact .pause (.starved _)
    | succ m =>
      cases n with
      | zero => cases hmn
      | succ n => exact .pause (ih () (Nat.le_of_succ_le_succ hmn))
  | act a next ih => cases m <;> cases n <;> exact .act fun x => ih x hmn

theorem cut_map (n : Nat) (f : Flow α) (g : α → β) : (f.map g).cut n = (f.cut n).map g := by
  induction f generalizing n with
  | done r => cases r <;> cases n <;> rfl
  | starved => cases n <;> rfl
  | pause rest ih =>
    cases n with
    | zero => rfl
    | succ n => exact congrArg Flow.pause (funext fun u => ih u n)
  | act a next ih => cases n <;> exact congrArg (Flow.act a) (funext fun x => ih x _)

/-- To cut off a sequence takes at least as much as to cut off its first part. -/
theorem bind_cut_below (n : Nat) (f : Flow α) (k : α → Flow β) :
    ((f.bind k).cut n).Below ((f.cut n).bind k) := by
  induction f generalizing n with
  | done r =>
    cases r with
    | ok a => cases n <;> exact cut_below _ (k a)
    | error e => cases n <;> exact .done _
  | starved => cases n <;> exact .starved _
  | pause rest ih =>
    cases n with
    | zero => exact .pause (.starved _)
    | succ n => exact .pause (ih () n)
  | act a next ih => cases n <;> exact .act fun x => ih x _

/-- What has been done at a moment has been done with so many pauses. -/
theorem Goes.cut {f f' : Flow α} {t : List Mark} (h : f.Goes t f') {n : Nat} (hn : t.length ≤ n) :
    ∃ k, (f.cut n).Goes t (f'.cut k) := by
  induction h generalizing n with
  | here f => exact ⟨n, .here _⟩
  | pause _ ih =>
    cases n with
    | zero => cases hn
    | succ n =>
      obtain ⟨k, hk⟩ := ih (Nat.le_of_succ_le_succ hn)
      exact ⟨k, .pause hk⟩
  | act x _ ih =>
    obtain ⟨k, hk⟩ := ih (Nat.le_of_succ_le hn)
    cases n <;> exact ⟨k, .act x hk⟩

theorem run_cut {f : Flow α} {env : Environment} {w : World} {n : Nat}
    (hn : (f.trace env w).length ≤ n) : (f.cut n).run env w = f.run env w := by
  induction f generalizing w n with
  | done r => cases n <;> rfl
  | starved => cases n <;> rfl
  | pause rest ih =>
    cases n with
    | zero => cases hn
    | succ n => exact ih () (Nat.le_of_succ_le_succ hn)
  | act a next ih =>
    have hrest := ih (w.perform env a).1 (w := (w.perform env a).2) (Nat.le_of_succ_le hn)
    cases n <;> exact hrest

/-! ## Families that reach each other -/

/-- However many pauses they are given, the flows of the first family are below flows of the
second. -/
def Reaches (f g : Nat → Flow α) : Prop := ∀ n k, ∃ m, ((f n).cut k).Below (g m)

theorem Bounded.reaches {f g : Nat → Flow α} (h : Bounded f g) : Reaches f g := by
  intro n k
  obtain ⟨m, hm⟩ := h n
  exact ⟨m, (cut_below k _).trans hm⟩

theorem Reaches.trans {f g h : Nat → Flow α} (hfg : Reaches f g) (hgh : Reaches g h) :
    Reaches f h := by
  intro n k
  obtain ⟨m, hm⟩ := hfg n k
  obtain ⟨l, hl⟩ := hgh m k
  refine ⟨l, Below.trans ?_ hl⟩
  rw [← cut_cut]
  exact hm.cut k

theorem Reaches.map {f g : Nat → Flow α} (h : Reaches f g) (k : α → β) :
    Reaches (fun n => (f n).map k) fun n => (g n).map k := by
  intro n j
  obtain ⟨m, hm⟩ := h n j
  refine ⟨m, ?_⟩
  rw [cut_map]
  exact hm.map k

/-- **Families that reach each other cannot be told apart.** -/
theorem Agree.of_reaches {f g : Nat → Flow α} (h : Reaches f g) (h' : Reaches g f) :
    Agree f g := by
  have hgoes : ∀ {f g : Nat → Flow α}, Reaches f g → ∀ {t : List Mark},
      (∃ n f', (f n).Goes t f') → ∃ n g', (g n).Goes t g' := by
    rintro f g h t ⟨n, f', hf⟩
    obtain ⟨m, hm⟩ := h n t.length
    obtain ⟨k, hk⟩ := hf.cut (Nat.le_refl _)
    obtain ⟨g', hg, -⟩ := hm.goes hk
    exact ⟨m, g', hg⟩
  have hends : ∀ {f g : Nat → Flow α}, Reaches f g → ∀ {t : List Mark} {r : Except Fault α},
      (∃ n, (f n).Goes t (.done r)) → ∃ n, (g n).Goes t (.done r) := by
    rintro f g h t r ⟨n, hf⟩
    obtain ⟨m, hm⟩ := h n t.length
    obtain ⟨k, hk⟩ := hf.cut (Nat.le_refl _)
    have hdone : (Flow.done r).cut k = .done r := by cases k <;> rfl
    rw [hdone] at hk
    exact ⟨m, hm.goes_done hk⟩
  have hrun : ∀ {f g : Nat → Flow α}, Reaches f g → ∀ {env : Environment} {w v : World}
      {r : Except Fault α}, (∃ n, (f n).run env w = (.ended r, v)) →
        ∃ n, (g n).run env w = (.ended r, v) := by
    rintro f g h env w v r ⟨n, hf⟩
    obtain ⟨m, hm⟩ := h n ((f n).trace env w).length
    rw [← run_cut (Nat.le_refl _)] at hf
    exact ⟨m, hm.run_eq hf⟩
  exact ⟨fun _ => ⟨hgoes h, hgoes h'⟩, fun _ _ => ⟨hends h, hends h'⟩,
    fun _ _ _ _ => ⟨hrun h, hrun h'⟩⟩

/-! ## One flow for each item of a list -/

theorem mapM_cons (f : β → Flow α) (b : β) (bs : List β) :
    (b :: bs).mapM f = (f b).bind fun a => (bs.mapM f).map (a :: ·) := List.mapM_cons

theorem Below.mapM {f g : β → Flow α} {bs : List β} (h : ∀ b ∈ bs, (f b).Below (g b)) :
    (bs.mapM f).Below (bs.mapM g) := by
  induction bs with
  | nil => exact .refl _
  | cons b bs ih =>
    rw [mapM_cons, mapM_cons]
    exact (h b (List.mem_cons_self ..)).bind fun a =>
      (ih fun b' hb' => h b' (List.mem_cons_of_mem _ hb')).map _

theorem unstopped_mapM (f : β → Flow α) (bs : List β) :
    (bs.mapM f).unstopped = bs.mapM fun b => (f b).unstopped := by
  induction bs with
  | nil => rfl
  | cons b bs ih =>
    rw [mapM_cons, mapM_cons, unstopped_bind]
    refine congrArg (Flow.bind _) (funext fun a => ?_)
    rw [unstopped_map, ih]

theorem mapM_map (f : β → Flow α) (g : α → γ) (bs : List β) :
    (bs.mapM fun b => (f b).map g) = (bs.mapM f).map (List.map g) := by
  induction bs with
  | nil => rfl
  | cons b bs ih =>
    rw [mapM_cons, mapM_cons, map_bind, bind_map]
    refine congrArg (Flow.bind _) (funext fun a => ?_)
    rw [ih, map_map, map_map]
    rfl

theorem length_of_mapM {f : β → Flow α} {bs : List β} {t : List Mark} {as : List α}
    (h : (bs.mapM f).Goes t (.done (.ok as))) : as.length = bs.length := by
  induction bs generalizing t as with
  | nil =>
    cases h
    rfl
  | cons b bs ih =>
    rw [mapM_cons] at h
    obtain ⟨before, after, a, rfl, -, hrest⟩ := Goes.of_bind h
    obtain ⟨between, last, as', rfl, hmore, hdone⟩ := Goes.of_bind hrest
    cases hdone
    rw [List.length_cons, List.length_cons, ih hmore]

theorem bounded_mapM {f g : β → Nat → Flow α} {bs : List β}
    (h : ∀ b ∈ bs, Bounded (f b) (g b)) (hg : ∀ b n, (g b n).Below (g b (n + 1))) :
    Bounded (fun n => bs.mapM (f · n)) fun n => bs.mapM (g · n) := by
  intro n
  induction bs with
  | nil => exact ⟨0, .refl _⟩
  | cons b bs ih =>
    obtain ⟨m, hm⟩ := h b (List.mem_cons_self ..) n
    obtain ⟨k, hk⟩ := ih fun b' hb' => h b' (List.mem_cons_of_mem _ hb')
    have hmono : ∀ {i j : Nat}, i ≤ j → ∀ b, (g b i).Below (g b j) :=
      fun hij b => below_of_le (hg b) hij
    refine ⟨max m k, ?_⟩
    dsimp only at hk ⊢
    rw [mapM_cons, mapM_cons]
    refine (hm.trans (hmono (Nat.le_max_left ..) b)).bind fun a => Below.map ?_ _
    exact hk.trans (.mapM fun b' _ => hmono (Nat.le_max_right ..) b')

end Flow

end WorkflowEngine
