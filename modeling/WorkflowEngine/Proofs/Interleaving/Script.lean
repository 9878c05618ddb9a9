import WorkflowEngine.Proofs.Interleaving.Turns

/-!
# Scripts: what is done in one context

What an executor does in the context of its op is given by a script, that is, by a flow of which
it does not matter on which context it acts: it is done in the context at hand (`Flow.within`). A
script touches only some keys of the context (`Flow.Touches`). Two scripts that differ only in
their pauses and in their questions whether to stop are the same when these are left out
(`Flow.calm`).

**Main statement (`Flow.Touches.settles`).** Among others, a script comes to what it comes to alone
(`Flow.solo`), if the context agrees with the bindings that it has alone on the keys that it reads,
and if nobody else writes those.
-/

namespace WorkflowEngine

/-- Two contexts bind these keys to the same values. -/
def SameOn (keys : String → Prop) (b c : Bindings) : Prop :=
  ∀ key, keys key → b.get? key = c.get? key

namespace SameOn

variable {keys : String → Prop} {b c : Bindings}

theorem insert (h : SameOn keys b c) (key : String) (v : Value) :
    SameOn (fun k => keys k ∨ k = key) (b.insert key v) (c.insert key v) := by
  intro k hk
  rw [Record.get?_insert, Record.get?_insert]
  by_cases heq : k = key
  · rw [if_pos heq, if_pos heq]
  · rw [if_neg heq, if_neg heq]
    exact h k (hk.resolve_right heq)

theorem erase (h : SameOn keys b c) (key : String) :
    SameOn (fun k => keys k ∨ k = key) (b.erase key) (c.erase key) := by
  intro k hk
  rw [Record.get?_erase, Record.get?_erase]
  by_cases heq : k = key
  · rw [if_pos heq, if_pos heq]
  · rw [if_neg heq, if_neg heq]
    exact h k (hk.resolve_right heq)

theorem mono {fewer : String → Prop} (h : SameOn keys b c) (hle : ∀ k, fewer k → keys k) :
    SameOn fewer b c := fun k hk => h k (hle k hk)

end SameOn

namespace Flow

variable {α : Type}

/-! ## Scripts -/

/-- A script, done in a context. -/
def within (h : Handle) : Flow α → Flow α
  | .done r => .done r
  | .starved => .starved
  | .pause rest => .pause fun u => (rest u).within h
  | .act (.view _) next => .act (.view h) fun b => (next b).within h
  | .act (.bind _ key value) next => .act (.bind h key value) fun u => (next u).within h
  | .act (.unbind _ key) next => .act (.unbind h key) fun u => (next u).within h
  | .act a next => .act a fun x => (next x).within h

/-- Without pauses, and without questions whether to stop: these are answered with no. -/
def calm : Flow α → Flow α
  | .done r => .done r
  | .starved => .starved
  | .pause rest => (rest ()).calm
  | .act .poll next => (next false).calm
  | .act .signal next => (next false).calm
  | .act a next => .act a fun x => (next x).calm

/-- The script goes on in the same way when the keys that it reads are bound to the same values, and
binds and unbinds no other keys than it writes. It makes no contexts. -/
def Touches (reads writes : String → Prop) : Flow α → Prop
  | .done _ => True
  | .starved => True
  | .pause rest => (rest ()).Touches reads writes
  | .act (.view _) next =>
    (∀ b c, SameOn reads b c → next b = next c) ∧ ∀ b, (next b).Touches reads writes
  | .act (.bind _ key _) next => writes key ∧ (next ()).Touches reads writes
  | .act (.unbind _ key) next => writes key ∧ (next ()).Touches reads writes
  | .act (.create _) _ => False
  | .act _ next => ∀ x, (next x).Touches reads writes

/-- What a script comes to when it is done alone, from these bindings on: its result, and the
bindings at its end. -/
def solo (ans : Query → Value) : Flow α → Bindings → Option (α × Bindings)
  | .done (.ok a), b => some (a, b)
  | .done (.error _), _ => none
  | .starved, _ => none
  | .pause rest, b => (rest ()).solo ans b
  | .act .poll next, b => (next false).solo ans b
  | .act .signal next, b => (next false).solo ans b
  | .act (.view _) next, b => (next b).solo ans b
  | .act (.bind _ key value) next, b => (next ()).solo ans (b.insert key value)
  | .act (.unbind _ key) next, b => (next ()).solo ans (b.erase key)
  | .act (.create _) _, _ => none
  | .act (.consult service question) next, b => (next (ans ⟨service, question⟩)).solo ans b
  | .act .requestStop next, b => (next ()).solo ans b
  | .act (.announce _) next, b => (next ()).solo ans b
  | .act (.note _) next, b => (next ()).solo ans b
  | .act (.raise _) next, b => (next ()).solo ans b

theorem solo_calm (ans : Query → Value) (f : Flow α) (b : Bindings) :
    f.calm.solo ans b = f.solo ans b := by
  induction f generalizing b with
  | done r => rfl
  | starved => rfl
  | pause rest ih => exact ih () b
  | act a next ih =>
    cases a with
    | create _ => rfl
    | _ => exact ih _ _

end Flow

/-! ## Homes -/

/-- A flow works in a context of which it knows what some of the keys are bound to, for they are
bound as in `b`, and nobody else writes them. -/
structure Home (p : Handle) (known : String → Prop) (t : Turf) (s : Store) (b : Bindings) :
    Prop where
  valid : s.Valid p
  dep : ∀ key, known key → t.dep p key
  same : SameOn known (s.view p) b

namespace Home

variable {p : Handle} {known : String → Prop} {t t' : Turf} {s s' : Store} {b c : Bindings}

theorem rely (h : Home p known t s b) (hs : t.Rely s s') : Home p known t s' b where
  valid := hs.valid p h.valid
  dep := h.dep
  same key hk := (hs.same p key h.valid (h.dep key hk)).trans (h.same key hk)

theorem mono {fewer : String → Prop} (h : Home p known t s b) (hle : ∀ k, fewer k → known k) :
    Home p fewer t s b := ⟨h.valid, fun key hk => h.dep key (hle key hk), h.same.mono hle⟩

/-- What is bound is known from then on, if nobody else writes it. -/
theorem bind (h : Home p known t s b) (key : String) (v : Value) :
    Home p (fun k => known k ∨ (k = key ∧ t.dep p key)) t (s.bind p key v) (b.insert key v) where
  valid := Store.valid_update.2 h.valid
  dep k hk := hk.elim (h.dep k) fun ⟨heq, hdep⟩ => heq ▸ hdep
  same := by
    rw [Store.bind, Store.view_update_self h.valid]
    exact (h.same.insert key v).mono fun k hk => hk.imp_right And.left

theorem unbind (h : Home p known t s b) (key : String) :
    Home p known t (s.unbind p key) (b.erase key) where
  valid := Store.valid_update.2 h.valid
  dep := h.dep
  same := by
    rw [Store.unbind, Store.view_update_self h.valid]
    exact (h.same.erase key).mono fun k hk => .inl hk

end Home

/-- **Scripts among others.** A script comes to what it comes to alone; and if it comes to a result
alone, it does so after a number of pauses that does not depend on the others. -/
theorem Flow.Touches.settles {α : Type} {reads writes : String → Prop} {f : Flow α}
    (hf : f.Touches reads writes) (ans : Query → Value) (b : Bindings) :
    ∃ m : Budget, (f.solo ans b ≠ none → m ≠ none) ∧
      ∀ p known t s, (∀ key, reads key → known key) → (∀ key, writes key → t.own p key) →
        Home p known t s b → (f.within p).Settles ans
          (fun u a s' => ∃ c, f.solo ans b = some (a, c) ∧ Home p known u s' c) m t s := by
  induction f generalizing b with
  | done r =>
    cases r with
    | ok a => exact ⟨some 0, fun _ => Option.some_ne_none 0, fun p known t s _ _ h => ⟨b, rfl, h⟩⟩
    | error e => exact ⟨none, fun h => absurd rfl h, fun _ _ _ _ _ _ _ => rfl⟩
  | starved => exact ⟨none, fun h => absurd rfl h, fun _ _ _ _ _ _ _ => rfl⟩
  | pause rest ih =>
    obtain ⟨m, hm, hall⟩ := ih () hf b
    refine ⟨m.map (· + 1), fun h => ?_, fun p known t s hr hw h => ⟨m, ?_, fun s' hs => ?_⟩⟩
    · exact fun hnone => hm h (Option.map_eq_none_iff.1 hnone)
    · cases m with
      | none => exact .unlimited
      | some k => exact .one k
    · exact hall p known t s' hr hw (h.rely hs)
  | act a next ih =>
    cases a with
    | view h =>
      obtain ⟨m, hm, hall⟩ := ih b (hf.2 b) b
      refine ⟨m, hm, fun p known t s hr hw h => ⟨trivial, ?_⟩⟩
      -- The script reads the context as it reads the bindings that it has alone.
      have hsame : next (s.view p) = next b := hf.1 _ _ (h.same.mono hr)
      show ((next (s.view p)).within p).Settles _ _ _ _ _
      rw [hsame]
      exact hall p known t s hr hw h
    | bind h key value =>
      obtain ⟨m, hm, hall⟩ := ih () hf.2 (b.insert key value)
      refine ⟨m, hm, fun p known t s hr hw h => ⟨hw key hf.1, ?_⟩⟩
      exact hall p known t _ hr hw ((h.bind key value).mono fun _ => .inl)
    | unbind h key =>
      obtain ⟨m, hm, hall⟩ := ih () hf.2 (b.erase key)
      exact ⟨m, hm, fun p known t s hr hw h => ⟨hw key hf.1, hall p known t _ hr hw (h.unbind key)⟩⟩
    | create c => exact hf.elim
    | poll | signal =>
      obtain ⟨m, hm, hall⟩ := ih false (hf false) b
      exact ⟨m, hm, fun p known t s hr hw h => ⟨trivial, hall p known t s hr hw h⟩⟩
    | consult service question =>
      obtain ⟨m, hm, hall⟩ := ih (ans ⟨service, question⟩) (hf _) b
      exact ⟨m, hm, fun p known t s hr hw h => ⟨trivial, hall p known t s hr hw h⟩⟩
    | requestStop | announce _ | note _ | raise _ =>
      obtain ⟨m, hm, hall⟩ := ih () (hf ()) b
      exact ⟨m, hm, fun p known t s hr hw h => ⟨trivial, hall p known t s hr hw h⟩⟩

end WorkflowEngine
