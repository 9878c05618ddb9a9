import WorkflowEngine.Proofs.Trace

/-!
# Approximation: flows that are cut off later

Loops need not end, so a flow is cut off after some number of steps. `f.Below g` says that `g` does
what `f` does and goes on where `f` is cut off. With more steps a flow only gets higher in this
order, and what has come to its end stays what it is.

Two families of flows, one flow for each number of steps, *agree* (`Flow.Agree`) if each flow of one
family is below some flow of the other. Such families cannot be told apart: under the same answers
they do the same actions in the same order, and one of them ends exactly if the other does, with the
same result.
-/

namespace WorkflowEngine

namespace Flow

variable {α β : Type}

/-- The second flow does what the first does, and perhaps goes on where the first is cut off. -/
inductive Below : Flow α → Flow α → Prop
  | starved (g : Flow α) : Below .starved g
  | done (r : Except Fault α) : Below (.done r) (.done r)
  | pause {rest rest' : Unit → Flow α} :
      Below (rest ()) (rest' ()) → Below (.pause rest) (.pause rest')
  | act {a : Action} {next next' : a.Answer → Flow α} :
      (∀ x, Below (next x) (next' x)) → Below (.act a next) (.act a next')

namespace Below

theorem refl (f : Flow α) : f.Below f := by
  induction f with
  | done r => exact .done r
  | starved => exact .starved _
  | pause rest ih => exact .pause (ih ())
  | act a next ih => exact .act ih

theorem trans {f g h : Flow α} (hfg : f.Below g) (hgh : g.Below h) : f.Below h := by
  induction hfg generalizing h with
  | starved g => exact .starved h
  | done r => exact hgh
  | pause _ ih =>
    cases hgh with
    | pause hgh => exact .pause (ih hgh)
  | act _ ih =>
    cases hgh with
    | act hgh => exact .act fun x => ih x (hgh x)

theorem bind {f g : Flow α} {k l : α → Flow β} (h : f.Below g) (hk : ∀ a, (k a).Below (l a)) :
    (f.bind k).Below (g.bind l) := by
  induction h with
  | starved g => exact .starved _
  | done r =>
    cases r with
    | ok a => exact hk a
    | error e => exact .done _
  | pause _ ih => exact .pause ih
  | act _ ih => exact .act ih

theorem attempt {f g : Flow α} (h : f.Below g) : f.attempt.Below g.attempt := by
  induction h with
  | starved g => exact .starved _
  | done r => exact .done _
  | pause _ ih => exact .pause ih
  | act _ ih => exact .act ih

/-! ## What is seen of a flow -/

/-- A run that ends does so however much later the flow would be cut off. -/
theorem run_eq {f g : Flow α} (h : f.Below g) {env : Environment} {w v : World}
    {r : Except Fault α} (hf : f.run env w = (.ended r, v)) : g.run env w = (.ended r, v) := by
  induction h generalizing w with
  | starved g =>
    simp only [run, Prod.mk.injEq] at hf
    cases hf.1
  | done r => exact hf
  | pause _ ih => exact ih hf
  | act _ ih => exact ih _ hf

theorem goes {f g f' : Flow α} {t : List Mark} (h : f.Below g) (hf : f.Goes t f') :
    ∃ g', g.Goes t g' ∧ f'.Below g' := by
  induction hf generalizing g with
  | here f => exact ⟨g, .here g, h⟩
  | pause _ ih =>
    cases h with
    | pause h =>
      obtain ⟨g', hg, hb⟩ := ih h
      exact ⟨g', .pause hg, hb⟩
  | act x _ ih =>
    cases h with
    | act h =>
      obtain ⟨g', hg, hb⟩ := ih (h x)
      exact ⟨g', .act x hg, hb⟩

theorem goes_done {f g : Flow α} {t : List Mark} {r : Except Fault α} (h : f.Below g)
    (hf : f.Goes t (.done r)) : g.Goes t (.done r) := by
  obtain ⟨g', hg, hb⟩ := h.goes hf
  cases hb
  exact hg

end Below

/-! ## Families of flows -/

theorem below_of_le {f : Nat → Flow α} (h : ∀ n, (f n).Below (f (n + 1))) {m n : Nat}
    (hmn : m ≤ n) : (f m).Below (f n) := by
  induction hmn with
  | refl => exact .refl _
  | step _ ih => exact ih.trans (h _)

/-- Every flow of the first family is below one of the second. -/
def Bounded (f g : Nat → Flow α) : Prop := ∀ n, ∃ m, (f n).Below (g m)

/-- Two families that cannot be told apart: answered alike they go the same way at every moment, one
ends iff the other does, with the same result, and so do their runs in every world. -/
structure Agree (f g : Nat → Flow α) : Prop where
  goes_iff : ∀ t, (∃ n f', (f n).Goes t f') ↔ ∃ n g', (g n).Goes t g'
  ends_iff : ∀ t r, (∃ n, (f n).Goes t (.done r)) ↔ ∃ n, (g n).Goes t (.done r)
  run_iff : ∀ env w r v,
    (∃ n, (f n).run env w = (.ended r, v)) ↔ ∃ n, (g n).run env w = (.ended r, v)

theorem Bounded.goes {f g : Nat → Flow α} (h : Bounded f g) {t : List Mark} :
    (∃ n f', (f n).Goes t f') → ∃ n g', (g n).Goes t g' := by
  rintro ⟨n, f', hf⟩
  obtain ⟨m, hm⟩ := h n
  obtain ⟨g', hg, -⟩ := hm.goes hf
  exact ⟨m, g', hg⟩

theorem Bounded.ends {f g : Nat → Flow α} (h : Bounded f g) {t : List Mark} {r : Except Fault α} :
    (∃ n, (f n).Goes t (.done r)) → ∃ n, (g n).Goes t (.done r) := by
  rintro ⟨n, hf⟩
  obtain ⟨m, hm⟩ := h n
  exact ⟨m, hm.goes_done hf⟩

theorem Bounded.run {f g : Nat → Flow α} (h : Bounded f g) {env : Environment} {w v : World}
    {r : Except Fault α} :
    (∃ n, (f n).run env w = (.ended r, v)) → ∃ n, (g n).run env w = (.ended r, v) := by
  rintro ⟨n, hf⟩
  obtain ⟨m, hm⟩ := h n
  exact ⟨m, hm.run_eq hf⟩

theorem Agree.of_bounded {f g : Nat → Flow α} (h : Bounded f g) (h' : Bounded g f) : Agree f g where
  goes_iff _ := ⟨h.goes, h'.goes⟩
  ends_iff _ _ := ⟨h.ends, h'.ends⟩
  run_iff _ _ _ _ := ⟨h.run, h'.run⟩

end Flow

end WorkflowEngine
