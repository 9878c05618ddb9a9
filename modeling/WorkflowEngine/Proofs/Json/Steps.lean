import WorkflowEngine.Proofs.Json.Grammar.Number
import WorkflowEngine.Proofs.Json.Grammar.Quote

/-!
# How the reader of JSON goes on

The reader is an automaton on characters. Here its steps are put together to those over the parts of
a text: blanks, words, numbers and strings. For each part there are two lemmas. One says how the
reader goes over the part. The other says that the reader, if it is to find a value in the end, must
find such a part.

**Values in the end** (`Reading.Accepts`). A text that breaks off its grammar leaves a breach in its
draft, and a draft with a breach has no value (`Draft.value_of_breach`). So a reader that has refused
a character, or the end of the text, has found no value.
-/

namespace WorkflowEngine.Json

/-! ## Breaches -/

namespace Draft

mutual

/-- A draft that breaks off has no value. -/
theorem value_of_breach (d : Draft) (h : d.breach?.isSome) (n : Nat) (v : Value) :
    d.value n ≠ .ok v := by
  intro hv
  cases d with
  | scalar w => cases h
  | flawed => cases h
  | broken b => cases hv
  | array items breach =>
    simp only [value] at hv
    split at hv
    · cases hv
    · cases hitems : itemValues (n - 1) items with
      | error e =>
        rw [hitems] at hv
        cases hv
      | ok vs =>
        rw [hitems] at hv
        cases breach with
        | some b => cases hv
        | none =>
          rw [breach?, Option.or_none] at h
          exact itemValues_of_breach items h (n - 1) vs hitems
  | object fields =>
    simp only [value] at hv
    split at hv
    · cases hv
    · cases hfields : fieldRecord (n - 1) .empty fields with
      | error e =>
        rw [hfields] at hv
        cases hv
      | ok r => exact fieldRecord_of_breach fields h (n - 1) .empty r hfields

theorem itemValues_of_breach (ds : List Draft) (h : (itemsBreach? ds).isSome) (n : Nat)
    (vs : List Value) : itemValues n ds ≠ .ok vs := by
  intro hvs
  cases ds with
  | nil => cases h
  | cons d ds =>
    simp only [itemValues, bind, Except.bind] at hvs
    split at hvs
    · cases hvs
    · next v hv =>
      split at hvs
      · cases hvs
      · next ws hws =>
        rw [itemsBreach?, Option.isSome_or, Bool.or_eq_true] at h
        rcases h with h | h
        · exact value_of_breach d h n v hv
        · exact itemValues_of_breach ds h n ws hws

theorem fieldRecord_of_breach (fs : List (Option String × Draft)) (h : (fieldsBreach? fs).isSome)
    (n : Nat) (r s : Record Value) : fieldRecord n r fs ≠ .ok s := by
  intro hs
  cases fs with
  | nil => cases h
  | cons f fs =>
    obtain ⟨k, d⟩ := f
    simp only [fieldRecord, bind, Except.bind] at hs
    split at hs
    · cases hs
    · next name _ =>
      split at hs
      · cases hs
      · next v hv =>
        rw [fieldsBreach?, Option.isSome_or, Bool.or_eq_true] at h
        rcases h with h | h
        · exact value_of_breach d h n v hv
        · exact fieldRecord_of_breach fs h n _ s hs

end

theorem itemsBreach?_isSome {ds : List Draft} :
    (itemsBreach? ds).isSome ↔ ∃ d ∈ ds, d.breach?.isSome := by
  induction ds with
  | nil => simp [itemsBreach?]
  | cons d ds ih => simp [itemsBreach?, Option.isSome_or, ih]

theorem fieldsBreach?_isSome {fs : List (Option String × Draft)} :
    (fieldsBreach? fs).isSome ↔ ∃ f ∈ fs, f.2.breach?.isSome := by
  induction fs with
  | nil => simp [fieldsBreach?]
  | cons f fs ih => simp [fieldsBreach?, Option.isSome_or, ih]

end Draft

theorem Frame.breach_around (f : Frame) {d : Draft} (h : d.breach?.isSome) :
    (f.around d).breach?.isSome := by
  cases f with
  | array items =>
    rw [around, Draft.breach?, Option.or_none, Draft.itemsBreach?_isSome]
    exact ⟨d, by simp, h⟩
  | object fields =>
    rw [around, Draft.breach?, Draft.fieldsBreach?_isSome]
    exact ⟨(none, d), by simp, h⟩
  | field fields key =>
    rw [around, Draft.breach?, Draft.fieldsBreach?_isSome]
    exact ⟨(key, d), by simp, h⟩

theorem Frame.breach_cut (f : Frame) (b : Breach) : (f.cut b).breach?.isSome := by
  unfold cut
  split <;> exact breach_around _ rfl

theorem Frame.breach_cutAfter (f : Frame) (b : Breach) : (f.cutAfter b).breach?.isSome := by
  unfold cutAfter
  split
  · rw [Draft.breach?, Option.isSome_or]
    simp
  · exact breach_cut f b

/-- The text has a value. -/
def Reading.Accepts (r : Reading) : Prop := ∃ v, r.value = .ok v

namespace State

theorem breach_cutFrames (b : Breach) (spot : Spot) (fs : List Frame) :
    (cutFrames b spot fs).breach?.isSome := by
  have hfold : ∀ (outer : List Frame) (d : Draft), d.breach?.isSome →
      (outer.foldl (fun inner g => g.around inner) d).breach?.isSome := by
    intro outer
    induction outer with
    | nil => exact fun d hd => hd
    | cons g outer ih => exact fun d hd => ih _ (g.breach_around hd)
  cases fs with
  | nil => rfl
  | cons f outer =>
    refine hfold outer _ ?_
    split
    · exact f.breach_cutAfter b
    · exact f.breach_cut b

theorem not_accepts_cut (s : State) (b : Breach) : ¬(s.cut b).Accepts := by
  rintro ⟨v, hv⟩
  unfold cut at hv
  split at hv
  · next d _ =>
    simp only [Reading.value, bind, Except.bind] at hv
    split at hv <;> cases hv
  · simp only [Reading.value, bind, Except.bind] at hv
    split at hv
    · cases hv
    · next w hw => exact Draft.value_of_breach _ (breach_cutFrames _ _ _) _ _ hw

theorem not_accepts_stop {s : State} (h : s.stop = s.cut (.plain .unfinished)) :
    ¬s.stop.Accepts := h ▸ s.not_accepts_cut _

theorem not_accepts_refuse (s : State) : ¬s.refuse.Accepts := s.not_accepts_cut _

theorem run_cons (s : State) (c : Char) (cs : List Char) :
    s.run (c :: cs) = match s.step c with
      | .ok t => t.run cs
      | .error r => r := rfl

/-! ## Between the parts of a text -/

/-- The reader stands between the parts of a text. -/
def IsBetween (s : State) : Prop := ∀ c, s.step c = s.between c

variable {s : State} {fs : List Frame}

theorem isBetween_put (fs : List Frame) (d : Draft) : (put fs d).IsBetween := by
  intro c
  cases fs with
  | nil => rfl
  | cons f fs => cases f <;> rfl

theorem run_blank (hs : s.IsBetween) {c : Char} (hc : isBlank c = true) (cs : List Char) :
    s.run (c :: cs) = s.run cs := by
  rw [run_cons, hs, between, if_pos hc]

theorem run_blanks (hs : s.IsBetween) {b : List Char} (hb : Blanks b) (cs : List Char) :
    s.run (b ++ cs) = s.run cs := by
  induction b with
  | nil => rfl
  | cons c b ih =>
    obtain ⟨hc, hb⟩ := blanks_cons.1 hb
    rw [List.cons_append, run_blank hs hc, ih hb]

theorem run_part (hs : s.IsBetween) {c : Char} (hc : isBlank c = false) {t : State}
    (ht : s.part? c = some t) (cs : List Char) : s.run (c :: cs) = t.run cs := by
  rw [run_cons, hs, between, if_neg (by simp [hc]), ht]

/-- After blanks there is a character that leads on. -/
theorem part_of_accepts (hs : s.IsBetween) (hstop : ¬s.stop.Accepts) {cs : List Char}
    (h : (s.run cs).Accepts) : ∃ b c rest t, cs = b ++ c :: rest ∧ Blanks b ∧ isBlank c = false ∧
      s.part? c = some t ∧ s.run cs = t.run rest := by
  induction cs with
  | nil => exact absurd h hstop
  | cons c cs ih =>
    cases hc : isBlank c with
    | true =>
      rw [run_blank hs hc] at h ⊢
      obtain ⟨b, d, rest, t, rfl, hb, hd, ht, hrun⟩ := ih h
      exact ⟨c :: b, d, rest, t, rfl, blanks_cons.2 ⟨hc, hb⟩, hd, ht, hrun⟩
    | false =>
      cases ht : s.part? c with
      | some t => exact ⟨[], c, cs, t, rfl, blanks_nil, hc, ht, run_part hs hc ht cs⟩
      | none =>
        rw [run_cons, hs, between, if_neg (by simp [hc]), ht] at h
        exact absurd h (not_accepts_refuse s)

/-! ## Words -/

/-- The state after a character of a word, with these still to come. -/
def inWord (fs : List Frame) (v : Value) : List Char → State
  | [] => put fs (.scalar v)
  | d :: ds => ⟨fs, .word d ds v⟩

theorem step_word (v : Value) (d : Char) (ds : List Char) (c : Char) :
    (State.mk fs (.word d ds v)).step c =
      if c = d then .ok (inWord fs v ds) else .error (State.mk fs (.word d ds v)).refuse := by
  cases ds <;> rfl

theorem run_inWord (v : Value) (ds rest : List Char) :
    (inWord fs v ds).run (ds ++ rest) = (put fs (.scalar v)).run rest := by
  induction ds with
  | nil => rfl
  | cons d ds ih =>
    rw [inWord, List.cons_append, run_cons, step_word, if_pos rfl]
    exact ih

theorem inWord_of_accepts {v : Value} {ds cs : List Char}
    (h : ((inWord fs v ds).run cs).Accepts) : ∃ rest, cs = ds ++ rest := by
  induction ds generalizing cs with
  | nil => exact ⟨cs, rfl⟩
  | cons d ds ih =>
    cases cs with
    | nil => exact absurd h (not_accepts_cut _ _)
    | cons c cs =>
      rw [inWord, run_cons, step_word] at h
      by_cases hc : c = d
      · rw [if_pos hc] at h
        obtain ⟨rest, rfl⟩ := ih h
        exact ⟨rest, by rw [hc]; rfl⟩
      · rw [if_neg hc] at h
        exact absurd h (not_accepts_refuse _)

/-! ## Numbers -/

/-- No number goes on with this character. -/
def Follows (c : Char) : Prop := c.isDigit = false ∧ c ≠ '.' ∧ c ≠ 'e' ∧ c ≠ 'E'

theorem step_number (n : Numeral) (c : Char) :
    (State.mk fs (.number n)).step c = match n.next? c with
      | some n => .ok ⟨fs, .number n⟩
      | none =>
        if n.endsBefore c then (put fs n.draft).between c
        else .error (State.mk fs (.number n)).refuse := rfl

theorem run_number {n m : Numeral} {t : List Char} (h : n.reads t = some m) (rest : List Char) :
    (State.mk fs (.number n)).run (t ++ rest) = (State.mk fs (.number m)).run rest := by
  induction t generalizing n with
  | nil =>
    cases h
    rfl
  | cons c t ih =>
    rw [Numeral.reads_cons] at h
    obtain ⟨n', hnext, h⟩ := Option.bind_eq_some_iff.1 h
    rw [List.cons_append, run_cons, step_number, hnext]
    exact ih h

/-- Before a character that no number goes on with, a complete number ends. -/
theorem number_ends {n : Numeral} (hn : n.complete = true) {c : Char} (hc : Follows c) :
    n.next? c = none ∧ n.endsBefore c = true := by
  obtain ⟨hdigit, hpoint, he, hE⟩ := hc
  refine ⟨?_, by simp [Numeral.endsBefore, hn, hdigit]⟩
  unfold Numeral.next?
  unfold Numeral.complete at hn
  cases hphase : n.phase <;> simp_all

theorem stop_number {n : Numeral} (hn : n.complete = true) :
    (State.mk fs (.number n)).stop = (put fs n.draft).stop := by
  unfold stop
  dsimp only
  rw [if_pos hn]
  cases fs with
  | nil => rfl
  | cons f fs => cases f <;> rfl

theorem run_complete {n : Numeral} (hn : n.complete = true) {rest : List Char}
    (hrest : ∀ c ∈ rest.head?, Follows c) :
    (State.mk fs (.number n)).run rest = (put fs n.draft).run rest := by
  cases rest with
  | nil => exact stop_number hn
  | cons c rest =>
    obtain ⟨hnext, hends⟩ := number_ends hn (hrest c rfl)
    rw [run_cons, run_cons, step_number, hnext, isBetween_put fs n.draft c]
    dsimp only
    rw [if_pos hends]

theorem number_of_accepts {n : Numeral} {cs : List Char}
    (h : ((State.mk fs (.number n)).run cs).Accepts) : ∃ t rest m, cs = t ++ rest ∧
      n.reads t = some m ∧ m.complete = true ∧
      (State.mk fs (.number n)).run cs = (put fs m.draft).run rest := by
  induction cs generalizing n with
  | nil =>
    cases hn : n.complete with
    | true => exact ⟨[], [], n, rfl, rfl, hn, stop_number hn⟩
    | false =>
      have hstop : (State.mk fs (.number n)).stop =
          (State.mk fs (.number n)).cut ⟨.unfinished, .malformed⟩ := if_neg (by simp [hn])
      rw [run, hstop] at h
      exact absurd h (not_accepts_cut _ _)
  | cons c cs ih =>
    cases hnext : n.next? c with
    | some n' =>
      rw [run_cons, step_number, hnext] at h ⊢
      obtain ⟨t, rest, m, rfl, hreads, hm, hrun⟩ := ih h
      exact ⟨c :: t, rest, m, rfl, by rw [Numeral.reads_cons, hnext]; exact hreads, hm, hrun⟩
    | none =>
      cases hends : n.endsBefore c with
      | true =>
        have hn : n.complete = true := (Bool.and_eq_true_iff.1 hends).1
        refine ⟨[], c :: cs, n, rfl, rfl, hn, ?_⟩
        rw [run_cons, run_cons, step_number, hnext, isBetween_put fs n.draft c]
        dsimp only
        rw [if_pos hends]
      | false =>
        rw [run_cons, step_number, hnext] at h
        dsimp only at h
        rw [if_neg (by simp [hends])] at h
        exact absurd h (not_accepts_refuse _)

/-! ## Strings -/

theorem step_string (isKey : Bool) (q : Quote) (c : Char) :
    (State.mk fs (.string isKey q)).step c =
      if c = '"' ∧ q.closes then .ok (closeString fs isKey q)
      else match q.next? c with
        | some q => .ok ⟨fs, .string isKey q⟩
        | none => .error (State.mk fs (.string isKey q)).refuse := rfl

theorem run_string {isKey : Bool} {q q' : Quote} {t : List Char} (h : q.reads t = some q')
    (hclose : q'.closes = true) (rest : List Char) :
    (State.mk fs (.string isKey q)).run (t ++ '"' :: rest) =
      (closeString fs isKey q').run rest := by
  induction t generalizing q with
  | nil =>
    cases h
    rw [List.nil_append, run_cons, step_string, if_pos ⟨rfl, hclose⟩]
  | cons c t ih =>
    rw [Quote.reads_cons] at h
    split at h
    · cases h
    · next hc =>
      obtain ⟨r, hnext, h⟩ := Option.bind_eq_some_iff.1 h
      rw [List.cons_append, run_cons, step_string, if_neg hc, hnext]
      exact ih h

theorem string_of_accepts {isKey : Bool} {q : Quote} {cs : List Char}
    (h : ((State.mk fs (.string isKey q)).run cs).Accepts) : ∃ t rest q', cs = t ++ '"' :: rest ∧
      q.reads t = some q' ∧ q'.closes = true ∧
      (State.mk fs (.string isKey q)).run cs = (closeString fs isKey q').run rest := by
  induction cs generalizing q with
  | nil => exact absurd h (not_accepts_cut _ _)
  | cons c cs ih =>
    by_cases hc : c = '"' ∧ q.closes = true
    · obtain ⟨rfl, hclose⟩ := hc
      refine ⟨[], cs, q, rfl, rfl, hclose, ?_⟩
      rw [run_cons, step_string, if_pos ⟨rfl, hclose⟩]
    · rw [run_cons, step_string, if_neg hc] at h ⊢
      cases hnext : q.next? c with
      | none =>
        rw [hnext] at h
        exact absurd h (not_accepts_refuse _)
      | some r =>
        rw [hnext] at h
        obtain ⟨t, rest, q', rfl, hreads, hclose, hrun⟩ := ih h
        refine ⟨c :: t, rest, q', rfl, ?_, hclose, hrun⟩
        rw [Quote.reads_cons, if_neg hc, hnext]
        exact hreads

end State

end WorkflowEngine.Json
