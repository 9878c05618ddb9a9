import WorkflowEngine.Proofs.Json.Grammar

/-!
# Numbers: the reader and the grammar

The reader of a number knows only the phase it is in. What may still follow in a phase is a part of
the grammar (`Numeral.Rest`), and one more character leads from phase to phase just as it leads from
part to part (`Numeral.rest_cons`). So the reader accepts what the grammar calls a number
(`Numeral.ofText?_complete_iff`).
-/

namespace WorkflowEngine.Json

/-! ## Parts of a number -/

/-- Digits, perhaps none, and then a text as described. -/
def DigitsThen (p : List Char → Prop) (t : List Char) : Prop :=
  ∃ ds r, t = ds ++ r ∧ (∀ c ∈ ds, c.isDigit = true) ∧ p r

/-- The part of a number behind its whole part. -/
def FractionText (t : List Char) : Prop :=
  ∃ places power, t = places ++ power ∧ PlacesText places ∧ PowerText power

/-- The part of a number behind its point. -/
def PlacesPower (t : List Char) : Prop := ∃ ds power, t = ds ++ power ∧ Digits ds ∧ PowerText power

variable {p : List Char → Prop} {c : Char} {t : List Char}

theorem digitsThen_nil : DigitsThen p [] ↔ p [] := by
  constructor
  · rintro ⟨ds, r, h, -, hr⟩
    obtain ⟨rfl, rfl⟩ := List.append_eq_nil_iff.1 h.symm
    exact hr
  · exact fun h => ⟨[], [], rfl, by simp, h⟩

theorem digitsThen_cons : DigitsThen p (c :: t) ↔
    (c.isDigit = true ∧ DigitsThen p t) ∨ p (c :: t) := by
  constructor
  · rintro ⟨ds, r, h, hds, hr⟩
    cases ds with
    | nil =>
      obtain rfl : c :: t = r := h
      exact .inr hr
    | cons d ds =>
      obtain ⟨rfl, rfl⟩ := List.cons.inj h
      exact .inl ⟨hds _ (by simp), ds, r, rfl, fun x hx => hds x (by simp [hx]), hr⟩
  · rintro (⟨hc, ds, r, rfl, hds, hr⟩ | h)
    · refine ⟨c :: ds, r, rfl, fun x hx => ?_, hr⟩
      rcases List.mem_cons.1 hx with rfl | hx
      · exact hc
      · exact hds x hx
    · exact ⟨[], c :: t, rfl, by simp, h⟩

theorem not_digits_nil : ¬Digits [] := fun h => h.1 rfl

theorem digits_cons : Digits (c :: t) ↔ c.isDigit = true ∧ DigitsThen (· = []) t := by
  constructor
  · rintro ⟨-, h⟩
    exact ⟨h c (by simp), t, [], by simp, fun x hx => h x (by simp [hx]), rfl⟩
  · rintro ⟨hc, ds, r, rfl, hds, rfl⟩
    refine ⟨by simp, fun x hx => ?_⟩
    rw [List.append_nil] at hx
    rcases List.mem_cons.1 hx with rfl | hx
    · exact hc
    · exact hds x hx

theorem not_powerDigits_nil : ¬PowerDigits [] := by
  rintro (h | ⟨c, ds, h, -⟩)
  · exact not_digits_nil h
  · cases h

theorem powerDigits_cons : PowerDigits (c :: t) ↔
    ((c = '+' ∨ c = '-') ∧ Digits t) ∨ (c.isDigit = true ∧ DigitsThen (· = []) t) := by
  rw [← digits_cons, PowerDigits, or_comm]
  refine or_congr ⟨?_, fun h => ⟨c, t, rfl, h⟩⟩ Iff.rfl
  rintro ⟨c', ds, h, hsign⟩
  cases h
  exact hsign

theorem powerText_cons : PowerText (c :: t) ↔ (c = 'e' ∨ c = 'E') ∧ PowerDigits t := by
  constructor
  · rintro (h | ⟨c', ds, h, hpower⟩)
    · cases h
    · cases h
      exact hpower
  · exact fun h => .inr ⟨c, t, rfl, h⟩

theorem not_placesPower_nil : ¬PlacesPower [] := by
  rintro ⟨ds, power, h, hds, -⟩
  obtain ⟨rfl, -⟩ := List.append_eq_nil_iff.1 h.symm
  exact not_digits_nil hds

theorem placesPower_cons : PlacesPower (c :: t) ↔ c.isDigit = true ∧ DigitsThen PowerText t := by
  constructor
  · rintro ⟨ds, power, h, hds, hpower⟩
    cases ds with
    | nil => exact absurd hds not_digits_nil
    | cons d ds =>
      obtain ⟨rfl, rfl⟩ := List.cons.inj h
      exact ⟨hds.2 _ (by simp), ds, power, rfl, fun x hx => hds.2 x (by simp [hx]), hpower⟩
  · rintro ⟨hc, ds, power, rfl, hds, hpower⟩
    refine ⟨c :: ds, power, rfl, ⟨by simp, fun x hx => ?_⟩, hpower⟩
    rcases List.mem_cons.1 hx with rfl | hx
    · exact hc
    · exact hds x hx

theorem fractionText_nil : FractionText [] := ⟨[], [], rfl, .inl rfl, .inl rfl⟩

theorem fractionText_cons : FractionText (c :: t) ↔
    (c = '.' ∧ PlacesPower t) ∨ ((c = 'e' ∨ c = 'E') ∧ PowerDigits t) := by
  rw [← powerText_cons]
  constructor
  · rintro ⟨places, power, h, rfl | ⟨ds, rfl, hds⟩, hpower⟩
    · obtain rfl : c :: t = power := h
      exact .inr hpower
    · obtain ⟨rfl, rfl⟩ := List.cons.inj h
      exact .inl ⟨rfl, ds, power, rfl, hds, hpower⟩
  · rintro (⟨rfl, ds, power, rfl, hds, hpower⟩ | h)
    · exact ⟨'.' :: ds, power, rfl, .inr ⟨ds, rfl, hds⟩, hpower⟩
    · exact ⟨[], c :: t, rfl, .inl rfl, h⟩

theorem not_unsignedText_nil : ¬UnsignedText [] := by
  rintro ⟨whole, places, power, h, hwhole, -⟩
  obtain ⟨rfl, -⟩ := List.append_eq_nil_iff.1 h.symm
  rcases hwhole with h | ⟨h, -⟩
  · cases h
  · exact not_digits_nil h

theorem unsignedText_cons : UnsignedText (c :: t) ↔
    (c = '0' ∧ FractionText t) ∨
      (c ≠ '0' ∧ c.isDigit = true ∧ DigitsThen FractionText t) := by
  constructor
  · rintro ⟨whole, places, power, h, rfl | ⟨hds, hhead⟩, hplaces, hpower⟩
    · obtain ⟨rfl, rfl⟩ := List.cons.inj h
      exact .inl ⟨rfl, places, power, rfl, hplaces, hpower⟩
    · cases whole with
      | nil => exact absurd hds not_digits_nil
      | cons d ds =>
        obtain ⟨rfl, rfl⟩ := List.cons.inj h
        refine .inr ⟨by simpa using hhead, hds.2 _ (by simp), ds, _, rfl,
          fun x hx => hds.2 x (by simp [hx]), places, power, rfl, hplaces, hpower⟩
  · rintro (⟨rfl, places, power, rfl, hplaces, hpower⟩ |
      ⟨hne, hc, ds, _, rfl, hds, places, power, rfl, hplaces, hpower⟩)
    · exact ⟨['0'], places, power, rfl, .inl rfl, hplaces, hpower⟩
    · refine ⟨c :: ds, places, power, rfl, .inr ⟨⟨by simp, fun x hx => ?_⟩, by simpa using hne⟩,
        hplaces, hpower⟩
      rcases List.mem_cons.1 hx with rfl | hx
      · exact hc
      · exact hds x hx

theorem not_numberText_nil : ¬NumberText [] := by
  rintro (h | ⟨u, h, -⟩)
  · exact not_unsignedText_nil h
  · cases h

theorem numberText_cons : NumberText (c :: t) ↔
    (c = '-' ∧ UnsignedText t) ∨ UnsignedText (c :: t) := by
  rw [NumberText, or_comm]
  refine or_congr ⟨?_, fun h => ⟨t, by rw [h.1], h.2⟩⟩ Iff.rfl
  rintro ⟨u, h, hu⟩
  cases h
  exact ⟨rfl, hu⟩

/-! ## From phase to phase -/

namespace Numeral

/-- What may still follow in a phase of a number, up to its end. -/
def Rest : Phase → List Char → Prop
  | .sign => UnsignedText
  | .zero => FractionText
  | .whole => DigitsThen FractionText
  | .point => PlacesPower
  | .places => DigitsThen PowerText
  | .mark => PowerDigits
  | .markSign => Digits
  | .power => DigitsThen (· = [])

theorem rest_nil (n : Numeral) : Rest n.phase [] ↔ n.complete = true := by
  unfold complete
  cases n.phase <;>
    simp [Rest, digitsThen_nil, fractionText_nil, not_unsignedText_nil, not_placesPower_nil,
      not_powerDigits_nil, not_digits_nil, PowerText]

theorem append?_phase {n m : Numeral} {c : Char} (h : n.append? c = some m) :
    m.phase = n.phase := by
  simp only [append?] at h
  split at h
  · cases h
  · cases h
    rfl

theorem wholeDigit_phase (n : Numeral) (c : Char) : (n.wholeDigit c).phase = n.phase := by
  unfold wholeDigit
  cases h : n.append? c with
  | none => rfl
  | some m => exact append?_phase h

theorem leads_ite {b : Prop} [Decidable b] {x y : Option Numeral} {q : Numeral → Prop} :
    (∃ m, (if b then x else y) = some m ∧ q m) ↔
      (b ∧ ∃ m, x = some m ∧ q m) ∨ (¬b ∧ ∃ m, y = some m ∧ q m) := by
  by_cases hb : b <;> simp [hb]

theorem leads_some {n : Numeral} {q : Numeral → Prop} : (∃ m, some n = some m ∧ q m) ↔ q n := by
  simp

theorem leads_none {q : Numeral → Prop} : (∃ m, none = some m ∧ q m) ↔ False := by
  simp

theorem isDigit_of_mark {c : Char}
    (h : c = '.' ∨ c = '+' ∨ c = '-' ∨ c = 'e' ∨ c = 'E') : c.isDigit = false := by
  rcases h with rfl | rfl | rfl | rfl | rfl <;> rfl

/-- **A character leads on from a phase just as it leads on in the grammar.** -/
theorem rest_cons (n : Numeral) (c : Char) (t : List Char) :
    Rest n.phase (c :: t) ↔ ∃ m, n.next? c = some m ∧ Rest m.phase t := by
  have hmark := @isDigit_of_mark c
  have hzero : c = '0' → c.isDigit = true := by
    rintro rfl
    rfl
  unfold next?
  cases hphase : n.phase with
  | sign =>
    simp only [leads_ite, leads_some, leads_none, Rest, unsignedText_cons]
    grind
  | zero =>
    simp only [leads_ite, leads_some, leads_none, Rest, fractionText_cons]
    grind
  | whole =>
    simp only [leads_ite, leads_some, leads_none, wholeDigit_phase, hphase, Rest, digitsThen_cons,
      fractionText_cons]
    grind
  | point =>
    simp only [leads_ite, leads_some, leads_none, Rest, placesPower_cons]
    grind
  | places =>
    simp only [leads_ite, leads_some, leads_none, Rest, digitsThen_cons, powerText_cons]
    grind
  | mark =>
    simp only [leads_ite, leads_some, leads_none, Rest, powerDigits_cons]
    grind
  | markSign =>
    simp only [leads_ite, leads_some, leads_none, Rest, digits_cons]
    grind
  | power =>
    simp only [leads_ite, leads_some, leads_none, Rest, digitsThen_cons]
    grind

theorem reads_nil (n : Numeral) : n.reads [] = some n := rfl

theorem reads_cons (n : Numeral) (c : Char) (t : List Char) :
    n.reads (c :: t) = (n.next? c).bind (·.reads t) := rfl

/-- A number can be read to its end exactly if that follows in the grammar. -/
theorem reads_complete_iff (n : Numeral) (t : List Char) :
    (∃ m, n.reads t = some m ∧ m.complete = true) ↔ Rest n.phase t := by
  induction t generalizing n with
  | nil => simp [reads_nil, rest_nil]
  | cons c t ih =>
    rw [rest_cons, reads_cons]
    constructor
    · rintro ⟨m, hm, hcomplete⟩
      obtain ⟨m', hnext, hreads⟩ := Option.bind_eq_some_iff.1 hm
      exact ⟨m', hnext, (ih m').1 ⟨m, hreads, hcomplete⟩⟩
    · rintro ⟨m', hnext, hrest⟩
      obtain ⟨m, hreads, hcomplete⟩ := (ih m').2 hrest
      exact ⟨m, by rw [hnext]; exact hreads, hcomplete⟩

/-- **The reader accepts what the grammar calls a number.** -/
theorem ofText?_complete_iff (t : List Char) :
    (∃ m, ofText? t = some m ∧ m.complete = true) ↔ NumberText t := by
  cases t with
  | nil => simp [ofText?, not_numberText_nil]
  | cons c t =>
    have hmark := @isDigit_of_mark c
    have hzero : c = '-' → c ≠ '0' := by
      rintro rfl
      decide
    have hstart : (∃ m, ofText? (c :: t) = some m ∧ m.complete = true) ↔
        ∃ n, start? c = some n ∧ Rest n.phase t := by
      simp only [ofText?, Option.bind_eq_some_iff, ← reads_complete_iff]
      grind
    rw [hstart, numberText_cons, unsignedText_cons]
    simp only [start?, leads_ite, leads_some, leads_none, Rest]
    grind

end Numeral

end WorkflowEngine.Json
