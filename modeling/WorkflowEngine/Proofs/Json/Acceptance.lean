import WorkflowEngine.Proofs.Json.Steps

/-!
# The reader of JSON accepts the grammar

**Theorem (`parse_eq_ok_iff`).** A text is read as a value exactly if the grammar says that it
denotes this value, with blanks around it and with arrays and objects nested at most `maxDepth`
deep.

*From the grammar to the reader* (`goes_of_denotes`): by induction on the grammar, the reader goes
over the text of a value and puts its draft where a value was due, whatever is open around it.

*From the reader to the grammar* (`denotes_of_accepts`): by induction on the length of the text. A
reader that finds a value in the end, and for which a value is due, goes over a text that denotes
one. It is a draft that is put in place then; the grammar speaks of its value, which is known only
at the end, when all that is nested has been counted (`Means`).
-/

namespace WorkflowEngine.Json

open State (run put)

/-! ## Members of a draft -/

namespace Draft

theorem itemValues_cons {n : Nat} {d : Draft} {ds : List Draft} {vs : List Value} :
    itemValues n (d :: ds) = .ok vs ↔
      ∃ v ws, d.value n = .ok v ∧ itemValues n ds = .ok ws ∧ vs = v :: ws := by
  simp only [itemValues, bind, Except.bind, pure, Except.pure]
  cases d.value n with
  | error e => simp
  | ok v => cases itemValues n ds with
    | error e => simp
    | ok ws => simp [eq_comm]

theorem fieldRecord_cons {n : Nat} {r s : Record Value} {k : Option String} {d : Draft}
    {fs : List (Option String × Draft)} : fieldRecord n r ((k, d) :: fs) = .ok s ↔
      ∃ name v, k = some name ∧ d.value n = .ok v ∧ fieldRecord n (r.insert name v) fs = .ok s := by
  simp only [fieldRecord, bind, Except.bind]
  cases k with
  | none => cases d <;> simp [key]
  | some name => cases hd : d.value n <;> simp [key]

theorem value_array {n : Nat} {ds : List Draft} {v : Value} :
    (array ds none).value n = .ok v ↔
      ∃ m vs, n = m + 1 ∧ itemValues m ds = .ok vs ∧ v = .array vs := by
  cases n with
  | zero => simp [value]
  | succ m =>
    simp only [value, if_neg (Nat.succ_ne_zero m), Nat.add_sub_cancel, bind, Except.bind]
    cases hvs : itemValues m ds with
    | error e => simp [hvs]
    | ok vs => simp [hvs, arrayEnd, eq_comm]

theorem value_object {n : Nat} {fs : List (Option String × Draft)} {v : Value} :
    (object fs).value n = .ok v ↔
      ∃ m r, n = m + 1 ∧ fieldRecord m .empty fs = .ok r ∧ v = .ofRecord r := by
  cases n with
  | zero => simp [value]
  | succ m =>
    simp only [value, if_neg (Nat.succ_ne_zero m), Nat.add_sub_cancel]
    cases hr : fieldRecord m .empty fs with
    | error e => simp [hr, Functor.map, Except.map]
    | ok r => simp [hr, Functor.map, Except.map, eq_comm]

end Draft

/-! ## From the grammar to the reader -/

/-- The reader, where a value is due, goes over the text and puts the draft in its place. -/
def Goes (t : List Char) (d : Draft) : Prop :=
  ∀ fs rest, (∀ c ∈ rest.head?, State.Follows c) →
    (State.mk fs .value).run (t ++ rest) = (put fs d).run rest

theorem follows_of_blank {c : Char} (h : State.isBlank c = true) : State.Follows c := by
  simp only [State.isBlank, Bool.or_eq_true, decide_eq_true_eq] at h
  rcases h with ((rfl | rfl) | rfl) | rfl <;> exact ⟨rfl, by decide, by decide, by decide⟩

theorem follows_closing {c : Char} (h : c = ',' ∨ c = ']' ∨ c = '}') : State.Follows c := by
  rcases h with rfl | rfl | rfl <;> exact ⟨rfl, by decide, by decide, by decide⟩

theorem run_begin {fs : List Frame} {c : Char} (hc : State.isBlank c = false) {s : State}
    (hs : State.begin? fs c = some s) (rest : List Char) :
    (State.mk fs .value).run (c :: rest) = s.run rest :=
  State.run_part (s := ⟨fs, .value⟩) (fun _ => rfl) hc hs rest

theorem start?_range {c : Char} {n : Numeral} (h : Numeral.start? c = some n) :
    c = '-' ∨ c.isDigit = true := by
  unfold Numeral.start? at h
  split at h
  · next hc => exact .inl hc
  · split at h
    · next hc => exact .inr (hc ▸ rfl)
    · split at h
      · next hc => exact .inr hc
      · cases h

theorem begin?_number (fs : List Frame) {c : Char} {n : Numeral}
    (h : Numeral.start? c = some n) :
    State.isBlank c = false ∧ c ≠ ']' ∧ State.begin? fs c = some ⟨fs, .number n⟩ := by
  have hrange := start?_range h
  have hnot : ∀ d : Char, d ≠ '-' → d.isDigit = false → c ≠ d := by
    rintro d hminus hdigit rfl
    rcases hrange with rfl | hd
    · exact hminus rfl
    · rw [hdigit] at hd
      cases hd
  refine ⟨?_, hnot ']' (by decide) rfl, ?_⟩
  · simp [State.isBlank, hnot ' ' (by decide) rfl, hnot '\n' (by decide) rfl,
      hnot '\t' (by decide) rfl, hnot '\r' (by decide) rfl]
  · unfold State.begin?
    split
    · exact absurd rfl (hnot '{' (by decide) rfl)
    · exact absurd rfl (hnot '[' (by decide) rfl)
    · exact absurd rfl (hnot '"' (by decide) rfl)
    · exact absurd rfl (hnot 'n' (by decide) rfl)
    · exact absurd rfl (hnot 't' (by decide) rfl)
    · exact absurd rfl (hnot 'f' (by decide) rfl)
    · rw [h]
      rfl

theorem goes_word {c : Char} {ds : List Char} {v : Value} (hc : State.isBlank c = false)
    (hbegin : ∀ fs, State.begin? fs c = some (State.inWord fs v ds)) :
    Goes (c :: ds) (.scalar v) := by
  intro fs rest _
  rw [List.cons_append, run_begin hc (hbegin fs), State.run_inWord]

theorem goes_number {t : List Char} (h : NumberText t) {m : Numeral}
    (hm : Numeral.ofText? t = some m) : Goes t m.draft := by
  obtain ⟨m', hm', hcomplete⟩ := (Numeral.ofText?_complete_iff t).2 h
  obtain rfl : m = m' := Option.some.inj (hm.symm.trans hm')
  intro fs rest hrest
  cases t with
  | nil => cases hm
  | cons c t =>
    obtain ⟨n, hn, hreads⟩ := Option.bind_eq_some_iff.1 hm
    obtain ⟨hblank, -, hbegin⟩ := begin?_number fs hn
    rw [List.cons_append, run_begin hblank hbegin, State.run_number hreads,
      State.run_complete hcomplete hrest]

theorem goes_string {t s : List Char} (h : Characters t s) :
    Goes ('"' :: (t ++ ['"'])) (.scalar (.string (String.ofList s))) := by
  intro fs rest _
  rw [List.cons_append, List.append_assoc, run_begin rfl rfl]
  refine (State.run_string (Quote.reads_of_characters h []) rfl rest).trans ?_
  rw [List.append_nil]
  simp [State.closeString, Quote.text?, Quote.clear]

theorem Goes.padded {b t b' : List Char} {d : Draft} (hb : Blanks b) (hb' : Blanks b')
    (h : Goes t d) : Goes (b ++ (t ++ b')) d := by
  intro fs rest hrest
  rw [List.append_assoc, List.append_assoc, State.run_blanks (fun _ => rfl) hb, h fs (b' ++ rest) ?_,
    State.run_blanks (State.isBetween_put fs d) hb']
  cases b' with
  | nil => exact hrest
  | cons c b' =>
    rintro c' hc'
    cases hc'
    exact follows_of_blank (blanks_cons.1 hb').1

/-- A value begins with a character that is no blank and closes nothing. -/
theorem Denotes.begins {n : Nat} {t : List Char} {v : Value} (h : Denotes n t v) :
    ∃ c u, t = c :: u ∧ State.isBlank c = false ∧ c ≠ ']' := by
  cases h with
  | nullWord => exact ⟨'n', _, rfl, rfl, by decide⟩
  | trueWord => exact ⟨'t', _, rfl, rfl, by decide⟩
  | falseWord => exact ⟨'f', _, rfl, rfl, by decide⟩
  | number _ hm =>
    cases t with
    | nil => cases hm
    | cons c t =>
      obtain ⟨n, hn, -⟩ := Option.bind_eq_some_iff.1 hm
      obtain ⟨hblank, hclose, -⟩ := begin?_number [] hn
      exact ⟨c, t, rfl, hblank, hclose⟩
  | string _ => exact ⟨'"', _, rfl, rfl, by decide⟩
  | emptyArray _ => exact ⟨'[', _, rfl, rfl, by decide⟩
  | array _ => exact ⟨'[', _, rfl, rfl, by decide⟩
  | emptyObject _ => exact ⟨'{', _, rfl, rfl, by decide⟩
  | object _ => exact ⟨'{', _, rfl, rfl, by decide⟩

theorem Padded.begins {n : Nat} {t : List Char} {v : Value} (h : Padded n t v) :
    ∃ b c u, t = b ++ c :: u ∧ Blanks b ∧ State.isBlank c = false ∧ c ≠ ']' := by
  cases h with
  | mk hb hv hb' =>
    obtain ⟨c, u, rfl, hblank, hclose⟩ := hv.begins
    exact ⟨_, c, _, rfl, hb, hblank, hclose⟩

theorem Items.begins {n : Nat} {t : List Char} {vs : List Value} (h : Items n t vs) :
    ∃ b c u, t = b ++ c :: u ∧ Blanks b ∧ State.isBlank c = false ∧ c ≠ ']' := by
  cases h with
  | one hv => exact hv.begins
  | more hv _ =>
    obtain ⟨b, c, u, rfl, h⟩ := hv.begins
    exact ⟨b, c, _, by rw [List.append_assoc, List.cons_append], h⟩

theorem run_item {fs : List Frame} {b u : List Char} {c : Char} (hb : Blanks b)
    (hc : State.isBlank c = false) (hclose : c ≠ ']') :
    (State.mk (.array [] :: fs) .item).run (b ++ c :: u) =
      (State.mk (.array [] :: fs) .value).run (b ++ c :: u) := by
  have hnone : State.close? (.array [] :: fs) c = none := by
    unfold State.close?
    split
    · exact absurd rfl hclose
    · next h =>
      cases h
    · rfl
  rw [State.run_blanks (fun _ => rfl) hb, State.run_blanks (fun _ => rfl) hb, State.run_cons,
    State.run_cons]
  simp only [State.step, State.between, State.part?, hc, hnone, Option.none_or]
  rfl

mutual

/-- **The reader goes over what the grammar says.** -/
theorem goes_of_denotes {n : Nat} {t : List Char} {v : Value} (h : Denotes n t v) :
    ∃ d : Draft, d.value n = .ok v ∧ Goes t d := by
  match h with
  | .nullWord => exact ⟨_, rfl, goes_word rfl fun _ => rfl⟩
  | .trueWord => exact ⟨_, rfl, goes_word rfl fun _ => rfl⟩
  | .falseWord => exact ⟨_, rfl, goes_word rfl fun _ => rfl⟩
  | .number ht hm hx => exact ⟨_, rfl, hx ▸ goes_number ht hm⟩
  | .string hs => exact ⟨_, rfl, goes_string hs⟩
  | .emptyArray hb =>
    refine ⟨.array [] none, rfl, fun fs rest _ => ?_⟩
    rw [List.cons_append, List.append_assoc, run_begin rfl rfl,
      State.run_blanks (fun _ => rfl) hb]
    exact State.run_part (fun _ => rfl) rfl rfl rest
  | .array hitems =>
    obtain ⟨ds, hds, hgoes⟩ := goes_of_items hitems
    obtain ⟨b, c, u, rfl, hb, hc, hclose⟩ := hitems.begins
    refine ⟨.array ds none, Draft.value_array.2 ⟨_, _, rfl, hds, rfl⟩, fun fs rest _ => ?_⟩
    have hrun := hgoes [] fs rest
    rw [List.append_assoc, List.cons_append] at hrun
    rw [List.cons_append, List.append_assoc, List.append_assoc, List.cons_append, run_begin rfl rfl,
      run_item hb hc hclose]
    exact hrun
  | .emptyObject hb =>
    refine ⟨.object [], rfl, fun fs rest _ => ?_⟩
    rw [List.cons_append, List.append_assoc, run_begin rfl rfl,
      State.run_blanks (fun _ => rfl) hb]
    exact State.run_part (fun _ => rfl) rfl rfl rest
  | .object hfields =>
    obtain ⟨ds, hds, hgoes⟩ := goes_of_fields hfields
    refine ⟨.object ds, Draft.value_object.2 ⟨_, _, rfl, hds .empty, rfl⟩, fun fs rest _ => ?_⟩
    rw [List.cons_append, List.append_assoc, run_begin rfl rfl]
    exact hgoes .field (.inl rfl) [] fs rest

theorem goes_of_padded {n : Nat} {t : List Char} {v : Value} (h : Padded n t v) :
    ∃ d : Draft, d.value n = .ok v ∧ Goes t d := by
  match h with
  | .mk hb hv hb' =>
    obtain ⟨d, hd, hgoes⟩ := goes_of_denotes hv
    exact ⟨d, hd, hgoes.padded hb hb'⟩

theorem goes_of_items {n : Nat} {t : List Char} {vs : List Value} (h : Items n t vs) :
    ∃ ds, Draft.itemValues n ds = .ok vs ∧ ∀ items fs rest,
      (State.mk (.array items :: fs) .value).run (t ++ ']' :: rest) =
        (put fs (.array (items.reverse ++ ds) none)).run rest := by
  match h with
  | .one hv =>
    obtain ⟨d, hd, hgoes⟩ := goes_of_padded hv
    refine ⟨[d], Draft.itemValues_cons.2 ⟨_, [], hd, rfl, rfl⟩, fun items fs rest => ?_⟩
    rw [hgoes _ _ (by rintro c ⟨⟩; exact follows_closing (.inr (.inl rfl)))]
    rw [← List.reverse_cons]
    exact State.run_part (fun _ => rfl) rfl rfl rest
  | .more hv hmore =>
    obtain ⟨d, hd, hgoes⟩ := goes_of_padded hv
    obtain ⟨ds, hds, hrest⟩ := goes_of_items hmore
    refine ⟨d :: ds, Draft.itemValues_cons.2 ⟨_, _, hd, hds, rfl⟩, fun items fs rest => ?_⟩
    rw [List.append_assoc, List.cons_append,
      hgoes _ _ (by rintro c ⟨⟩; exact follows_closing (.inl rfl))]
    refine (State.run_part (fun _ => rfl) rfl rfl _).trans ((hrest (d :: items) fs rest).trans ?_)
    rw [List.reverse_cons, List.append_assoc, List.singleton_append]

theorem goes_of_field {n : Nat} {t : List Char} {f : String × Value} (h : Field n t f) :
    ∃ d : Draft, d.value n = .ok f.2 ∧ ∀ spot, spot = .field ∨ spot = .key → ∀ fields fs rest,
      (∀ c ∈ rest.head?, State.Follows c) →
      (State.mk (.object fields :: fs) spot).run (t ++ rest) =
        (State.mk (.object ((some f.1, d) :: fields) :: fs) .more).run rest := by
  match h with
  | .mk hb hkey hb' hv =>
    obtain ⟨d, hd, hgoes⟩ := goes_of_padded hv
    refine ⟨d, hd, fun spot hspot fields fs rest hrest => ?_⟩
    have hopen : ∀ cs, (State.mk (.object fields :: fs) spot).run ('"' :: cs) =
        (State.mk (.object fields :: fs) (.string true {})).run cs := by
      rcases hspot with rfl | rfl <;> exact State.run_part (fun _ => rfl) rfl rfl
    have hbetween : (State.mk (.object fields :: fs) spot).IsBetween := by
      rcases hspot with rfl | rfl <;> exact fun _ => rfl
    rw [List.append_assoc, State.run_blanks hbetween hb]
    simp only [List.cons_append, List.append_assoc]
    rw [hopen]
    refine (State.run_string (Quote.reads_of_characters hkey []) rfl _).trans ?_
    simp only [List.append_nil, State.closeString, Quote.text?, Quote.clear, List.reverse_reverse,
      Option.isSome_none, Bool.or_self, Bool.false_eq_true, if_false, if_true]
    rw [State.run_blanks (fun _ => rfl) hb']
    exact (State.run_part (fun _ => rfl) rfl rfl _).trans (hgoes _ rest hrest)

theorem goes_of_fields {n : Nat} {t : List Char} {es : List (String × Value)}
    (h : Fields n t es) : ∃ ds, (∀ r, Draft.fieldRecord n r ds = .ok (r.insertAll es)) ∧
      ∀ spot, spot = .field ∨ spot = .key → ∀ fields fs rest,
      (State.mk (.object fields :: fs) spot).run (t ++ '}' :: rest) =
        (put fs (.object (fields.reverse ++ ds))).run rest := by
  match h with
  | .one hf =>
    obtain ⟨d, hd, hgoes⟩ := goes_of_field hf
    refine ⟨[(some _, d)], fun r => Draft.fieldRecord_cons.2 ⟨_, _, rfl, hd, rfl⟩,
      fun spot hspot fields fs rest => ?_⟩
    rw [hgoes spot hspot fields fs _ (by rintro c ⟨⟩; exact follows_closing (.inr (.inr rfl))),
      ← List.reverse_cons]
    exact State.run_part (fun _ => rfl) rfl rfl rest
  | .more hf hmore =>
    obtain ⟨d, hd, hgoes⟩ := goes_of_field hf
    obtain ⟨ds, hds, hrest⟩ := goes_of_fields hmore
    refine ⟨(some _, d) :: ds, fun r => Draft.fieldRecord_cons.2 ⟨_, _, rfl, hd, hds _⟩,
      fun spot hspot fields fs rest => ?_⟩
    rw [List.append_assoc, List.cons_append,
      hgoes spot hspot fields fs _ (by rintro c ⟨⟩; exact follows_closing (.inl rfl))]
    refine (State.run_part (fun _ => rfl) rfl rfl _).trans
      ((hrest .key (.inr rfl) _ fs rest).trans ?_)
    rw [List.reverse_cons, List.append_assoc, List.singleton_append]

end

/-! ## From the reader to the grammar -/

/-- Whatever value the draft has, the text denotes it. -/
def Means (t : List Char) (d : Draft) : Prop := ∀ n v, d.value n = .ok v → Denotes n t v

/-- The reader, where a value is due, goes over a text that denotes what is put in its place. -/
def ValueAt (cs : List Char) : Prop :=
  ∀ fs, ((State.mk fs .value).run cs).Accepts → ∃ b t rest d, cs = b ++ (t ++ rest) ∧ Blanks b ∧
    t ≠ [] ∧ Means t d ∧ (State.mk fs .value).run cs = (put fs d).run rest

theorem means_number {t : List Char} {m : Numeral} (hm : Numeral.ofText? t = some m)
    (hcomplete : m.complete = true) : Means t m.draft := by
  intro n v hv
  unfold Numeral.draft at hv
  dsimp only at hv
  split at hv
  · next x hx =>
    cases hv
    refine .number ((Numeral.ofText?_complete_iff t).1 ⟨m, hm, hcomplete⟩) hm ?_
    unfold Numeral.draft
    dsimp only
    rw [hx]
  · cases hv

theorem means_string {t : List Char} {q : Quote} (hq : (Quote.clear []).reads t = some q)
    (hclose : q.closes = true) :
    Means ('"' :: (t ++ ['"'])) (q.text?.elim .flawed fun s => .scalar (.string s)) := by
  intro n v hv
  cases htext : q.text? with
  | none =>
    rw [htext] at hv
    cases hv
  | some s =>
    rw [htext] at hv
    cases hv
    obtain ⟨cs, hcs, rfl⟩ := Quote.characters_iff.1 ⟨q, hq, hclose, htext⟩
    exact .string hcs

theorem close?_array {items : List Draft} {fs : List Frame} {c : Char} {t : State}
    (h : State.close? (.array items :: fs) c = some t) :
    c = ']' ∧ t = put fs (.array items.reverse none) := by
  unfold State.close? at h
  split at h
  · next heq =>
    cases heq
    cases h
    exact ⟨rfl, rfl⟩
  · next heq => cases heq
  · cases h

theorem close?_object {fields : List (Option String × Draft)} {fs : List Frame} {c : Char}
    {t : State} (h : State.close? (.object fields :: fs) c = some t) :
    c = '}' ∧ t = put fs (.object fields.reverse) := by
  unfold State.close? at h
  split at h
  · next heq => cases heq
  · next heq =>
    cases heq
    cases h
    exact ⟨rfl, rfl⟩
  · cases h

/-- What may stand behind an item of an array: a comma, or its end. -/
theorem more_item {items : List Draft} {fs : List Frame} {cs : List Char}
    (h : ((State.mk (.array items :: fs) .more).run cs).Accepts) : ∃ b rest, Blanks b ∧
      ((cs = b ++ ',' :: rest ∧ (State.mk (.array items :: fs) .more).run cs =
          (State.mk (.array items :: fs) .value).run rest) ∨
        (cs = b ++ ']' :: rest ∧ (State.mk (.array items :: fs) .more).run cs =
          (put fs (.array items.reverse none)).run rest)) := by
  obtain ⟨b, c, rest, t, rfl, hb, -, ht, hrun⟩ :=
    State.part_of_accepts (fun _ => rfl) (State.not_accepts_stop rfl) h
  refine ⟨b, rest, hb, ?_⟩
  simp only [State.part?] at ht
  split at ht
  · next hc =>
    cases ht
    exact .inl ⟨by rw [hc], hrun⟩
  · obtain ⟨rfl, rfl⟩ := close?_array ht
    exact .inr ⟨rfl, hrun⟩

/-- What may stand behind a field of an object: a comma and the quote of a key, or its end. -/
theorem more_field {fields : List (Option String × Draft)} {fs : List Frame} {cs : List Char}
    (h : ((State.mk (.object fields :: fs) .more).run cs).Accepts) : ∃ b rest, Blanks b ∧
      ((∃ b', Blanks b' ∧ cs = b ++ ',' :: (b' ++ '"' :: rest) ∧
          (State.mk (.object fields :: fs) .more).run cs =
            (State.mk (.object fields :: fs) (.string true {})).run rest) ∨
        (cs = b ++ '}' :: rest ∧ (State.mk (.object fields :: fs) .more).run cs =
          (put fs (.object fields.reverse)).run rest)) := by
  obtain ⟨b, c, rest, t, rfl, hb, -, ht, hrun⟩ :=
    State.part_of_accepts (fun _ => rfl) (State.not_accepts_stop rfl) h
  rw [hrun] at h
  simp only [State.part?] at ht
  split at ht
  · next hc =>
    cases ht
    subst hc
    obtain ⟨b', c, rest, t, rfl, hb', -, ht, hkey⟩ :=
      State.part_of_accepts (fun _ => rfl) (State.not_accepts_stop rfl) h
    simp only [State.part?] at ht
    split at ht
    · next hc =>
      cases ht
      exact ⟨b, rest, hb, .inl ⟨b', hb', by rw [hc], hrun.trans hkey⟩⟩
    · cases ht
  · obtain ⟨rfl, rfl⟩ := close?_object ht
    exact ⟨b, rest, hb, .inr ⟨rfl, hrun⟩⟩

/-- The items of an array, up to its end. -/
theorem items_of_accepts (n : Nat) (hvalue : ∀ cs, cs.length ≤ n → ValueAt cs) {cs : List Char}
    (hcs : cs.length ≤ n) {items : List Draft} {fs : List Frame}
    (h : ((State.mk (.array items :: fs) .value).run cs).Accepts) :
    ∃ t rest ds, cs = t ++ ']' :: rest ∧
      (∀ n vs, Draft.itemValues n ds = .ok vs → Items n t vs) ∧
      (State.mk (.array items :: fs) .value).run cs =
        (put fs (.array (items.reverse ++ ds) none)).run rest := by
  induction n generalizing cs items with
  | zero =>
    obtain ⟨b, t, rest, d, rfl, -, hne, -⟩ := hvalue cs hcs _ h
    simp only [List.length_append, Nat.le_zero, Nat.add_eq_zero_iff, List.length_eq_zero_iff] at hcs
    exact absurd hcs.2.1 hne
  | succ n ih =>
    obtain ⟨b, t, rest, d, rfl, hb, -, hmeans, hrun⟩ := hvalue cs hcs _ h
    rw [hrun] at h ⊢
    have hput : put (.array items :: fs) d = ⟨.array (d :: items) :: fs, .more⟩ := rfl
    rw [hput] at h ⊢
    obtain ⟨b', rest, hb', ⟨rfl, hrun⟩ | ⟨rfl, hrun⟩⟩ := more_item h
    · have hlength : rest.length ≤ n := by
        simp only [List.length_append, List.length_cons] at hcs
        omega
      rw [hrun] at h
      obtain ⟨u, rest, ds, rfl, hds, hmore⟩ :=
        ih (fun cs hcs => hvalue cs (Nat.le_succ_of_le hcs)) hlength h
      refine ⟨b ++ (t ++ b') ++ ',' :: u, rest, d :: ds, by simp, fun n vs hvs => ?_, ?_⟩
      · obtain ⟨v, ws, hv, hws, rfl⟩ := Draft.itemValues_cons.1 hvs
        exact .more (.mk hb (hmeans n v hv) hb') (hds n ws hws)
      · rw [hrun, hmore, List.reverse_cons, List.append_assoc, List.singleton_append]
    · refine ⟨b ++ (t ++ b'), rest, [d], by simp, fun n vs hvs => ?_, ?_⟩
      · obtain ⟨v, ws, hv, hws, rfl⟩ := Draft.itemValues_cons.1 hvs
        cases hws
        exact .one (.mk hb (hmeans n v hv) hb')
      · rw [hrun, List.reverse_cons]

theorem field_of_accepts {n : Nat} (hvalue : ∀ cs, cs.length ≤ n → ValueAt cs) {cs : List Char}
    (hcs : cs.length ≤ n + 1) {fields : List (Option String × Draft)} {fs : List Frame}
    (h : ((State.mk (.object fields :: fs) (.string true {})).run cs).Accepts) :
    ∃ t rest k d, cs = t ++ rest ∧
      (∀ n name v b b', k = some name → d.value n = .ok v → Blanks b → Blanks b' →
        Field n (b ++ '"' :: (t ++ b')) (name, v)) ∧
      (State.mk (.object fields :: fs) (.string true {})).run cs =
        (State.mk (.object ((k, d) :: fields) :: fs) .more).run rest := by
  obtain ⟨key, rest, q, rfl, hreads, hclose, hrun⟩ := State.string_of_accepts h
  have hcolon : State.closeString (.object fields :: fs) true q =
      ⟨.field fields q.text? :: fs, .colon⟩ := rfl
  rw [hrun, hcolon] at h
  obtain ⟨b, c, rest, s, rfl, hb, -, hs, hcolonRun⟩ :=
    State.part_of_accepts (fun _ => rfl) (State.not_accepts_stop rfl) h
  simp only [State.part?] at hs
  split at hs
  · next hc =>
    cases hs
    subst hc
    rw [hcolonRun] at h
    have hlength : rest.length ≤ n := by
      simp only [List.length_append, List.length_cons] at hcs
      omega
    obtain ⟨b', t, rest, d, rfl, hb', -, hmeans, hvalueRun⟩ := hvalue rest hlength _ h
    refine ⟨key ++ '"' :: (b ++ ':' :: (b' ++ t)), rest, q.text?, d, by simp, ?_, ?_⟩
    · intro n name v b₁ b₂ hname hv hb₁ hb₂
      obtain ⟨cs, hcs, rfl⟩ := Quote.characters_iff.1 ⟨q, hreads, hclose, hname⟩
      simpa using Field.mk hb₁ hcs hb (.mk hb' (hmeans n v hv) hb₂)
    · rw [hrun, hcolon, hcolonRun, hvalueRun]
      rfl
  · cases hs

/-- The fields of an object behind the quote that opens the first key, up to its end. -/
theorem fields_of_accepts (n : Nat) (hvalue : ∀ cs, cs.length ≤ n → ValueAt cs) {cs : List Char}
    (hcs : cs.length ≤ n + 1) {fields : List (Option String × Draft)} {fs : List Frame}
    (h : ((State.mk (.object fields :: fs) (.string true {})).run cs).Accepts) :
    ∃ t rest ds, cs = t ++ '}' :: rest ∧
      (∀ n r s b, Blanks b → Draft.fieldRecord n r ds = .ok s →
        ∃ es, Fields n (b ++ '"' :: t) es ∧ s = r.insertAll es) ∧
      (State.mk (.object fields :: fs) (.string true {})).run cs =
        (put fs (.object (fields.reverse ++ ds))).run rest := by
  induction hm : cs.length using Nat.strongRecOn generalizing cs fields with
  | ind m ih =>
    subst hm
    obtain ⟨t, rest, k, d, rfl, hfield, hrun⟩ := field_of_accepts hvalue hcs h
    rw [hrun] at h ⊢
    obtain ⟨b', rest, hb', ⟨b'', hb'', rfl, hmore⟩ | ⟨rfl, hend⟩⟩ := more_field h
    · rw [hmore] at h
      have hlength : rest.length < (t ++ (b' ++ ',' :: (b'' ++ '"' :: rest))).length := by
        simp only [List.length_append, List.length_cons]
        omega
      obtain ⟨u, rest, ds, rfl, hds, hrest⟩ := ih _ hlength (by omega) h rfl
      refine ⟨t ++ (b' ++ ',' :: (b'' ++ '"' :: u)), rest, (k, d) :: ds, by simp, ?_, ?_⟩
      · intro n r s b hb hs
        obtain ⟨name, v, rfl, hv, hs⟩ := Draft.fieldRecord_cons.1 hs
        obtain ⟨es, hes, rfl⟩ := hds n _ s b'' hb'' hs
        refine ⟨(name, v) :: es, ?_, rfl⟩
        simpa using Fields.more (hfield n name v b b' rfl hv hb hb') hes
      · rw [hmore, hrest, List.reverse_cons, List.append_assoc, List.singleton_append]
    · refine ⟨t ++ b', rest, [(k, d)], by simp, ?_, ?_⟩
      · intro n r s b hb hs
        obtain ⟨name, v, rfl, hv, hs⟩ := Draft.fieldRecord_cons.1 hs
        cases hs
        exact ⟨[(name, v)], .one (hfield n name v b b' rfl hv hb hb'), rfl⟩
      · rw [hend, List.reverse_cons]

theorem begin?_cases {fs : List Frame} {c : Char} {s : State} (h : State.begin? fs c = some s) :
    (c = '{' ∧ s = ⟨.object [] :: fs, .field⟩) ∨ (c = '[' ∧ s = ⟨.array [] :: fs, .item⟩) ∨
      (c = '"' ∧ s = ⟨fs, .string false {}⟩) ∨
      (c = 'n' ∧ s = State.inWord fs .null ['u', 'l', 'l']) ∨
      (c = 't' ∧ s = State.inWord fs (.bool true) ['r', 'u', 'e']) ∨
      (c = 'f' ∧ s = State.inWord fs (.bool false) ['a', 'l', 's', 'e']) ∨
      ∃ n, Numeral.start? c = some n ∧ s = ⟨fs, .number n⟩ := by
  unfold State.begin? at h
  split at h
  · exact .inl ⟨rfl, (Option.some.inj h).symm⟩
  · exact .inr (.inl ⟨rfl, (Option.some.inj h).symm⟩)
  · exact .inr (.inr (.inl ⟨rfl, (Option.some.inj h).symm⟩))
  · exact .inr (.inr (.inr (.inl ⟨rfl, (Option.some.inj h).symm⟩)))
  · exact .inr (.inr (.inr (.inr (.inl ⟨rfl, (Option.some.inj h).symm⟩))))
  · exact .inr (.inr (.inr (.inr (.inr (.inl ⟨rfl, (Option.some.inj h).symm⟩)))))
  · obtain ⟨n, hn, rfl⟩ := Option.map_eq_some_iff.1 h
    exact .inr (.inr (.inr (.inr (.inr (.inr ⟨n, hn, rfl⟩)))))

theorem object_of_accepts {cs : List Char} (hvalue : ∀ ds, ds.length < cs.length → ValueAt ds)
    {fs : List Frame} (h : ((State.mk (.object [] :: fs) .field).run cs).Accepts) :
    ∃ t rest d, cs = t ++ rest ∧ Means ('{' :: t) d ∧
      (State.mk (.object [] :: fs) .field).run cs = (put fs d).run rest := by
  obtain ⟨b, c, rest, s, rfl, hb, -, hs, hrun⟩ :=
    State.part_of_accepts (fun _ => rfl) (State.not_accepts_stop rfl) h
  rw [hrun] at h ⊢
  simp only [State.part?] at hs
  split at hs
  · next hc =>
    cases hs
    subst hc
    have hshorter : ∀ ds : List Char, ds.length ≤ rest.length - 1 → ValueAt ds := fun ds hds =>
      hvalue ds (by simp only [List.length_append, List.length_cons]; omega)
    obtain ⟨t, rest, ds, rfl, hds, hend⟩ :=
      fields_of_accepts (rest.length - 1) hshorter (by omega) h
    refine ⟨b ++ '"' :: (t ++ ['}']), rest, .object ds, by simp, fun n v hv => ?_, hend⟩
    obtain ⟨m, r, rfl, hr, rfl⟩ := Draft.value_object.1 hv
    obtain ⟨es, hes, rfl⟩ := hds m .empty r b hb hr
    simpa [Record.ofList] using Denotes.object hes
  · obtain ⟨rfl, rfl⟩ := close?_object hs
    refine ⟨b ++ ['}'], rest, .object [], by simp, fun n v hv => ?_, rfl⟩
    obtain ⟨m, r, rfl, hr, rfl⟩ := Draft.value_object.1 hv
    cases hr
    exact .emptyObject hb

theorem array_of_accepts {cs : List Char} (hvalue : ∀ ds, ds.length ≤ cs.length → ValueAt ds)
    {fs : List Frame} (h : ((State.mk (.array [] :: fs) .item).run cs).Accepts) :
    ∃ t rest d, cs = t ++ rest ∧ Means ('[' :: t) d ∧
      (State.mk (.array [] :: fs) .item).run cs = (put fs d).run rest := by
  obtain ⟨b, c, rest, s, rfl, hb, hc, hs, hrun⟩ :=
    State.part_of_accepts (fun _ => rfl) (State.not_accepts_stop rfl) h
  by_cases hclose : c = ']'
  · subst hclose
    cases hs
    refine ⟨b ++ [']'], rest, .array [] none, by simp, fun n v hv => ?_, hrun⟩
    obtain ⟨m, vs, rfl, hvs, rfl⟩ := Draft.value_array.1 hv
    cases hvs
    exact .emptyArray hb
  · rw [run_item hb hc hclose] at h ⊢
    obtain ⟨t, rest, ds, ht, hds, hend⟩ := items_of_accepts _ hvalue (Nat.le_refl _) h
    refine ⟨t ++ [']'], rest, .array ds none, by simpa using ht, fun n v hv => ?_, hend⟩
    obtain ⟨m, vs, rfl, hvs, rfl⟩ := Draft.value_array.1 hv
    exact .array (hds m vs hvs)

/-- **Where a value is due, the reader goes over a text that the grammar knows**, or it finds no
value in the end. -/
theorem denotes_of_accepts (cs : List Char) : ValueAt cs := by
  induction hn : cs.length using Nat.strongRecOn generalizing cs with
  | ind n ih =>
    subst hn
    intro fs h
    obtain ⟨b, c, rest, s, rfl, hb, -, hs, hrun⟩ :=
      State.part_of_accepts (fun _ => rfl) (State.not_accepts_stop rfl) h
    rw [hrun] at h ⊢
    have hvalue : ∀ ds : List Char, ds.length ≤ rest.length → ValueAt ds := by
      intro ds hds
      refine ih ds.length ?_ ds rfl
      simp only [List.length_append, List.length_cons]
      omega
    -- What is left is to find the text of the value behind its first character.
    have hword : ∀ ds v, Means (c :: ds) (.scalar v) → s = State.inWord fs v ds →
        ∃ b' t rest' d, b ++ c :: rest = b' ++ (t ++ rest') ∧ Blanks b' ∧ t ≠ [] ∧ Means t d ∧
          s.run rest = (put fs d).run rest' := by
      rintro ds v hmeans rfl
      obtain ⟨rest, rfl⟩ := State.inWord_of_accepts h
      exact ⟨b, c :: ds, rest, _, rfl, hb, by simp, hmeans, State.run_inWord v ds rest⟩
    rcases begin?_cases hs with ⟨rfl, rfl⟩ | ⟨rfl, rfl⟩ | ⟨rfl, rfl⟩ | ⟨rfl, hw⟩ | ⟨rfl, hw⟩ |
      ⟨rfl, hw⟩ | ⟨m, hm, rfl⟩
    · obtain ⟨t, rest, d, rfl, hmeans, hend⟩ :=
        object_of_accepts (fun ds hds => hvalue ds (Nat.le_of_lt hds)) h
      exact ⟨b, '{' :: t, rest, d, by simp, hb, by simp, hmeans, hend⟩
    · obtain ⟨t, rest, d, rfl, hmeans, hend⟩ := array_of_accepts hvalue h
      exact ⟨b, '[' :: t, rest, d, by simp, hb, by simp, hmeans, hend⟩
    · obtain ⟨t, rest, q, rfl, hreads, hclose, hend⟩ := State.string_of_accepts h
      exact ⟨b, '"' :: (t ++ ['"']), rest, _, by simp, hb, by simp, means_string hreads hclose, hend⟩
    · refine hword _ _ (fun n v hv => ?_) hw
      cases hv
      exact .nullWord
    · refine hword _ _ (fun n v hv => ?_) hw
      cases hv
      exact .trueWord
    · refine hword _ _ (fun n v hv => ?_) hw
      cases hv
      exact .falseWord
    · obtain ⟨t, rest, m', rfl, hreads, hcomplete, hend⟩ := State.number_of_accepts h
      have htext : Numeral.ofText? (c :: t) = some m' := by
        rw [Numeral.ofText?, hm]
        exact hreads
      exact ⟨b, c :: t, rest, _, by simp, hb, by simp, means_number htext hcomplete, hend⟩

/-! ## Whole texts -/

theorem value_untrailing (d : Draft) : (Reading.mk d false).value = d.value maxDepth := by
  cases h : d.value maxDepth <;> simp [Reading.value, Reading.finish, h, bind, Except.bind]

/-- Behind the value of a text there are only blanks. -/
theorem blanks_of_accepts {d : Draft} {rest : List Char}
    (h : ((State.mk [] (.finished d)).run rest).Accepts) : Blanks rest := by
  induction rest with
  | nil => exact blanks_nil
  | cons c rest ih =>
    cases hc : State.isBlank c with
    | true =>
      rw [State.run_blank (fun _ => rfl) hc] at h
      exact blanks_cons.2 ⟨hc, ih h⟩
    | false =>
      rw [State.run_cons] at h
      simp only [State.step, State.between, State.part?, hc, Bool.false_eq_true, if_false] at h
      exact absurd h (State.not_accepts_refuse _)

theorem run_finished {d : Draft} {rest : List Char} (h : Blanks rest) :
    (State.mk [] (.finished d)).run rest = ⟨d, false⟩ := by
  have hrun := State.run_blanks (s := ⟨[], .finished d⟩) (fun _ => rfl) h []
  rwa [List.append_nil] at hrun

/-- **The reader accepts exactly what the grammar says, with the value it says.** -/
theorem parse_eq_ok_iff (text : List Char) (v : Value) :
    parse text = .ok v ↔ Padded maxDepth text v := by
  constructor
  · intro h
    have haccepts : (State.start.run text).Accepts := ⟨v, h⟩
    obtain ⟨b, t, rest, d, rfl, hb, -, hmeans, hrun⟩ := denotes_of_accepts text [] haccepts
    have hread : read (b ++ (t ++ rest)) = (put [] d).run rest := hrun
    rw [State.start, hrun] at haccepts
    have hrest : Blanks rest := blanks_of_accepts haccepts
    rw [parse, hread, put, run_finished hrest, value_untrailing] at h
    exact .mk hb (hmeans maxDepth v h) hrest
  · rintro ⟨hb, hv, hb'⟩
    obtain ⟨d, hd, hgoes⟩ := goes_of_denotes hv
    have hrun := hgoes.padded hb hb' [] [] (by simp)
    rw [List.append_nil] at hrun
    rw [parse, read, State.start, hrun]
    exact (value_untrailing d).trans hd

end WorkflowEngine.Json
