import WorkflowEngine.Proofs.Json.Grammar

/-!
# Strings: the reader and the grammar

The reader of a string remembers whether it stands behind a backslash, inside the digits of a code,
or behind the first half of a surrogate pair. Where it remembers none of these it is *clear*
(`Quote.clear`), and from one clear moment to the next it reads one item of the grammar. A string
that is flawed once stays so, and half a pair that is not followed by the other half makes it
flawed; so it is enough to follow the reader from one clear moment to the next.

Main statement: `Quote.characters_iff`.
-/

namespace WorkflowEngine.Json

namespace Quote

/-- The string with some more characters read, none of which closes it. -/
def reads (q : Quote) : List Char → Option Quote
  | [] => some q
  | c :: t => if c = '"' ∧ q.closes then none else (q.next? c).bind (·.reads t)

/-- A string that stands at no special place, with these characters read, newest first. -/
def clear (chars : List Char) : Quote := { chars }

/-- A string behind the first half of a surrogate pair. -/
def half (chars : List Char) (high : Nat) : Quote := { chars, high := some high }

theorem reads_cons (q : Quote) (c : Char) (t : List Char) :
    q.reads (c :: t) = if c = '"' ∧ q.closes then none else (q.next? c).bind (·.reads t) := rfl

theorem reads_plain {q : Quote} (hq : q.escape = .none) {c : Char} (hquote : c ≠ '"')
    (hslash : c ≠ '\\') (t : List Char) :
    q.reads (c :: t) = if c.toNat < 32 then none else (q.push c).reads t := by
  obtain ⟨chars, high, escape, flawed⟩ := q
  subst hq
  rw [reads_cons, if_neg fun h => hquote h.1]
  simp only [next?, if_neg hslash]
  split <;> rfl

theorem reads_backslash {q : Quote} (hq : q.escape = .none) (t : List Char) :
    q.reads ('\\' :: t) = ({ q with escape := .backslash } : Quote).reads t := by
  obtain ⟨chars, high, escape, flawed⟩ := q
  subst hq
  rw [reads_cons, if_neg fun h => absurd h.1 (by decide)]
  rfl

theorem reads_escaped (q : Quote) (c : Char) (t : List Char) :
    ({ q with escape := .backslash } : Quote).reads (c :: t) =
      if c = 'u' then ({ q with escape := .code 0 0 true } : Quote).reads t
      else (unescape? c).bind fun e => (q.push e).reads t := by
  rw [reads_cons, if_neg fun h => absurd h.2 (by simp [closes])]
  simp only [next?]
  split
  · rfl
  · cases unescape? c <;> rfl

/-! ## Codes -/

/-- The number that goes on with some more hexadecimal digits. -/
def hex (value : Nat) (ds : List Char) : Option Nat :=
  ds.foldlM (fun n c => (Text.digit? 16 c).map (16 * n + ·)) value

theorem hex_cons (value : Nat) (c : Char) (ds : List Char) :
    hex value (c :: ds) = (Text.digit? 16 c).bind fun d => hex (16 * value + d) ds := by
  unfold hex
  rw [List.foldlM_cons]
  cases Text.digit? 16 c <;> rfl

theorem code_iff {ds : List Char} {code : Nat} :
    Code ds code ↔ ds.length = 4 ∧ hex 0 ds = some code := by
  cases ds with
  | nil => simp [Code]
  | cons c ds => rfl

theorem utf8Size_of_digit {c : Char} {d : Nat} (h : Text.digit? 16 c = some d) :
    c.utf8Size = 1 := by
  have hsmall : c.val ≤ 127 := by
    simp only [Text.digit?, Option.filter_eq_some_iff] at h
    obtain ⟨hvalue, -⟩ := h
    split at hvalue
    · next hc =>
      obtain ⟨-, hle⟩ := Bool.and_eq_true_iff.1 hc
      exact UInt32.le_trans (of_decide_eq_true hle) (by decide)
    · split at hvalue
      · next hc =>
        obtain ⟨-, hle⟩ := Bool.and_eq_true_iff.1 hc
        exact UInt32.le_trans (of_decide_eq_true hle) (by decide)
      · split at hvalue
        · next hc =>
          exact UInt32.le_trans (of_decide_eq_true hc).2 (by decide)
        · cases hvalue
  exact if_pos hsmall

/-- A string inside the digits of a code. -/
def inCode (q : Quote) (seen value : Nat) (proper : Bool) : Quote :=
  { q with escape := .code seen value proper }

theorem reads_inCode (q : Quote) (seen value : Nat) (proper : Bool) (c : Char) (t : List Char) :
    (q.inCode seen value proper).reads (c :: t) =
      let value := 16 * value + (Text.digit? 16 c).getD 0
      let proper := proper && (Text.digit? 16 c).isSome
      if seen + c.utf8Size < 4 then (q.inCode (seen + c.utf8Size) value proper).reads t
      else if proper then (q.pushCode value).reads t
      else none := by
  rw [reads_cons, if_neg fun h => absurd h.2 (by simp [closes, inCode])]
  simp only [next?, inCode]
  split
  · rfl
  · split <;> rfl

/-- The digits of a code are read to their end. -/
theorem reads_code {q : Quote} {seen value code : Nat} (hseen : seen < 4) {ds : List Char}
    (hlength : ds.length = 4 - seen) (hcode : hex value ds = some code) (rest : List Char) :
    (q.inCode seen value true).reads (ds ++ rest) = (q.pushCode code).reads rest := by
  induction ds generalizing seen value with
  | nil =>
    rw [List.length_nil] at hlength
    omega
  | cons c ds ih =>
    rw [List.length_cons] at hlength
    rw [hex_cons] at hcode
    obtain ⟨d, hd, hcode⟩ := Option.bind_eq_some_iff.1 hcode
    rw [List.cons_append, reads_inCode]
    simp only [hd, utf8Size_of_digit hd, Option.getD_some, Option.isSome_some, Bool.and_true,
      if_true]
    split
    · exact ih (by omega) (by omega) hcode
    · obtain rfl : ds = [] := List.eq_nil_of_length_eq_zero (by omega)
      cases hcode
      rfl

/-- A string that is read on from inside a code to a place where it could be closed has the digits
that are due. -/
theorem code_of_reads {q q' : Quote} (hq' : q'.closes = true) {seen value : Nat} {proper : Bool}
    (hseen : seen < 4) {t : List Char} (h : (q.inCode seen value proper).reads t = some q') :
    proper = true ∧ ∃ ds rest code, t = ds ++ rest ∧ ds.length = 4 - seen ∧
      hex value ds = some code ∧ (q.pushCode code).reads rest = some q' := by
  induction t generalizing seen value proper with
  | nil =>
    cases h
    cases hq'
  | cons c t ih =>
    rw [reads_inCode] at h
    simp only at h
    split at h
    · next hmore =>
      obtain ⟨hproper, ds, rest, code, rfl, hlength, hcode, hrest⟩ := ih hmore h
      obtain ⟨hproper, hdigit⟩ := Bool.and_eq_true_iff.1 hproper
      obtain ⟨d, hd⟩ := Option.isSome_iff_exists.1 hdigit
      rw [utf8Size_of_digit hd] at hlength hmore
      rw [hd, Option.getD_some] at hcode
      refine ⟨hproper, c :: ds, rest, code, rfl, ?_, ?_, hrest⟩
      · rw [List.length_cons]
        omega
      · rw [hex_cons, hd]
        exact hcode
    · next hlast =>
      split at h
      · next hproper =>
        obtain ⟨hproper, hdigit⟩ := Bool.and_eq_true_iff.1 hproper
        obtain ⟨d, hd⟩ := Option.isSome_iff_exists.1 hdigit
        rw [utf8Size_of_digit hd] at hlast
        rw [hd, Option.getD_some] at h
        refine ⟨hproper, [c], t, _, rfl, ?_, ?_, h⟩
        · rw [List.length_singleton]
          omega
        · rw [hex_cons, hd]
          rfl
      · cases h

theorem reads_escapedCode {q : Quote} (hq : q.escape = .none) {ds : List Char} {code : Nat}
    (hds : Code ds code) (rest : List Char) :
    q.reads ('\\' :: 'u' :: (ds ++ rest)) = (q.pushCode code).reads rest := by
  obtain ⟨hlength, hcode⟩ := code_iff.1 hds
  rw [reads_backslash hq, reads_escaped, if_pos rfl]
  exact reads_code (by omega) hlength hcode rest

/-! ## Flaws -/

theorem push_flawed {q : Quote} (hq : q.flawed = true) (c : Char) : (q.push c).flawed = true := by
  simp [push, hq]

theorem pushCode_flawed {q : Quote} (hq : q.flawed = true) (code : Nat) :
    (q.pushCode code).flawed = true := by
  unfold pushCode
  dsimp only
  split
  · split
    · exact hq
    · rfl
  · split
    · rfl
    · split
      · exact hq
      · exact push_flawed hq _

theorem next?_flawed {q r : Quote} {c : Char} (hq : q.flawed = true) (h : q.next? c = some r) :
    r.flawed = true := by
  unfold next? at h
  split at h
  · split at h
    · cases h
      exact hq
    · split at h
      · cases h
      · cases h
        exact push_flawed hq c
  · split at h
    · cases h
      exact hq
    · obtain ⟨e, -, rfl⟩ := Option.map_eq_some_iff.1 h
      exact push_flawed hq e
  · dsimp only at h
    split at h
    · cases h
      exact hq
    · split at h
      · cases h
        exact pushCode_flawed hq _
      · cases h

/-- A flaw stays. -/
theorem flawed_of_reads {q q' : Quote} {t : List Char} (hq : q.flawed = true)
    (h : q.reads t = some q') : q'.flawed = true := by
  induction t generalizing q with
  | nil =>
    cases h
    exact hq
  | cons c t ih =>
    rw [reads_cons] at h
    split at h
    · cases h
    · obtain ⟨r, hr, h⟩ := Option.bind_eq_some_iff.1 h
      exact ih (next?_flawed hq hr) h

/-- A flawed string never comes to denote a text. -/
theorem not_flawed_of_text {q q' : Quote} {t : List Char} {s : String}
    (htext : q'.text? = some s) (h : q.reads t = some q') : q.flawed = false := by
  cases hq : q.flawed with
  | false => rfl
  | true =>
    rw [text?, flawed_of_reads hq h] at htext
    cases htext

/-! ## From one clear moment to the next -/

theorem push_clear (chars : List Char) (c : Char) : (clear chars).push c = clear (c :: chars) := rfl

theorem pushCode_clear {code : Nat} (hhigh : ¬IsHigh code) (hlow : ¬IsLow code)
    (chars : List Char) : (clear chars).pushCode code = clear (Char.ofNat code :: chars) := by
  unfold IsHigh at hhigh
  unfold IsLow at hlow
  unfold pushCode clear
  dsimp only
  rw [if_neg hlow, if_neg hhigh]
  rfl

theorem pushCode_high {code : Nat} (hhigh : IsHigh code) (chars : List Char) :
    (clear chars).pushCode code = half chars code := by
  unfold IsHigh at hhigh
  have hlow : ¬(0xdc00 ≤ code ∧ code ≤ 0xdfff) := by omega
  unfold pushCode clear
  dsimp only
  rw [if_neg hlow, if_pos hhigh]
  rfl

theorem pushCode_low {code : Nat} (hlow : IsLow code) (chars : List Char) :
    ((clear chars).pushCode code).flawed = true := by
  unfold IsLow at hlow
  unfold pushCode clear
  dsimp only
  rw [if_pos hlow]

theorem pushCode_half {high low : Nat} (hlow : IsLow low) (chars : List Char) :
    (half chars high).pushCode low = clear (paired high low :: chars) := by
  unfold IsLow at hlow
  unfold pushCode half
  dsimp only
  rw [if_pos hlow]
  rfl

theorem pushCode_half_not_low {high code : Nat} (hlow : ¬IsLow code) (chars : List Char) :
    ((half chars high).pushCode code).flawed = true := by
  unfold IsLow at hlow
  unfold pushCode half
  dsimp only
  rw [if_neg hlow]

/-- What the grammar says is read, from clear to clear. -/
theorem reads_of_characters {t s : List Char} (h : Characters t s) (chars : List Char) :
    (clear chars).reads t = some (clear (s.reverse ++ chars)) := by
  induction h generalizing chars with
  | nil => rfl
  | plain hquote hslash hcontrol _ ih =>
    rw [reads_plain rfl hquote hslash, if_neg (by omega), push_clear, ih]
    simp
  | @escape c e t s hc _ ih =>
    have hu : c ≠ 'u' := by
      rintro rfl
      cases hc
    rw [reads_backslash rfl, reads_escaped, if_neg hu, hc, Option.bind_some, push_clear, ih]
    simp
  | code hds hhigh hlow _ ih =>
    rw [reads_escapedCode rfl hds, pushCode_clear hhigh hlow, ih]
    simp
  | pair hds hhigh hds' hlow _ ih =>
    rw [reads_escapedCode rfl hds, pushCode_high hhigh, reads_escapedCode rfl hds',
      pushCode_half hlow, ih]
    simp

theorem escape_of_reads {q q' : Quote} (hq : q.escape = .none) (hq' : q'.closes = true)
    {t : List Char} (h : q.reads ('\\' :: t) = some q') :
    (∃ c e rest, t = c :: rest ∧ unescape? c = some e ∧ (q.push e).reads rest = some q') ∨
    ∃ ds code rest, t = 'u' :: (ds ++ rest) ∧ Code ds code ∧
      (q.pushCode code).reads rest = some q' := by
  rw [reads_backslash hq] at h
  cases t with
  | nil =>
    cases h
    cases hq'
  | cons c t =>
    rw [reads_escaped] at h
    split at h
    · next hc =>
      subst hc
      obtain ⟨-, ds, rest, code, rfl, hlength, hcode, hrest⟩ := code_of_reads hq' (by omega) h
      exact .inr ⟨ds, code, rest, rfl, code_iff.2 ⟨hlength, hcode⟩, hrest⟩
    · obtain ⟨e, he, hrest⟩ := Option.bind_eq_some_iff.1 h
      exact .inl ⟨c, e, t, rfl, he, hrest⟩

/-- Behind the first half of a pair there is the second. -/
theorem low_of_reads {chars : List Char} {high : Nat} {q' : Quote} {s : String}
    (hclose : q'.closes = true) (htext : q'.text? = some s) {t : List Char}
    (h : (half chars high).reads t = some q') :
    ∃ ds low rest, t = '\\' :: 'u' :: (ds ++ rest) ∧ Code ds low ∧ IsLow low ∧
      (clear (paired high low :: chars)).reads rest = some q' := by
  cases t with
  | nil =>
    cases h
    cases htext
  | cons c t =>
    by_cases hslash : c = '\\'
    · subst hslash
      rcases escape_of_reads rfl hclose h with ⟨c, e, rest, rfl, -, hrest⟩ |
        ⟨ds, code, rest, rfl, hcode, hrest⟩
      · cases not_flawed_of_text htext hrest
      · by_cases hlow : IsLow code
        · rw [pushCode_half hlow] at hrest
          exact ⟨ds, code, rest, rfl, hcode, hlow, hrest⟩
        · have hflaw := not_flawed_of_text htext hrest
          rw [pushCode_half_not_low hlow] at hflaw
          cases hflaw
    · have hquote : c ≠ '"' := by
        rintro rfl
        cases h
      rw [reads_plain rfl hquote hslash] at h
      split at h
      · cases h
      · cases not_flawed_of_text htext h

/-- What is read from a clear moment on, to the end of a text, the grammar says. -/
theorem characters_of_reads {q' : Quote} {s : String} (hclose : q'.closes = true)
    (htext : q'.text? = some s) (n : Nat) {t : List Char} (hn : t.length ≤ n) {chars : List Char}
    (h : (clear chars).reads t = some q') :
    ∃ cs, Characters t cs ∧ s = String.ofList (chars.reverse ++ cs) := by
  induction n generalizing t chars with
  | zero =>
    obtain rfl : t = [] := List.eq_nil_of_length_eq_zero (by omega)
    cases h
    cases htext
    exact ⟨[], .nil, by simp [clear]⟩
  | succ n ih =>
    cases t with
    | nil =>
      cases h
      cases htext
      exact ⟨[], .nil, by simp [clear]⟩
    | cons c t =>
      rw [List.length_cons] at hn
      by_cases hslash : c = '\\'
      · subst hslash
        rcases escape_of_reads rfl hclose h with ⟨c, e, rest, rfl, he, hrest⟩ |
          ⟨ds, code, rest, rfl, hcode, hrest⟩
        · rw [push_clear] at hrest
          obtain ⟨cs, hcs, rfl⟩ := ih (by rw [List.length_cons] at hn; omega) hrest
          exact ⟨e :: cs, .escape he hcs, by simp⟩
        · have hlength : rest.length < n := by
            rw [List.length_cons, List.length_append] at hn
            have := hcode.1
            omega
          by_cases hlow : IsLow code
          · have hflaw := not_flawed_of_text htext hrest
            rw [pushCode_low hlow] at hflaw
            cases hflaw
          by_cases hhigh : IsHigh code
          · rw [pushCode_high hhigh] at hrest
            obtain ⟨ds', low, rest, rfl, hcode', hlow', hrest⟩ := low_of_reads hclose htext hrest
            simp only [List.length_cons, List.length_append] at hlength
            obtain ⟨cs, hcs, rfl⟩ := ih (by omega) hrest
            exact ⟨paired code low :: cs, .pair hcode hhigh hcode' hlow' hcs, by simp⟩
          · rw [pushCode_clear hhigh hlow] at hrest
            obtain ⟨cs, hcs, rfl⟩ := ih (by omega) hrest
            exact ⟨Char.ofNat code :: cs, .code hcode hhigh hlow hcs, by simp⟩
      · have hquote : c ≠ '"' := by
          rintro rfl
          cases h
        rw [reads_plain rfl hquote hslash] at h
        split at h
        · cases h
        · next hcontrol =>
          rw [push_clear] at h
          obtain ⟨cs, hcs, rfl⟩ := ih (by omega) h
          exact ⟨c :: cs, .plain hquote hslash (by omega) hcs, by simp⟩

/-- **The reader takes a text out of a string exactly if the grammar says that it is written
there.** -/
theorem characters_iff {t : List Char} {s : String} :
    (∃ q, (clear []).reads t = some q ∧ q.closes = true ∧ q.text? = some s) ↔
      ∃ cs, Characters t cs ∧ s = String.ofList cs := by
  constructor
  · rintro ⟨q, h, hclose, htext⟩
    exact characters_of_reads hclose htext t.length (Nat.le_refl _) h
  · rintro ⟨cs, hcs, rfl⟩
    exact ⟨_, reads_of_characters hcs [], rfl, by simp [text?, clear]⟩

end Quote

end WorkflowEngine.Json
