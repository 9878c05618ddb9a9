import WorkflowEngine.Executor.Text
import WorkflowEngine.Proofs.Json.Acceptance
import WorkflowEngine.World

/-!
# The fragments of a text are those that can be read

`fragments` looks for balancing brackets with an idea of strings of its own, and hands what it finds
to the reader. What it should find can be said by the reader alone: at every place of the text, the
piece that begins there with an opening bracket, ends with a closing one, and is JSON.

**Theorem (`fragments_follow_scan`).** There is at most one such piece at a place, and the fragments
of a text are what a scan for these pieces finds (`Scan`): where there is one it is taken and the
scan goes on behind it, and elsewhere it goes on one character further. So a text that is an array
or an object as a whole, with blanks around it, has this one fragment. The reader's JSON is that of
the grammar.

The search for the balancing bracket goes over every part of the grammar as a whole
(`skips_of_denotes`), by induction on the grammar. So where a value begins with a bracket, the search
stops just at its end (`balancedLength?_of_fragment`), whatever stands behind it.
-/

namespace WorkflowEngine.Json

/-! ## The search for a balancing bracket -/

/-- The search inside some brackets that are still to be closed, and outside strings. -/
def Balance.inside (due : List Char) : Balance := { due }

/-- The search inside a string. -/
def Balance.withinString (due : List Char) : Balance := { due, inString := true }

open Balance (inside withinString)

/-- Inside brackets the search goes over the text and is as it was before. -/
def Skips (t : List Char) : Prop := ∀ due rest, due ≠ [] →
  (inside due).length? (t ++ rest) = ((inside due).length? rest).map (· + t.length)

/-- Inside a string the search goes over the text and is as it was before. -/
def SkipsQuoted (t : List Char) : Prop := ∀ due rest,
  (withinString due).length? (t ++ rest) = ((withinString due).length? rest).map (· + t.length)

theorem map_add_map (o : Option Nat) (m n : Nat) :
    (o.map (· + m)).map (· + n) = o.map (· + (m + n)) := by
  cases o with
  | none => rfl
  | some k => exact congrArg some (Nat.add_assoc k m n)

theorem skips_nil : Skips [] := by
  intro due rest _
  cases h : (inside due).length? rest <;> simp [h]

theorem Skips.append {t u : List Char} (ht : Skips t) (hu : Skips u) : Skips (t ++ u) := by
  intro due rest hdue
  rw [List.append_assoc, ht due _ hdue, hu due _ hdue, map_add_map, List.length_append,
    Nat.add_comm]

theorem SkipsQuoted.append {t u : List Char} (ht : SkipsQuoted t) (hu : SkipsQuoted u) :
    SkipsQuoted (t ++ u) := by
  intro due rest
  rw [List.append_assoc, ht, hu, map_add_map, List.length_append, Nat.add_comm]

/-- The characters that the search takes note of outside strings. -/
def IsMark (c : Char) : Prop := c = '"' ∨ c = '{' ∨ c = '[' ∨ c = '}' ∨ c = ']'

theorem skips_singleton {c : Char} (h : ¬IsMark c) : Skips [c] := by
  intro due rest _
  unfold IsMark at h
  simp only [not_or] at h
  obtain ⟨h1, h2, h3, h4, h5⟩ := h
  simp [inside, Balance.length?]

theorem skips_of_unmarked {t : List Char} (h : ∀ c ∈ t, ¬IsMark c) : Skips t := by
  induction t with
  | nil => exact skips_nil
  | cons c t ih =>
    exact (skips_singleton (h c (by simp))).append (ih fun d hd => h d (by simp [hd]))

theorem skips_blanks {b : List Char} (h : Blanks b) : Skips b := by
  refine skips_of_unmarked fun c hc hmark => ?_
  have hblank := h c hc
  rcases hmark with rfl | rfl | rfl | rfl | rfl <;> cases hblank

theorem skipsQuoted_singleton {c : Char} (hquote : c ≠ '"') (hslash : c ≠ '\\') :
    SkipsQuoted [c] := by
  intro due rest
  simp [withinString, Balance.length?, Balance.stepString, hquote, hslash]

theorem skipsQuoted_of_plain {t : List Char} (h : ∀ c ∈ t, c ≠ '"' ∧ c ≠ '\\') :
    SkipsQuoted t := by
  induction t with
  | nil =>
    intro due rest
    cases h : (withinString due).length? rest <;> simp [h]
  | cons c t ih =>
    obtain ⟨hquote, hslash⟩ := h c (by simp)
    exact (skipsQuoted_singleton hquote hslash).append (ih fun d hd => h d (by simp [hd]))

theorem skipsQuoted_escaped (c : Char) : SkipsQuoted ['\\', c] := by
  intro due rest
  simp [withinString, Balance.length?, Balance.stepString, Function.comp_def]

/-! ## Parts of the grammar -/

theorem Code.plain {ds : List Char} {code : Nat} (h : Code ds code) :
    ∀ c ∈ ds, c ≠ '"' ∧ c ≠ '\\' := by
  have hdigits : ∀ (ds : List Char) (value code : Nat), Quote.hex value ds = some code →
      ∀ c ∈ ds, (Text.digit? 16 c).isSome := by
    intro ds
    induction ds with
    | nil => simp
    | cons d ds ih =>
      intro value code h c hc
      rw [Quote.hex_cons] at h
      obtain ⟨n, hn, h⟩ := Option.bind_eq_some_iff.1 h
      rcases List.mem_cons.1 hc with rfl | hc
      · rw [hn]
        rfl
      · exact ih _ _ h c hc
  intro c hc
  have hdigit := hdigits ds 0 code (Quote.code_iff.1 h).2 c hc
  constructor <;> rintro rfl <;> cases hdigit

theorem skipsQuoted_of_characters {t s : List Char} (h : Characters t s) : SkipsQuoted t := by
  induction h with
  | nil => exact skipsQuoted_of_plain (by simp)
  | plain hquote hslash _ _ ih => exact (skipsQuoted_singleton hquote hslash).append ih
  | @escape c e t s _ _ ih => exact (skipsQuoted_escaped c).append ih
  | code hcode _ _ _ ih =>
    exact (skipsQuoted_escaped 'u').append ((skipsQuoted_of_plain hcode.plain).append ih)
  | pair hhigh _ hlow _ _ ih =>
    have hrest := (skipsQuoted_escaped 'u').append ((skipsQuoted_of_plain hlow.plain).append ih)
    exact (skipsQuoted_escaped 'u').append ((skipsQuoted_of_plain hhigh.plain).append hrest)

theorem skips_string {t s : List Char} (h : Characters t s) : Skips ('"' :: (t ++ ['"'])) := by
  intro due rest _
  have hopen : (inside due).length? ('"' :: (t ++ '"' :: rest)) =
      ((withinString due).length? (t ++ '"' :: rest)).map (· + 1) := rfl
  have hclose : (withinString due).length? ('"' :: rest) = ((inside due).length? rest).map (· + 1) := rfl
  rw [List.cons_append, List.append_assoc, List.singleton_append, hopen,
    skipsQuoted_of_characters h, hclose, map_add_map, map_add_map, List.length_cons,
    List.length_append, List.length_singleton, Nat.add_comm 1, Nat.add_right_comm]

theorem Digits.skips {t : List Char} (h : ∀ c ∈ t, c.isDigit = true) : Skips t := by
  refine skips_of_unmarked fun c hc hmark => ?_
  have hdigit := h c hc
  rcases hmark with rfl | rfl | rfl | rfl | rfl <;> cases hdigit

theorem skips_sign {c : Char} (h : c = '-' ∨ c = '+' ∨ c = '.' ∨ c = 'e' ∨ c = 'E') :
    Skips [c] := by
  refine skips_singleton fun hmark => ?_
  unfold IsMark at hmark
  rcases h with rfl | rfl | rfl | rfl | rfl <;> revert hmark <;> decide

theorem skips_powerDigits {t : List Char} (h : PowerDigits t) : Skips t := by
  rcases h with h | ⟨c, ds, rfl, hc, hds⟩
  · exact Digits.skips h.2
  · exact (skips_sign (hc.elim (fun h => .inr (.inl h)) .inl)).append (Digits.skips hds.2)

theorem skips_unsigned {t : List Char} (h : UnsignedText t) : Skips t := by
  obtain ⟨whole, places, power, rfl, hwhole, hplaces, hpower⟩ := h
  refine Skips.append ?_ (Skips.append ?_ ?_)
  · rcases hwhole with rfl | ⟨h, -⟩
    · exact Digits.skips (by simp)
    · exact Digits.skips h.2
  · rcases hplaces with rfl | ⟨ds, rfl, hds⟩
    · exact skips_nil
    · exact (skips_sign (c := '.') (by decide)).append (Digits.skips hds.2)
  · rcases hpower with rfl | ⟨c, ds, rfl, hc, hds⟩
    · exact skips_nil
    · exact (skips_sign (.inr (.inr (.inr hc)))).append (skips_powerDigits hds)

theorem skips_number {t : List Char} (h : NumberText t) : Skips t := by
  rcases h with h | ⟨u, rfl, h⟩
  · exact skips_unsigned h
  · exact (skips_sign (c := '-') (by decide)).append (skips_unsigned h)

/-! ## Brackets -/

/-- The brackets that open and close an array or an object. -/
def Pair (a z : Char) : Prop := (a = '[' ∧ z = ']') ∨ (a = '{' ∧ z = '}')

/-- What stands between two brackets is gone over; behind the outermost ones the search stops. -/
theorem length?_bracketed {a z : Char} (hpair : Pair a z) {t : List Char} (ht : Skips t)
    (due rest : List Char) : (inside due).length? (a :: (t ++ z :: rest)) =
      if due = [] then some (t.length + 2)
      else ((inside due).length? rest).map (· + (t.length + 2)) := by
  have hopen : (inside due).length? (a :: (t ++ z :: rest)) =
      ((inside (z :: due)).length? (t ++ z :: rest)).map (· + 1) := by
    rcases hpair with ⟨rfl, rfl⟩ | ⟨rfl, rfl⟩ <;> rfl
  have hclose : (inside (z :: due)).length? (z :: rest) =
      if due = [] then some 1 else ((inside due).length? rest).map (· + 1) := by
    rcases hpair with ⟨rfl, rfl⟩ | ⟨rfl, rfl⟩ <;> cases due <;> rfl
  have hlength : 1 + t.length + 1 = t.length + 2 := by omega
  rw [hopen, ht _ _ (by simp), hclose, map_add_map]
  split
  · exact congrArg some hlength
  · rw [map_add_map, ← Nat.add_assoc, hlength]

theorem Skips.bracketed {a z : Char} (hpair : Pair a z) {t : List Char} (ht : Skips t) :
    Skips (a :: (t ++ [z])) := by
  intro due rest hdue
  have hrun := length?_bracketed hpair ht due rest
  rw [if_neg hdue] at hrun
  rw [List.cons_append, List.append_assoc, List.singleton_append, hrun, List.length_cons,
    List.length_append, List.length_singleton]

theorem pair_array : Pair '[' ']' := .inl ⟨rfl, rfl⟩

theorem pair_object : Pair '{' '}' := .inr ⟨rfl, rfl⟩

theorem skips_comma {t u : List Char} (ht : Skips t) (hu : Skips u) : Skips (t ++ ',' :: u) :=
  ht.append ((skips_singleton (by unfold IsMark; decide)).append hu)

mutual

/-- **Inside brackets the search goes over a value as a whole.** -/
theorem skips_of_denotes {n : Nat} {t : List Char} {v : Value} (h : Denotes n t v) : Skips t := by
  match h with
  | .nullWord => exact skips_of_unmarked (by simp [IsMark])
  | .trueWord => exact skips_of_unmarked (by simp [IsMark])
  | .falseWord => exact skips_of_unmarked (by simp [IsMark])
  | .number ht _ _ => exact skips_number ht
  | .string hs => exact skips_string hs
  | .emptyArray hb => exact (skips_blanks hb).bracketed pair_array
  | .array hitems => exact (skips_of_items hitems).bracketed pair_array
  | .emptyObject hb => exact (skips_blanks hb).bracketed pair_object
  | .object hfields => exact (skips_of_fields hfields).bracketed pair_object

theorem skips_of_padded {n : Nat} {t : List Char} {v : Value} (h : Padded n t v) : Skips t := by
  match h with
  | .mk hb hv hb' =>
    exact (skips_blanks hb).append ((skips_of_denotes hv).append (skips_blanks hb'))

theorem skips_of_items {n : Nat} {t : List Char} {vs : List Value} (h : Items n t vs) :
    Skips t := by
  match h with
  | .one hv => exact skips_of_padded hv
  | .more hv hmore => exact skips_comma (skips_of_padded hv) (skips_of_items hmore)

theorem skips_of_field {n : Nat} {t : List Char} {f : String × Value} (h : Field n t f) :
    Skips t := by
  match h with
  | @Field.mk _ b key _ b' t _ hb hkey hb' hv =>
    have hcolon : Skips (b' ++ ':' :: t) :=
      (skips_blanks hb').append
        ((skips_singleton (c := ':') (by unfold IsMark; decide)).append (skips_of_padded hv))
    have hrest := (skips_blanks hb).append ((skips_string hkey).append hcolon)
    simpa using hrest

theorem skips_of_fields {n : Nat} {t : List Char} {fs : List (String × Value)}
    (h : Fields n t fs) : Skips t := by
  match h with
  | .one hf => exact skips_of_field hf
  | .more hf hmore => exact skips_comma (skips_of_field hf) (skips_of_fields hmore)

end

/-! ## Fragments -/

/-- A text that begins with an opening bracket, ends with a closing one, and is JSON. -/
structure Fragment (p : List Char) (v : Value) : Prop where
  opens : ∃ c t, p = c :: t ∧ (c = '{' ∨ c = '[')
  closes : ∃ t c, p = t ++ [c] ∧ (c = '}' ∨ c = ']')
  parsed : parse p = .ok v

/-- A scan for fragments: where there is one it is taken and the scan goes on behind it; where there
is none it goes on one character further. -/
inductive Scan : List Char → List Value → Prop
  | nil : Scan [] []
  | found {p rest : List Char} {v : Value} {vs : List Value} :
      Fragment p v → Scan rest vs → Scan (p ++ rest) (v :: vs)
  | skip {c : Char} {rest : List Char} {vs : List Value} :
      (∀ p v, p <+: c :: rest → ¬Fragment p v) → Scan rest vs → Scan (c :: rest) vs

/-- An array or an object. -/
def IsGroup (v : Value) : Prop := (∃ vs, v = .array vs) ∨ ∃ fs, v = .object fs

theorem Denotes.bracketed {n : Nat} {t : List Char} {v : Value} (h : Denotes n t v)
    (hv : IsGroup v) :
    ∃ a z u, t = a :: (u ++ [z]) ∧ Pair a z ∧ Skips u := by
  cases h with
  | emptyArray hb => exact ⟨'[', ']', _, rfl, pair_array, skips_blanks hb⟩
  | array hitems => exact ⟨'[', ']', _, rfl, pair_array, skips_of_items hitems⟩
  | emptyObject hb => exact ⟨'{', '}', _, rfl, pair_object, skips_blanks hb⟩
  | object hfields => exact ⟨'{', '}', _, rfl, pair_object, skips_of_fields hfields⟩
  | _ => rcases hv with ⟨_, hv⟩ | ⟨_, hv⟩ <;> cases hv

theorem Denotes.of_opens {n : Nat} {c : Char} {t : List Char} {v : Value}
    (h : Denotes n (c :: t) v) (hc : c = '{' ∨ c = '[') : IsGroup v := by
  have hword : ∀ d : Char, d ≠ '{' → d ≠ '[' → c ≠ d := by
    rintro d hobject harray rfl
    exact hc.elim hobject harray
  generalize ht : c :: t = u at h
  cases h with
  | nullWord => exact absurd (List.cons.inj ht).1 (hword 'n' (by decide) (by decide))
  | trueWord => exact absurd (List.cons.inj ht).1 (hword 't' (by decide) (by decide))
  | falseWord => exact absurd (List.cons.inj ht).1 (hword 'f' (by decide) (by decide))
  | number _ hm =>
    subst ht
    obtain ⟨m, hm, -⟩ := Option.bind_eq_some_iff.1 hm
    rcases hc with rfl | rfl <;> cases hm
  | string _ => exact absurd (List.cons.inj ht).1 (hword '"' (by decide) (by decide))
  | emptyArray _ => exact .inl ⟨_, rfl⟩
  | array _ => exact .inl ⟨_, rfl⟩
  | emptyObject _ => exact .inr ⟨_, rfl⟩
  | object _ => exact .inr ⟨_, rfl⟩

/-- A fragment is a value between brackets, without blanks around it. -/
theorem Fragment.denotes {p : List Char} {v : Value} (h : Fragment p v) :
    Denotes maxDepth p v ∧ IsGroup v := by
  obtain ⟨⟨c, t, hopen, hc⟩, ⟨t', c', hclose, hc'⟩, hparsed⟩ := h
  cases (parse_eq_ok_iff p v).1 hparsed with
  | @mk _ b u b' _ hb hv hb' =>
    have hleft : b = [] := by
      cases b with
      | nil => rfl
      | cons d b =>
        obtain ⟨rfl, -⟩ := List.cons.inj hopen
        have hblank := (blanks_cons.1 hb).1
        rcases hc with rfl | rfl <;> cases hblank
    have hright : b' = [] := by
      rcases List.eq_nil_or_concat b' with h | ⟨b', d, rfl⟩
      · exact h
      · rw [List.concat_eq_append, ← List.append_assoc, ← List.append_assoc] at hclose
        obtain ⟨-, hd⟩ := List.append_inj' hclose rfl
        obtain rfl : d = c' := by simpa using hd
        have hblank := hb' d (by simp)
        rcases hc' with rfl | rfl <;> cases hblank
    subst hleft hright
    rw [List.nil_append, List.append_nil] at hopen ⊢
    subst hopen
    exact ⟨hv, hv.of_opens hc⟩

/-- **The search stops at the end of a fragment**, whatever stands behind it. -/
theorem balancedLength?_of_fragment {p : List Char} {v : Value} (h : Fragment p v)
    (rest : List Char) : balancedLength? (p ++ rest) = some p.length := by
  obtain ⟨hv, hkind⟩ := h.denotes
  obtain ⟨a, z, u, rfl, hpair, hu⟩ := hv.bracketed hkind
  have hrun := length?_bracketed hpair hu [] rest
  rw [if_pos rfl] at hrun
  rw [List.cons_append, List.append_assoc, List.singleton_append, List.length_cons,
    List.length_append, List.length_singleton]
  exact hrun

/-- Where the search stops there is a closing bracket. -/
theorem closes_of_length? {s : Balance} {cs : List Char} {n : Nat} (h : s.length? cs = some n) :
    ∃ t c rest, cs = t ++ c :: rest ∧ t.length + 1 = n ∧ (c = '}' ∨ c = ']') := by
  induction cs generalizing s n with
  | nil => cases h
  | cons c cs ih =>
    have hmore : ∀ {s : Balance}, (s.length? cs).map (· + 1) = some n →
        ∃ t d rest, c :: cs = t ++ d :: rest ∧ t.length + 1 = n ∧ (d = '}' ∨ d = ']') := by
      intro s h
      obtain ⟨m, hm, rfl⟩ := Option.map_eq_some_iff.1 h
      obtain ⟨t, d, rest, rfl, rfl, hd⟩ := ih hm
      exact ⟨c :: t, d, rest, rfl, rfl, hd⟩
    have hclose : ∀ due d : List Char, ∀ z, (if z ≠ c then none
        else if due.isEmpty then some 1
        else (Balance.length? { s with due } cs).map (· + 1)) = some n → (c = '}' ∨ c = ']') →
        ∃ t d rest, c :: cs = t ++ d :: rest ∧ t.length + 1 = n ∧ (d = '}' ∨ d = ']') := by
      intro due d z h hc
      split at h
      · cases h
      · split at h
        · cases h
          exact ⟨[], c, cs, rfl, rfl, hc⟩
        · exact hmore h
    unfold Balance.length? at h
    split at h
    · exact hmore h
    · split at h
      · exact hmore h
      · exact hmore h
      · exact hmore h
      · split at h
        · cases h
        · exact hclose _ [] _ h (.inl rfl)
      · split at h
        · cases h
        · exact hclose _ [] _ h (.inr rfl)
      · exact hmore h

/-- What is found at a place is the fragment that begins there. -/
theorem fragmentAt?_eq_some_iff {c : Char} {cs : List Char} (hc : c = '{' ∨ c = '[') {v : Value}
    {n : Nat} : fragmentAt? (c :: cs) = some (v, n) ↔
      ∃ p rest, c :: cs = p ++ rest ∧ p.length = n ∧ Fragment p v := by
  constructor
  · intro h
    unfold fragmentAt? at h
    split at h
    · cases h
    · next m hm =>
      obtain ⟨w, hw, heq⟩ := Option.map_eq_some_iff.1 h
      cases heq
      have hparsed : parse ((c :: cs).take n) = .ok v := by
        cases hp : parse ((c :: cs).take n) with
        | error e =>
          rw [hp] at hw
          cases hw
        | ok u =>
          rw [hp] at hw
          exact congrArg _ (Option.some.inj hw)
      obtain ⟨t, d, rest, hcs, rfl, hd⟩ := closes_of_length? hm
      have htake : (c :: cs).take (t.length + 1) = t ++ [d] := by
        rw [hcs, List.take_append, List.take_of_length_le (Nat.le_succ _)]
        simp
      rw [htake] at hparsed
      refine ⟨t ++ [d], rest, by simpa using hcs, by simp, ⟨?_, ⟨t, d, rfl, hd⟩, hparsed⟩⟩
      cases t with
      | nil => exact ⟨d, [], rfl, by obtain ⟨rfl, -⟩ := List.cons.inj hcs; exact hc⟩
      | cons e t => exact ⟨e, t ++ [d], rfl, by obtain ⟨rfl, -⟩ := List.cons.inj hcs; exact hc⟩
  · rintro ⟨p, rest, hcs, rfl, hp⟩
    rw [hcs, fragmentAt?, balancedLength?_of_fragment hp]
    dsimp only
    rw [List.take_left, hp.parsed]
    rfl

theorem Fragment.unique {p q cs : List Char} {v w : Value} (hp : Fragment p v)
    (hq : Fragment q w) (hpre : p <+: cs) (hpre' : q <+: cs) : p = q ∧ v = w := by
  obtain ⟨rest, rfl⟩ := hpre
  obtain ⟨rest', h⟩ := hpre'
  have hlength : q.length = p.length := by
    have hbalance := balancedLength?_of_fragment hp rest
    rw [← h, balancedLength?_of_fragment hq rest'] at hbalance
    exact Option.some.inj hbalance
  obtain ⟨rfl, -⟩ := List.append_inj h hlength
  have hparsed := hp.parsed
  rw [hq.parsed] at hparsed
  exact ⟨rfl, (Except.ok.inj hparsed).symm⟩

/-! ## Scans -/

theorem fragmentsAfter_drop (n : Nat) (cs : List Char) :
    fragmentsAfter n cs = fragmentsAfter 0 (cs.drop n) := by
  induction cs generalizing n with
  | nil => simp [fragmentsAfter]
  | cons c cs ih =>
    cases n with
    | zero => rfl
    | succ n =>
      rw [List.drop_succ_cons, ← ih n]
      rfl

theorem fragmentsAfter_found {p : List Char} {v : Value} (h : Fragment p v) (rest : List Char) :
    fragmentsAfter 0 (p ++ rest) = v :: fragmentsAfter 0 rest := by
  obtain ⟨c, t, rfl, hc⟩ := h.opens
  have hat : fragmentAt? (c :: (t ++ rest)) = some (v, t.length + 1) :=
    (fragmentAt?_eq_some_iff hc).2 ⟨c :: t, rest, rfl, rfl, h⟩
  rw [List.cons_append, fragmentsAfter, if_pos hc, hat]
  dsimp only
  rw [Nat.add_sub_cancel, fragmentsAfter_drop, List.drop_left]

theorem fragmentsAfter_skip {c : Char} {cs : List Char}
    (h : ∀ p v, p <+: c :: cs → ¬Fragment p v) :
    fragmentsAfter 0 (c :: cs) = fragmentsAfter 0 cs := by
  rw [fragmentsAfter]
  split
  · next hc =>
    split
    · next v n hat =>
      obtain ⟨p, rest, hcs, -, hp⟩ := (fragmentAt?_eq_some_iff hc).1 hat
      exact absurd hp (h p v ⟨rest, hcs.symm⟩)
    · rfl
  · rfl

/-- **The fragments of a text are what the scan finds.** -/
theorem scan_iff {cs : List Char} {vs : List Value} : Scan cs vs ↔ vs = fragmentsAfter 0 cs := by
  constructor
  · intro h
    induction h with
    | nil => rfl
    | found hp _ ih => rw [fragmentsAfter_found hp, ih]
    | skip hnone _ ih => rw [fragmentsAfter_skip hnone, ih]
  · rintro rfl
    induction hn : cs.length using Nat.strongRecOn generalizing cs with
    | ind n ih =>
      subst hn
      cases cs with
      | nil => exact .nil
      | cons c cs =>
        by_cases hsome : ∃ p v, p <+: c :: cs ∧ Fragment p v
        · obtain ⟨p, v, ⟨rest, hcs⟩, hp⟩ := hsome
          have hshorter : rest.length < (c :: cs).length := by
            obtain ⟨d, t, rfl, -⟩ := hp.opens
            rw [← hcs, List.length_append, List.length_cons]
            omega
          rw [← hcs, fragmentsAfter_found hp]
          exact .found hp (ih _ hshorter rfl)
        · have hnone : ∀ p v, p <+: c :: cs → ¬Fragment p v :=
            fun p v hpre hp => hsome ⟨p, v, hpre, hp⟩
          rw [fragmentsAfter_skip hnone]
          exact .skip hnone (ih _ (Nat.lt_succ_self _) rfl)

/-- Where no bracket opens there is no fragment. -/
theorem fragmentsAfter_unopened {b : List Char} (h : ∀ c ∈ b, c ≠ '{' ∧ c ≠ '[')
    (rest : List Char) : fragmentsAfter 0 (b ++ rest) = fragmentsAfter 0 rest := by
  induction b with
  | nil => rfl
  | cons c b ih =>
    obtain ⟨hobject, harray⟩ := h c (by simp)
    rw [List.cons_append, fragmentsAfter, if_neg (by simp [hobject, harray])]
    exact ih fun d hd => h d (by simp [hd])

/-! ## Texts that are one value as a whole -/

theorem exists_trim (cs : List Char) : ∃ b b', cs = b ++ (Text.trim cs ++ b') ∧
    (∀ c ∈ b, Text.isBlank c = true) ∧ ∀ c ∈ b', Text.isBlank c = true := by
  have hback := List.takeWhile_append_dropWhile (p := Text.isBlank)
    (l := (cs.dropWhile Text.isBlank).reverse)
  have hmiddle : cs.dropWhile Text.isBlank = Text.trim cs ++
      ((cs.dropWhile Text.isBlank).reverse.takeWhile Text.isBlank).reverse := by
    rw [Text.trim, ← List.reverse_append, hback, List.reverse_reverse]
  refine ⟨cs.takeWhile Text.isBlank,
    ((cs.dropWhile Text.isBlank).reverse.takeWhile Text.isBlank).reverse, ?_, ?_, ?_⟩
  · rw [← hmiddle, List.takeWhile_append_dropWhile]
  · exact fun c hc => List.all_eq_true.1 List.all_takeWhile c hc
  · exact fun c hc => List.all_eq_true.1 List.all_takeWhile c (List.mem_reverse.1 hc)

/-- A text that is an array or an object, with blanks around it, has this one fragment. -/
theorem fragments_of_parse {text : String} {v : Value} (hv : IsGroup v)
    (h : parse (Text.trim text.toList) = .ok v) : fragments text = [v] := by
  have hblank : ∀ b : List Char, (∀ c ∈ b, Text.isBlank c = true) → ∀ c ∈ b, c ≠ '{' ∧ c ≠ '[' := by
    intro b hb c hc
    have := hb c hc
    constructor <;> rintro rfl <;> cases this
  have hspace : ∀ b : List Char, Blanks b → ∀ c ∈ b, c ≠ '{' ∧ c ≠ '[' := by
    intro b hb c hc
    have := hb c hc
    constructor <;> rintro rfl <;> cases this
  obtain ⟨b, b', htext, hb, hb'⟩ := exists_trim text.toList
  rw [fragments, htext]
  generalize Text.trim text.toList = middle at h
  cases (parse_eq_ok_iff middle v).1 h with
  | @mk _ s t s' _ hs ht hs' =>
    obtain ⟨a, z, u, rfl, hpair, -⟩ := ht.bracketed hv
    have hfragment : Fragment (a :: (u ++ [z])) v := by
      refine ⟨⟨a, _, rfl, ?_⟩, ⟨a :: u, z, by simp, ?_⟩, ?_⟩
      · rcases hpair with ⟨rfl, -⟩ | ⟨rfl, -⟩
        · exact .inr rfl
        · exact .inl rfl
      · rcases hpair with ⟨-, rfl⟩ | ⟨-, rfl⟩
        · exact .inr rfl
        · exact .inl rfl
      · exact (parse_eq_ok_iff _ v).2 (by simpa using Padded.mk blanks_nil ht blanks_nil)
    have hend : fragmentsAfter 0 (s' ++ b') = [] := by
      rw [fragmentsAfter_unopened (hspace s' hs'), ← List.append_nil b',
        fragmentsAfter_unopened (hblank b' hb')]
      rfl
    rw [fragmentsAfter_unopened (hblank b hb), List.append_assoc,
      fragmentsAfter_unopened (hspace s hs), List.append_assoc, fragmentsAfter_found hfragment, hend]

/-- Where `parseJSON` reads an array or an object, `extractJson` finds it and nothing else. -/
theorem extractJson_of_parseJson {d : Dispatcher} {op : Op} {context : Handle} {env : Environment}
    {w w' : World} {v : Value} (hv : IsGroup v)
    (h : (Executor.parseJson d op context).run env w = (.ended (.ok v), w')) :
    (Executor.extractJson d op context).run env w = (.ended (.ok (.array [v])), w') := by
  unfold Executor.parseJson Executor.reading at h
  unfold Executor.extractJson Executor.reading
  simp only [bind, Flow.bind, Flow.view, Flow.perform, Flow.run, World.perform] at h ⊢
  cases hinput : Executor.inputText op (w.contexts.view context) with
  | error e =>
    rw [hinput] at h
    cases congrArg Prod.fst h
  | ok text =>
    rw [hinput] at h
    simp only [Except.bind] at h ⊢
    cases hparse : parse (Text.trim text.toList) with
    | error e =>
      rw [hparse] at h
      cases congrArg Prod.fst h
    | ok u =>
      rw [hparse] at h
      cases h
      rw [fragments_of_parse hv hparse]
      rfl

/-- **The fragments of a text are what the scan finds.** There is one fragment at most at a place;
where `parseJSON` reads an array or an object, `extractJson` finds it and nothing else; and JSON is
what the grammar says. -/
theorem fragments_follow_scan (text : String) :
    (∀ vs, Scan text.toList vs ↔ vs = fragments text) ∧
    (∀ cs p q v w, Fragment p v → Fragment q w → p <+: cs → q <+: cs → p = q ∧ v = w) ∧
    (∀ v, IsGroup v → parse (Text.trim text.toList) = .ok v → fragments text = [v]) ∧
    (∀ d op context env w w' v, IsGroup v →
      (Executor.parseJson d op context).run env w = (.ended (.ok v), w') →
      (Executor.extractJson d op context).run env w = (.ended (.ok (.array [v])), w')) ∧
    ∀ p v, parse p = .ok v ↔ Padded maxDepth p v :=
  ⟨fun _ => scan_iff, fun _ _ _ _ _ hp hq hpre hpre' => hp.unique hq hpre hpre',
    fun _ hv h => fragments_of_parse hv h, fun _ _ _ _ _ _ _ hv h => extractJson_of_parseJson hv h,
    parse_eq_ok_iff⟩

/-- In this text a bracket is quoted, an object does not close, and the array inside it is read. -/
theorem fragments_follow_scan_of_unclosed :
    Scan "\"[\": \x7b \"a\": ]\", [true, \x7b \"b\": \"]\\\"\" \x7d] \x7d".toList
      [.array [.bool true, .object [("b", .string "]\"")]]] ∧
    IsGroup (.array [.null]) ∧ parse (Text.trim " [null]\n".toList) = .ok (.array [.null]) ∧
    fragments " [null]\n" = [.array [.null]] :=
  ⟨((fragments_follow_scan _).1 _).2 (by decide +kernel), .inl ⟨_, rfl⟩, rfl,
    (fragments_follow_scan _).2.2.1 _ (.inl ⟨_, rfl⟩) rfl⟩

end WorkflowEngine.Json
